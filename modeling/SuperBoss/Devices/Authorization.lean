import SuperBoss.Devices.Credentials

/-!
Which bearer strings `authenticate_access_token` accepts, and that the tokens of
`pair` and `refresh` are among them for as long as they should be.
-/

namespace SuperBoss.Devices

open SuperBoss.Core
open SuperBoss.Library
open SuperBoss.Library.Transactions
open SuperBoss.Library.Transition
open SuperBoss.Auth

/-! ### A request that nothing interrupts -/

/-- The statements of a request one after the other, with the same answers. -/
def execute (C : Context) (a : Answer) : Nat → Db → Request → Db × Stage
  | 0, db, r => (db, r.stage)
  | n + 1, db, r =>
      match r.step C a db with
      | none => (db, r.stage)
      | some (stage, e) => execute C a n (e.db db) { r with stage }

theorem execute_of_step {C : Context} {a : Answer} {n : Nat} {db : Db} {call : Call}
    {stage stage' : Stage} {e : Effect Db}
    (h : Request.step C a db ⟨call, stage⟩ = some (stage', e)) :
    execute C a (n + 1) db ⟨call, stage⟩ = execute C a n (e.db db) ⟨call, stage'⟩ := by
  simp only [execute, h]

theorem execute_of_none {C : Context} {a : Answer} {n : Nat} {db : Db} {r : Request}
    (h : r.step C a db = none) : execute C a n db r = (db, r.stage) := by
  cases n with
  | zero => rfl
  | succ n => simp only [execute, h]

/-- `authenticate_access_token`. -/
def authenticateAccessToken (C : Context) (a : Answer) (db : Db) (raw : Text) : Db × Stage :=
  execute C a 7 db ⟨.authenticate raw, .start⟩

/-- It is a run of the program in which nobody else takes a step. -/
theorem execute_run (C : Context) (a : Answer) (n : Nat) (db : Db) (r : Request)
    (locks : List (Lock Row)) : ∃ m s, run (next C) ⟨db, [⟨r, locks⟩]⟩
      (List.replicate m (.act 0 a)) = some s ∧ s.db = (execute C a n db r).1 ∧
        s.clients.map (·.pc) = [{ r with stage := (execute C a n db r).2 }] := by
  induction n generalizing db r locks with
  | zero => exact ⟨0, _, rfl, rfl, rfl⟩
  | succ n ih =>
      cases hstep : r.step C a db with
      | none =>
          refine ⟨0, _, rfl, ?_, ?_⟩
          · simp only [execute, hstep]
          · simp only [execute, hstep, List.map_cons, List.map_nil]
      | some next' =>
          obtain ⟨stage, e⟩ := next'
          obtain ⟨m, s, hrun, hdb, hclients⟩ :=
            ih (e.db db) { r with stage } (e.locks (locks ++ r.needs))
          have hnext : next C ⟨db, [⟨r, locks⟩]⟩ (.act 0 a) =
              some ⟨e.db db, [⟨{ r with stage }, e.locks (locks ++ r.needs)⟩]⟩ := by
            have hfree : (program C).Free [(⟨r, locks⟩ : Client Request Row)] 0 r := by
              intro c hc
              cases hc
            simp only [next, Program.apply, List.getElem?_cons_zero, if_pos hfree]
            simp [program, hstep]
          refine ⟨m + 1, s, ?_, ?_, ?_⟩
          · rw [List.replicate_succ, run_cons_of hnext]
            exact hrun
          · simp only [execute, hstep]
            exact hdb
          · simp only [execute, hstep]
            exact hclients

/-! ### What should be accepted -/

def ActiveOwner (db : Db) (id : UUID) : Prop :=
  ∃ u, db.users.get? id = some u ∧ u.role = .owner ∧ u.status = .active

/-- The session row that a device token was issued for. -/
structure SessionOf (claims : DeviceClaims) (x : AuthSession) : Prop where
  kind : x.kind = .device
  deviceId : x.deviceId = some claims.deviceId
  accessJti : x.accessJti = claims.jti.text
  createdAt : x.createdAt = Instant.seconds claims.iat
  accessExpiresAt : x.accessExpiresAt = Instant.seconds claims.exp

/-- The string is a device token for a session that may be used now on device
`row`: the session it was issued for is unrevoked, and so is the device, whose
owner is an active OWNER. -/
structure Authorized (C : Context) (db : Db) (now : Instant) (raw : Text) (claims : DeviceClaims)
    (row : DeviceConnection) : Prop where
  signed : decodeDeviceAccessToken C.jwt C.platform C.settings raw = some claims
  session : ∃ x, db.sessions.get? claims.sessionId = some x ∧ SessionOf claims x ∧
    x.revokedAt = none
  device : db.devices.get? claims.deviceId = some row
  owned : row.ownerId = claims.ownerId
  unrevoked : row.revokedAt = none
  owner : ActiveOwner db claims.ownerId
  window : Instant.seconds claims.iat ≤ now ∧ now < Instant.seconds claims.exp

/-- The actor of a device: its granted projects that are active, and its granted
scopes among those of device tokens. -/
structure ActorOf (db : Db) (device : DeviceConnection) (actor : Actor) : Prop where
  kind : actor.kind = .device
  subject : actor.subjectId = device.id
  role : actor.role = none
  projects : ∀ id, id ∈ actor.projectIds ↔ id ∈ device.projectIds ∧
    ∃ p, db.projects.get? id = some p ∧ p.status = .active
  scopes : ∀ scope, scope ∈ actor.scopes ↔ scope ∈ device.scopes ∧ scope ∈ deviceAccessScopes

/-- The exact authorization of a bearer string. -/
structure Exact (C : Context) (a : Answer) (db : Db) (raw : Text) : Prop where
  accepted : ∀ claims device, Authorized C db a.now raw claims device → ∃ db' actor,
    authenticateAccessToken C a db raw = (db', .done (.actor actor)) ∧ ActorOf db device actor
  rejected : (∀ claims device, ¬Authorized C db a.now raw claims device) →
    authenticateAccessToken C a db raw = (db, .failed .invalidCredential)

/-- A signed device token whose issue time has no calendar date in the C library. -/
def Unconvertible (C : Context) (raw : Text) : Prop :=
  ∃ claims, decodeDeviceAccessToken C.jwt C.platform C.settings raw = some claims ∧
    fromTimestamp claims.iat = .error .overflow

/-- The clock is not behind the pairing of the device that the token names. -/
def SincePairing (C : Context) (db : Db) (now : Instant) (raw : Text) : Prop :=
  ∀ claims d, decodeDeviceAccessToken C.jwt C.platform C.settings raw = some claims →
    db.devices.get? claims.deviceId = some d → d.pairedAt ≤ now

/-- Every session was issued at a date that there is, for a time until such a date. -/
def Dated (db : Db) : Prop :=
  ∀ {i x}, db.sessions.get? i = some x → Instant.min ≤ x.createdAt ∧ x.accessExpiresAt ≤ Instant.max

/-! ### The conversion of the claims -/

section conversion

theorem fromTimestamp_of_datetime {n : Int} (hmin : Instant.min ≤ Instant.seconds n)
    (hmax : Instant.seconds n ≤ Instant.max) : fromTimestamp n = .ok (Instant.seconds n) :=
  if_pos ⟨hmin, hmax⟩

theorem seconds_of_fromTimestamp {n : Int} {t : Instant} (h : fromTimestamp n = .ok t) :
    t = Instant.seconds n := by
  unfold fromTimestamp at h
  split at h
  · cases h
    rfl
  · split at h <;> cases h

theorem fromTimestamp_ne_overflow {n : Int} (hmin : -67768040609740800 ≤ n)
    (hmax : n ≤ 67768036191676799) : fromTimestamp n ≠ .error .overflow := by
  unfold fromTimestamp
  rw [if_pos (⟨hmin, hmax⟩ : _ ∧ _)]
  split <;> intro h <;> cases h

/-- Two hours after a date that there is, the C library still has calendar dates. -/
theorem no_overflow {n : Int} {t : Instant} (h : fromTimestamp n = .ok t) :
    fromTimestamp (n + 2 * 60 * 60) ≠ .error .overflow := by
  unfold fromTimestamp at h
  split at h
  · rename_i hdate
    have hmin : -62135596800 * 1000000 ≤ n * 1000000 := hdate.1
    have hmax : n * 1000000 ≤ 253402300800 * 1000000 - 1 := hdate.2
    apply fromTimestamp_ne_overflow <;> omega
  · split at h <;> cases h

variable {C : Context} {raw : Text} {claims : DeviceClaims}

theorem bearerClaims_of_convertible
    (h : decodeDeviceAccessToken C.jwt C.platform C.settings raw = some claims)
    (hiat : fromTimestamp claims.iat ≠ .error .overflow) :
    bearerClaims C raw = .error .invalidCredential ∨
      bearerClaims C raw = .ok ⟨claims.deviceId, claims.ownerId, claims.sessionId, claims.jti,
        Instant.seconds claims.iat, Instant.seconds claims.exp⟩ := by
  have hexp := exp_of_decode h
  cases hi : fromTimestamp claims.iat with
  | error e =>
      left
      cases e with
      | validation => simp only [bearerClaims, h, hi]
      | overflow => exact absurd hi hiat
  | ok issuedAt =>
      cases he : fromTimestamp claims.exp with
      | error e =>
          left
          cases e with
          | validation => simp only [bearerClaims, h, hi, he]
          | overflow =>
              rw [hexp] at he
              exact absurd he (no_overflow hi)
      | ok expiresAt =>
          right
          rw [← seconds_of_fromTimestamp hi, ← seconds_of_fromTimestamp he]
          simp only [bearerClaims, h, hi, he]

theorem bearerClaims_of_overflow
    (h : decodeDeviceAccessToken C.jwt C.platform C.settings raw = some claims)
    (hiat : fromTimestamp claims.iat = .error .overflow) :
    bearerClaims C raw = .error .unexpected := by
  simp only [bearerClaims, h, hiat]

theorem bearerClaims_of_datetime
    (h : decodeDeviceAccessToken C.jwt C.platform C.settings raw = some claims)
    (hmin : Instant.min ≤ Instant.seconds claims.iat)
    (hmax : Instant.seconds claims.exp ≤ Instant.max) :
    bearerClaims C raw = .ok ⟨claims.deviceId, claims.ownerId, claims.sessionId, claims.jti,
      Instant.seconds claims.iat, Instant.seconds claims.exp⟩ := by
  have hle : Instant.seconds claims.iat ≤ Instant.seconds claims.exp := by
    rw [exp_of_decode h]
    simp only [Instant.seconds, microsecondsPerSecond]
    omega
  have hi := fromTimestamp_of_datetime hmin (hle.trans hmax)
  have he := fromTimestamp_of_datetime (hmin.trans hle) hmax
  simp only [bearerClaims, h, hi, he]

theorem bearerClaims_of_none
    (h : decodeDeviceAccessToken C.jwt C.platform C.settings raw = none) :
    bearerClaims C raw = .error .invalidCredential := by
  simp only [bearerClaims, h]

end conversion

/-! ### The decision -/

section decision

variable {C : Context} {a : Answer} {db : Db} {raw : Text}

theorem step_ok {next : Next} (hok : a.fate = .ok) : statement a.fate next = next :=
  if_pos hok

theorem authenticate_of_error {failure : DeviceFailure} (h : bearerClaims C raw = .error failure) :
    authenticateAccessToken C a db raw = (db, .failed failure) := by
  have hstep : Request.step C a db ⟨.authenticate raw, .start⟩ = some (raise failure) := by
    simp only [Request.step, Request.startStep, h]
  exact (execute_of_step hstep).trans (execute_of_none rfl)

/-- The rows that the decision is made on. -/
theorem authenticate_rows {b : Bearer} (h : bearerClaims C raw = .ok b) (hok : a.fate = .ok) :
    authenticateAccessToken C a db raw = execute C a 4 db ⟨.authenticate raw,
      .bearerSession a.now b (db.users.get? b.ownerId) (db.devices.get? b.deviceId)⟩ := by
  have hstart : Request.step C a db ⟨.authenticate raw, .start⟩ =
      some (goto (.bearerOwner a.now b)) := by
    simp only [Request.step, Request.startStep, h]
  have howner : Request.step C a db ⟨.authenticate raw, .bearerOwner a.now b⟩ =
      some (goto (.bearerDevice a.now b (db.users.get? b.ownerId))) := by
    simp only [Request.step, step_ok hok]
  have hdevice : Request.step C a db
      ⟨.authenticate raw, .bearerDevice a.now b (db.users.get? b.ownerId)⟩ =
      some (goto (.bearerSession a.now b (db.users.get? b.ownerId)
        (db.devices.get? b.deviceId))) := by
    simp only [Request.step, step_ok hok]
  exact (execute_of_step hstart).trans ((execute_of_step howner).trans (execute_of_step hdevice))

theorem authenticate_of_reject {b : Bearer} (h : bearerClaims C raw = .ok b) (hok : a.fate = .ok)
    (hreject : ∀ d, db.devices.get? b.deviceId = some d → bearerAccepted b
      (db.users.get? b.ownerId) (some d) (db.sessions.get? b.sessionId) a.now = false) :
    authenticateAccessToken C a db raw = (db, .failed .invalidCredential) := by
  have hstep : Request.step C a db ⟨.authenticate raw, .bearerSession a.now b
      (db.users.get? b.ownerId) (db.devices.get? b.deviceId)⟩ = some (raise .invalidCredential) := by
    simp only [Request.step, step_ok hok]
    cases hd : db.devices.get? b.deviceId with
    | none => rfl
    | some d => simp only [hreject d hd, Bool.false_eq_true, if_false]
  rw [authenticate_rows h hok]
  exact (execute_of_step hstep).trans (execute_of_none rfl)

theorem authenticate_of_accept {b : Bearer} {d : DeviceConnection}
    (h : bearerClaims C raw = .ok b) (hok : a.fate = .ok)
    (hd : db.devices.get? b.deviceId = some d)
    (haccept : bearerAccepted b (db.users.get? b.ownerId) (some d) (db.sessions.get? b.sessionId)
      a.now = true) (hpaired : d.pairedAt ≤ a.now) :
    ∃ db' actor, authenticateAccessToken C a db raw = (db', .done (.actor actor)) ∧
      ActorOf db d actor := by
  have hsession : Request.step C a db ⟨.authenticate raw, .bearerSession a.now b
      (db.users.get? b.ownerId) (db.devices.get? b.deviceId)⟩ =
      some (goto (.bearerProjects a.now d)) := by
    simp only [Request.step, step_ok hok, hd, haccept, if_true]
  have hprojects : Request.step C a db ⟨.authenticate raw, .bearerProjects a.now d⟩ =
      some (goto (.bearerScopes a.now d (d.projectIds.filter fun id =>
        (db.projects.get? id).any fun p => decide (p.status = .active)))) := by
    simp only [Request.step, step_ok hok]
  generalize hids : (d.projectIds.filter fun id =>
    (db.projects.get? id).any fun p => decide (p.status = .active)) = ids at hprojects
  generalize hactor : (⟨.device, d.id, none, ids,
    d.scopes.filter fun scope => deviceAccessScopes.contains scope⟩ : Actor) = actor
  generalize htouched : (if d.lastUsedAt.all fun t => decide (t < a.now) then some a.now
    else none) = touched
  have hscopes : Request.step C a db ⟨.authenticate raw, .bearerScopes a.now d ids⟩ =
      some (goto (.commit (.authenticate d.id touched) (.actor actor))) := by
    simp only [Request.step, step_ok hok, hactor, htouched]
  have hwrite : ∃ db', db.write? (.authenticate d.id touched) = some db' := by
    cases touched with
    | none => exact ⟨db, rfl⟩
    | some t =>
        obtain rfl : a.now = t := by
          split at htouched
          · exact Option.some.inj htouched
          · cases htouched
        have hrow := hd
        rw [← Table.key_of_get? hd] at hrow
        simp only [Db.write?, hrow, Option.all_some, decide_eq_true hpaired, if_true]
        exact ⟨_, rfl⟩
  obtain ⟨db', hwrite⟩ := hwrite
  have hcommit : Request.step C a db ⟨.authenticate raw,
      .commit (.authenticate d.id touched) (.actor actor)⟩ =
      some (.done (.actor actor), .commit db') := by
    simp only [Request.step, hwrite, hok]
  refine ⟨db', actor, ?_, ?_⟩
  · rw [authenticate_rows h hok]
    exact (execute_of_step hsession).trans ((execute_of_step hprojects).trans
      ((execute_of_step hscopes).trans (execute_of_step hcommit)))
  · rw [← hactor, ← hids]
    refine ⟨rfl, rfl, rfl, fun id => ?_, fun scope => ?_⟩
    · simp only [List.mem_filter, Option.any_eq_true, decide_eq_true_eq]
    · simp only [List.mem_filter, List.contains_iff_mem]

/-- What is checked is what should be. -/
theorem authorized_iff {claims : DeviceClaims} {d : DeviceConnection} {now : Instant}
    (hsigned : decodeDeviceAccessToken C.jwt C.platform C.settings raw = some claims)
    (hd : db.devices.get? claims.deviceId = some d) :
    bearerAccepted ⟨claims.deviceId, claims.ownerId, claims.sessionId, claims.jti,
        Instant.seconds claims.iat, Instant.seconds claims.exp⟩ (db.users.get? claims.ownerId)
        (some d) (db.sessions.get? claims.sessionId) now = true ↔
      Authorized C db now raw claims d := by
  simp only [bearerAccepted, activeOwner, Option.any_some, Bool.and_eq_true, Option.any_eq_true,
    beq_iff_eq, decide_eq_true_eq]
  constructor
  · rintro ⟨⟨⟨⟨howner, hown, hunrevoked⟩, x, hx, ⟨⟨⟨⟨⟨hkind, hdevice⟩, hjti⟩, hlive⟩, hcreated⟩,
      hexpires⟩, -⟩, hissued⟩, hnow⟩
    exact ⟨hsigned, ⟨x, hx, ⟨hkind, hdevice, hjti, hcreated, hexpires⟩, hlive⟩, hd, hown,
      hunrevoked, howner, hissued, hnow⟩
  · rintro ⟨-, ⟨x, hx, hsession, hlive⟩, -, hown, hunrevoked, howner, hissued, hnow⟩
    refine ⟨⟨⟨⟨howner, hown, hunrevoked⟩, x, hx, ⟨⟨⟨⟨⟨hsession.kind, hsession.deviceId⟩,
      hsession.accessJti⟩, hlive⟩, hsession.createdAt⟩, hsession.accessExpiresAt⟩, ?_⟩,
      hissued⟩, hnow⟩
    rw [hsession.accessExpiresAt]
    exact hnow

theorem exact_of_convertible (hdated : Dated db) (hok : a.fate = .ok)
    (hsince : SincePairing C db a.now raw) (h : ¬Unconvertible C raw) : Exact C a db raw where
  accepted claims d hauth := by
    obtain ⟨x, hx, hsession, -⟩ := hauth.session
    obtain ⟨hmin, hmax⟩ := hdated hx
    rw [hsession.createdAt] at hmin
    rw [hsession.accessExpiresAt] at hmax
    exact authenticate_of_accept (bearerClaims_of_datetime hauth.signed hmin hmax) hok hauth.device
      ((authorized_iff hauth.signed hauth.device).mpr hauth) (hsince claims d hauth.signed hauth.device)
  rejected hnone := by
    cases hsigned : decodeDeviceAccessToken C.jwt C.platform C.settings raw with
    | none => exact authenticate_of_error (bearerClaims_of_none hsigned)
    | some claims =>
        rcases bearerClaims_of_convertible hsigned fun hover => h ⟨claims, hsigned, hover⟩ with
          hinvalid | hb
        · exact authenticate_of_error hinvalid
        · refine authenticate_of_reject hb hok fun d hd => ?_
          rw [Bool.eq_false_iff]
          exact fun haccept => hnone claims d ((authorized_iff hsigned hd).mp haccept)

theorem not_exact_of_unconvertible (h : Unconvertible C raw) : ¬Exact C a db raw := by
  intro hexact
  obtain ⟨claims, hsigned, hover⟩ := h
  have hresult : authenticateAccessToken C a db raw = (db, .failed .unexpected) :=
    authenticate_of_error (bearerClaims_of_overflow hsigned hover)
  by_cases hauth : ∃ claims d, Authorized C db a.now raw claims d
  · obtain ⟨claims', d, hauth⟩ := hauth
    obtain ⟨db', actor, haccepted, -⟩ := hexact.accepted claims' d hauth
    cases hresult.symm.trans haccepted
  · have hrejected := hexact.rejected fun claims' d hd => hauth ⟨claims', d, hd⟩
    cases hresult.symm.trans hrejected

end decision

/-! ### The sessions of every run -/

/-- A pair of tokens whose session and device are stored. -/
structure Stored (C : Context) (db : Db) (pair : DeviceTokenPair) (claims : DeviceClaims)
    (x : AuthSession) (d : DeviceConnection) : Prop where
  signed : decodeDeviceAccessToken C.jwt C.platform C.settings pair.accessToken = some claims
  session : db.sessions.get? claims.sessionId = some x
  matching : SessionOf claims x
  device : db.devices.get? claims.deviceId = some d
  named : claims.deviceId = pair.deviceId
  owned : d.ownerId = claims.ownerId
  expires : pair.expiresAt = Instant.seconds claims.exp

/-- The session that is about to be stored with a pair of tokens. -/
structure Minted (C : Context) (pair : DeviceTokenPair) (x : AuthSession) (d : DeviceConnection) :
    Prop where
  device : pair.deviceId = d.id
  dated : Instant.min ≤ x.createdAt ∧ x.accessExpiresAt ≤ Instant.max
  issued : ∃ claims, decodeDeviceAccessToken C.jwt C.platform C.settings pair.accessToken =
      some claims ∧ claims.sessionId = x.id ∧ claims.deviceId = d.id ∧ claims.ownerId = d.ownerId ∧
    SessionOf claims x ∧ pair.expiresAt = Instant.seconds claims.exp

section sessions

variable {C : Context} {a : Answer} {db db' : Db} {w : Work} {pair : DeviceTokenPair}
  {x : AuthSession} {d : DeviceConnection} {now : Instant}

theorem minted_of_newSession (hnow : Instant.min ≤ now)
    (h : newSession C d.id d.ownerId now a = some (x, pair)) : Minted C pair x d := by
  obtain ⟨⟨token, expiresAt⟩, hissue, h⟩ := Option.bind_eq_some_iff.mp h
  simp only at h
  split at h
  · cases h
  · obtain ⟨hash, -, h⟩ := Option.bind_eq_some_iff.mp h
    cases h
    have hdecode := decode_issueDeviceAccessToken (P := C.platform) hissue
    unfold issueDeviceAccessToken at hissue
    simp only at hissue
    split at hissue
    · cases hissue
    · rename_i hguard
      cases hissue
      have hcreated : Instant.seconds (now.wholeSeconds).timestamp = now.wholeSeconds :=
        Instant.seconds_timestamp (Instant.wholeSeconds_seconds _)
      have hexpires : Instant.seconds (now.wholeSeconds + Instant.hours 2).timestamp =
          now.wholeSeconds + Instant.hours 2 :=
        Instant.wholeSeconds_add_hours (Instant.wholeSeconds_seconds _) 2
      exact ⟨rfl, ⟨Instant.min_le_wholeSeconds hnow, not_lt.mp (not_or.mp hguard).2⟩, _, hdecode, rfl, rfl,
        rfl, ⟨rfl, rfl, rfl, hcreated.symm, hexpires.symm⟩, hexpires.symm⟩

theorem inserted_of_write (h : db.write? w = some db') {y : AuthSession}
    (hy : w.newSession = some y) : db'.sessions.get? y.id = some y := by
  cases w with
  | nothing | createPairingCode | authenticate | revoke => cases hy
  | pair id now device session =>
      cases hy
      simp only [Db.write?] at h
      split at h
      · obtain ⟨devices, -, h⟩ := Option.bind_eq_some_iff.mp h
        obtain ⟨sessions, hinsert, h⟩ := Option.bind_eq_some_iff.mp h
        cases h
        exact (Table.get?_insert? hinsert _).trans (if_pos rfl)
      · cases h
  | refresh current now session =>
      cases hy
      obtain ⟨sessions, hinsert, rfl⟩ := Option.map_eq_some_iff.mp h
      exact (Table.get?_insert? hinsert _).trans (if_pos rfl)

theorem SessionOf.revises {claims : DeviceClaims} {y : AuthSession} {touched : Prop}
    (h : SessionOf claims x) (hrev : Revises touched x y) : SessionOf claims y := by
  rw [hrev.identity]
  exact ⟨h.kind, h.deviceId, h.accessJti, h.createdAt, h.accessExpiresAt⟩

/-- The tokens that a request has returned, or is about to. -/
def Tokens (C : Context) (db : Db) (pair : DeviceTokenPair) : Prop :=
  ∃ claims x d, Stored C db pair claims x d

/-- A device that was read, and whose row is still that of its owner. -/
def Known (db : Db) (d : DeviceConnection) : Prop :=
  ∃ e, db.devices.get? d.id = some e ∧ e.ownerId = d.ownerId

/-- What a commit is about to store with its tokens. -/
def Issues (C : Context) (db : Db) (reply : Reply) : Work → Prop
  | .pair _ _ device session => ∃ pair, reply = .tokens pair ∧ Minted C pair session device
  | .refresh _ _ session => ∃ pair d, reply = .tokens pair ∧ Known db d ∧ Minted C pair session d
  | .nothing | .createPairingCode _ | .authenticate _ _ | .revoke _ _ _ =>
      ∀ pair, reply ≠ .tokens pair

/-- What the stages know on the way to a pair of tokens. Their clock reads a `datetime`. -/
def Traced (C : Context) (db : Db) : Stage → Prop
  | .pairing now _ _ | .pairingOwner now _ _ | .projects now _ _ | .lockProjects now _ _ _ _
  | .owner now | .locator now _ | .refreshOwner now _ _ | .refreshDevice now _ _ =>
      Instant.min ≤ now
  | .refreshSession now _ _ device => Instant.min ≤ now ∧ ∀ d ∈ device, Known db d
  | .commit work reply => Issues C db reply work
  | .done (.tokens pair) => Tokens C db pair
  | _ => True

theorem Dated.written (hw : Written w db db') (h : Dated db)
    (hnew : ∀ y ∈ w.newSession, Instant.min ≤ y.createdAt ∧ y.accessExpiresAt ≤ Instant.max) :
    Dated db' := by
  intro i y hy
  cases hx : db.sessions.get? i with
  | none => exact hnew y (hw.newSession hy hx)
  | some x =>
      obtain ⟨y', hy', hrev⟩ := hw.session hx
      obtain rfl := Option.some.inj (hy.symm.trans hy')
      have hdated := h hx
      rw [hrev.identity]
      exact hdated

theorem Tokens.written (hw : Written w db db') (h : Tokens C db pair) : Tokens C db' pair := by
  obtain ⟨claims, x, d, h⟩ := h
  obtain ⟨y, hy, hrev⟩ := hw.session h.session
  obtain ⟨e, he, hkeeps⟩ := hw.device h.device
  refine ⟨claims, y, e, h.signed, hy, h.matching.revises hrev, he, h.named, ?_, h.expires⟩
  rw [hkeeps.identity]
  exact h.owned

theorem Known.written (hw : Written w db db') (h : Known db d) : Known db' d := by
  obtain ⟨e, he, howner⟩ := h
  obtain ⟨e', he', hkeeps⟩ := hw.device he
  refine ⟨e', he', ?_⟩
  rw [hkeeps.identity]
  exact howner

theorem Traced.written {stage : Stage} (hw : Written w db db') (h : Traced C db stage) :
    Traced C db' stage := by
  cases stage with
  | refreshSession now locator owner device => exact ⟨h.1, fun d hd => (h.2 d hd).written hw⟩
  | commit work reply =>
      cases work with
      | refresh current now session =>
          obtain ⟨pair, d, hreply, hknown, hminted⟩ := h
          exact ⟨pair, d, hreply, hknown.written hw, hminted⟩
      | nothing | createPairingCode | pair | authenticate | revoke => exact h
  | done reply =>
      cases reply with
      | tokens pair => exact Tokens.written hw h
      | code | actor | revoked => trivial
  | pairing | pairingOwner | projects | lockProjects | owner | locator | refreshOwner
  | refreshDevice => exact h
  | start | bearerOwner | bearerDevice | bearerSession | bearerProjects | bearerScopes | device
  | sessions | lockSessions | denied | failed | aborted => trivial

/-- The tokens of a commit are those of the session it stores. -/
theorem tokens_of_write {reply : Reply} (hwrite : db.write? w = some db')
    (hissues : Issues C db reply w) : Traced C db' (.done reply) := by
  have hw := Db.written hwrite
  cases w with
  | nothing | createPairingCode | authenticate | revoke =>
      cases reply with
      | tokens pair => exact absurd rfl (hissues pair)
      | code | actor | revoked => trivial
  | pair id now device session =>
      obtain ⟨pair, rfl, hminted⟩ := hissues
      obtain ⟨claims, hsigned, hsession, hdevice, howner, hmatch, hexpires⟩ := hminted.issued
      refine ⟨claims, session, device, hsigned, ?_, hmatch, ?_, ?_, howner.symm, hexpires⟩
      · rw [hsession]
        exact inserted_of_write hwrite rfl
      · rw [hdevice]
        exact (hw.created device rfl).2
      · rw [hdevice, hminted.device]
  | refresh current now session =>
      obtain ⟨pair, d, rfl, hknown, hminted⟩ := hissues
      obtain ⟨claims, hsigned, hsession, hdevice, howner, hmatch, hexpires⟩ := hminted.issued
      obtain ⟨e, he, hed⟩ := hknown.written hw
      refine ⟨claims, session, e, hsigned, ?_, hmatch, ?_, ?_, hed.trans howner.symm, hexpires⟩
      · rw [hsession]
        exact inserted_of_write hwrite rfl
      · rw [hdevice]
        exact he
      · rw [hdevice, hminted.device]

/-- The session that a commit stores is dated. -/
theorem dated_of_issues {reply : Reply} (h : Issues C db reply w) :
    ∀ y ∈ w.newSession, Instant.min ≤ y.createdAt ∧ y.accessExpiresAt ≤ Instant.max := by
  intro y hy
  cases w with
  | nothing | createPairingCode | authenticate | revoke => cases hy
  | pair id now device session =>
      obtain ⟨pair, -, hminted⟩ := h
      cases hy
      exact hminted.dated
  | refresh current now session =>
      obtain ⟨pair, d, -, -, hminted⟩ := h
      cases hy
      exact hminted.dated

end sessions

/-! ### What a statement leads to -/

section statements

variable {C : Context} {a : Answer} {db : Db} {n : Next}

theorem traced_statement {fate : Files.Fate} (h : Traced C db n.1) :
    Traced C db (statement fate n).1 := by
  unfold statement
  split
  · exact h
  · trivial

theorem traced_start {call : Call} : Traced C db (Request.startStep C a db call).1 := by
  cases call with
  | createPairingCode ownerId projectIds =>
      simp only [Request.startStep]
      split
      · trivial
      · split
        · trivial
        · exact a.datetime.1
  | pair rawCode deviceName =>
      simp only [Request.startStep]
      split
      · trivial
      · split
        · trivial
        · apply traced_statement
          split
          · trivial
          · exact a.datetime.1
  | refresh rawRefresh =>
      simp only [Request.startStep]
      split
      · trivial
      · apply traced_statement
        split
        · trivial
        · exact a.datetime.1
  | authenticate rawAccess =>
      simp only [Request.startStep]
      split <;> trivial
  | revoke ownerId deviceId => exact a.datetime.1

theorem traced_projectsLocked {now : Instant} {owner : User} {purpose : Purpose}
    {found : List Project} {projectIds : List UUID} (hnow : Instant.min ≤ now) :
    Traced C db (Request.projectsLocked C a now owner purpose found projectIds).1 := by
  cases purpose with
  | code =>
      simp only [Request.projectsLocked]
      split
      · trivial
      · split
        · trivial
        · intro pair h
          cases h
  | device pairing name =>
      simp only [Request.projectsLocked]
      split
      · trivial
      · split
        · trivial
        · rename_i session pair hnew
          exact ⟨pair, rfl, minted_of_newSession hnow hnew⟩

theorem traced_owner {now : Instant} {owner : Option User} {call : Call}
    (hnow : Instant.min ≤ now) (h : Request.ownerStep now owner call = some n) :
    Traced C db n.1 := by
  cases call with
  | createPairingCode ownerId projectIds =>
      cases h
      split
      · trivial
      · split
        · exact hnow
        · trivial
  | revoke ownerId deviceId =>
      cases h
      split
      · trivial
      · split <;> trivial
  | pair | refresh | authenticate => cases h

theorem traced_next {r : Request} (hne : ∀ work reply, r.stage ≠ .commit work reply)
    (hok : Traced C db r.stage) (h : r.step C a db = some n) : Traced C db n.1 := by
  obtain ⟨call, stage⟩ := r
  cases stage with
  | start =>
      cases h
      exact traced_start
  | owner now =>
      cases call with
      | createPairingCode ownerId projectIds | revoke ownerId deviceId =>
          simp only [Request.step] at h
          obtain ⟨m, hm, rfl⟩ := Option.map_eq_some_iff.mp h
          exact traced_statement (traced_owner hok hm)
      | pair | refresh | authenticate => cases h
  | pairing now id name =>
      cases h
      apply traced_statement
      split
      · trivial
      · split
        · trivial
        · exact hok
  | pairingOwner now pairing name =>
      cases h
      apply traced_statement
      split
      · trivial
      · split
        · exact hok
        · trivial
  | projects now owner purpose =>
      cases h
      exact traced_statement hok
  | lockProjects now owner purpose ids found =>
      cases h
      apply traced_statement
      split
      · exact traced_projectsLocked hok
      · exact hok
  | locator now locator =>
      cases h
      apply traced_statement
      split
      · trivial
      · exact hok
  | refreshOwner now locator device =>
      cases h
      exact traced_statement hok
  | refreshDevice now locator owner =>
      cases h
      refine traced_statement ⟨hok, fun d hd => ?_⟩
      obtain ⟨i, -, hd⟩ := Option.bind_eq_some_iff.mp hd
      obtain rfl := Table.key_of_get? hd
      exact ⟨d, hd, rfl⟩
  | refreshSession now locator owner device =>
      obtain ⟨hnow, hdevice⟩ := hok
      cases h
      apply traced_statement
      split
      · trivial
      · rename_i d
        simp only
        split
        · split
          · trivial
          · rename_i session pair hnew
            exact ⟨pair, d, rfl, hdevice d rfl, minted_of_newSession hnow hnew⟩
        · trivial
  | bearerOwner | bearerDevice | bearerProjects | sessions =>
      cases h
      exact traced_statement trivial
  | bearerSession now bearer owner device =>
      cases h
      apply traced_statement
      split
      · trivial
      · split <;> trivial
  | bearerScopes now device projectIds =>
      cases h
      refine traced_statement fun pair hreply => ?_
      cases hreply
  | device now owner =>
      cases call with
      | revoke ownerId deviceId =>
          cases h
          apply traced_statement
          split
          · trivial
          · split
            · intro pair hreply
              cases hreply
            · trivial
      | createPairingCode | pair | refresh | authenticate => cases h
  | lockSessions now device ids unrevoked =>
      cases h
      split
      · intro pair hreply
        cases hreply
      · apply traced_statement
        split <;> trivial
  | commit work reply => exact absurd rfl (hne work reply)
  | denied failure =>
      cases h
      split <;> trivial
  | done | failed | aborted => cases h

/-- Every statement keeps what is known on the way to a pair of tokens. -/
theorem traced_step {r : Request} {stage : Stage} {e : Effect Db} (hok : Traced C db r.stage)
    (h : r.step C a db = some (stage, e)) : Traced C (e.db db) stage := by
  obtain ⟨call, stage'⟩ := r
  by_cases hcommit : ∃ work reply, stage' = .commit work reply
  · obtain ⟨work, reply, rfl⟩ := hcommit
    simp only [Request.step, Option.some.injEq] at h
    split at h
    · cases h
      exact tokens_of_write ‹_› hok
    · cases h
      trivial
    · cases h
      trivial
  · have hdb : e.db db = db := by
      cases e with
      | proceed | release => rfl
      | commit db' =>
          obtain ⟨work, reply, hstage, -⟩ := work_of_commit h
          exact absurd ⟨work, reply, hstage⟩ hcommit
    rw [hdb]
    exact traced_next (fun work reply hstage => hcommit ⟨work, reply, hstage⟩) hok h

theorem traced_outline : Program.Outline (program C) Dated fun c db => Traced C db c.pc.stage where
  start hdated hinit := by
    rename_i r db
    obtain ⟨call, stage⟩ := r
    obtain rfl : stage = .start := of_decide_eq_true hinit
    trivial
  abort hok := by
    rename_i c db
    obtain ⟨⟨call, stage⟩, locks⟩ := c
    cases stage <;> trivial
  own hdated hok hstep := by
    rename_i a c db r e
    obtain ⟨hr, hstep⟩ := program_step hstep
    refine ⟨?_, traced_step hok hstep⟩
    cases e with
    | proceed | release => exact hdated
    | commit db' =>
        obtain ⟨work, reply, hstage, hwrite, -⟩ := work_of_commit hstep
        rw [hstage] at hok
        exact hdated.written (Db.written hwrite) (dated_of_issues hok)
  other hdated hown hok hstep hfree := by
    rename_i a c d db r e
    obtain ⟨-, hstep⟩ := program_step hstep
    cases e with
    | proceed | release => exact hok
    | commit db' =>
        obtain ⟨work, reply, -, hwrite, -⟩ := work_of_commit hstep
        exact hok.written (Db.written hwrite)

end statements

/-- The tokens of `pair` and `refresh` are accepted in the whole window of their
session, while it and its device are unrevoked and the OWNER is active. -/
def Accepted (C : Context) (a : Answer) (db : Db) (pair : DeviceTokenPair) : Prop :=
  ∃ claims x d, Stored C db pair claims x d ∧
    (x.revokedAt = none → d.revokedAt = none → ActiveOwner db claims.ownerId →
      x.createdAt ≤ a.now → a.now < pair.expiresAt → ∃ db' actor,
        authenticateAccessToken C a db pair.accessToken = (db', .done (.actor actor)) ∧
          ActorOf db d actor)

theorem Tokens.accepted {C : Context} {a : Answer} {db : Db} {pair : DeviceTokenPair}
    (h : Tokens C db pair) (hdated : Dated db) (hok : a.fate = .ok)
    (hsince : SincePairing C db a.now pair.accessToken) : Accepted C a db pair := by
  obtain ⟨claims, x, d, hstored⟩ := h
  refine ⟨claims, x, d, hstored, fun hlive hunrevoked howner hissued hnow => ?_⟩
  have hmatch := hstored.matching
  have hauth : Authorized C db a.now pair.accessToken claims d :=
    ⟨hstored.signed, ⟨x, hstored.session, hmatch, hlive⟩, hstored.device, hstored.owned, hunrevoked,
      howner, hmatch.createdAt ▸ hissued, hstored.expires ▸ hnow⟩
  obtain ⟨hmin, hmax⟩ := hdated hstored.session
  rw [hmatch.createdAt] at hmin
  rw [hmatch.accessExpiresAt] at hmax
  exact authenticate_of_accept (bearerClaims_of_datetime hstored.signed hmin hmax) hok hstored.device
    ((authorized_iff hstored.signed hstored.device).mpr hauth)
    (hsince claims d hstored.signed hstored.device)

/-- In every reachable database, and whatever became of users and projects, a
bearer string is authorized exactly, unless it is a signed device token whose
issue time the C library cannot convert; and the tokens of `pair` and `refresh`
are accepted as long as they should be. -/
theorem authorization_exact (C : Context) (users₀ : UserTable) (projects₀ : ProjectTable)
    {s : DeviceState}
    (h : Reachable (next C) (State.init ⟨users₀, projects₀, ∅, ∅, ∅⟩) s) (users : UserTable)
    (projects : ProjectTable) {a : Answer} (hok : a.fate = .ok) {raw : Text}
    (hsince : SincePairing C s.db a.now raw) :
    (Exact C a { s.db with users, projects } raw ↔ ¬Unconvertible C raw) ∧
      ∀ (i : Nat) call pair locks, s.clients[i]? = some ⟨⟨call, .done (.tokens pair)⟩, locks⟩ →
        pair.accessToken = raw → Accepted C a { s.db with users, projects } pair := by
  have hempty : Dated (⟨users₀, projects₀, ∅, ∅, ∅⟩ : Db) := fun hx => (by cases hx)
  obtain ⟨hdated, htraced⟩ := traced_outline.reachable h hempty
  refine ⟨⟨fun hexact hover => not_exact_of_unconvertible hover hexact, fun hconv =>
    exact_of_convertible hdated hok hsince hconv⟩, ?_⟩
  rintro i call pair locks hc rfl
  have htokens : Traced C s.db (.done (.tokens pair)) := htraced i _ hc
  obtain ⟨claims, x, d, hstored⟩ := htokens
  have htokens : Tokens C { s.db with users, projects } pair :=
    ⟨claims, x, d, hstored.signed, hstored.session, hstored.matching, hstored.device, hstored.named,
      hstored.owned, hstored.expires⟩
  exact htokens.accepted hdated hok hsince

namespace Sample

def db : Db := ⟨users, projects, ∅, ∅, ∅⟩

/-- A signed device token issued 3168808806 years from now. -/
def farToken : Text :=
  plainJwt.encode context.settings.jwtSecret
    (devicePayload ⟨9, 1, 20, 30, 100000000000000000, 100000000000000000 + 2 * 60 * 60⟩)

/-- The reply of the refresh of the sample exchange. -/
def refreshReply (s : DeviceState) : Option DeviceTokenPair :=
  match (s.clients[2]? : Option (Client Request Row)) with
  | some ⟨⟨_, .done (.tokens pair)⟩, _⟩ => some pair
  | _ => none

theorem refreshReply_spec {s : DeviceState} {pair : DeviceTokenPair}
    (h : refreshReply s = some pair) :
    ∃ call locks, s.clients[2]? = some ⟨⟨call, .done (.tokens pair)⟩, locks⟩ := by
  unfold refreshReply at h
  split at h
  · rename_i call pair' locks hget
    cases h
    exact ⟨call, locks, hget⟩
  · cases h

end Sample

/-- `OverflowError` and `OSError` are no `ValueError`, so the token is not denied
but fails. -/
theorem authenticate_far_token :
    SincePairing Sample.context Sample.db Sample.answer.now Sample.farToken ∧
      authenticateAccessToken Sample.context Sample.answer Sample.db Sample.farToken =
        (Sample.db, .failed .unexpected) ∧
      ¬Exact Sample.context Sample.answer Sample.db Sample.farToken := by
  have hsigned : decodeDeviceAccessToken plainJwt Sample.context.platform Sample.context.settings
      Sample.farToken = some ⟨9, 1, 20, 30, 100000000000000000,
        100000000000000000 + 2 * 60 * 60⟩ :=
    decode_devicePayload (by decide) rfl
  have hover : fromTimestamp 100000000000000000 = .error .overflow := by decide
  refine ⟨fun claims d _ hd => (by cases hd), ?_, ?_⟩
  · exact authenticate_of_error (bearerClaims_of_overflow hsigned hover)
  · exact not_exact_of_unconvertible ⟨_, hsigned, hover⟩

/-- After the sample exchange, the refreshed token is accepted. -/
theorem authorization_exact_exchange : ∃ s pair,
    run (next Sample.context) (State.init Sample.db) Sample.exchange = some s ∧
      Sample.refreshReply s = some pair ∧
      (authenticateAccessToken Sample.context Sample.answer s.db pair.accessToken).2 =
        .done (.actor ⟨.device, 9, none, [5], deviceAccessScopes⟩) ∧
      (Exact Sample.context Sample.answer s.db pair.accessToken ↔
        ¬Unconvertible Sample.context pair.accessToken) ∧
      Accepted Sample.context Sample.answer s.db pair := by
  have hrun : ((run (next Sample.context) (State.init Sample.db) Sample.exchange).bind fun s =>
      (Sample.refreshReply s).map fun pair => decide
        ((authenticateAccessToken Sample.context Sample.answer s.db pair.accessToken).2 =
          .done (.actor ⟨.device, 9, none, [5], deviceAccessScopes⟩)) &&
        s.db.devices.rows.all fun d => decide (d.pairedAt ≤ 10)) = some true := by
    decide +kernel
  obtain ⟨s, hs, hrun⟩ := Option.bind_eq_some_iff.mp hrun
  obtain ⟨pair, hpair, hrun⟩ := Option.map_eq_some_iff.mp hrun
  obtain ⟨haccepted, hdevices⟩ := (Bool.and_eq_true _ _).mp hrun
  have hsince : SincePairing Sample.context s.db Sample.answer.now pair.accessToken :=
    fun claims d _ hd => of_decide_eq_true (List.all_eq_true.mp hdevices d (Table.mem_of_get? hd))
  obtain ⟨call, locks, hclient⟩ := Sample.refreshReply_spec hpair
  have hexact := authorization_exact Sample.context Sample.users Sample.projects ⟨_, hs⟩ s.db.users
    s.db.projects (a := Sample.answer) rfl hsince
  exact ⟨s, pair, hs, hpair, of_decide_eq_true haccepted, hexact.1, hexact.2 2 call pair locks
    hclient rfl⟩

end SuperBoss.Devices
