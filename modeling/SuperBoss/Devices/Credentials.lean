import SuperBoss.Core.Platform
import SuperBoss.Core.Tokens
import SuperBoss.Devices.Isolation

/-!
Single use of pairing codes and refresh tokens, and the finality of a
revocation, over the transactions in the order of their commits.
-/

namespace SuperBoss.Devices

open SuperBoss.Core
open SuperBoss.Library
open SuperBoss.Library.Transactions
open SuperBoss.Library.Transition
open SuperBoss.Auth

/-- A call whose transaction was committed, with what it wrote. -/
abbrev Entry := Call × Work

/-- The transaction that an event commits. -/
def committed (s : DeviceState) : DeviceEvent → Option Entry
  | .act i a =>
      match s.clients[i]? with
      | some ⟨⟨call, .commit work _⟩, _⟩ =>
          if a.fate.applied ∧ (s.db.write? work).isSome then some (call, work) else none
      | _ => none
  | .start _ | .abort _ => none

/-- The committed transactions of a run, in order. -/
def log (C : Context) : DeviceState → List DeviceEvent → List Entry
  | _, [] => []
  | s, e :: es =>
      match next C s e with
      | none => []
      | some t => (committed s e).toList ++ log C t es

namespace Entry

/-- The raw code that was exchanged for a device. -/
def code : Entry → Option Text
  | (.pair raw _, .pair _ _ _ _) => some raw
  | _ => none

/-- The device that was created. -/
def device : Entry → Option UUID
  | (_, .pair _ _ device _) => some device.id
  | _ => none

/-- The raw refresh token that was accepted. -/
def token : Entry → Option Text
  | (.refresh raw, .refresh _ _ _) => some raw
  | _ => none

def revokes : Entry → Option UUID
  | (_, .revoke id _ _) => some id
  | _ => none

/-- The device that was refreshed or authenticated. -/
def uses : Entry → Option UUID
  | (_, .refresh _ _ session) => session.deviceId
  | (_, .authenticate id _) => some id
  | _ => none

end Entry

/-- What the credentials of devices are good for. -/
structure Exclusive (db : Db) (entries : List Entry) : Prop where
  created : db.devices.rows.map (·.id) = entries.filterMap Entry.device
  paired : ∀ e ∈ entries, e.device.isSome → e.code.isSome
  codes : (entries.filterMap Entry.code).Nodup
  tokens : (entries.filterMap Entry.token).Nodup
  single : ∀ d, ∀ x ∈ db.sessions.rows, ∀ y ∈ db.sessions.rows, LiveOn d x → LiveOn d y → x = y
  revoked : ∀ dev ∈ db.devices.rows, dev.revokedAt ≠ none →
    ∀ x ∈ db.sessions.rows, x.deviceId = some dev.id → x.revokedAt ≠ none
  final : entries.Pairwise fun e f => ∀ d, e.revokes = some d → f.uses ≠ some d

/-- What stays in the database of a committed transaction. -/
def Recorded (C : Context) (db : Db) : Entry → Prop
  | (.pair raw _, .pair id _ _ _) => ∃ p, db.pairings.get? id = some p ∧ p.usedAt ≠ none ∧
      credentialHash C raw = some p.codeHash
  | (.refresh raw, .refresh current _ _) => ∃ x, db.sessions.get? current = some x ∧
      x.refreshUsedAt ≠ none ∧ credentialHash C raw = some x.refreshTokenHash
  | (_, .revoke id _ _) => ∃ d, db.devices.get? id = some d ∧ d.revokedAt ≠ none
  | _ => True

section log

variable {C : Context} {s t : DeviceState} {e : DeviceEvent} {entry : Entry}

theorem log_concat {es : List DeviceEvent} (hrun : run (next C) s es = some t) (e : DeviceEvent)
    (hstep : (next C t e).isSome) : log C s (es ++ [e]) = log C s es ++ (committed t e).toList := by
  induction es generalizing s with
  | nil =>
      cases hrun
      obtain ⟨u, hu⟩ := Option.isSome_iff_exists.mp hstep
      simp [log, hu]
  | cons f es ih =>
      rw [run_cons] at hrun
      obtain ⟨u, hu, hrun⟩ := Option.bind_eq_some_iff.mp hrun
      simp only [List.cons_append, log, hu, ih hrun, List.append_assoc]

/-- A step commits the entry that it adds to the log, and nothing else. -/
theorem step_cases (h : next C s e = some t) :
    (committed s e = none ∧ t.db = s.db) ∨
      ∃ (i : Nat) (call : Call) (work : Work) (reply : Reply) (locks : List (Lock Row)),
        s.clients[i]? = some ⟨⟨call, .commit work reply⟩, locks⟩ ∧
          committed s e = some (call, work) ∧ s.db.write? work = some t.db := by
  cases Program.step_of_apply h with
  | start | abort => exact .inl ⟨rfl, rfl⟩
  | act hget hfree hstep =>
      rename_i i a c r eff
      obtain ⟨-, hstep⟩ := program_step hstep
      obtain ⟨⟨call, stage⟩, locks⟩ := c
      obtain ⟨call', stage'⟩ := r
      by_cases hcommit : ∃ work reply, stage = .commit work reply
      · obtain ⟨work, reply, rfl⟩ := hcommit
        simp only [Request.step, Option.some.injEq] at hstep
        cases hwrite : s.db.write? work with
        | none =>
            simp only [hwrite] at hstep
            cases hstep
            exact .inl ⟨by simp [committed, hget, hwrite], rfl⟩
        | some db' =>
            simp only [hwrite] at hstep
            cases hfate : a.fate with
            | ok | lost =>
                simp only [hfate] at hstep
                cases hstep
                exact .inr ⟨i, call, work, reply, locks, hget,
                  by simp [committed, hget, hwrite, hfate, Files.Fate.applied], hwrite⟩
            | error =>
                simp only [hfate] at hstep
                cases hstep
                exact .inl ⟨by simp [committed, hget, hfate, Files.Fate.applied], rfl⟩
      · refine .inl ⟨?_, ?_⟩
        · simp only [committed, hget]
          split
          · rename_i heq
            cases heq
            exact absurd ⟨_, _, rfl⟩ hcommit
          · rfl
        · cases eff with
          | proceed | release => rfl
          | commit db' =>
              obtain ⟨work, reply, hstage, -⟩ := work_of_commit hstep
              exact absurd ⟨work, reply, hstage⟩ hcommit

variable {db db' : Db} {w : Work} {call : Call} {locks : List (Lock Row)}

theorem Recorded.written (hw : Written w db db') (h : Recorded C db entry) :
    Recorded C db' entry := by
  obtain ⟨call, work⟩ := entry
  cases work with
  | nothing | createPairingCode | authenticate => cases call <;> trivial
  | pair id now device session =>
      cases call with
      | pair raw name =>
          obtain ⟨p, hp, hused, hhash⟩ := h
          obtain ⟨q, hq, hkeeps⟩ := hw.pairing hp
          exact ⟨q, hq, hkeeps.used hused, by rw [hkeeps.codeHash, hhash]⟩
      | createPairingCode | refresh | authenticate | revoke => trivial
  | refresh current now session =>
      cases call with
      | refresh raw =>
          obtain ⟨x, hx, hused, hhash⟩ := h
          obtain ⟨y, hy, hrev⟩ := hw.session hx
          refine ⟨y, hy, hrev.used hused, ?_⟩
          rw [hrev.identity]
          exact hhash
      | createPairingCode | pair | authenticate | revoke => trivial
  | revoke id now unrevoked =>
      have hrevoked : ∃ d, db'.devices.get? id = some d ∧ d.revokedAt ≠ none := by
        obtain ⟨d, hd, hrev⟩ : ∃ d, db.devices.get? id = some d ∧ d.revokedAt ≠ none := by
          cases call <;> exact h
        obtain ⟨e, he, hkeeps⟩ := hw.device hd
        exact ⟨e, he, hkeeps.revoked hrev⟩
      cases call <;> exact hrevoked

theorem recorded_of_write (hwrite : db.write? w = some db') (hok : CommitOk C call locks db w) :
    Recorded C db' (call, w) := by
  cases w with
  | nothing | createPairingCode | authenticate => cases call <;> trivial
  | pair id now device session =>
      obtain ⟨p, ⟨-, hp, -, raw, name, rfl, hhash⟩, rfl, -⟩ := hok
      simp only [Db.write?] at hwrite
      split at hwrite
      · obtain ⟨devices, -, hwrite⟩ := Option.bind_eq_some_iff.mp hwrite
        obtain ⟨sessions, -, hwrite⟩ := Option.bind_eq_some_iff.mp hwrite
        cases hwrite
        have hused : (db.pairings.modify p.id (.use now)
            (DevicePairingCode.use_keeps now)).get? p.id = some (p.use now) :=
          Table.get?_modify_self hp
        exact ⟨p.use now, hused, by simp [DevicePairingCode.use], hhash⟩
      · cases hwrite
  | refresh current now session =>
      obtain ⟨-, d, -, -, -, x, hx, -, -, raw, rfl, hhash⟩ := hok
      obtain ⟨sessions, hinsert, rfl⟩ := Option.map_eq_some_iff.mp hwrite
      have hused : (db.sessions.modify current (SessionUpdate.apply ⟨some now, now⟩)
          (SessionUpdate.keeps _)).get? current = some (SessionUpdate.apply ⟨some now, now⟩ x) :=
        Table.get?_modify_self hx
      exact ⟨_, Table.get?_insert?_of_some hinsert hused, by simp [SessionUpdate.apply], hhash⟩
  | revoke id now unrevoked =>
      obtain ⟨d, hd, rfl, -⟩ := hok
      simp only [Db.write?] at hwrite
      split at hwrite
      · cases hwrite
        have hrevoked : ∃ e, (db.devices.modify d.id (.revoke now)
            (DeviceConnection.revoke_keeps now)).get? d.id = some e ∧ e.revokedAt ≠ none :=
          ⟨d.revoke now, Table.get?_modify_self hd.row, by simp [DeviceConnection.revoke]⟩
        cases call <;> exact hrevoked
      · cases hwrite

/-! ### One more commit -/

theorem code_fresh {entries : List Entry} (hok : CommitOk C call locks db w)
    (hentries : ∀ e ∈ entries, Recorded C db e) {raw : Text}
    (hraw : Entry.code (call, w) = some raw) : raw ∉ entries.filterMap Entry.code := by
  cases w with
  | nothing | createPairingCode | refresh | authenticate | revoke => cases call <;> cases hraw
  | pair id now device session =>
      obtain ⟨p, ⟨-, hp, hunused, raw', name, rfl, hhash⟩, -⟩ := hok
      cases hraw
      intro hmem
      obtain ⟨⟨call', work⟩, he, hcode⟩ := List.mem_filterMap.mp hmem
      have hrecorded := hentries _ he
      cases work with
      | nothing | createPairingCode | refresh | authenticate | revoke =>
          cases call' <;> cases hcode
      | pair id' now' device' session' =>
          cases call' with
          | createPairingCode | refresh | authenticate | revoke => cases hcode
          | pair raw'' name' =>
              cases hcode
              obtain ⟨q, hq, hused, hhash'⟩ := hrecorded
              have hsame : q.codeHash = p.codeHash := Option.some.inj (hhash'.symm.trans hhash)
              obtain rfl := Table.eq_of_not_distinct (Table.mem_of_get? hq) (Table.mem_of_get? hp)
                (fun hne => hne hsame) (fun hne => hne hsame.symm)
              exact hused hunused

theorem token_fresh {entries : List Entry} (hok : CommitOk C call locks db w)
    (hentries : ∀ e ∈ entries, Recorded C db e) {raw : Text}
    (hraw : Entry.token (call, w) = some raw) : raw ∉ entries.filterMap Entry.token := by
  cases w with
  | nothing | createPairingCode | pair | authenticate | revoke => cases call <;> cases hraw
  | refresh current now session =>
      obtain ⟨-, d, -, -, -, x, hx, -, hunused, raw', rfl, hhash⟩ := hok
      cases hraw
      intro hmem
      obtain ⟨⟨call', work⟩, he, htoken⟩ := List.mem_filterMap.mp hmem
      have hrecorded := hentries _ he
      cases work with
      | nothing | createPairingCode | pair | authenticate | revoke =>
          cases call' <;> cases htoken
      | refresh current' now' session' =>
          cases call' with
          | createPairingCode | pair | authenticate | revoke => cases htoken
          | refresh raw'' =>
              cases htoken
              obtain ⟨y, hy, hused, hhash'⟩ := hrecorded
              have hsame : y.refreshTokenHash = x.refreshTokenHash :=
                Option.some.inj (hhash'.symm.trans hhash)
              obtain rfl := Table.eq_of_not_distinct (Table.mem_of_get? hy) (Table.mem_of_get? hx)
                (fun hne => hne.2 hsame) (fun hne => hne.2 hsame.symm)
              exact hused hunused

/-- A transaction does not use a device whose revocation was committed before it. -/
theorem not_revoked (hok : CommitOk C call locks db w) {d : UUID}
    (hrecorded : Recorded C db entry) (hrevokes : entry.revokes = some d) :
    Entry.uses (call, w) ≠ some d := by
  intro huses
  obtain ⟨call', work⟩ := entry
  cases work with
  | nothing | createPairingCode | pair | refresh | authenticate => cases call' <;> cases hrevokes
  | revoke id now unrevoked =>
      obtain ⟨dev, hdev, hrevoked⟩ : ∃ dev, db.devices.get? id = some dev ∧ dev.revokedAt ≠ none := by
        cases call' <;> exact hrecorded
      obtain rfl : id = d := by
        cases call' <;> exact Option.some.inj hrevokes
      cases w with
      | nothing | createPairingCode | pair | revoke => cases call <;> cases huses
      | refresh current now session =>
          obtain ⟨-, e, he, hunrevoked, hsession, -⟩ := hok
          have hid : session.deviceId = some id := by
            cases call <;> exact huses
          obtain rfl := Option.some.inj (hsession.symm.trans hid)
          obtain rfl := Option.some.inj (he.row.symm.trans hdev)
          exact hrevoked hunrevoked
      | authenticate id' lastUsedAt =>
          obtain ⟨e, he, rfl, hunrevoked⟩ := hok
          have hid : e.id = id := by
            cases call <;> exact Option.some.inj huses
          obtain rfl := hid
          obtain rfl := Option.some.inj (he.row.symm.trans hdev)
          exact hrevoked hunrevoked

/-- A commit creates the device that its entry names. -/
theorem devices_of_write (call : Call) (hwrite : db.write? w = some db') :
    db'.devices.rows.map (·.id) =
      db.devices.rows.map (·.id) ++ (Entry.device (call, w)).toList := by
  cases w with
  | nothing =>
      cases hwrite
      exact (List.append_nil _).symm
  | createPairingCode pairing =>
      obtain ⟨pairings, -, rfl⟩ := Option.map_eq_some_iff.mp hwrite
      exact (List.append_nil _).symm
  | pair id now device session =>
      simp only [Db.write?] at hwrite
      split at hwrite
      · obtain ⟨devices, hinsert, hwrite⟩ := Option.bind_eq_some_iff.mp hwrite
        obtain ⟨sessions, -, hwrite⟩ := Option.bind_eq_some_iff.mp hwrite
        cases hwrite
        simp [Table.rows_insert? hinsert, Entry.device]
      · cases hwrite
  | refresh current now session =>
      obtain ⟨sessions, -, rfl⟩ := Option.map_eq_some_iff.mp hwrite
      exact (List.append_nil _).symm
  | authenticate id lastUsedAt =>
      cases lastUsedAt with
      | none =>
          cases hwrite
          exact (List.append_nil _).symm
      | some now =>
          simp only [Db.write?] at hwrite
          split at hwrite
          · cases hwrite
            exact (Table.keys_modify (DeviceConnection.touch_keeps now) _ id).trans
              (List.append_nil _).symm
          · cases hwrite
  | revoke id now unrevoked =>
      simp only [Db.write?] at hwrite
      split at hwrite
      · cases hwrite
        exact (Table.keys_modify (DeviceConnection.revoke_keeps now) _ id).trans
          (List.append_nil _).symm
      · cases hwrite

/-- What holds of the log and the database at every moment of a run. -/
structure Logged (C : Context) (db : Db) (entries : List Entry) : Prop where
  recorded : ∀ e ∈ entries, Recorded C db e
  created : db.devices.rows.map (·.id) = entries.filterMap Entry.device
  paired : ∀ e ∈ entries, e.device.isSome → e.code.isSome
  codes : (entries.filterMap Entry.code).Nodup
  tokens : (entries.filterMap Entry.token).Nodup
  final : entries.Pairwise fun e f => ∀ d, e.revokes = some d → f.uses ≠ some d

theorem nodup_filterMap_concat {α β : Type*} {f : α → Option β} {l : List α} {a : α}
    (hl : (l.filterMap f).Nodup) (h : ∀ b, f a = some b → b ∉ l.filterMap f) :
    ((l ++ [a]).filterMap f).Nodup := by
  rw [List.filterMap_append]
  cases ha : f a with
  | none => simpa [ha] using hl
  | some b =>
      have hsingle : [a].filterMap f = [b] := by simp [ha]
      rw [hsingle]
      exact List.Nodup.append hl (List.nodup_singleton b)
        (List.disjoint_singleton.mpr (h b ha))

theorem Logged.append {entries : List Entry} (h : Logged C db entries)
    (hwrite : db.write? w = some db') (hok : CommitOk C call locks db w) :
    Logged C db' (entries ++ [(call, w)]) where
  recorded e he := by
    rcases List.mem_append.mp he with he | he
    · exact (h.recorded e he).written (Db.written hwrite)
    · obtain rfl := List.mem_singleton.mp he
      exact recorded_of_write hwrite hok
  created := by
    rw [devices_of_write call hwrite, h.created, List.filterMap_append]
    cases hdevice : Entry.device (call, w) <;> simp [hdevice]
  paired e he hdevice := by
    rcases List.mem_append.mp he with he | he
    · exact h.paired e he hdevice
    · obtain rfl := List.mem_singleton.mp he
      cases w with
      | nothing | createPairingCode | refresh | authenticate | revoke =>
          cases call <;> cases hdevice
      | pair id now device session =>
          obtain ⟨p, ⟨-, -, -, raw, name, rfl, -⟩, -⟩ := hok
          rfl
  codes := nodup_filterMap_concat h.codes fun raw hraw => code_fresh hok h.recorded hraw
  tokens := nodup_filterMap_concat h.tokens fun raw hraw => token_fresh hok h.recorded hraw
  final := by
    refine List.pairwise_append.mpr ⟨h.final, List.pairwise_singleton _ _, ?_⟩
    intro e he f hf d hrevokes
    obtain rfl := List.mem_singleton.mp hf
    exact not_revoked hok (h.recorded e he) hrevokes

theorem logged_of_run {db : Db} {es : List DeviceEvent} {s : DeviceState} (hdb : Sound db)
    (hempty : db.devices.rows = []) (hrun : run (next C) (State.init db) es = some s) :
    Logged C s.db (log C (State.init db) es) := by
  refine run_induction (I := fun es s => Logged C s.db (log C (State.init db) es)) ?_ ?_ hrun
  · refine ⟨fun e he => (by cases he), ?_, fun e he => (by cases he), List.nodup_nil,
      List.nodup_nil, .nil⟩
    show db.devices.rows.map _ = []
    rw [hempty]
    rfl
  · intro es s e t hs ih hstep
    rw [log_concat hs e (by rw [hstep]; rfl)]
    rcases step_cases hstep with ⟨hnone, hdb'⟩ | ⟨i, call, work, reply, locks, hc, hsome, hwrite⟩
    · rw [hnone, hdb']
      simpa using ih
    · rw [hsome]
      exact ih.append hwrite ((annotated_of_reachable ⟨es, hs⟩ hdb).2 i _ hc)

end log

namespace Sample

/-- SHA-256 on the three opaque tokens of the samples. -/
def sha256 (b : Bytes) : Text :=
  Text.ofString <|
    if b.length = 32 then "3eb1bd439947eb762998e566ccc2e099c791118b2f40579cc4f7da2b5061b7f9"
    else if b.length = 33 then "098e93cec2939f0514b168227acef4b42534d23edcd17d9ed267b3f7bce2bcc0"
    else "499c14cada63a3d1e0c1c0aae3db697240cec123078c3c9dbe13935a8485e3fd"

theorem spelled : 1 < (Text.ofString "1970-01-01").length := by decide

def context : Context where
  platform := asciiPlatform sha256 (fun _ => 0) 0 (Text.ofString "1970-01-01") spelled
  jwt := plainJwt
  settings := ⟨Text.ofString "secret"⟩
  nfkc t := t
  isOther c := decide (c < 32)

def owner : User where
  id := 1
  username := Text.ofString "owner"
  displayName := Text.ofString "owner"
  passwordHash := []
  mustChangePassword := false
  passwordChangedAt := 0
  failedLoginCount := 0
  lockedUntil := none
  role := .owner
  status := .active
  lastLoginAt := none

def users : UserTable := (Table.insert? ∅ owner).getD ∅

def projects : ProjectTable := (Table.insert? ∅ ⟨5, .active⟩).getD ∅

def rawCode : Text := Text.ofString "0123456789abcdef0123456789abcdef"

theorem datetime : Instant.min ≤ 10 ∧ 10 ≤ Instant.max := by decide

def answer : Answer where
  fate := .ok
  now := 10
  id := 9
  sessionId := 20
  jti := 30
  token := rawCode
  datetime

def refreshToken : Text := rawCode ++ Text.ofString "g"

def paired : Answer :=
  { answer with token := refreshToken }

def refreshed : Answer :=
  { answer with sessionId := 21, jti := 31, token := refreshToken ++ Text.ofString "h" }

/-- A pairing code, its exchange, and a refresh. -/
def exchange : List DeviceEvent :=
  .start ⟨.createPairingCode 1 [5], .start⟩ :: List.replicate 6 (.act 0 answer) ++
  .start ⟨.pair rawCode (Text.ofString "laptop"), .start⟩ :: List.replicate 7 (.act 1 paired) ++
  .start ⟨.refresh refreshToken, .start⟩ :: List.replicate 6 (.act 2 refreshed)

end Sample

/-- Over every interleaving, a pairing code yields one device at most, a refresh
token is accepted once at most, a device has one unrevoked session at most, and
a committed revocation is final. -/
theorem credentials_exclusive (C : Context) (users : UserTable) (projects : ProjectTable)
    {es : List DeviceEvent} {s : DeviceState}
    (hrun : run (next C) (State.init ⟨users, projects, ∅, ∅, ∅⟩) es = some s) :
    Exclusive s.db (log C (State.init ⟨users, projects, ∅, ∅, ∅⟩) es) := by
  have hempty : Sound ⟨users, projects, ∅, ∅, ∅⟩ :=
    ⟨fun hx => (by cases hx), fun hx => (by cases hx)⟩
  have hsound := (annotated_of_reachable ⟨es, hrun⟩ hempty).1
  have hlogged := logged_of_run hempty rfl hrun
  refine ⟨hlogged.created, hlogged.paired, hlogged.codes, hlogged.tokens, ?_, ?_, hlogged.final⟩
  · intro d x hx y hy hxd hyd
    have hid := hsound.single (Table.get?_of_mem hx) (Table.get?_of_mem hy) hxd hyd
    have hxy := Table.get?_of_mem hx
    rw [hid] at hxy
    exact Option.some.inj (hxy.symm.trans (Table.get?_of_mem hy))
  · intro dev hdev hrevoked x hx hd
    obtain ⟨dev', hdev', hall⟩ := hsound.owned (Table.get?_of_mem hx) hd
    obtain rfl := Option.some.inj ((Table.get?_of_mem hdev).symm.trans hdev')
    exact hall hrevoked

/-- The sample exchange leaves one device, with one live session. -/
theorem credentials_exclusive_exchange : ∃ s,
    run (next Sample.context) (State.init ⟨Sample.users, Sample.projects, ∅, ∅, ∅⟩)
        Sample.exchange = some s ∧
      s.db.devices.rows.map (·.id) = [9] ∧
      Exclusive s.db (log Sample.context
        (State.init ⟨Sample.users, Sample.projects, ∅, ∅, ∅⟩) Sample.exchange) := by
  have hrun : ((run (next Sample.context)
      (State.init ⟨Sample.users, Sample.projects, ∅, ∅, ∅⟩) Sample.exchange).map fun s =>
        decide (s.db.devices.rows.map (·.id) = [9])) = some true := by
    decide +kernel
  obtain ⟨s, hs, hdevices⟩ := Option.map_eq_some_iff.mp hrun
  exact ⟨s, hs, of_decide_eq_true hdevices,
    credentials_exclusive Sample.context Sample.users Sample.projects hs⟩

end SuperBoss.Devices
