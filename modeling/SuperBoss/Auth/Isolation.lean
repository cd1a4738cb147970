import SuperBoss.Auth.Service

/-!
What the transactions know about the database while they hold their locks, and
what a commit of one of them leaves to the others.
-/

namespace SuperBoss.Auth

open SuperBoss.Core
open SuperBoss.Library
open SuperBoss.Library.Transactions
open SuperBoss.Library.Transition
open SuperBoss.Files (Fate)

/-! ### What a commit does -/

/-- The database after the writes of a transaction. -/
structure Written (w : Writes) (db db' : Db) : Prop where
  kept : ∀ {id x}, db.sessions.get? id = some x →
    ∃ y, db'.sessions.get? id = some y ∧ Revises (id ∈ w.sessions.map Prod.fst) x y
  new : ∀ {id y}, db'.sessions.get? id = some y → db.sessions.get? id = none →
    w.insert = some y
  inserted : ∀ x ∈ w.insert, db'.sessions.get? x.id = some x

theorem Db.written {db db' : Db} {w : Writes} (h : db.write? w = some db') :
    Written w db db' := by
  unfold Db.write? at h
  cases hw : w.insert with
  | none =>
      simp only [hw, Option.some.injEq] at h
      subst h
      refine ⟨fun hx => updateSessions_of_some _ hx, fun hy hnone => ?_,
        fun x hx => by rw [hw] at hx; cases hx⟩
      rw [updateSessions_of_none _ hnone] at hy
      cases hy
  | some x =>
      simp only [hw] at h
      split at h
      · obtain ⟨sessions, hinsert, rfl⟩ := Option.map_eq_some_iff.mp h
        refine ⟨fun {id r} hr => ?_, fun {id y} hy hnone => ?_, fun r hr => ?_⟩
        · obtain ⟨y, hy, hrev⟩ := updateSessions_of_some w.sessions hr
          exact ⟨y, Table.get?_insert?_of_some hinsert hy, hrev⟩
        · rw [Table.get?_insert? hinsert, updateSessions_of_none _ hnone] at hy
          split at hy
          · rw [hw, hy]
          · cases hy
        · obtain rfl : x = r := Option.some.inj (hw.symm.trans hr)
          rw [Table.get?_insert? hinsert, if_pos rfl]
      · cases h

/-- A session that is there and revoked. -/
def Revoked (db : Db) (id : UUID) : Prop :=
  ∃ x, db.sessions.get? id = some x ∧ x.revokedAt ≠ none

instance (db : Db) (id : UUID) : Decidable (Revoked db id) :=
  decidable_of_iff ((db.sessions.get? id).any fun x => x.revokedAt.isSome) <| by
    simp [Revoked, Option.any_eq_true, Option.isSome_iff_ne_none]

/-- The sessions a response stands for are committed: the one it issues is
there, and those it used up or revoked are revoked. -/
structure Durable (db : Db) (reply : Reply) : Prop where
  issued : ∀ id ∈ reply.issued, (db.sessions.get? id).isSome
  revoked : ∀ id ∈ reply.revoked, Revoked db id

section written

variable {w : Writes} {db db' : Db} (h : Written w db db')

include h

theorem Written.isSome {id : UUID} (hid : (db.sessions.get? id).isSome) :
    (db'.sessions.get? id).isSome := by
  obtain ⟨x, hx⟩ := Option.isSome_iff_exists.mp hid
  obtain ⟨y, hy, -⟩ := h.kept hx
  rw [hy]
  rfl

theorem Written.stays_revoked {id : UUID} (hid : Revoked db id) : Revoked db' id := by
  obtain ⟨x, hx, hrevoked⟩ := hid
  obtain ⟨y, hy, hrev⟩ := h.kept hx
  exact ⟨y, hy, hrev.stays_revoked hrevoked⟩

theorem Written.durable {reply : Reply} (hdurable : Durable db reply) : Durable db' reply :=
  ⟨fun id hid => h.isSome (hdurable.issued id hid),
    fun id hid => h.stays_revoked (hdurable.revoked id hid)⟩

/-- A session that is live afterwards is new, or was live and not touched. -/
theorem Written.live {id u : UUID} {y : AuthSession} (hy : db'.sessions.get? id = some y)
    (hlive : y.LiveOf u) :
    w.insert = some y ∨ db.sessions.get? id = some y ∧ id ∉ w.sessions.map Prod.fst := by
  cases hx : db.sessions.get? id with
  | none => exact .inl (h.new hy hx)
  | some x =>
      right
      obtain ⟨y', hy', hrev⟩ := h.kept hx
      obtain rfl := Option.some.inj (hy.symm.trans hy')
      by_cases hmem : id ∈ w.sessions.map Prod.fst
      · exact absurd hlive.2 (hrev.revoked hmem)
      · exact ⟨by rw [hrev.kept hmem], hmem⟩

end written

/-! ### Assertions -/

/-- The locks behind the writes of a transaction. -/
structure Writes.Locked (w : Writes) (locks : List (Lock Row)) : Prop where
  sessions : ∀ id ∈ w.sessions.map Prod.fst, .exclusive (.session id) ∈ locks
  insert : ∀ x ∈ w.insert, ∀ u, x.userId = some u → ∃ m, ⟨.user u, m⟩ ∈ locks

/-- The updated sessions are there. -/
def Writes.Touches (w : Writes) (db : Db) : Prop :=
  ∀ id ∈ w.sessions.map Prod.fst, (db.sessions.get? id).isSome

/-- Every live session of user `u` is revoked by the transaction or one of `ids`. -/
def Covers (db : Db) (u : UUID) (ids : List UUID) (w : Writes) : Prop :=
  ∀ id x, db.sessions.get? id = some x → x.LiveOf u → id ∈ ids ∨ id ∈ w.sessions.map Prod.fst

/-- The transaction uses up a session of `userId` that is live until its commit. -/
def Rotates (db : Db) (userId : Option UUID) (w : Writes) : Prop :=
  ∃ id x, id ∈ w.sessions.map Prod.fst ∧ db.sessions.get? id = some x ∧ x.userId = userId ∧
    x.revokedAt = none

/-- Password changes, resets and disablements. -/
def Call.Revoking : Call → Prop
  | .changePassword _ _ _ | .resetStaffPassword _ _ | .resetOwnerPassword _ => True
  | .updateStaff _ _ _ status => status = some .disabled
  | .login _ _ | .refresh _ | .logout _ _ => False

/-- The session of user `u` that a revoking call leaves live: a password change
issues one. -/
def Call.Leaves (u : UUID) (insert : Option AuthSession) : Call → Prop
  | .changePassword _ _ _ => ∃ x, insert = some x ∧ x.LiveOf u
  | _ => insert = none

/-- The transaction has locked user `u` and stages an update of the row. -/
structure Writes.Holds (w : Writes) (locks : List (Lock Row)) (u : UUID) : Prop where
  lock : .exclusive (.user u) ∈ locks
  user : w.user.map Prod.fst = some u

structure Staged (w : Writes) (locks : List (Lock Row)) (db : Db) : Prop where
  locked : w.Locked locks
  touches : w.Touches db

/-- A transaction before it issues a session. -/
structure InsertOk (call : Call) (user : User) (w : Writes) (locks : List (Lock Row)) (db : Db) :
    Prop where
  source : Rotates db (some user.id) w ∨ w.Holds locks user.id
  covers : call.Revoking → w.Holds locks user.id ∧ Covers db user.id [] w ∧
    ∃ token current new, call = .changePassword token current new

structure CommitOk (call : Call) (w : Writes) (reply : Reply) (locks : List (Lock Row))
    (db : Db) : Prop where
  issued : reply.issued = w.insert.map (·.id)
  revoked : reply.revoked = w.sessions.map Prod.fst
  covers : call.Revoking → ∃ u, w.Holds locks u ∧ Covers db u [] w ∧ call.Leaves u w.insert

def Ok (c : Client Request Row) (db : Db) : Prop :=
  match c.pc.stage with
  | .owner x w => Staged w c.locks db ∧ w.insert = none ∧ Rotates db x.userId w ∧
      ¬c.pc.call.Revoking
  | .revokeRecords _ _ w => w.Locked c.locks ∧ w.insert = none
  | .scan user _ w reply => w.Holds c.locks user.id ∧ w.sessions = [] ∧ w.insert = none ∧
      reply.issued = none
  | .revoke user _ ids w reply => w.Holds c.locks user.id ∧ Staged w c.locks db ∧
      w.insert = none ∧ reply.issued = none ∧ Covers db user.id ids w
  | .insert user w => Staged w c.locks db ∧ w.insert = none ∧
      InsertOk c.pc.call user w c.locks db
  | .deny w _ => w.sessions = [] ∧ w.insert = none
  | .commit w reply => Staged w c.locks db ∧ CommitOk c.pc.call w reply c.locks db
  | .respond reply none => Durable db reply
  | .respond _ (some w) | .finish w _ => w.Locked c.locks
  | _ => True

/-! ### Non-interference -/

section interference

variable {w v : Writes} {db db' : Db} {locks taken : List (Lock Row)}

theorem Writes.Locked.mono (h : w.Locked locks) (hsub : ∀ l ∈ locks, l ∈ taken) :
    w.Locked taken where
  sessions id hid := hsub _ (h.sessions id hid)
  insert x hx u hu := by
    obtain ⟨m, hm⟩ := h.insert x hx u hu
    exact ⟨m, hsub _ hm⟩

theorem Writes.Holds.mono {u : UUID} (h : w.Holds locks u) (hsub : ∀ l ∈ locks, l ∈ taken) :
    w.Holds taken u :=
  ⟨hsub _ h.lock, h.user⟩

theorem Staged.mono (h : Staged w locks db) (hsub : ∀ l ∈ locks, l ∈ taken) :
    Staged w taken db :=
  ⟨h.locked.mono hsub, h.touches⟩

/-- An assertion survives more locks. -/
theorem Ok.mono {r : Request} (hok : Ok ⟨r, locks⟩ db) (hsub : ∀ l ∈ locks, l ∈ taken) :
    Ok ⟨r, taken⟩ db := by
  obtain ⟨call, stage⟩ := r
  cases stage with
  | owner x v => exact ⟨hok.1.mono hsub, hok.2⟩
  | revokeRecords now records v => exact ⟨hok.1.mono hsub, hok.2⟩
  | scan user now v reply => exact ⟨hok.1.mono hsub, hok.2⟩
  | revoke user now ids v reply => exact ⟨hok.1.mono hsub, hok.2.1.mono hsub, hok.2.2⟩
  | insert user v =>
      obtain ⟨hstaged, hinsert, hsource, hcovers⟩ := hok
      exact ⟨hstaged.mono hsub, hinsert, hsource.imp_right fun h => h.mono hsub,
        fun hrevoking => ⟨(hcovers hrevoking).1.mono hsub, (hcovers hrevoking).2⟩⟩
  | commit v reply =>
      obtain ⟨hstaged, hissued, hrevoked, hcovers⟩ := hok
      refine ⟨hstaged.mono hsub, hissued, hrevoked, fun hrevoking => ?_⟩
      obtain ⟨u, hholds, hcovers⟩ := hcovers hrevoking
      exact ⟨u, hholds.mono hsub, hcovers⟩
  | respond reply pending =>
      cases pending with
      | none => exact hok
      | some v => exact Writes.Locked.mono hok hsub
  | finish v reply => exact Writes.Locked.mono hok hsub
  | deny v failure => exact hok
  | start | user | session | authenticate | change | accessSession | done | failed | aborted =>
      trivial

theorem Writes.locked_of_nil (hsessions : w.sessions = []) (hinsert : w.insert = .none) :
    w.Locked locks where
  sessions id hid := by
    rw [hsessions] at hid
    cases hid
  insert x hx := by
    rw [hinsert] at hx
    cases hx

theorem Writes.Touches.written (h : v.Touches db) (hw : Written w db db') : v.Touches db' :=
  fun id hid => hw.isSome (h id hid)

variable (hw : Written w db db') (hlocked : w.Locked taken)
  (hfree : ∀ l ∈ taken, ∀ m ∈ locks, ¬l.Conflicts m)

include hw hlocked hfree

theorem Covers.written {u : UUID} {ids : List UUID} (h : Covers db u ids v)
    (hlock : .exclusive (.user u) ∈ locks) : Covers db' u ids v := by
  intro id y hy hlive
  rcases hw.live hy hlive with hinsert | ⟨hold, -⟩
  · -- A new session of the user would need a lock on its row.
    obtain ⟨m, hm⟩ := hlocked.insert y hinsert u hlive.1
    exact absurd (Lock.exclusive_conflicts _ m).symm (hfree _ hm _ hlock)
  · exact h id y hold hlive

theorem Rotates.written {userId : Option UUID} (h : Rotates db userId v)
    (hv : v.Locked locks) : Rotates db' userId v := by
  obtain ⟨id, x, hid, hx, huser, hlive⟩ := h
  obtain ⟨y, hy, hrev⟩ := hw.kept hx
  have huntouched : id ∉ w.sessions.map Prod.fst := fun hmem =>
    hfree _ (hlocked.sessions id hmem) _ (hv.sessions id hid) (Lock.exclusive_conflicts _ _)
  rw [hrev.kept huntouched] at hy
  exact ⟨id, x, hid, hy, huser, hlive⟩

theorem InsertOk.written {call : Call} {user : User} (h : InsertOk call user v locks db)
    (hv : v.Locked locks) : InsertOk call user v locks db' where
  source := h.source.imp_left fun hrotates => hrotates.written hw hlocked hfree hv
  covers hrevoking := by
    obtain ⟨hholds, hcovers, hchange⟩ := h.covers hrevoking
    exact ⟨hholds, hcovers.written hw hlocked hfree hholds.lock, hchange⟩

theorem CommitOk.written {call : Call} {reply : Reply} (h : CommitOk call v reply locks db) :
    CommitOk call v reply locks db' where
  issued := h.issued
  revoked := h.revoked
  covers hrevoking := by
    obtain ⟨u, hholds, hcovers, hleaves⟩ := h.covers hrevoking
    exact ⟨u, hholds, hcovers.written hw hlocked hfree hholds.lock, hleaves⟩

theorem Ok.written {r : Request} (h : Ok ⟨r, locks⟩ db) : Ok ⟨r, locks⟩ db' := by
  obtain ⟨call, stage⟩ := r
  cases stage with
  | owner x v =>
      exact ⟨⟨h.1.locked, h.1.touches.written hw⟩, h.2.1,
        h.2.2.1.written hw hlocked hfree h.1.locked, h.2.2.2⟩
  | revoke user now ids v reply =>
      obtain ⟨hholds, hstaged, hinsert, hissued, hcovers⟩ := h
      exact ⟨hholds, ⟨hstaged.locked, hstaged.touches.written hw⟩, hinsert, hissued,
        hcovers.written hw hlocked hfree hholds.lock⟩
  | insert user v =>
      exact ⟨⟨h.1.locked, h.1.touches.written hw⟩, h.2.1,
        h.2.2.written hw hlocked hfree h.1.locked⟩
  | commit v reply =>
      exact ⟨⟨h.1.locked, h.1.touches.written hw⟩, h.2.written hw hlocked hfree⟩
  | respond reply pending =>
      cases pending with
      | none => exact hw.durable h
      | some v => exact h
  | revokeRecords | scan | deny | finish => exact h
  | start | user | session | authenticate | change | accessSession | done | failed | aborted =>
      trivial

end interference

/-! ### What a statement establishes -/

/-- The assertion after a statement that was run with the locks `taken`. -/
def NextOk (call : Call) (taken : List (Lock Row)) (db : Db) (n : Next) : Prop :=
  Ok ⟨⟨call, n.1⟩, n.2.locks taken⟩ (n.2.db db)

section statements

variable {C : Context} {call : Call} {taken : List (Lock Row)} {db : Db} {n : Next} {a : Answer}

theorem NextOk.raise {failure : Failure} : NextOk call taken db (raise failure) := trivial

theorem NextOk.reject {error : DomainError} : NextOk call taken db (reject error) := trivial

theorem NextOk.statement {fate : Fate} (h : NextOk call taken db n) :
    NextOk call taken db (statement fate n) := by
  unfold Auth.statement
  split
  · exact h
  · exact .raise

theorem NextOk.goto {stage : Stage} (h : Ok ⟨⟨call, stage⟩, taken⟩ db) :
    NextOk call taken db (goto stage) := h

theorem commit_cases (db : Db) (fate : Fate) (w : Writes) (next : Stage) :
    (∃ db', db.write? w = some db' ∧ (commit db fate w next = (next, .commit db') ∨
      commit db fate w next = (.failed .unexpected, .commit db'))) ∨
      commit db fate w next = Auth.raise .unexpected := by
  unfold commit
  cases hw : db.write? w with
  | none => exact .inr rfl
  | some db' =>
      cases fate with
      | ok => exact .inl ⟨db', rfl, .inl rfl⟩
      | lost => exact .inl ⟨db', rfl, .inr rfl⟩
      | error => exact .inr rfl

theorem NextOk.commit {fate : Fate} {w : Writes} {next : Stage}
    (h : ∀ db', Written w db db' → Ok ⟨⟨call, next⟩, []⟩ db') :
    NextOk call taken db (commit db fate w next) := by
  rcases commit_cases db fate w next with ⟨db', hw, heq | heq⟩ | heq
  · rw [heq]
    exact h db' (Db.written hw)
  · rw [heq]
    trivial
  · rw [heq]
    exact .raise

theorem loginUser_id {password : Text} {now : Instant} {salt : Nat} {user : User} :
    (loginUser C password now salt user).2.id = user.id := by
  unfold loginUser
  split
  · rfl
  · split
    · simp only
      split <;> rfl
    · simp only
      split <;> rfl

theorem newSession_liveOf {user : User} {x : AuthSession} {pair : SessionPair}
    (h : newSession C user a = some (x, pair)) : x.LiveOf user.id := by
  obtain ⟨hash, -, h⟩ := Option.bind_eq_some_iff.mp h
  obtain ⟨⟨token, expires⟩, -, h⟩ := Option.bind_eq_some_iff.mp h
  cases h
  exact ⟨rfl, rfl⟩

theorem nextOk_start : NextOk call taken db (Request.startStep C a db call) := by
  cases call with
  | login username password =>
      apply NextOk.statement
      split
      · exact ⟨rfl, rfl⟩
      · trivial
  | refresh token =>
      simp only [Request.startStep]
      split
      · exact .raise
      · apply NextOk.statement
        split
        · exact .reject
        · trivial
  | changePassword accessToken current new =>
      simp only [Request.startStep]
      split
      · exact .reject
      · apply NextOk.statement
        split
        · exact .reject
        · split
          · trivial
          · exact .reject
  | logout accessToken refreshToken =>
      simp only [Request.startStep]
      split
      · trivial
      · trivial
      · split
        · exact .raise
        · apply NextOk.statement
          split <;> trivial
  | updateStaff actor userId displayName status =>
      simp only [Request.startStep]
      split
      · trivial
      · exact .reject
  | resetStaffPassword actor userId =>
      simp only [Request.startStep]
      split
      · trivial
      · exact .reject
  | resetOwnerPassword password =>
      simp only [Request.startStep]
      split
      · apply NextOk.statement
        split
        · exact .raise
        · trivial
      · exact .raise

theorem holds_updated {loaded assigned : User} (h : .exclusive (.user loaded.id) ∈ taken) :
    (updated loaded assigned).Holds taken loaded.id := ⟨h, rfl⟩

theorem staged_updated {loaded assigned : User} : Staged (updated loaded assigned) taken db :=
  ⟨Writes.locked_of_nil rfl rfl, fun id hid => by cases hid⟩

theorem nextOk_user {user : Option User} (hlock : ∀ u ∈ user, .exclusive (.user u.id) ∈ taken)
    (h : Request.userStep C a user call = some n) : NextOk call taken db n := by
  cases call with
  | login username password =>
      cases h
      split
      · exact ⟨rfl, rfl⟩
      · rename_i user
        simp only
        split
        · refine ⟨staged_updated, rfl, .inr ?_, fun h => h.elim⟩
          rw [loginUser_id]
          exact holds_updated (hlock user rfl)
        · exact ⟨rfl, rfl⟩
  | updateStaff actor userId displayName status =>
      cases h
      split
      · exact .reject
      · rename_i user
        split
        · exact .reject
        · split
          · exact .reject
          · split
            · exact ⟨holds_updated (hlock user rfl), rfl, rfl, rfl⟩
            · rename_i hstatus
              exact ⟨staged_updated, rfl, rfl, fun h => absurd h hstatus⟩
  | resetStaffPassword actor userId =>
      cases h
      split
      · exact .reject
      · rename_i user
        split
        · exact .reject
        · split
          · exact .raise
          · exact ⟨holds_updated (hlock user rfl), rfl, rfl, rfl⟩
  | resetOwnerPassword password =>
      cases h
      split
      · exact .raise
      · rename_i user
        split
        · exact .raise
        · exact ⟨holds_updated (hlock user rfl), rfl, rfl, rfl⟩
  | refresh | changePassword | logout => cases h

theorem nextOk_session {session : Option AuthSession}
    (hsession : ∀ x ∈ session, db.sessions.get? x.id = some x ∧ .exclusive (.session x.id) ∈ taken)
    (h : Request.sessionStep a session call = some n) : NextOk call taken db n := by
  cases call with
  | refresh token =>
      cases h
      split
      · exact .reject
      · rename_i x
        obtain ⟨hx, hlock⟩ := hsession x rfl
        split
        · rename_i hvalid
          have hlive : x.revokedAt = none := by
            simp only [refreshValid, Bool.and_eq_true, beq_iff_eq] at hvalid
            exact hvalid.1.1.2
          refine ⟨⟨⟨fun id hid => ?_, fun x hx => by cases hx⟩, fun id hid => ?_⟩, rfl,
            ⟨x.id, x, List.mem_singleton_self _, hx, rfl, hlive⟩, id⟩
          · obtain rfl := List.mem_singleton.mp hid
            exact hlock
          · obtain rfl := List.mem_singleton.mp hid
            exact Option.isSome_iff_exists.mpr ⟨x, hx⟩
        · exact .reject
  | logout accessToken refreshToken =>
      cases h
      trivial
  | login | changePassword | updateStaff | resetStaffPassword | resetOwnerPassword => cases h

theorem nextOk_change {loaded : User} {stored : Bool}
    (hlock : .exclusive (.user loaded.id) ∈ taken)
    (h : Request.changeStep C a loaded stored call = some n) : NextOk call taken db n := by
  cases call with
  | changePassword accessToken current new =>
      cases h
      split
      · exact ⟨rfl, rfl⟩
      · split
        · exact .reject
        · split
          · exact .raise
          · exact ⟨holds_updated hlock, rfl, rfl, rfl⟩
  | login | refresh | logout | updateStaff | resetStaffPassword | resetOwnerPassword => cases h

theorem nextOk_logoutRecords {records : List AuthSession} {now : Instant} :
    NextOk call taken db (goto (logoutRecords now records)) :=
  ⟨Writes.locked_of_nil rfl rfl, rfl⟩

theorem nextOk_accessSession {records : List AuthSession}
    (h : Request.accessSessionStep C a db records call = some n) : NextOk call taken db n := by
  cases call with
  | logout accessToken refreshToken =>
      cases h
      simp only
      split
      · exact nextOk_logoutRecords
      · apply NextOk.statement
        split
        · exact nextOk_logoutRecords
        · split
          · exact nextOk_logoutRecords
          · exact nextOk_logoutRecords
  | login | refresh | changePassword | updateStaff | resetStaffPassword | resetOwnerPassword =>
      cases h

theorem Written.durable_of_commitOk {w : Writes} {reply : Reply} {locks : List (Lock Row)}
    {db' : Db} (h : Written w db db') (htouches : w.Touches db)
    (hok : CommitOk call w reply locks db) : Durable db' reply where
  issued id hid := by
    rw [hok.issued] at hid
    obtain ⟨x, hx, rfl⟩ := Option.map_eq_some_iff.mp hid
    rw [h.inserted x hx]
    rfl
  revoked id hid := by
    rw [hok.revoked] at hid
    obtain ⟨x, hx⟩ := Option.isSome_iff_exists.mp (htouches id hid)
    obtain ⟨y, hy, hrev⟩ := h.kept hx
    exact ⟨y, hy, hrev.revoked hid⟩

/-- One more session that the transaction has locked and updates. -/
def Writes.revoke (w : Writes) (id : UUID) (now : Instant) : Writes :=
  { w with sessions := w.sessions ++ [(id, ⟨.none, now⟩)] }

section revoke

variable {w : Writes} {id : UUID} {now : Instant}

theorem Writes.mem_revoke {i : UUID} :
    i ∈ (w.revoke id now).sessions.map Prod.fst ↔ i ∈ w.sessions.map Prod.fst ∨ i = id := by
  simp [Writes.revoke]

theorem Writes.Locked.revoke (h : w.Locked taken) (hlock : .exclusive (.session id) ∈ taken) :
    (w.revoke id now).Locked taken where
  sessions i hi := by
    rcases Writes.mem_revoke.mp hi with hi | rfl
    · exact h.sessions i hi
    · exact hlock
  insert := h.insert

theorem Writes.Touches.revoke (h : w.Touches db) (hid : (db.sessions.get? id).isSome) :
    (w.revoke id now).Touches db := by
  intro i hi
  rcases Writes.mem_revoke.mp hi with hi | rfl
  · exact h i hi
  · exact hid

theorem Covers.revoke {u : UUID} {ids : List UUID} (h : Covers db u (id :: ids) w) :
    Covers db u ids (w.revoke id now) := by
  intro i x hx hlive
  rw [Writes.mem_revoke]
  rcases h i x hx hlive with hmem | hmem
  · rcases List.mem_cons.mp hmem with rfl | hmem
    · exact .inr (.inr rfl)
    · exact .inl hmem
  · exact .inr (.inl hmem)

/-- A session that is not live any more needs no update. -/
theorem Covers.skip {u : UUID} {ids : List UUID} (h : Covers db u (id :: ids) w)
    (hid : ∀ x, db.sessions.get? id = some x → ¬x.LiveOf u) : Covers db u ids w := by
  intro i x hx hlive
  rcases h i x hx hlive with hmem | hmem
  · rcases List.mem_cons.mp hmem with rfl | hmem
    · exact absurd hlive (hid x hx)
    · exact .inl hmem
  · exact .inr hmem

end revoke

theorem covers_scan {u : UUID} {w : Writes} :
    Covers db u ((db.sessions.rows.filter fun x => decide (x.LiveOf u)).map (·.id)) w := by
  intro id x hx hlive
  refine .inl (List.mem_map.mpr ⟨x, ?_, Table.key_of_get? hx⟩)
  exact List.mem_filter.mpr ⟨Table.mem_of_get? hx, decide_eq_true hlive⟩

theorem nextOk_revoke {user : User} {now : Instant} {ids : List UUID} {w : Writes} {reply : Reply}
    (hok : Ok ⟨⟨call, .revoke user now ids w reply⟩, taken⟩ db)
    (hlock : ∀ id ∈ ids.head?, .exclusive (.session id) ∈ taken)
    (h : Request.step C a db ⟨call, .revoke user now ids w reply⟩ = some n) :
    NextOk call taken db n := by
  obtain ⟨hholds, hstaged, hinsert, hissued, hcovers⟩ := hok
  cases ids with
  | nil =>
      cases h
      have hcommit (hleaves : call.Leaves user.id w.insert) :
          Ok ⟨⟨call, .commit w { reply with revoked := w.sessions.map Prod.fst }⟩, taken⟩ db :=
        ⟨hstaged, by rw [hinsert]; exact hissued, rfl,
          fun _ => ⟨user.id, hholds, hcovers, hleaves⟩⟩
      cases call with
      | changePassword token current new =>
          exact ⟨hstaged, hinsert, .inr hholds,
            fun _ => ⟨hholds, hcovers, token, current, new, rfl⟩⟩
      | login | refresh | logout | updateStaff | resetStaffPassword | resetOwnerPassword =>
          exact hcommit hinsert
  | cons id rest =>
      cases h
      apply NextOk.statement
      split
      · rename_i hnone
        refine ⟨hholds, hstaged, hinsert, hissued, hcovers.skip fun x hx => ?_⟩
        rw [hnone] at hx
        cases hx
      · rename_i x hx
        split
        · exact ⟨⟨hholds.lock, hholds.user⟩,
            ⟨hstaged.locked.revoke (hlock id rfl),
              hstaged.touches.revoke (Option.isSome_iff_exists.mpr ⟨x, hx⟩)⟩,
            hinsert, hissued, hcovers.revoke⟩
        · rename_i hdead
          refine ⟨hholds, hstaged, hinsert, hissued, hcovers.skip fun y hy => ?_⟩
          obtain rfl := Option.some.inj (hx.symm.trans hy)
          exact hdead

theorem nextOk_insert {user : User} {w : Writes}
    (hok : Ok ⟨⟨call, .insert user w⟩, taken⟩ db) (hlock : .shared (.user user.id) ∈ taken)
    (h : Request.step C a db ⟨call, .insert user w⟩ = some n) : NextOk call taken db n := by
  obtain ⟨hstaged, hinsert, hsource, hcovers⟩ := hok
  cases h
  split
  · exact .raise
  · rename_i x pair hnew
    apply NextOk.statement
    have hlocked : Writes.Locked { w with insert := some x } taken := by
      refine ⟨hstaged.locked.sessions, fun y hy u hu => ⟨.shared, ?_⟩⟩
      obtain rfl := Option.some.inj hy
      obtain rfl := Option.some.inj ((newSession_liveOf hnew).1.symm.trans hu)
      exact hlock
    have hcommit : Ok ⟨⟨call, .commit { w with insert := some x }
        ⟨some pair, some x.id, w.sessions.map Prod.fst, none⟩⟩, taken⟩ db := by
      refine ⟨⟨hlocked, hstaged.touches⟩, rfl, rfl, fun hrevoking => ?_⟩
      obtain ⟨hholds, hcover, token, current, new, rfl⟩ := hcovers hrevoking
      exact ⟨user.id, ⟨hholds.lock, hholds.user⟩, hcover, x, rfl, newSession_liveOf hnew⟩
    cases call with
    | refresh => exact hlocked
    | login | changePassword | logout | updateStaff | resetStaffPassword | resetOwnerPassword =>
        exact hcommit

theorem nextOk_revokeRecords {now : Instant} {records : List AuthSession} {w : Writes}
    (hok : Ok ⟨⟨call, .revokeRecords now records w⟩, taken⟩ db)
    (hlock : ∀ x ∈ records.head?, .exclusive (.session x.id) ∈ taken)
    (h : Request.step C a db ⟨call, .revokeRecords now records w⟩ = some n) :
    NextOk call taken db n := by
  cases records with
  | nil =>
      cases h
      exact hok.1
  | cons x rest =>
      cases h
      apply NextOk.statement
      exact ⟨hok.1.revoke (hlock x rfl), hok.2⟩

/-- Every statement establishes the assertion of the stage it leads to. -/
theorem nextOk_step {r : Request} (hok : Ok ⟨r, taken⟩ db) (hneeds : ∀ l ∈ r.needs, l ∈ taken)
    (h : r.step C a db = some n) : NextOk r.call taken db n := by
  obtain ⟨call, stage⟩ := r
  cases stage with
  | start =>
      cases h
      exact nextOk_start
  | user id =>
      obtain ⟨m, hm, rfl⟩ := Option.map_eq_some_iff.mp h
      refine .statement (nextOk_user (fun u hu => ?_) hm)
      rw [Table.key_of_get? hu]
      exact hneeds _ (List.mem_singleton_self _)
  | session id =>
      obtain ⟨m, hm, rfl⟩ := Option.map_eq_some_iff.mp h
      refine .statement (nextOk_session (fun x hx => ?_) hm)
      rw [Table.key_of_get? hx]
      exact ⟨hx, hneeds _ (List.mem_singleton_self _)⟩
  | authenticate userId role =>
      cases h
      apply NextOk.statement
      split
      · exact .reject
      · split
        · trivial
        · exact .reject
  | change loaded =>
      obtain ⟨m, hm, rfl⟩ := Option.map_eq_some_iff.mp h
      exact .statement (nextOk_change (hneeds _ (List.mem_singleton_self _)) hm)
  | owner x w =>
      obtain ⟨hstaged, hinsert, hrotates, hkeeps⟩ := hok
      cases h
      apply NextOk.statement
      split
      · exact .reject
      · rename_i user huser
        split
        · obtain ⟨u, hu, huser⟩ := Option.bind_eq_some_iff.mp huser
          rw [hu, ← Table.key_of_get? huser] at hrotates
          exact ⟨hstaged, hinsert, .inl hrotates, fun h => absurd h hkeeps⟩
        · exact .reject
  | accessSession records => exact nextOk_accessSession h
  | revokeRecords now records w =>
      refine nextOk_revokeRecords hok (fun x hx => ?_) h
      cases records with
      | nil => cases hx
      | cons y rest =>
          cases hx
          exact hneeds _ (List.mem_singleton_self _)
  | scan user now w reply =>
      obtain ⟨hholds, hsessions, hinsert, hissued⟩ := hok
      cases h
      refine .statement ⟨hholds, ⟨Writes.locked_of_nil hsessions hinsert, fun id hid => ?_⟩, hinsert,
        hissued, covers_scan⟩
      rw [hsessions] at hid
      cases hid
  | revoke user now ids w reply =>
      refine nextOk_revoke hok (fun id hid => ?_) h
      cases ids with
      | nil => cases hid
      | cons i rest =>
          cases hid
          exact hneeds _ (List.mem_singleton_self _)
  | insert user w => exact nextOk_insert hok (hneeds _ (List.mem_singleton_self _)) h
  | deny w failure =>
      cases h
      exact .commit fun db' hw => trivial
  | commit w reply =>
      cases h
      exact .commit fun db' hw => hw.durable_of_commitOk hok.1.touches hok.2
  | respond reply pending =>
      cases h
      cases pending with
      | none => trivial
      | some w => exact hok
  | finish w reply =>
      cases h
      split <;> trivial
  | done | failed | aborted => cases h

end statements

/-! ### Every run -/

/-- What a request commits if its next statement is a commit. -/
def Request.staged (r : Request) : Option Writes :=
  match r.stage with
  | .deny w _ | .commit w _ | .finish w _ => some w
  | _ => none

section runs

variable {C : Context} {a : Answer} {db db' : Db}

/-- Before a transaction has staged everything. -/
def Stage.Open : Stage → Prop
  | .start | .user _ | .session _ | .authenticate _ _ | .change _ | .owner _ _ | .accessSession _
  | .scan _ _ _ _ | .revoke _ _ _ _ _ => True
  | .revokeRecords _ _ _ | .insert _ _ | .deny _ _ | .commit _ _ | .respond _ _ | .finish _ _
  | .done _ | .failed _ | .aborted => False

/-- Stages that an open transaction goes to. -/
def Stage.Ahead : Stage → Prop
  | .respond _ _ | .finish _ _ | .done _ | .failed _ | .aborted => False
  | .revokeRecords _ _ w => w = .none
  | _ => True

/-- A statement of an open transaction: it fails, or goes on and changes nothing. -/
inductive Goes : Next → Prop
  | raise (failure : Failure) : Goes (raise failure)
  | goto {stage : Stage} (h : stage.Ahead) : Goes (goto stage)

theorem Goes.reject (error : DomainError) : Goes (reject error) := .raise _

theorem Goes.statement {fate : Fate} {n : Next} (h : Goes n) : Goes (statement fate n) := by
  unfold Auth.statement
  split
  · exact h
  · exact .raise _

theorem Goes.ne_commit {n : Next} (h : Goes n) : n.2 ≠ .commit db' := by
  intro heq
  cases h <;> cases heq

theorem statement_ne_commit {fate : Fate} {n : Next} (h : n.2 ≠ .commit db') :
    (statement fate n).2 ≠ .commit db' := by
  unfold statement
  split
  · exact h
  · intro heq
    cases heq

theorem goes_start {call : Call} : Goes (Request.startStep C a db call) := by
  cases call <;> simp only [Request.startStep] <;>
    repeat' first | exact Goes.goto trivial | exact Goes.raise _ | apply Goes.statement | split

theorem goes_user {call : Call} {user : Option User} {n : Next}
    (h : Request.userStep C a user call = some n) : Goes n := by
  cases call <;> cases h <;>
    repeat' first | exact Goes.goto trivial | exact Goes.raise _ | split

theorem goes_session {call : Call} {session : Option AuthSession} {n : Next}
    (h : Request.sessionStep a session call = some n) : Goes n := by
  cases call <;> cases h
  all_goals repeat' first | exact Goes.goto trivial | exact Goes.raise _ | split

theorem goes_change {call : Call} {loaded : User} {stored : Bool} {n : Next}
    (h : Request.changeStep C a loaded stored call = some n) : Goes n := by
  cases call <;> cases h
  all_goals repeat' first | exact Goes.goto trivial | exact Goes.raise _ | split

theorem goes_accessSession {call : Call} {records : List AuthSession} {n : Next}
    (h : Request.accessSessionStep C a db records call = some n) : Goes n := by
  cases call <;> cases h
  simp only
  repeat' first | exact Goes.goto rfl | exact Goes.raise _ | apply Goes.statement | split

theorem goes_revoke {user : User} {w : Writes} {reply : Reply} {call : Call} :
    Goes (goto (Request.revoked user w reply call)) := by
  cases call <;> exact .goto trivial

theorem goes_of_open {r : Request} {n : Next} (hopen : r.stage.Open)
    (h : r.step C a db = some n) : Goes n := by
  obtain ⟨call, stage⟩ := r
  cases stage with
  | start =>
      cases h
      exact goes_start
  | user id =>
      obtain ⟨m, hm, rfl⟩ := Option.map_eq_some_iff.mp h
      exact (goes_user hm).statement
  | session id =>
      obtain ⟨m, hm, rfl⟩ := Option.map_eq_some_iff.mp h
      exact (goes_session hm).statement
  | change loaded =>
      obtain ⟨m, hm, rfl⟩ := Option.map_eq_some_iff.mp h
      exact (goes_change hm).statement
  | accessSession records => exact goes_accessSession h
  | authenticate | owner | scan | revoke =>
      cases h
      repeat' first
        | exact Goes.goto trivial | exact goes_revoke | exact Goes.raise _
        | apply Goes.statement | split
  | revokeRecords | insert | deny | commit | respond | finish | done | failed | aborted =>
      exact hopen.elim

theorem write_of_commit {fate : Fate} {w : Writes} {next stage : Stage}
    (h : commit db fate w next = (stage, .commit db')) : db.write? w = some db' := by
  rcases commit_cases db fate w next with ⟨db'', hw, heq | heq⟩ | heq
  · rw [heq] at h
    cases h
    exact hw
  · rw [heq] at h
    cases h
    exact hw
  · rw [heq] at h
    cases h

/-- Only a staged transaction commits, and what it has staged. -/
theorem staged_of_commit {r : Request} {stage : Stage}
    (h : r.step C a db = some (stage, .commit db')) :
    ∃ w, r.staged = some w ∧ db.write? w = some db' := by
  obtain ⟨call, stage'⟩ := r
  cases stage' with
  | start | user | session | authenticate | change | owner | accessSession | scan | revoke =>
      refine absurd rfl (goes_of_open ?_ h).ne_commit
      trivial
  | revokeRecords now records w =>
      cases records with
      | nil => cases h
      | cons x rest =>
          have hquiet : (goto (.revokeRecords now rest (w.revoke x.id now))).2 ≠ .commit db' := by
            intro heq
            cases heq
          exact absurd (congrArg Prod.snd (Option.some.inj h)) (statement_ne_commit hquiet)
  | insert user w =>
      simp only [Request.step] at h
      split at h
      · cases h
      · rename_i x pair hnew
        have hquiet : (goto (Request.issued x pair w call)).2 ≠ .commit db' := by
          intro heq
          cases heq
        exact absurd (congrArg Prod.snd (Option.some.inj h)) (statement_ne_commit hquiet)
  | respond reply pending => cases pending <;> cases h
  | deny w failure | commit w reply => exact ⟨w, rfl, write_of_commit (Option.some.inj h)⟩
  | finish w reply =>
      refine ⟨w, rfl, ?_⟩
      simp only [Request.step] at h
      split at h
      · cases h
        assumption
      · cases h
  | done | failed | aborted => cases h

/-- The locks behind a commit. -/
theorem locked_of_ok {r : Request} {locks : List (Lock Row)} {w : Writes}
    (hok : Ok ⟨r, locks⟩ db) (hw : r.staged = some w) : w.Locked locks := by
  obtain ⟨call, stage⟩ := r
  cases stage with
  | deny v failure =>
      cases hw
      exact Writes.locked_of_nil hok.1 hok.2
  | commit v reply =>
      cases hw
      exact hok.1.locked
  | finish v reply =>
      cases hw
      exact hok
  | start | user | session | authenticate | change | owner | accessSession | revokeRecords | scan
  | revoke | insert | respond | done | failed | aborted => cases hw

theorem needs_of_staged {r : Request} {w : Writes} (hw : r.staged = some w) : r.needs = [] := by
  obtain ⟨call, stage⟩ := r
  cases stage <;> first | rfl | cases hw

theorem program_step {r r' : Request} {e : Effect Db}
    (h : (program C).step a db r = some (r', e)) :
    r' = { r with stage := r'.stage } ∧ r.step C a db = some (r'.stage, e) := by
  obtain ⟨n, hn, heq⟩ := Option.map_eq_some_iff.mp h
  cases heq
  exact ⟨rfl, hn⟩

theorem outline : Program.Outline (program C) (fun _ => True) Ok where
  start hI hinit := by
    rename_i r db
    obtain ⟨call, stage⟩ := r
    obtain rfl : stage = .start := of_decide_eq_true hinit
    trivial
  abort hok := by
    rename_i c db
    obtain ⟨⟨call, stage⟩, locks⟩ := c
    cases stage <;> trivial
  own hI hok hstep := by
    rename_i a c db r e
    obtain ⟨hr, hstep⟩ := program_step hstep
    rw [hr]
    have htaken := hok.mono fun l hl => List.mem_append_left c.pc.needs hl
    exact ⟨trivial, nextOk_step htaken (fun l hl => List.mem_append_right _ hl) hstep⟩
  other hI hown hok hstep hfree := by
    rename_i a c d db r e
    obtain ⟨-, hstep⟩ := program_step hstep
    cases e with
    | proceed | release => exact hok
    | commit db' =>
        obtain ⟨w, hw, hwrite⟩ := staged_of_commit hstep
        refine hok.written (Db.written hwrite) (locked_of_ok hown hw) fun l hl => ?_
        exact hfree l (List.mem_append_left _ hl)

/-- In every reachable state every request knows of the database what its stage says. -/
theorem ok_of_reachable {db : Db} {s : AuthState} (h : Reachable (next C) (State.init db) s)
    {i : Nat} {c : Client Request Row} (hc : s.clients[i]? = some c) : Ok c s.db :=
  ((outline (C := C)).reachable h trivial).2 i c hc

end runs

end SuperBoss.Auth
