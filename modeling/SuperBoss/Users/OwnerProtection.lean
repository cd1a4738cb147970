import SuperBoss.Auth.Disclosure
import SuperBoss.Devices.Isolation
import SuperBoss.Users.System

/-!
The accounts of the web API: nothing but the OWNER's own password touches what
protects the OWNER, and a request that is refused for the OWNER's sake has
changed nothing.
-/

namespace SuperBoss.Users

open SuperBoss.Core
open SuperBoss.Library
open SuperBoss.Library.Transactions
open SuperBoss.Library.Transition
open SuperBoss.Auth (User UserTable UserUpdate verifyPassword validatePassword accessClaims)

/-- How a request sets the password hash of its own user `row`: a login rehashes
the password that it has verified, and a password change names the user by its
access token and has verified the current password against a row of the user. -/
inductive OwnPassword (C : Auth.Context) (seen : User → Prop) : Auth.Call → User → Text → Prop
  | rehash {row : User} {password : Text} (salt : Nat)
      (hverify : verifyPassword C row.passwordHash password = true)
      (hrehash : C.hasher.needsRehash row.passwordHash = true) :
      OwnPassword C seen (.login row.username password) row (C.hasher.hash salt password)
  | change {row loaded : User} {token : Option Text} {current new : Text} {now : Instant}
      {sessionId : UUID} {claims : AccessClaims} (salt : Nat)
      (hclaims : token.bind (accessClaims C now) = some (sessionId, row.id, claims))
      (hseen : seen loaded) (hid : loaded.id = row.id)
      (hverify : verifyPassword C loaded.passwordHash current = true)
      (hvalid : validatePassword new = true) :
      OwnPassword C seen (.changePassword token current new) row (C.hasher.hash salt new)

/-- An update of a user's row leaves the status of an OWNER alone, and sets a
password hash only for its own OWNER. -/
def Permits (C : Auth.Context) (seen : User → Prop) (call : Auth.Call) (row : User)
    (u : UserUpdate) : Prop :=
  row.role = .owner → u.status = none ∧ ∀ hash, u.passwordHash = some hash →
    OwnPassword C seen call row hash

/-- The update of a user that a transaction stages: its row is locked, and it is
one that the row permits. -/
def UpdateOk (C : Auth.Context) (seen : User → Prop) (call : Auth.Call) (locks : List (Lock Row))
    (users : UserTable) (w : Auth.Writes) : Prop :=
  ∀ id u, w.user = some (id, u) → .exclusive (.user id) ∈ locks ∧
    ∃ row, users.get? id = some row ∧ Permits C seen call row u

/-- The access token of a password change names user `id`. -/
def TokenFor (C : Auth.Context) (call : Auth.Call) (id : UUID) : Prop :=
  ∃ token current new now sessionId claims, call = .changePassword token current new ∧
    token.bind (accessClaims C now) = some (sessionId, id, claims)

def Named (users : UserTable) (id : UUID) (username : Text) : Prop :=
  ∃ row, users.get? id = some row ∧ row.username = username

def BrowserOk (C : Auth.Context) (seen : User → Prop) (r : Auth.Request) (locks : List (Lock Row))
    (users : UserTable) : Prop :=
  match r.stage with
  | .start => fromBrowser r = true
  | .user id => fromBrowser r = true ∧
      ∀ username password, r.call = .login username password → Named users id username
  | .authenticate userId _ => TokenFor C r.call userId
  | .change loaded => seen loaded ∧ TokenFor C r.call loaded.id ∧
      (users.get? loaded.id).isSome = true
  | .owner _ w | .revokeRecords _ _ w | .respond _ (some w) | .finish w _ => w.user = none
  | .scan _ _ w _ | .revoke _ _ _ w _ | .commit w _ => UpdateOk C seen r.call locks users w
  | .insert _ w => UpdateOk C seen r.call locks users w ∧
      ∀ token, r.call = .refresh token → w.user = none
  | .deny w failure => UpdateOk C seen r.call locks users w ∧
      (∀ id u, w.user = some (id, u) → u.passwordHash = none) ∧
      failure = .domain Auth.authenticationFailedError
  | .session _ | .accessSession _ | .respond _ none | .done _ | .failed _ | .aborted => True

/-- Users that are added are STAFF. -/
def StaffOk (r : Request) : Prop :=
  match r.stage with
  | .insertMembers _ w _ | .commit w _ => ∀ u, w.user = some u → u.role = .staff
  | _ => True

def AccountsOk (C : Context) (seen : User → Prop) (c : Client ApiRequest Row) (db : Db) : Prop :=
  match c.pc with
  | .inl r => BrowserOk C.auth seen r c.locks db.users
  | .inr (.inl r) => StaffOk r
  | .inr (.inr _) => True

/-! ### What others may change -/

/-- Users stay, with their names and roles; those that are locked stay as they are. -/
structure Spared (locks : List (Lock Row)) (users users' : UserTable) : Prop where
  kept : ∀ {id row}, users.get? id = some row → ∃ row', users'.get? id = some row' ∧
    row'.username = row.username ∧ (.exclusive (.user id) ∈ locks → row' = row)

section spared

variable {C : Auth.Context} {seen : User → Prop} {call : Auth.Call} {locks taken : List (Lock Row)}
  {users users' : UserTable}

theorem Spared.refl : Spared locks users users := ⟨fun h => ⟨_, h, rfl, fun _ => rfl⟩⟩

theorem Named.spared (h : Spared locks users users') {id : UUID} {username : Text}
    (hnamed : Named users id username) : Named users' id username := by
  obtain ⟨row, hrow, rfl⟩ := hnamed
  obtain ⟨row', hrow', hname, -⟩ := h.kept hrow
  exact ⟨row', hrow', hname⟩

theorem UpdateOk.spared (h : Spared locks users users') {w : Auth.Writes}
    (hw : UpdateOk C seen call locks users w) : UpdateOk C seen call locks users' w := by
  intro id u hu
  obtain ⟨hlock, row, hrow, hpermits⟩ := hw id u hu
  obtain ⟨row', hrow', -, hsame⟩ := h.kept hrow
  obtain rfl := hsame hlock
  exact ⟨hlock, row', hrow', hpermits⟩

theorem UpdateOk.mono {w : Auth.Writes} (hw : UpdateOk C seen call locks users w)
    (hsub : ∀ l ∈ locks, l ∈ taken) : UpdateOk C seen call taken users w := by
  intro id u hu
  obtain ⟨hlock, hrow⟩ := hw id u hu
  exact ⟨hsub _ hlock, hrow⟩

theorem UpdateOk.of_none {w : Auth.Writes} (hw : w.user = none) :
    UpdateOk C seen call locks users w := by
  intro id u hu
  rw [hw] at hu
  cases hu

theorem BrowserOk.spared (h : Spared locks users users') {r : Auth.Request}
    (hok : BrowserOk C seen r locks users) : BrowserOk C seen r locks users' := by
  obtain ⟨call, stage⟩ := r
  cases stage with
  | user id =>
      exact ⟨hok.1, fun username password hcall => (hok.2 username password hcall).spared h⟩
  | change loaded =>
      obtain ⟨hseen, htoken, hstored⟩ := hok
      obtain ⟨row, hrow⟩ := Option.isSome_iff_exists.mp hstored
      obtain ⟨row', hrow', -⟩ := h.kept hrow
      exact ⟨hseen, htoken, Option.isSome_iff_exists.mpr ⟨row', hrow'⟩⟩
  | scan user now w reply | revoke user now ids w reply | commit w reply =>
      exact UpdateOk.spared h hok
  | insert user w => exact ⟨hok.1.spared h, hok.2⟩
  | deny w failure => exact ⟨hok.1.spared h, hok.2⟩
  | respond reply pending =>
      cases pending with
      | none => trivial
      | some w => exact hok
  | start | authenticate | owner | revokeRecords | finish => exact hok
  | session | accessSession | done | failed | aborted => trivial

theorem BrowserOk.mono {r : Auth.Request} (hok : BrowserOk C seen r locks users)
    (hsub : ∀ l ∈ locks, l ∈ taken) : BrowserOk C seen r taken users := by
  obtain ⟨call, stage⟩ := r
  cases stage with
  | scan user now w reply | revoke user now ids w reply | commit w reply =>
      exact UpdateOk.mono hok hsub
  | insert user w => exact ⟨hok.1.mono hsub, hok.2⟩
  | deny w failure => exact ⟨hok.1.mono hsub, hok.2⟩
  | respond reply pending =>
      cases pending with
      | none => trivial
      | some w => exact hok
  | start | user | authenticate | change | owner | revokeRecords | finish => exact hok
  | session | accessSession | done | failed | aborted => trivial

end spared

/-! ### What the statements of a browser's request stage -/

section statements

variable {C : Auth.Context} {seen : User → Prop} {call : Auth.Call} {taken : List (Lock Row)}
  {db : Auth.Db} {n : Auth.Next} {a : Auth.Answer}

/-- The assertion after a statement that was run with the locks `taken`. -/
def BrowserNext (C : Auth.Context) (seen : User → Prop) (call : Auth.Call)
    (taken : List (Lock Row)) (db : Auth.Db) (n : Auth.Next) : Prop :=
  BrowserOk C seen ⟨call, n.1⟩ (n.2.locks taken) (n.2.db db).users

theorem BrowserNext.raise {failure : Failure} :
    BrowserNext C seen call taken db (Auth.raise failure) := trivial

theorem BrowserNext.reject {error : DomainError} :
    BrowserNext C seen call taken db (Auth.reject error) := trivial

theorem BrowserNext.goto {stage : Auth.Stage} (h : BrowserOk C seen ⟨call, stage⟩ taken db.users) :
    BrowserNext C seen call taken db (Auth.goto stage) := h

theorem BrowserNext.statement {fate : Files.Fate} (h : BrowserNext C seen call taken db n) :
    BrowserNext C seen call taken db (Auth.statement fate n) := by
  unfold Auth.statement
  split
  · exact h
  · exact .raise

theorem BrowserNext.commit {fate : Files.Fate} {w : Auth.Writes} {stage : Auth.Stage}
    (h : ∀ db', BrowserOk C seen ⟨call, stage⟩ [] db') :
    BrowserNext C seen call taken db (Auth.commit db fate w stage) := by
  rcases Auth.commit_cases db fate w stage with ⟨db', -, heq | heq⟩ | heq
  · rw [heq]
    exact h db'.users
  · rw [heq]
    trivial
  · rw [heq]
    exact .raise

theorem userByName_spec {username : Text} {row : User} (h : db.userByName username = some row) :
    Named db.users row.id username := by
  have hfound := List.find?_some h
  exact ⟨row, Table.get?_of_mem (List.mem_of_find?_eq_some h), of_decide_eq_true hfound⟩

theorem browserNext_start (hbrowser : fromBrowser ⟨call, .start⟩ = true) :
    BrowserNext C seen call taken db (Auth.Request.startStep C a db call) := by
  cases call with
  | login username password =>
      apply BrowserNext.statement
      split
      · exact ⟨.of_none rfl, ⟨fun id u hu => (by cases hu), rfl⟩⟩
      · rename_i row hrow
        refine .goto ⟨rfl, fun name given hcall => ?_⟩
        cases hcall
        exact userByName_spec hrow
  | refresh token =>
      simp only [Auth.Request.startStep]
      split
      · exact .raise
      · apply BrowserNext.statement
        split
        · exact .reject
        · trivial
  | changePassword token current new =>
      simp only [Auth.Request.startStep]
      split
      · exact .reject
      · rename_i sessionId userId claims hclaims
        apply BrowserNext.statement
        split
        · exact .reject
        · split
          · exact .goto ⟨token, current, new, a.now, sessionId, claims, rfl, hclaims⟩
          · exact .reject
  | logout accessToken refreshToken =>
      simp only [Auth.Request.startStep]
      split
      · trivial
      · trivial
      · split
        · exact .raise
        · apply BrowserNext.statement
          split <;> trivial
  | updateStaff actor userId displayName status =>
      simp only [Auth.Request.startStep]
      split
      · exact .goto ⟨rfl, fun username password hcall => by cases hcall⟩
      · exact .reject
  | resetStaffPassword actor userId =>
      simp only [Auth.Request.startStep]
      split
      · exact .goto ⟨rfl, fun username password hcall => by cases hcall⟩
      · exact .reject
  | resetOwnerPassword password => cases hbrowser

/-- A login leaves the name and the status of the user; it sets a password hash
only where it succeeds, and only to rehash the password that it has verified. -/
theorem loginUser_keeps (password : Text) (now : Instant) (salt : Nat) (row : User) :
    (Auth.loginUser C password now salt row).2.status = row.status ∧
      ((Auth.loginUser C password now salt row).2.passwordHash = row.passwordHash ∨
        (Auth.loginUser C password now salt row).1 = true ∧
          verifyPassword C row.passwordHash password = true ∧
          C.hasher.needsRehash row.passwordHash = true ∧
          (Auth.loginUser C password now salt row).2.passwordHash = C.hasher.hash salt password) := by
  unfold Auth.loginUser
  split
  · exact ⟨rfl, .inl rfl⟩
  · obtain ⟨cleared, hcleared⟩ : ∃ cleared, cleared = if row.lockedUntil.isSome then
        { row with lockedUntil := none, failedLoginCount := 0 } else row := ⟨_, rfl⟩
    have hstatus : cleared.status = row.status := by
      rw [hcleared]
      split <;> rfl
    have hhash : cleared.passwordHash = row.passwordHash := by
      rw [hcleared]
      split <;> rfl
    simp only [← hcleared]
    split
    · exact ⟨hstatus, .inl hhash⟩
    · rename_i hverify
      refine ⟨hstatus, ?_⟩
      rw [hhash] at hverify ⊢
      split
      · rename_i hrehash
        refine .inr ⟨rfl, ?_, hrehash, rfl⟩
        simpa using fun h => hverify (.inl h)
      · exact .inl rfl

theorem changed_none {α : Type} [DecidableEq α] {x y : α} (h : y = x) :
    UserUpdate.changed x y = none := if_pos h.symm

theorem changed_some {α : Type} [DecidableEq α] {x y z : α}
    (h : UserUpdate.changed x y = some z) : y = z ∧ x ≠ y := by
  unfold UserUpdate.changed at h
  split at h
  · cases h
  · cases h
    exact ⟨rfl, by assumption⟩

/-- A row that was read under its lock, with the attributes that are assigned to it. -/
theorem updateOk_updated {row loaded assigned : User} (hlock : .exclusive (.user row.id) ∈ taken)
    (hrow : db.users.get? row.id = some row) (hid : loaded.id = row.id)
    (h : Permits C seen call row (.flush loaded assigned)) :
    UpdateOk C seen call taken db.users (Auth.updated loaded assigned) := by
  intro id u hu
  obtain ⟨rfl, rfl⟩ := Prod.mk.inj (Option.some.inj hu)
  rw [hid]
  exact ⟨hlock, row, hrow, h⟩

theorem permits_staff {row : User} {u : UserUpdate} (h : row.role ≠ .owner) :
    Permits C seen call row u := fun howner => absurd howner h

theorem browserNext_user {user : Option User} (hbrowser : fromBrowser ⟨call, .start⟩ = true)
    (hrow : ∀ row, user = some row →
      .exclusive (.user row.id) ∈ taken ∧ db.users.get? row.id = some row)
    (hname : ∀ row username password, user = some row → call = .login username password →
      row.username = username)
    (h : Auth.Request.userStep C a user call = some n) : BrowserNext C seen call taken db n := by
  cases call with
  | login username password =>
      cases h
      split
      · exact ⟨.of_none rfl, ⟨fun id u hu => (by cases hu), rfl⟩⟩
      · rename_i row
        obtain ⟨hlock, hstored⟩ := hrow row rfl
        obtain rfl := hname row username password rfl rfl
        obtain ⟨hstatus, hhash⟩ := loginUser_keeps (C := C) password a.now a.salt row
        have hok : UpdateOk C seen (.login row.username password) taken db.users
            (Auth.updated row (Auth.loginUser C password a.now a.salt row).2) := by
          refine updateOk_updated hlock hstored rfl fun _ => ⟨changed_none hstatus, fun hash hset => ?_⟩
          obtain ⟨hassigned, hne⟩ := changed_some hset
          rcases hhash with hhash | ⟨-, hverify, hrehash, hhash⟩
          · exact absurd hhash.symm hne
          · rw [← hassigned, hhash]
            exact .rehash a.salt hverify hrehash
        simp only
        split
        · exact ⟨hok, fun token htoken => by cases htoken⟩
        · rename_i hrefused
          refine ⟨hok, fun id u hu => ?_, rfl⟩
          obtain ⟨-, rfl⟩ := Prod.mk.inj (Option.some.inj hu)
          rcases hhash with hhash | ⟨haccepted, -⟩
          · exact changed_none hhash
          · exact absurd haccepted hrefused
  | updateStaff actor userId displayName status =>
      cases h
      split
      · exact .reject
      · rename_i row
        obtain ⟨hlock, hstored⟩ := hrow row rfl
        split
        · exact .reject
        · rename_i hstaff
          split
          · exact .reject
          · split
            · exact updateOk_updated hlock hstored rfl (permits_staff hstaff)
            · exact updateOk_updated hlock hstored rfl (permits_staff hstaff)
  | resetStaffPassword actor userId =>
      cases h
      split
      · exact .reject
      · rename_i row
        obtain ⟨hlock, hstored⟩ := hrow row rfl
        split
        · exact .reject
        · rename_i hstaff
          split
          · exact .raise
          · exact updateOk_updated hlock hstored rfl (permits_staff hstaff)
  | resetOwnerPassword password => cases hbrowser
  | refresh | changePassword | logout => cases h

theorem browserNext_change {loaded : User} {stored : Bool} (hseen : seen loaded)
    (htoken : TokenFor C call loaded.id) (hlock : .exclusive (.user loaded.id) ∈ taken)
    (hstored : (db.users.get? loaded.id).isSome = true)
    (h : Auth.Request.changeStep C a loaded stored call = some n) :
    BrowserNext C seen call taken db n := by
  obtain ⟨token, current, new, now, sessionId, claims, rfl, hclaims⟩ := htoken
  obtain ⟨row, hrow⟩ := Option.isSome_iff_exists.mp hstored
  have hid : row.id = loaded.id := Table.key_of_get? hrow
  cases h
  split
  · exact ⟨.of_none rfl, ⟨fun id u hu => (by cases hu), rfl⟩⟩
  · rename_i hchecks
    have hverify : verifyPassword C loaded.passwordHash current = true := by
      simpa using fun h => hchecks (.inr (.inr h))
    split
    · exact .reject
    · split
      · exact .raise
      · rename_i hash hhash
        obtain ⟨hvalid, rfl⟩ : validatePassword new = true ∧ C.hasher.hash a.salt new = hash := by
          unfold Auth.hashPassword at hhash
          split at hhash
          · exact ⟨by assumption, Option.some.inj hhash⟩
          · cases hhash
        rw [← hid] at hlock hrow hclaims
        refine updateOk_updated hlock hrow hid.symm fun _ => ⟨changed_none rfl, fun hash hset => ?_⟩
        rw [← (changed_some hset).1]
        exact .change a.salt hclaims hseen hid.symm hverify hvalid

theorem browserNext_accessSession {records : List Auth.AuthSession}
    (h : Auth.Request.accessSessionStep C a db records call = some n) :
    BrowserNext C seen call taken db n := by
  cases call with
  | logout accessToken refreshToken =>
      cases h
      simp only
      split
      · exact .goto rfl
      · apply BrowserNext.statement
        split
        · exact .goto rfl
        · split
          · exact .goto rfl
          · exact .goto rfl
  | login | refresh | changePassword | updateStaff | resetStaffPassword | resetOwnerPassword =>
      cases h

theorem browserNext_step {r : Auth.Request} (hok : BrowserOk C seen r taken db.users)
    (hseen : ∀ row ∈ db.users.rows, seen row)
    (hneeds : ∀ l ∈ r.needs, l.map Row.ofAuth ∈ taken) (h : r.step C a db = some n) :
    BrowserNext C seen r.call taken db n := by
  obtain ⟨call, stage⟩ := r
  cases stage with
  | start =>
      cases h
      exact browserNext_start hok
  | user id =>
      obtain ⟨m, hm, rfl⟩ := Option.map_eq_some_iff.mp h
      obtain ⟨hbrowser, hnamed⟩ := hok
      refine .statement (browserNext_user hbrowser (fun row hrow => ?_)
        (fun row username password hrow hcall => ?_) hm)
      · obtain rfl : row.id = id := Table.key_of_get? hrow
        exact ⟨hneeds _ (List.mem_singleton_self _), hrow⟩
      · obtain ⟨row', hrow', hname⟩ := hnamed username password hcall
        rw [← Option.some.inj (hrow'.symm.trans hrow), hname]
  | session id =>
      obtain ⟨m, hm, rfl⟩ := Option.map_eq_some_iff.mp h
      apply BrowserNext.statement
      cases call <;> cases hm
      · split
        · exact .reject
        · split
          · exact .goto rfl
          · exact .reject
      · exact .goto trivial
  | authenticate userId role =>
      cases h
      apply BrowserNext.statement
      split
      · exact .reject
      · rename_i row hrow
        split
        · obtain rfl : row.id = userId := Table.key_of_get? hrow
          refine .goto ⟨hseen row (Table.mem_of_get? hrow), hok, ?_⟩
          rw [hrow]
          rfl
        · exact .reject
  | change loaded =>
      obtain ⟨m, hm, rfl⟩ := Option.map_eq_some_iff.mp h
      obtain ⟨hloaded, htoken, hstored⟩ := hok
      exact .statement (browserNext_change hloaded htoken (hneeds _ (List.mem_singleton_self _))
        hstored hm)
  | owner x w =>
      have hnone : w.user = none := hok
      cases h
      apply BrowserNext.statement
      split
      · exact .reject
      · split
        · exact .goto ⟨.of_none hnone, fun token htoken => hnone⟩
        · exact .reject
  | accessSession records => exact browserNext_accessSession h
  | revokeRecords now records w =>
      have hnone : w.user = none := hok
      cases h
      split
      · exact .goto hnone
      · exact .statement (.goto hnone)
  | scan user now w reply =>
      cases h
      exact .statement (.goto hok)
  | revoke user now ids w reply =>
      have hupdate : UpdateOk C seen call taken db.users w := hok
      cases h
      split
      · cases call with
        | changePassword token current new =>
            exact .goto ⟨hupdate, fun token htoken => by cases htoken⟩
        | login | refresh | logout | updateStaff | resetStaffPassword | resetOwnerPassword =>
            exact .goto hupdate
      · apply BrowserNext.statement
        split
        · exact .goto hupdate
        · split
          · exact .goto hupdate
          · exact .goto hupdate
  | insert user w =>
      obtain ⟨hupdate, hnone⟩ := hok
      cases h
      split
      · exact .raise
      · apply BrowserNext.statement
        cases call with
        | refresh token => exact .goto (hnone token rfl)
        | login | changePassword | logout | updateStaff | resetStaffPassword
        | resetOwnerPassword => exact .goto hupdate
  | deny w failure =>
      cases h
      exact .commit fun users => trivial
  | commit w reply =>
      cases h
      exact .commit fun users => trivial
  | respond reply pending =>
      cases h
      split
      · trivial
      · exact .goto hok
  | finish w reply =>
      cases h
      split <;> trivial
  | done | failed | aborted => cases h

end statements

/-! ### What a step does to the accounts -/

/-- What a step of request `pc` does to the users: they stay, with their names and
roles; an OWNER's status stays, and its password hash changes only when a request
of that OWNER commits; users that are added are STAFF. -/
structure Guards (C : Auth.Context) (seen : User → Prop) (pc : ApiRequest)
    (users users' : UserTable) : Prop where
  kept : ∀ {id row}, users.get? id = some row → ∃ row', users'.get? id = some row' ∧
    row'.username = row.username ∧ row'.role = row.role ∧ (row.role = .owner →
      row'.status = row.status ∧ (row'.passwordHash ≠ row.passwordHash → ∃ call w reply,
        pc = .inl ⟨call, .commit w reply⟩ ∧ OwnPassword C seen call row row'.passwordHash))
  added : ∀ {id row'}, users'.get? id = some row' → users.get? id = none → row'.role = .staff

section effects

variable {C : Context} {seen : User → Prop} {locks taken : List (Lock Row)}

theorem Guards.refl {pc : ApiRequest} {users : UserTable} : Guards C.auth seen pc users users where
  kept h := ⟨_, h, rfl, rfl, fun _ => ⟨rfl, fun hne => absurd rfl hne⟩⟩
  added h hnone := by
    rw [hnone] at h
    cases h

/-- The users that a browser's transaction writes. -/
theorem users_of_write {db db' : Auth.Db} {w : Auth.Writes} (h : db.write? w = some db') :
    db'.users = db.updateUser w.user := by
  unfold Auth.Db.write? at h
  split at h
  · cases h
    rfl
  · simp only at h
    split at h
    · obtain ⟨sessions, -, rfl⟩ := Option.map_eq_some_iff.mp h
      rfl
    · cases h

theorem get?_updateUser (db : Auth.Db) (i id : UUID) (u : UserUpdate) :
    (db.updateUser (some (i, u))).get? id =
      if id = i then (db.users.get? id).map u.apply else db.users.get? id := by
  show (db.users.modify i u.apply u.keeps).get? id = _
  rw [Table.get?_modify]

theorem guards_update {r : Auth.Request} {w : Auth.Writes} {db : Auth.Db}
    (hw : UpdateOk C.auth seen r.call taken db.users w)
    (hhash : ∀ id u, w.user = some (id, u) → u.passwordHash ≠ none →
      ∃ reply, r.stage = .commit w reply) :
    Guards C.auth seen (.inl r) db.users (db.updateUser w.user) := by
  cases huser : w.user with
  | none => exact .refl
  | some p =>
      obtain ⟨i, u⟩ := p
      obtain ⟨-, row, hrow, hpermits⟩ := hw i u huser
      refine ⟨fun {id x} hx => ?_, fun {id y} hy hnone => ?_⟩
      · by_cases hid : id = i
        · obtain rfl := hid
          obtain rfl := Option.some.inj (hrow.symm.trans hx)
          have hupdated : (db.updateUser (some (id, u))).get? id = some (u.apply row) := by
            rw [get?_updateUser, if_pos rfl, hx]
            rfl
          refine ⟨u.apply row, hupdated, rfl, rfl, fun howner => ?_⟩
          obtain ⟨hstatus, hpassword⟩ := hpermits howner
          refine ⟨?_, fun hne => ?_⟩
          · show u.status.getD row.status = row.status
            rw [hstatus]
            rfl
          · cases hset : u.passwordHash with
            | none =>
                refine absurd ?_ hne
                show u.passwordHash.getD row.passwordHash = row.passwordHash
                rw [hset]
                rfl
            | some hash =>
                obtain ⟨reply, hstage⟩ := hhash id u huser (by simp [hset])
                refine ⟨r.call, w, reply, by rw [← hstage], ?_⟩
                have happly : (u.apply row).passwordHash = hash := by
                  show u.passwordHash.getD row.passwordHash = hash
                  rw [hset]
                  rfl
                rw [happly]
                exact hpassword hash hset
        · have hsame : (db.updateUser (some (i, u))).get? id = db.users.get? id := by
            rw [get?_updateUser, if_neg hid]
          exact ⟨x, hsame.trans hx, rfl, rfl, fun _ => ⟨rfl, fun hne => absurd rfl hne⟩⟩
      · have hgone : (db.updateUser (some (i, u))).get? id = none := by
          rw [get?_updateUser, hnone]
          split <;> rfl
        rw [hgone] at hy
        cases hy

theorem spared_update {call : Auth.Call} {w : Auth.Writes} {db : Auth.Db}
    (hw : UpdateOk C.auth seen call taken db.users w)
    (hfree : ∀ l ∈ taken, ∀ m ∈ locks, ¬l.Conflicts m) :
    Spared locks db.users (db.updateUser w.user) := by
  cases huser : w.user with
  | none => exact .refl
  | some p =>
      obtain ⟨i, u⟩ := p
      refine ⟨fun {id x} hx => ?_⟩
      by_cases hid : id = i
      · obtain rfl := hid
        have hupdated : (db.updateUser (some (id, u))).get? id = some (u.apply x) := by
          rw [get?_updateUser, if_pos rfl, hx]
          rfl
        refine ⟨u.apply x, hupdated, rfl, fun hlock => ?_⟩
        exact absurd (Lock.exclusive_conflicts _ _) (hfree _ (hw id u huser).1 _ hlock)
      · have hsame : (db.updateUser (some (i, u))).get? id = db.users.get? id := by
          rw [get?_updateUser, if_neg hid]
        exact ⟨x, hsame.trans hx, rfl, fun _ => rfl⟩

/-- The update behind a commit. A login that is refused sets no password hash. -/
theorem updateOk_of_staged {r : Auth.Request} {users : UserTable} {w : Auth.Writes}
    (hok : BrowserOk C.auth seen r locks users) (hw : r.staged = some w) :
    UpdateOk C.auth seen r.call locks users w ∧
      ∀ id u, w.user = some (id, u) → u.passwordHash ≠ none →
        ∃ reply, r.stage = .commit w reply := by
  obtain ⟨call, stage⟩ := r
  cases stage with
  | deny v failure =>
      cases hw
      obtain ⟨hupdate, hquiet, -⟩ := hok
      exact ⟨hupdate, fun id u hu hset => absurd (hquiet id u hu) hset⟩
  | commit v reply =>
      cases hw
      exact ⟨hok, fun id u hu hset => ⟨reply, rfl⟩⟩
  | finish v reply =>
      cases hw
      have hnone : w.user = none := hok
      refine ⟨.of_none hnone, fun id u hu => ?_⟩
      rw [hnone] at hu
      cases hu
  | start | user | session | authenticate | change | owner | accessSession | revokeRecords | scan
  | revoke | insert | respond | done | failed | aborted => cases hw

/-- What a step of a request means for the accounts: its own assertion holds
afterwards, the OWNER is guarded, and the rows that others have locked are spared. -/
structure Outcome (C : Context) (seen : User → Prop) (pc pc' : ApiRequest)
    (taken : List (Lock Row)) (db : Db) (e : Effect Db) : Prop where
  own : AccountsOk C seen ⟨pc', e.locks taken⟩ (e.db db)
  guards : Guards C.auth seen pc db.users (e.db db).users
  spares : ∀ locks : List (Lock Row), (∀ l ∈ taken, ∀ m ∈ locks, ¬l.Conflicts m) →
    Spared locks db.users (e.db db).users

theorem outcome_of_users {pc pc' : ApiRequest} {db : Db} {e : Effect Db}
    (hown : AccountsOk C seen ⟨pc', e.locks taken⟩ (e.db db)) (husers : (e.db db).users = db.users) :
    Outcome C seen pc pc' taken db e := by
  refine ⟨hown, ?_, fun locks _ => ?_⟩
  · rw [husers]
    exact .refl
  · rw [husers]
    exact .refl

theorem outcome_browser {a : Auth.Answer} {db : Db} {r r' : Auth.Request} {e : Effect Auth.Db}
    (hok : BrowserOk C.auth seen r taken db.users) (hseen : ∀ row ∈ db.users.rows, seen row)
    (hneeds : ∀ l ∈ r.needs, l.map Row.ofAuth ∈ taken)
    (h : (authProgram C.auth).step a db.auth r = some (r', e)) :
    Outcome C seen (.inl r) (.inl r') taken db (e.map db.putAuth) := by
  obtain ⟨hr', hstep⟩ := Auth.program_step h
  have hown : BrowserOk C.auth seen r' (e.locks taken) (e.db db.auth).users := by
    rw [hr']
    exact browserNext_step hok hseen hneeds hstep
  cases e with
  | proceed => exact outcome_of_users hown rfl
  | release => exact outcome_of_users hown rfl
  | commit new =>
      obtain ⟨w, hw, hwrite⟩ := Auth.staged_of_commit hstep
      obtain ⟨hupdate, hhash⟩ := updateOk_of_staged hok hw
      have husers : new.users = db.auth.updateUser w.user := users_of_write hwrite
      refine ⟨hown, ?_, fun locks hfree => ?_⟩
      · show Guards C.auth seen (.inl r) db.auth.users new.users
        rw [husers]
        exact guards_update hupdate hhash
      · show Spared locks db.auth.users new.users
        rw [husers]
        exact spared_update hupdate hfree

/-- No endpoint of devices writes a user. -/
theorem outcome_device {a : Devices.Answer} {db : Db} {r r' : DeviceRequest} {e : Effect Devices.Db}
    (h : (deviceProgram C.devices).step a db.deviceView r = some (r', e)) :
    Outcome C seen (.inr (.inr r)) (.inr (.inr r')) taken db (e.map db.putDevices) := by
  have husers : (e.db db.deviceView).users = db.users := by
    cases r with
    | createPairingCode actor projectIds | revokeDevice actor deviceId =>
        have heffect := congrArg Prod.snd (Option.some.inj h)
        simp only [DeviceRequest.requireOwner] at heffect
        split at heffect
        · rw [← heffect]
          rfl
        · rw [← heffect]
          rfl
    | service r =>
        obtain ⟨⟨r₁, e₁⟩, hstep, heq⟩ := Option.map_eq_some_iff.mp h
        obtain rfl : e₁ = e := congrArg Prod.snd heq
        obtain ⟨-, hstep⟩ := Devices.program_step hstep
        cases e₁ with
        | proceed | release => rfl
        | commit new =>
            obtain ⟨work, reply, -, hwrite, -⟩ := Devices.work_of_commit hstep
            exact (Devices.Db.written hwrite).users
    | failed error => cases h
    | aborted => cases h
  refine outcome_of_users trivial ?_
  cases e with
  | proceed | release => rfl
  | commit new => exact husers

/-! ### Staff and projects -/

/-- A statement before the commit: it fails, or goes on and adds nobody but STAFF. -/
def StaffNext (call : Call) (n : Next) : Prop :=
  (∀ db, n.2 ≠ .commit db) ∧ StaffOk ⟨call, n.1⟩

theorem StaffNext.raise {call : Call} {failure : Failure} : StaffNext call (raise failure) :=
  ⟨fun db heq => (by cases heq), trivial⟩

theorem StaffNext.reject {call : Call} {error : DomainError} : StaffNext call (reject error) :=
  .raise

theorem StaffNext.goto {call : Call} {stage : Stage} (h : StaffOk ⟨call, stage⟩) :
    StaffNext call (goto stage) :=
  ⟨fun db heq => (by cases heq), h⟩

theorem StaffNext.statement {call : Call} {fate : Files.Fate} {n : Next} (h : StaffNext call n) :
    StaffNext call (statement fate n) := by
  unfold Users.statement
  split
  · exact h
  · exact .raise

theorem staffNext_projectsLocked {found : List UUID} {call : Call} :
    StaffNext call (Request.projectsLocked found call) := by
  unfold Request.projectsLocked
  split
  · exact .reject
  · cases call with
    | createStaff actor username displayName projectIds => exact .goto trivial
    | replaceProjects actor userId projectIds => exact .goto fun u hu => by cases hu
    | createProject actor => exact .raise

theorem staffNext_lockProjects {call : Call} : StaffNext call (Request.lockProjects call) := by
  unfold Request.lockProjects
  split
  · exact staffNext_projectsLocked
  · exact .goto trivial

theorem staffNext_insert {a : Answer} {db : Db} {call : Call} :
    StaffNext call (Request.insertStep C.auth a db call) := by
  cases call with
  | createStaff actor username displayName projectIds =>
      simp only [Request.insertStep]
      split
      · exact .raise
      · split
        · exact .reject
        · refine .goto fun u hu => ?_
          obtain rfl := Option.some.inj hu
          rfl
  | replaceProjects | createProject => exact .raise

theorem staffNext_start {call : Call} : StaffNext call (Request.startStep call) := by
  cases call with
  | createStaff | replaceProjects | createProject =>
      simp only [Request.startStep]
      split
      · first | exact staffNext_lockProjects | exact .goto trivial
      · exact .reject

theorem staffNext_user {user : Option User} {call : Call} :
    StaffNext call (Request.userStep user call) := by
  unfold Request.userStep
  split
  · exact .reject
  · split
    · exact .reject
    · exact staffNext_lockProjects

/-- A statement other than the commit. -/
theorem staffNext_step {a : Answer} {db : Db} {r : Request} {n : Next} (hok : StaffOk r)
    (hopen : ∀ w reply, r.stage ≠ .commit w reply) (h : r.step C.auth a db = some n) :
    StaffNext r.call n := by
  obtain ⟨call, stage⟩ := r
  cases stage with
  | start =>
      cases h
      exact staffNext_start
  | user =>
      cases call with
      | replaceProjects actor userId projectIds =>
          cases h
          exact staffNext_user.statement
      | createStaff | createProject => cases h
  | projects =>
      cases h
      exact .statement (.goto trivial)
  | lockProjects ids found =>
      cases h
      apply StaffNext.statement
      split
      · exact staffNext_projectsLocked
      · exact .goto trivial
  | insertUser =>
      cases h
      exact staffNext_insert.statement
  | insertMembers userId w reply =>
      cases h
      exact .statement (.goto hok)
  | insertProject =>
      cases h
      apply StaffNext.statement
      split
      · exact .reject
      · exact .goto fun u hu => by cases hu
  | commit w reply => exact absurd rfl (hopen w reply)
  | done | failed | aborted => cases h

/-- The users that a transaction of the OWNER writes. -/
theorem users_of_staffWrite {db db' : Db} {w : Writes} (h : db.write? w = some db') :
    (∃ u, w.user = some u ∧ db.users.insert? u = some db'.users) ∨ db'.users = db.users := by
  obtain ⟨db₂, h, hmembers⟩ := Option.bind_eq_some_iff.mp h
  obtain ⟨db₁, hinsert, hproject⟩ := Option.bind_eq_some_iff.mp h
  have hsame₂ : db'.users = db₂.users := by
    unfold Db.replaceMembers at hmembers
    split at hmembers
    · cases hmembers
      rfl
    · split at hmembers
      · cases hmembers
        rfl
      · cases hmembers
  have hsame₁ : db₂.users = db₁.users := by
    unfold Db.insertProject at hproject
    split at hproject
    · cases hproject
      rfl
    · obtain ⟨projects, -, rfl⟩ := Option.map_eq_some_iff.mp hproject
      rfl
  rw [hsame₂, hsame₁]
  unfold Db.insertUser at hinsert
  split at hinsert
  · cases hinsert
    exact .inr rfl
  · rename_i u huser
    obtain ⟨users, hadded, rfl⟩ := Option.map_eq_some_iff.mp hinsert
    exact .inl ⟨u, huser, hadded⟩

theorem outcome_staff {a : Answer} {db : Db} {r r' : Request} {e' : Effect Db} (hok : StaffOk r)
    (h : (program C.auth).step a db r = some (r', e')) :
    Outcome C seen (.inr (.inl r)) (.inr (.inl r')) taken db e' := by
  obtain ⟨⟨stage', e⟩, hstep, heq⟩ := Option.map_eq_some_iff.mp h
  cases heq
  by_cases hcommit : ∃ w reply, r.stage = .commit w reply
  · obtain ⟨call, stage⟩ := r
    obtain ⟨w, reply, rfl⟩ := hcommit
    have hstaff : ∀ u, w.user = some u → u.role = .staff := hok
    have hwritten : StaffOk ⟨call, stage'⟩ ∧ ((e.db db).users = db.users ∨
        ∃ u, w.user = some u ∧ db.users.insert? u = some (e.db db).users) := by
      simp only [Request.step, Option.some.injEq] at hstep
      split at hstep
      · rename_i db' hwrite _
        cases hstep
        exact ⟨trivial, (users_of_staffWrite hwrite).symm⟩
      · rename_i db' hwrite _
        cases hstep
        exact ⟨trivial, (users_of_staffWrite hwrite).symm⟩
      · cases hstep
        exact ⟨trivial, .inl rfl⟩
    obtain ⟨hnext, hsame | ⟨u, hu, hinsert⟩⟩ := hwritten
    · exact outcome_of_users hnext hsame
    · refine ⟨hnext, ⟨fun {id row} hrow => ?_, fun {id row} hrow hnone => ?_⟩,
        fun locks _ => ⟨fun hrow => ⟨_, Table.get?_insert?_of_some hinsert hrow, rfl, fun _ => rfl⟩⟩⟩
      · exact ⟨row, Table.get?_insert?_of_some hinsert hrow, rfl, rfl, fun _ =>
          ⟨rfl, fun hne => absurd rfl hne⟩⟩
      · rw [Table.get?_insert? hinsert] at hrow
        split at hrow
        · rw [← Option.some.inj hrow]
          exact hstaff u hu
        · rw [hnone] at hrow
          cases hrow
  · obtain ⟨hquiet, hnext⟩ := staffNext_step hok (fun w reply heq => hcommit ⟨w, reply, heq⟩) hstep
    refine outcome_of_users hnext ?_
    cases e with
    | proceed | release => rfl
    | commit db' => exact absurd rfl (hquiet db')

/-- A statement of any request, with the locks that it takes first. -/
theorem outcome_step {a : ApiAnswer} {c : Client ApiRequest Row} {db : Db} {pc : ApiRequest}
    {e : Effect Db} (hok : AccountsOk C seen c db) (hseen : ∀ row ∈ db.users.rows, seen row)
    (h : (api C).step a db c.pc = some (pc, e)) :
    Outcome C seen c.pc pc (c.locks ++ (api C).needs c.pc) db e := by
  obtain ⟨request, locks⟩ := c
  rcases Program.sum_step h with ⟨b, r, r', -, rfl, rfl, hin⟩ | ⟨b, q, q', -, rfl, rfl, hin⟩
  · obtain ⟨f, hstep, rfl⟩ := Program.within_step hin
    refine outcome_browser (BrowserOk.mono hok fun l hl => List.mem_append_left _ hl) hseen
      (fun l hl => ?_) hstep
    exact List.mem_append_right _ (List.mem_map.mpr ⟨l, hl, rfl⟩)
  · rcases Program.sum_step hin with
      ⟨b, r, r', -, rfl, rfl, hstaff⟩ | ⟨b, r, r', -, rfl, rfl, hdevice⟩
    · exact outcome_staff hok hstaff
    · obtain ⟨f, hstep, rfl⟩ := Program.within_step hdevice
      exact outcome_device hstep

end effects

/-! ### Every run -/

section runs

variable {C : Context} {db : Db} {es : List ApiEvent} {s t : ApiState}

/-- The row was in the table in some state of the run. -/
def Seen (C : Context) (db : Db) (es : List ApiEvent) (row : User) : Prop :=
  ∃ fs s, fs <+: es ∧ run (next C) (State.init db) fs = some s ∧ row ∈ s.db.users.rows

open Classical in
theorem accounts_outline (C : Context) (seen : User → Prop) :
    Program.Outline ((api C).restrict fun db _ => ∀ row ∈ db.users.rows, seen row)
      (fun _ => True) (AccountsOk C seen) where
  start hI hinit := by
    rename_i pc db
    rcases pc with ⟨call, stage⟩ | ⟨call, stage⟩ | r
    · obtain ⟨hstart, hbrowser⟩ := Bool.and_eq_true_iff.mp hinit
      obtain rfl : stage = .start := of_decide_eq_true hstart
      exact hbrowser
    · obtain rfl : stage = .start := of_decide_eq_true hinit
      trivial
    · trivial
  abort hok := by
    rename_i c db
    obtain ⟨⟨call, stage⟩ | ⟨call, stage⟩ | r, locks⟩ := c
    · cases stage <;> trivial
    · cases stage <;> trivial
    · trivial
  own hI hok hstep := by
    obtain ⟨hseen, hstep⟩ := Program.restrict_step.mp hstep
    exact ⟨trivial, (outcome_step hok hseen hstep).own⟩
  other hI hown hok hstep hfree := by
    rename_i a c d db pc e
    obtain ⟨hseen, hstep⟩ := Program.restrict_step.mp hstep
    have hspared := (outcome_step hown hseen hstep).spares d.locks hfree
    obtain ⟨r | r | r, locks⟩ := d
    · exact BrowserOk.spared hspared hok
    · exact hok
    · trivial

theorem accounts_of_run (h : run (next C) (State.init db) es = some s) :
    Program.Annotated (fun _ => True) (AccountsOk C (Seen C db es)) s := by
  classical
  refine (accounts_outline C (Seen C db es)).of_run h ?_ trivial
  intro fs i a gs u c heq hu hc row hrow
  exact ⟨fs, u, ⟨.act i a :: gs, heq.symm⟩, hu, hrow⟩

/-- What one more step does to the accounts. -/
theorem guards_of_step {e : ApiEvent} (h : run (next C) (State.init db) es = some s)
    (hstep : next C s e = some t) : t.db.users = s.db.users ∨ ∃ i a c, e = .act i a ∧
      s.clients[i]? = some c ∧ Guards C.auth (Seen C db es) c.pc s.db.users t.db.users := by
  cases Program.step_of_apply hstep with
  | start hinit => exact .inl rfl
  | abort hget => exact .inl rfl
  | act hget hfree hin =>
      rename_i i a c pc e
      refine .inr ⟨i, a, c, rfl, hget, ?_⟩
      refine (outcome_step ((accounts_of_run h).2 i c hget) (fun row hrow => ?_) hin).guards
      exact ⟨es, s, List.prefix_rfl, h, hrow⟩

/-! ### Refusals -/

/-- `OWNER_REQUIRED` and `OWNER_PROTECTED`. -/
def Refusal (error : DomainError) : Prop :=
  error = Auth.ownerRequired ∨ error = Auth.ownerProtected

/-- A request that was refused for the OWNER's sake. -/
def Refused : ApiRequest → Prop
  | .inl ⟨_, .failed (.domain error)⟩ => Refusal error
  | .inr (.inl ⟨_, .failed (.domain error)⟩) => Refusal error
  | .inr (.inr (.failed error)) => Refusal error
  | _ => False

/-- A request that was refused, or that may still be. -/
def Refusable : ApiRequest → Prop
  | .inl r =>
      match r.stage with
      | .failed (.domain error) => Refusal error
      | .failed (.value _) | .failed .unexpected | .respond _ _ | .finish _ _ | .done _
      | .aborted => False
      | _ => True
  | .inr (.inl r) =>
      match r.stage with
      | .failed (.domain error) => Refusal error
      | .failed (.value _) | .failed .unexpected | .done _ | .aborted => False
      | _ => True
  | .inr (.inr r) =>
      match r with
      | .failed error => Refusal error
      | .createPairingCode _ _ | .revokeDevice _ _ => True
      | .service _ | .aborted => False

theorem refusable_of_refused {pc : ApiRequest} (h : Refused pc) : Refusable pc := by
  rcases pc with ⟨call, stage⟩ | ⟨call, stage⟩ | r
  · cases stage with
    | failed failure => cases failure <;> exact h
    | start | user | session | authenticate | change | owner | accessSession | revokeRecords
    | scan | revoke | insert | deny | commit | respond | finish | done | aborted => exact h.elim
  · cases stage with
    | failed failure => cases failure <;> exact h
    | start | user | projects | lockProjects | insertUser | insertMembers | insertProject | commit
    | done | aborted => exact h.elim
  · cases r with
    | failed error => exact h
    | createPairingCode | revokeDevice | service | aborted => exact h.elim

theorem not_refusal_authenticationFailed : ¬Refusal Auth.authenticationFailedError := by
  intro h
  rcases h with h | h <;> exact absurd h (by decide)

theorem refusable_browser {seen : User → Prop} {locks : List (Lock Row)} {a : Auth.Answer}
    {db : Auth.Db} {r : Auth.Request} {stage : Auth.Stage} {e : Effect Auth.Db}
    (hok : BrowserOk C.auth seen r locks db.users) (hstep : r.step C.auth a db = some (stage, e))
    (h : Refusable (.inl ⟨r.call, stage⟩)) :
    Refusable (.inl r) ∧ ∀ new, e ≠ .commit new := by
  have hquiet : r.staged = none → ∀ new, e ≠ .commit new := by
    rintro hnone new rfl
    obtain ⟨w, hw, -⟩ := Auth.staged_of_commit hstep
    rw [hnone] at hw
    cases hw
  obtain ⟨call, stage₀⟩ := r
  cases stage₀ with
  | deny w failure =>
      obtain ⟨-, -, rfl⟩ := hok
      rcases Auth.commit_cases db a.fate w (.failed (.domain Auth.authenticationFailedError)) with
        ⟨db', -, heq | heq⟩ | heq
      · obtain rfl := congrArg Prod.fst ((Option.some.inj hstep).symm.trans heq)
        exact absurd h not_refusal_authenticationFailed
      · obtain rfl := congrArg Prod.fst ((Option.some.inj hstep).symm.trans heq)
        exact h.elim
      · obtain rfl := congrArg Prod.fst ((Option.some.inj hstep).symm.trans heq)
        exact h.elim
  | commit w reply =>
      rcases Auth.commit_cases db a.fate w (.respond reply none) with ⟨db', -, heq | heq⟩ | heq
      · obtain rfl := congrArg Prod.fst ((Option.some.inj hstep).symm.trans heq)
        exact h.elim
      · obtain rfl := congrArg Prod.fst ((Option.some.inj hstep).symm.trans heq)
        exact h.elim
      · obtain rfl := congrArg Prod.fst ((Option.some.inj hstep).symm.trans heq)
        exact h.elim
  | respond reply pending => cases pending <;> cases hstep <;> exact h.elim
  | finish w reply =>
      simp only [Auth.Request.step] at hstep
      split at hstep <;> cases hstep <;> exact h.elim
  | start | user | session | authenticate | change | owner | accessSession | revokeRecords | scan
  | revoke | insert => exact ⟨trivial, hquiet rfl⟩
  | done | failed | aborted => cases hstep

theorem refusable_staff {a : Answer} {db : Db} {r : Request} {stage : Stage} {e : Effect Db}
    (hok : StaffOk r) (hstep : r.step C.auth a db = some (stage, e))
    (h : Refusable (.inr (.inl ⟨r.call, stage⟩))) :
    Refusable (.inr (.inl r)) ∧ ∀ new, e ≠ .commit new := by
  by_cases hcommit : ∃ w reply, r.stage = .commit w reply
  · obtain ⟨call, stage₀⟩ := r
    obtain ⟨w, reply, rfl⟩ := hcommit
    simp only [Request.step, Option.some.injEq] at hstep
    split at hstep <;> cases hstep <;> exact h.elim
  · have hnext := staffNext_step hok (fun w reply heq => hcommit ⟨w, reply, heq⟩) hstep
    refine ⟨?_, hnext.1⟩
    obtain ⟨call, stage₀⟩ := r
    cases stage₀ with
    | done | failed | aborted => cases hstep
    | start | user | projects | lockProjects | insertUser | insertMembers | insertProject
    | commit => trivial

theorem refusable_device {a : Devices.Answer} {db : Devices.Db} {r r' : DeviceRequest}
    {e : Effect Devices.Db} (hstep : r.step C.devices a db = some (r', e))
    (h : Refusable (.inr (.inr r'))) :
    Refusable (.inr (.inr r)) ∧ ∀ new, e ≠ .commit new := by
  cases r with
  | createPairingCode actor projectIds | revokeDevice actor deviceId =>
      refine ⟨trivial, fun new heq => ?_⟩
      have heffect := congrArg Prod.snd (Option.some.inj hstep)
      simp only [DeviceRequest.requireOwner, heq] at heffect
      split at heffect <;> cases heffect
  | service r =>
      obtain ⟨n, -, heq⟩ := Option.map_eq_some_iff.mp hstep
      obtain rfl := congrArg Prod.fst heq
      exact h.elim
  | failed error => cases hstep
  | aborted => cases hstep

theorem db_of_quiet {Db' : Type} {put : Db' → Db} {f : Effect Db'} (h : ∀ new, f ≠ .commit new) :
    (f.map put).db db = db := by
  cases f with
  | proceed | release => rfl
  | commit new => exact absurd rfl (h new)

/-- A step to a request that may be refused changes nothing. -/
theorem refusable_step {seen : User → Prop} {a : ApiAnswer} {c : Client ApiRequest Row} {db : Db}
    {pc : ApiRequest} {e : Effect Db} (hok : AccountsOk C seen c db)
    (hstep : (api C).step a db c.pc = some (pc, e)) (h : Refusable pc) :
    Refusable c.pc ∧ e.db db = db := by
  obtain ⟨request, locks⟩ := c
  rcases Program.sum_step hstep with ⟨b, r, r', -, rfl, rfl, hin⟩ | ⟨b, q, q', -, rfl, rfl, hin⟩
  · obtain ⟨f, hbrowser, rfl⟩ := Program.within_step hin
    obtain ⟨hr', hnext⟩ := Auth.program_step hbrowser
    rw [hr'] at h
    have hok : BrowserOk C.auth seen r locks db.auth.users := hok
    obtain ⟨hopen, hquiet⟩ := refusable_browser hok hnext h
    exact ⟨hopen, db_of_quiet hquiet⟩
  · rcases Program.sum_step hin with
      ⟨b, r, r', -, rfl, rfl, hstaff⟩ | ⟨b, r, r', -, rfl, rfl, hdevice⟩
    · obtain ⟨⟨stage, f⟩, hnext, heq⟩ := Option.map_eq_some_iff.mp hstaff
      cases heq
      obtain ⟨hopen, hquiet⟩ := refusable_staff hok hnext h
      refine ⟨hopen, ?_⟩
      cases f with
      | proceed | release => rfl
      | commit new => exact absurd rfl (hquiet new)
    · obtain ⟨f, hnext, rfl⟩ := Program.within_step hdevice
      obtain ⟨hopen, hquiet⟩ := refusable_device hnext h
      exact ⟨hopen, db_of_quiet hquiet⟩

theorem refusable_abort {pc : ApiRequest} (h : Refusable ((api C).abort pc)) : Refusable pc := by
  rcases pc with ⟨call, stage⟩ | ⟨call, stage⟩ | r
  · cases stage <;> first | exact h | exact h.elim
  · cases stage <;> first | exact h | exact h.elim
  · cases r <;> first | exact h | exact h.elim

/-- A request that may be refused after a step might have been before. -/
theorem refusable_before {e : ApiEvent} {i : Nat} {c : Client ApiRequest Row}
    (h : run (next C) (State.init db) es = some s) (hstep : next C s e = some t)
    (hc : s.clients[i]? = some c) :
    ∃ d, t.clients[i]? = some d ∧ (Refusable d.pc → Refusable c.pc) := by
  have hlt := (List.getElem?_eq_some_iff.mp hc).1
  cases Program.step_of_apply hstep with
  | start hinit =>
      refine ⟨c, ?_, id⟩
      rw [List.getElem?_append_left hlt]
      exact hc
  | abort hget =>
      rename_i j d
      by_cases hij : j = i
      · obtain rfl := hij
        obtain rfl := Option.some.inj (hc.symm.trans hget)
        exact ⟨_, List.getElem?_set_self hlt, refusable_abort⟩
      · exact ⟨c, by rw [List.getElem?_set_ne hij]; exact hc, id⟩
  | act hget hfree hin =>
      rename_i j a d pc f
      by_cases hij : j = i
      · obtain rfl := hij
        obtain rfl := Option.some.inj (hc.symm.trans hget)
        exact ⟨_, List.getElem?_set_self hlt, fun hrefusable =>
          (refusable_step ((accounts_of_run h).2 _ c hget) hin hrefusable).1⟩
      · exact ⟨c, by rw [List.getElem?_set_ne hij]; exact hc, id⟩

/-- None of the steps of a request that may be refused has changed anything. -/
theorem refusable_unchanged {i : Nat} {a : ApiAnswer} {gs : List ApiEvent} {u v : ApiState}
    {c : Client ApiRequest Row} (hu : run (next C) (State.init db) es = some u)
    (hv : next C u (.act i a) = some v) (hs : run (next C) v gs = some s)
    (hc : s.clients[i]? = some c) (h : Refusable c.pc) : v.db = u.db := by
  cases Program.step_of_apply hv with
  | act hget hfree hin =>
      rename_i d pc e
      have hlt := (List.getElem?_eq_some_iff.mp hget).1
      have hback : ∃ c, s.clients[i]? = some c ∧ (Refusable c.pc → Refusable pc) := by
        refine run_induction (I := fun _ s => ∃ c, s.clients[i]? = some c ∧
          (Refusable c.pc → Refusable pc)) ⟨_, List.getElem?_set_self hlt, id⟩ ?_ hs
        intro fs s e t hrun ih hstep
        obtain ⟨c, hc, hopen⟩ := ih
        obtain ⟨d, hd, hopen'⟩ :=
          refusable_before (run_append_of (run_concat_of hu hv) hrun) hstep hc
        exact ⟨d, hd, fun hrefusable => hopen (hopen' hrefusable)⟩
      obtain ⟨c', hc', hopen⟩ := hback
      obtain rfl := Option.some.inj (hc.symm.trans hc')
      exact (refusable_step ((accounts_of_run hu).2 i d hget) hin (hopen h)).2

/-! ### OWNER protection -/

/-- What a run from `db` has made of the accounts. -/
structure OwnerProtected (C : Context) (db : Db) (es : List ApiEvent) (s : ApiState) : Prop where
  single : (s.db.users.rows.filter fun u => decide (u.role = .owner)).length ≤ 1
  kept : ∀ id row, db.users.get? id = some row → ∃ row', s.db.users.get? id = some row' ∧
    row'.role = row.role ∧ (row.role = .owner → row'.status = row.status)
  added : ∀ id row, s.db.users.get? id = some row → db.users.get? id = none → row.role = .staff
  /-- The password hash of an OWNER changes in a commit of that OWNER's login or
  password change. -/
  password : ∀ fs e gs u v id row row', es = fs ++ e :: gs →
    run (next C) (State.init db) fs = some u → next C u e = some v →
    u.db.users.get? id = some row → row.role = .owner → v.db.users.get? id = some row' →
    row'.passwordHash ≠ row.passwordHash → ∃ i a c call w reply, e = .act i a ∧
      u.clients[i]? = some c ∧ c.pc = .inl ⟨call, .commit w reply⟩ ∧
      OwnPassword C.auth (Seen C db fs) call row row'.passwordHash
  refused : ∀ (i : Nat) c, s.clients[i]? = some c → Refused c.pc → ∀ fs a gs u v,
    es = fs ++ .act i a :: gs → run (next C) (State.init db) fs = some u →
    next C u (.act i a) = some v → v.db = u.db

theorem single_owner (users : UserTable) :
    (users.rows.filter fun u => decide (u.role = .owner)).length ≤ 1 := by
  refine Table.length_filter_le_one fun {u v} hdistinct hu => ?_
  refine decide_eq_false fun hv => ?_
  exact hdistinct.2 ⟨of_decide_eq_true hu, hv⟩

theorem users_kept (h : run (next C) (State.init db) es = some s) :
    (∀ id row, db.users.get? id = some row → ∃ row', s.db.users.get? id = some row' ∧
      row'.role = row.role ∧ (row.role = .owner → row'.status = row.status)) ∧
    ∀ id row, s.db.users.get? id = some row → db.users.get? id = none → row.role = .staff := by
  refine run_induction (I := fun _ s =>
    (∀ id row, db.users.get? id = some row → ∃ row', s.db.users.get? id = some row' ∧
      row'.role = row.role ∧ (row.role = .owner → row'.status = row.status)) ∧
    ∀ id row, s.db.users.get? id = some row → db.users.get? id = none → row.role = .staff)
    ⟨fun id row hrow => ⟨row, hrow, rfl, fun _ => rfl⟩, fun id row hrow hnone => ?_⟩ ?_ h
  · cases hnone.symm.trans hrow
  · intro es s e t hs ih hstep
    rcases guards_of_step hs hstep with hsame | ⟨i, a, c, -, -, hguards⟩
    · rw [hsame]
      exact ih
    · refine ⟨fun id row hrow => ?_, fun id row hrow hnone => ?_⟩
      · obtain ⟨row₁, hrow₁, hrole₁, hstatus₁⟩ := ih.1 id row hrow
        obtain ⟨row₂, hrow₂, -, hrole₂, howner₂⟩ := hguards.kept hrow₁
        refine ⟨row₂, hrow₂, hrole₂.trans hrole₁, fun howner => ?_⟩
        rw [(howner₂ (hrole₁.trans howner)).1, hstatus₁ howner]
      · cases hbefore : s.db.users.get? id with
        | none => exact hguards.added hrow hbefore
        | some row₁ =>
            obtain ⟨row₂, hrow₂, -, hrole₂, -⟩ := hguards.kept hbefore
            obtain rfl := Option.some.inj (hrow.symm.trans hrow₂)
            rw [hrole₂]
            exact ih.2 id row₁ hbefore hnone

/-- Every run of the web API protects the OWNER. -/
theorem owner_protected (C : Context) {db : Db} {es : List ApiEvent} {s : ApiState}
    (h : run (next C) (State.init db) es = some s) : OwnerProtected C db es s where
  single := single_owner s.db.users
  kept := (users_kept h).1
  added := (users_kept h).2
  password fs e gs u v id row row' heq hu hv hrow howner hrow' hne := by
    rcases guards_of_step hu hv with hsame | ⟨i, a, c, rfl, hc, hguards⟩
    · rw [hsame, hrow] at hrow'
      obtain rfl := Option.some.inj hrow'
      exact absurd rfl hne
    · obtain ⟨row₁, hrow₁, -, -, hkept⟩ := hguards.kept hrow
      obtain rfl := Option.some.inj (hrow'.symm.trans hrow₁)
      obtain ⟨call, w, reply, hpc, hown⟩ := (hkept howner).2 hne
      exact ⟨i, a, c, call, w, reply, rfl, hc, hpc, hown⟩
  refused i c hc hrefused fs a gs u v heq hu hv := by
    subst heq
    rw [run_append, hu, Option.bind_some, run_cons_of hv] at h
    exact refusable_unchanged hu hv h hc (refusable_of_refused hrefused)

end runs

namespace Sample

/-- The contexts of the samples, with parameters of Argon2id that have changed. -/
def context : Context where
  auth := { Auth.Sample.context with hasher := { Auth.Sample.hasher with needsRehash := fun _ => true } }
  devices :=
    ⟨Auth.Sample.context.platform, Auth.Sample.context.jwt, Auth.Sample.context.settings, id,
      fun _ => false⟩

def db : Db where
  users := Auth.Sample.db.users
  sessions := ∅
  projects := ∅
  members := []
  pairings := ∅
  devices := ∅

def owner : Actor := ⟨.user, 1, some .owner, [], []⟩

/-- The OWNER logs in and resets the password of the OWNER. -/
def loginAndReset : List ApiEvent :=
  .start (.inl ⟨.login Auth.Sample.username Auth.Sample.password, .start⟩) ::
    List.replicate 4 (.act 0 (.inl Auth.Sample.answer)) ++
    .start (.inl ⟨.resetStaffPassword owner 1, .start⟩) ::
      List.replicate 2 (.act 1 (.inl Auth.Sample.answer))

end Sample

/-- The login rehashes the password, and the reset is refused. -/
theorem owner_protected_login : ∃ s c,
    run (next Sample.context) (State.init Sample.db) Sample.loginAndReset = some s ∧
      (s.db.users.get? 1).map (·.passwordHash) = some (8 :: Auth.Sample.password) ∧
      s.clients[1]? = some c ∧ Refused c.pc ∧
      OwnerProtected Sample.context Sample.db Sample.loginAndReset s := by
  have hrun : ((run (next Sample.context) (State.init Sample.db) Sample.loginAndReset).bind
      fun s => (s.clients[1]?).map fun c =>
        decide ((s.db.users.get? 1).map (·.passwordHash) = some (8 :: Auth.Sample.password)) &&
          c.pc.getLeft?.any fun r =>
            decide (r.stage = .failed (.domain Auth.ownerProtected))) = some true := by
    decide +kernel
  obtain ⟨s, hs, hclient⟩ := Option.bind_eq_some_iff.mp hrun
  obtain ⟨c, hc, hpc⟩ := Option.map_eq_some_iff.mp hclient
  obtain ⟨hhash, hstage⟩ := Bool.and_eq_true_iff.mp hpc
  refine ⟨s, c, hs, of_decide_eq_true hhash, hc, ?_, owner_protected _ hs⟩
  cases hr : c.pc with
  | inl r =>
      rw [hr] at hstage
      obtain ⟨call, stage⟩ := r
      obtain rfl := of_decide_eq_true hstage
      exact .inr rfl
  | inr r =>
      rw [hr] at hstage
      cases hstage

end SuperBoss.Users
