import SuperBoss.Auth.Models
import SuperBoss.Files.Storage
import SuperBoss.Library.Transactions

/-!
The browser endpoints and the password commands as transactions: a stage for
every statement, and the point where the response is sent.
-/

namespace SuperBoss.Auth

open SuperBoss.Core
open SuperBoss.Library
open SuperBoss.Library.Transactions
open SuperBoss.Files (Fate)

/-! ### Passwords -/

/-- Argon2id. The salt of a hash is an argument. -/
structure Hasher where
  hash : Nat → Text → Text
  verify : Text → Text → Bool
  needsRehash : Text → Bool

structure Context where
  platform : Platform
  hasher : Hasher
  jwt : Jwt
  settings : Settings

/-- `unicodedata.category(·) == "Cc"`. -/
def isControl (c : Nat) : Bool := c < 32 || (127 ≤ c && c ≤ 159)

/-- `validate_password`. -/
def validatePassword (raw : Text) : Bool :=
  12 ≤ raw.length && raw.length ≤ 128 && !raw.any isControl &&
    raw.utf8.any fun encoded => encoded.length ≤ 512

variable (C : Context)

/-- `hash_password`; `none` is a `PasswordPolicyError`. -/
def hashPassword (salt : Nat) (raw : Text) : Option Text :=
  if validatePassword raw then some (C.hasher.hash salt raw) else none

/-- `verify_password(·, ·).valid`. -/
def verifyPassword (encoded raw : Text) : Bool :=
  validatePassword raw && C.hasher.verify encoded raw

/-! ### Calls -/

inductive Call
  | login (username password : Text)
  | refresh (refreshToken : Text)
  | changePassword (accessToken : Option Text) (currentPassword newPassword : Text)
  | logout (accessToken refreshToken : Option Text)
  | updateStaff (actor : Actor) (userId : UUID) (displayName : Option Text)
      (status : Option UserStatus)
  | resetStaffPassword (actor : Actor) (userId : UUID)
  | resetOwnerPassword (password : Text)
  deriving DecidableEq

structure SessionPair where
  accessToken : Text
  refreshToken : Text
  accessExpiresAt : Instant
  refreshExpiresAt : Instant
  deriving DecidableEq

/-- A success response, with the sessions it stands for: the one it gives out
and those it used up or revoked. -/
structure Reply where
  pair : Option SessionPair
  issued : Option UUID
  revoked : List UUID
  temporaryPassword : Option Text
  deriving DecidableEq

/-- What a transaction has flushed. -/
structure Writes where
  user : Option (UUID × UserUpdate)
  sessions : List (UUID × SessionUpdate)
  insert : Option AuthSession
  deriving DecidableEq

def Writes.none : Writes := ⟨.none, [], .none⟩

/-- Where a request is: before its next statement, or at its response. -/
inductive Stage
  | start
  /-- `SELECT … FROM users … FOR UPDATE`. -/
  | user (id : UUID)
  /-- `SELECT … FROM sessions … FOR UPDATE`. -/
  | session (id : UUID)
  /-- The user of an access token whose session is valid. -/
  | authenticate (userId : UUID) (role : Text)
  /-- The lock of `change_password`, with the row that the session has loaded. -/
  | change (loaded : User)
  /-- The user of a refresh token that was accepted. -/
  | owner (session : AuthSession) (w : Writes)
  | accessSession (records : List AuthSession)
  | revokeRecords (now : Instant) (records : List AuthSession) (w : Writes)
  /-- `UPDATE sessions … WHERE user_id = … AND revoked_at IS NULL`: the rows of
  its snapshot, then each row under its lock. -/
  | scan (user : User) (now : Instant) (w : Writes) (reply : Reply)
  | revoke (user : User) (now : Instant) (ids : List UUID) (w : Writes) (reply : Reply)
  | insert (user : User) (w : Writes)
  | deny (w : Writes) (failure : Failure)
  | commit (w : Writes) (reply : Reply)
  /-- The response is sent next; `pending` is committed only after it. -/
  | respond (reply : Reply) (pending : Option Writes)
  | finish (w : Writes) (reply : Reply)
  | done (reply : Reply)
  | failed (failure : Failure)
  | aborted
  deriving DecidableEq

structure Request where
  call : Call
  stage : Stage
  deriving DecidableEq

structure Db where
  users : UserTable
  sessions : SessionTable

structure Answer where
  fate : Fate
  now : Instant
  salt : Nat
  sessionId : UUID
  jti : UUID
  refreshToken : Text
  temporaryPassword : Text
  deriving DecidableEq

inductive Row
  | user (id : UUID)
  | session (id : UUID)
  deriving DecidableEq

/-! ### Writes -/

namespace Db

def updateUser (db : Db) : Option (UUID × UserUpdate) → UserTable
  | none => db.users
  | some (id, u) => db.users.modify id u.apply u.keeps

/-- Make the writes of a transaction visible; `none` when a constraint objects. -/
def write? (db : Db) (w : Writes) : Option Db :=
  let users := db.updateUser w.user
  let sessions := updateSessions db.sessions w.sessions
  match w.insert with
  | none => some ⟨users, sessions⟩
  | some x =>
      if x.userId.all fun u => (users.get? u).isSome then
        (sessions.insert? x).map fun sessions => ⟨users, sessions⟩
      else none

def userByName (db : Db) (username : Text) : Option User :=
  db.users.rows.find? fun u => decide (u.username = username)

def sessionByHash (db : Db) (hash : Text) : Option AuthSession :=
  db.sessions.rows.find? fun x => decide (x.refreshTokenHash = hash)

end Db

/-! ### Errors -/

def unauthenticatedError : DomainError :=
  ⟨"AUTHENTICATION_REQUIRED", "Authentication required", 401⟩

def authenticationFailedError : DomainError :=
  ⟨"AUTHENTICATION_FAILED", "Username or password is invalid", 401⟩

def passwordReuseForbiddenError : DomainError :=
  ⟨"PASSWORD_REUSE_FORBIDDEN", "New password must be different", 422⟩

def ownerRequired : DomainError := forbiddenError "OWNER_REQUIRED" "Owner access required"

def userNotFound : DomainError := notFoundError "USER_NOT_FOUND" "User not found"

def ownerProtected : DomainError :=
  conflictError "OWNER_PROTECTED" "The OWNER account is protected"

def emptyUpdate : DomainError := ⟨"VALIDATION_ERROR", "Request validation failed", 422⟩

/-! ### Statements -/

abbrev Next := Stage × Effect Db

def raise (failure : Failure) : Next := (.failed failure, .release)

def reject (error : DomainError) : Next := raise (.domain error)

/-- A statement of a transaction that goes on, or fails and is rolled back. -/
def statement (fate : Fate) (next : Next) : Next :=
  if fate = .ok then next else raise .unexpected

def goto (stage : Stage) : Next := (stage, .proceed)

/-- A commit. A violated constraint, a lost connection and a lost
acknowledgement all raise; after the last of them the writes are there. -/
def commit (db : Db) (fate : Fate) (w : Writes) (next : Stage) : Next :=
  match db.write? w, fate with
  | some db', .ok => (next, .commit db')
  | some db', .lost => (.failed .unexpected, .commit db')
  | _, _ => raise .unexpected

def maxLoginFailures : Nat := 5

def loginLockDuration : Int := Instant.minutes 15

/-- `login` on a locked row: whether it succeeds, and the row's attributes then. -/
def loginUser (password : Text) (now : Instant) (salt : Nat) (user : User) : Bool × User :=
  if user.lockedUntil.any fun until_ => now < until_ then (false, user)
  else
    let user := if user.lockedUntil.isSome then
        { user with lockedUntil := none, failedLoginCount := 0 }
      else user
    if !verifyPassword C user.passwordHash password ∨ user.status ≠ .active then
      let count := min (user.failedLoginCount + 1) maxLoginFailures
      (false, { user with
        failedLoginCount := count
        lockedUntil :=
          if maxLoginFailures ≤ count then some (now + loginLockDuration) else user.lockedUntil })
    else
      (true, { user with
        passwordHash :=
          if C.hasher.needsRehash user.passwordHash then C.hasher.hash salt password
          else user.passwordHash
        failedLoginCount := 0
        lockedUntil := none
        lastLoginAt := some now })

/-- The checks of `change_password` on the loaded user. -/
def changeAccepted (currentPassword newPassword : Text) (loaded : User) : Bool :=
  loaded.status == .active && verifyPassword C loaded.passwordHash currentPassword &&
    !verifyPassword C loaded.passwordHash newPassword

/-- A new password on a row, as every reset and change assigns it. -/
def withPassword (user : User) (hash : Text) (mustChange : Bool) (now : Instant) : User :=
  { user with
    passwordHash := hash
    passwordChangedAt := now
    mustChangePassword := mustChange
    failedLoginCount := 0
    lockedUntil := none }

def updated (loaded assigned : User) : Writes :=
  ⟨some (loaded.id, .flush loaded assigned), [], none⟩

/-- `issue_session`. -/
def newSession (user : User) (a : Answer) : Option (AuthSession × SessionPair) := do
  let hash ← hashToken C.platform a.refreshToken
  let (token, accessExpiresAt) ←
    issueAccessToken C.jwt C.settings user.id user.role.value a.sessionId a.jti a.now
  let refreshExpiresAt := a.now + Instant.hours (14 * 24)
  some (⟨a.sessionId, .user, some user.id, none, a.jti.text, hash, accessExpiresAt,
    refreshExpiresAt, none, none, a.now⟩, ⟨token, a.refreshToken, accessExpiresAt,
    refreshExpiresAt⟩)

/-- The session that an access token names, with the user and role it is for. -/
def accessClaims (now : Instant) (token : Text) : Option (UUID × UUID × AccessClaims) := do
  let claims ← decodeAccessToken C.jwt C.settings now token
  let sessionId ← C.platform.parseUuid claims.sessionId
  let userId ← C.platform.parseUuid claims.sub
  some (sessionId, userId, claims)

/-- The session checks of `authenticate_access_token`. -/
def sessionValid (x : AuthSession) (userId : UUID) (claims : AccessClaims) (now : Instant) :
    Bool :=
  x.kind == .user && x.revokedAt == none && now < x.accessExpiresAt &&
    x.accessJti == claims.jti && x.userId == some userId

/-- The checks of `rotate_refresh_token`. -/
def refreshValid (x : AuthSession) (now : Instant) : Bool :=
  x.kind == .user && x.revokedAt == none && x.refreshUsedAt == none && now < x.refreshExpiresAt

def Reply.nothing : Reply := ⟨none, none, [], none⟩

/-- The end of `logout`: the flush of its records, or none. -/
def logoutRecords (now : Instant) (records : List AuthSession) : Stage :=
  .revokeRecords now (records.insertionSort fun x y => x.id ≤ y.id) .none

namespace Request

def startStep (a : Answer) (db : Db) : Call → Next
  | .login username _ => statement a.fate <|
      match db.userByName username with
      | none => goto (.deny .none (.domain authenticationFailedError))
      | some user => goto (.user user.id)
  | .refresh token =>
      match hashToken C.platform token with
      | none => raise .unexpected
      | some hash => statement a.fate <|
          match db.sessionByHash hash with
          | none => reject unauthenticatedError
          | some x => goto (.session x.id)
  | .changePassword accessToken _ _ =>
      match accessToken.bind (accessClaims C a.now) with
      | none => reject unauthenticatedError
      | some (sessionId, userId, claims) => statement a.fate <|
          match db.sessions.get? sessionId with
          | none => reject unauthenticatedError
          | some x =>
              if sessionValid x userId claims a.now then goto (.authenticate userId claims.role)
              else reject unauthenticatedError
  | .logout _ refreshToken =>
      match refreshToken with
      | none | some [] => goto (.accessSession [])
      | some token =>
          match hashToken C.platform token with
          | none => raise .unexpected
          | some hash => statement a.fate <|
              match db.sessionByHash hash with
              | none => goto (.accessSession [])
              | some x => goto (.session x.id)
  | .updateStaff actor userId _ _ | .resetStaffPassword actor userId =>
      if actor.kind = .user ∧ actor.role = some .owner then goto (.user userId)
      else reject ownerRequired
  | .resetOwnerPassword password =>
      if validatePassword password then statement a.fate <|
        match db.users.rows.find? fun u => decide (u.role = .owner) with
        | none => raise (.value "The local OWNER does not exist.")
        | some user => goto (.user user.id)
      else raise (.value "Password does not meet the local policy.")

/-- The first statement after the lock of a user row. -/
def userStep (a : Answer) (user : Option User) : Call → Option Next
  | .login _ password => some <|
      match user with
      | none => goto (.deny .none (.domain authenticationFailedError))
      | some user =>
          let (accepted, assigned) := loginUser C password a.now a.salt user
          if accepted then goto (.insert assigned (updated user assigned))
          else goto (.deny (updated user assigned) (.domain authenticationFailedError))
  | .updateStaff _ _ displayName status => some <|
      match user with
      | none => reject userNotFound
      | some user =>
          if user.role = .owner then reject ownerProtected
          else if displayName = none ∧ status = none then reject emptyUpdate
          else
            let assigned := { user with
              displayName := displayName.getD user.displayName
              status := status.getD user.status }
            if status = some .disabled then
              goto (.scan assigned a.now (updated user assigned) .nothing)
            else goto (.commit (updated user assigned) .nothing)
  | .resetStaffPassword _ _ => some <|
      match user with
      | none => reject userNotFound
      | some user =>
          if user.role = .owner then reject ownerProtected
          else
            match hashPassword C a.salt a.temporaryPassword with
            | none => raise .unexpected
            | some hash =>
                let assigned := withPassword user hash true a.now
                goto (.scan assigned a.now (updated user assigned)
                  { Reply.nothing with temporaryPassword := some a.temporaryPassword })
  | .resetOwnerPassword password => some <|
      match user with
      | none => raise (.value "The local OWNER does not exist.")
      | some user =>
          match hashPassword C a.salt password with
          | none => raise .unexpected
          | some hash =>
              let assigned := withPassword user hash false a.now
              goto (.scan assigned a.now (updated user assigned) .nothing)
  | .refresh _ | .changePassword _ _ _ | .logout _ _ => none

/-- The first statement after the lock of a session row. -/
def sessionStep (a : Answer) (session : Option AuthSession) : Call → Option Next
  | .refresh _ => some <|
      match session with
      | none => reject unauthenticatedError
      | some x =>
          if refreshValid x a.now then
            goto (.owner x ⟨none, [(x.id, ⟨some a.now, a.now⟩)], none⟩)
          else reject unauthenticatedError
  | .logout _ _ => some (goto (.accessSession session.toList))
  | _ => none

/-- `change_password` behind the lock. The row it gets is the one that the
session has loaded before. -/
def changeStep (a : Answer) (loaded : User) (stored : Bool) : Call → Option Next
  | .changePassword _ current new => some <|
      if !stored ∨ loaded.status ≠ .active ∨ !verifyPassword C loaded.passwordHash current then
        goto (.deny .none (.domain authenticationFailedError))
      else if verifyPassword C loaded.passwordHash new then reject passwordReuseForbiddenError
      else
        match hashPassword C a.salt new with
        | none => raise .unexpected
        | some hash =>
            let assigned := withPassword loaded hash false a.now
            goto (.scan assigned a.now (updated loaded assigned) .nothing)
  | _ => none

/-- The records of a logout besides the one of its refresh token. -/
def accessSessionStep (a : Answer) (db : Db) (records : List AuthSession) : Call → Option Next
  | .logout accessToken _ => some <|
      let named := do
        let claims ← accessToken.bind (decodeAccessToken C.jwt C.settings a.now)
        C.platform.parseUuid claims.sessionId
      match named with
      | none => goto (logoutRecords a.now records)
      | some sessionId => statement a.fate <|
          match db.sessions.get? sessionId with
          | none => goto (logoutRecords a.now records)
          | some x =>
              -- A record that is loaded already is the same object.
              if x.id ∈ records.map (·.id) then goto (logoutRecords a.now records)
              else goto (logoutRecords a.now (records ++ [x]))
  | _ => none

/-- After the sessions are revoked: a new one for the caller of
`change_password`, the commit for the others. -/
def revoked (user : User) (w : Writes) (reply : Reply) : Call → Stage
  | .changePassword _ _ _ => .insert user w
  | _ => .commit w { reply with revoked := w.sessions.map Prod.fst }

/-- The response of an issued session; `refresh` commits only after it. -/
def issued (x : AuthSession) (pair : SessionPair) (w : Writes) : Call → Stage
  | .refresh _ => .respond ⟨some pair, some x.id, w.sessions.map Prod.fst, none⟩
      (some { w with insert := some x })
  | _ => .commit { w with insert := some x } ⟨some pair, some x.id, w.sessions.map Prod.fst, none⟩

def step (a : Answer) (db : Db) (r : Request) : Option Next :=
  match r.stage with
  | .start => some (startStep C a db r.call)
  | .user id => (userStep C a (db.users.get? id) r.call).map (statement a.fate)
  | .session id => (sessionStep a (db.sessions.get? id) r.call).map (statement a.fate)
  | .authenticate userId role => some <| statement a.fate <|
      match db.users.get? userId with
      | none => reject unauthenticatedError
      | some user =>
          if user.status = .active ∧ Text.ofString user.role.value = role then goto (.change user)
          else reject unauthenticatedError
  | .change loaded =>
      (changeStep C a loaded (db.users.get? loaded.id).isSome r.call).map (statement a.fate)
  | .owner session w => some <| statement a.fate <|
      match session.userId.bind db.users.get? with
      | none => reject unauthenticatedError
      | some user =>
          if user.status = .active then goto (.insert user w) else reject unauthenticatedError
  | .accessSession records => accessSessionStep C a db records r.call
  | .revokeRecords now records w => some <|
      match records with
      | [] => goto (.respond { Reply.nothing with revoked := w.sessions.map Prod.fst } (some w))
      | x :: rest => statement a.fate <|
          goto (.revokeRecords now rest { w with sessions := w.sessions ++ [(x.id, ⟨none, now⟩)] })
  | .scan user now w reply => some <| statement a.fate <|
      let ids := (db.sessions.rows.filter fun x => decide (x.LiveOf user.id)).map (·.id)
      goto (.revoke user now ids w reply)
  | .revoke user now ids w reply => some <|
      match ids with
      | [] => goto (revoked user w reply r.call)
      | id :: rest => statement a.fate <|
          match db.sessions.get? id with
          | none => goto (.revoke user now rest w reply)
          | some x =>
              -- The condition is checked again on the locked row.
              if x.LiveOf user.id then
                goto (.revoke user now rest
                  { w with sessions := w.sessions ++ [(id, ⟨none, now⟩)] } reply)
              else goto (.revoke user now rest w reply)
  | .insert user w => some <|
      match newSession C user a with
      | none => raise .unexpected
      | some (x, pair) => statement a.fate (goto (issued x pair w r.call))
  | .deny w failure => some (commit db a.fate w (.failed failure))
  | .commit w reply => some (commit db a.fate w (.respond reply none))
  | .respond reply pending => some <|
      match pending with
      | none => (.done reply, .release)
      | some w => goto (.finish w reply)
  | .finish w reply => some <|
      -- An exception of this commit comes after the response.
      match db.write? w, a.fate.applied with
      | some db', true => (.done reply, .commit db')
      | _, _ => (.done reply, .release)
  | .done _ | .failed _ | .aborted => none

/-- Locks that the next statement takes. Inserting a session locks its user
through the foreign key. -/
def needs (r : Request) : List (Lock Row) :=
  match r.stage with
  | .user id => [.exclusive (.user id)]
  | .session id => [.exclusive (.session id)]
  | .change loaded => [.exclusive (.user loaded.id)]
  | .revokeRecords _ (x :: _) _ => [.exclusive (.session x.id)]
  | .revoke _ _ (id :: _) _ _ => [.exclusive (.session id)]
  | .insert user _ => [.shared (.user user.id)]
  | _ => []

/-- A process that stops, or the victim of a deadlock. -/
def abort (r : Request) : Request :=
  match r.stage with
  | .done _ | .failed _ => r
  | _ => { r with stage := .aborted }

end Request

def program : Program Db Request Answer Row where
  initial r := decide (r.stage = .start)
  needs := Request.needs
  step a db r := (r.step C a db).map fun n => ({ r with stage := n.1 }, n.2)
  abort := Request.abort

abbrev AuthState := State Db Request Row
abbrev AuthEvent := Event Request Answer

def next : AuthState → AuthEvent → Option AuthState := (program C).apply

end SuperBoss.Auth
