import SuperBoss.Devices.Models
import SuperBoss.Core.Security
import SuperBoss.Files.Storage
import SuperBoss.Library.Transactions

/-!
`DeviceService` as transactions: a stage for every statement. Every row that a
decision rests on is read under `FOR UPDATE`.
-/

namespace SuperBoss.Devices

open SuperBoss.Core
open SuperBoss.Library
open SuperBoss.Library.Transactions
open SuperBoss.Auth
open SuperBoss.Files (Fate)

structure Context where
  platform : Platform
  jwt : Jwt
  settings : Settings
  /-- `unicodedata.normalize("NFKC", ·)`. -/
  nfkc : Text → Text
  /-- `unicodedata.category(·).startswith("C")`. -/
  isOther : Nat → Bool

inductive Call
  | createPairingCode (ownerId : UUID) (projectIds : List UUID)
  | pair (rawCode deviceName : Text)
  | refresh (rawRefresh : Text)
  | authenticate (rawAccess : Text)
  | revoke (ownerId deviceId : UUID)
  deriving DecidableEq

structure DeviceTokenPair where
  deviceId : UUID
  accessToken : Text
  refreshToken : Text
  expiresAt : Instant
  refreshExpiresAt : Instant
  deriving DecidableEq

inductive Reply
  | code (rawCode : Text) (expiresAt : Instant)
  | tokens (pair : DeviceTokenPair)
  | actor (actor : Actor)
  | revoked
  deriving DecidableEq

inductive DeviceFailure
  | invalidGrant (message : String)
  | invalidCredential
  | unexpected
  deriving DecidableEq

/-- What a transaction has flushed. -/
inductive Work
  | nothing
  | createPairingCode (pairing : DevicePairingCode)
  | pair (pairing : UUID) (now : Instant) (device : DeviceConnection) (session : AuthSession)
  | refresh (current : UUID) (now : Instant) (session : AuthSession)
  /-- The new `last_used_at`, if it moves. -/
  | authenticate (device : UUID) (lastUsedAt : Option Instant)
  | revoke (device : UUID) (now : Instant) (sessions : List UUID)
  deriving DecidableEq

/-- The claims of a device token that was decoded, with its times as moments. -/
structure Bearer where
  deviceId : UUID
  ownerId : UUID
  sessionId : UUID
  jti : UUID
  issuedAt : Instant
  expiresAt : Instant
  deriving DecidableEq

/-- What locked projects are for. -/
inductive Purpose
  | code
  | device (pairing : DevicePairingCode) (name : Text)
  deriving DecidableEq

inductive Stage
  | start
  /-- The OWNER of a call by the OWNER. -/
  | owner (now : Instant)
  | pairing (now : Instant) (id : UUID) (name : Text)
  | pairingOwner (now : Instant) (pairing : DevicePairingCode) (name : Text)
  /-- `SELECT … FROM projects … FOR UPDATE`: its snapshot, then row by row. -/
  | projects (now : Instant) (owner : User) (purpose : Purpose)
  | lockProjects (now : Instant) (owner : User) (purpose : Purpose) (ids : List UUID)
      (found : List Project)
  /-- The device of a locator, read without a lock. -/
  | locator (now : Instant) (locator : AuthSession)
  | refreshOwner (now : Instant) (locator : AuthSession) (device : DeviceConnection)
  | refreshDevice (now : Instant) (locator : AuthSession) (owner : Option User)
  | refreshSession (now : Instant) (locator : AuthSession) (owner : Option User)
      (device : Option DeviceConnection)
  | bearerOwner (now : Instant) (bearer : Bearer)
  | bearerDevice (now : Instant) (bearer : Bearer) (owner : Option User)
  | bearerSession (now : Instant) (bearer : Bearer) (owner : Option User)
      (device : Option DeviceConnection)
  | bearerProjects (now : Instant) (device : DeviceConnection)
  | bearerScopes (now : Instant) (device : DeviceConnection) (projectIds : List UUID)
  | device (now : Instant) (owner : User)
  /-- `SELECT … FROM sessions WHERE device_id = … FOR UPDATE`. -/
  | sessions (now : Instant) (device : DeviceConnection)
  | lockSessions (now : Instant) (device : DeviceConnection) (ids : List UUID)
      (unrevoked : List UUID)
  | commit (work : Work) (reply : Reply)
  /-- The denial is recorded in a transaction of its own. -/
  | denied (failure : DeviceFailure)
  | done (reply : Reply)
  | failed (failure : DeviceFailure)
  | aborted
  deriving DecidableEq

structure Request where
  call : Call
  stage : Stage
  deriving DecidableEq

structure Db where
  users : UserTable
  projects : ProjectTable
  pairings : PairingTable
  devices : DeviceTable
  sessions : SessionTable

/-- The clock reads a `datetime`. -/
structure Answer where
  fate : Fate
  now : Instant
  id : UUID
  sessionId : UUID
  jti : UUID
  token : Text
  datetime : Instant.min ≤ now ∧ now ≤ Instant.max

inductive Row
  | user (id : UUID)
  | project (id : UUID)
  | pairing (id : UUID)
  | device (id : UUID)
  | session (id : UUID)
  deriving DecidableEq

namespace Db

/-- Make the writes of a transaction visible; `none` when a constraint objects. -/
def write? (db : Db) : Work → Option Db
  | .nothing => some db
  | .createPairingCode pairing =>
      (db.pairings.insert? pairing).map fun pairings => { db with pairings }
  | .pair id now device session => do
      if (db.pairings.get? id).all fun p => p.usable now then
        let devices ← db.devices.insert? device
        let sessions ← db.sessions.insert? session
        let pairings := db.pairings.modify id (.use now) (DevicePairingCode.use_keeps now)
        some { db with pairings, devices, sessions }
      else none
  | .refresh current now session =>
      ((updateSessions db.sessions [(current, ⟨some now, now⟩)]).insert? session).map
        fun sessions => { db with sessions }
  | .authenticate _ none => some db
  | .authenticate id (some now) =>
      if (db.devices.get? id).all fun d => decide (d.pairedAt ≤ now) then
        some { db with
          devices := db.devices.modify id (.touch now) (DeviceConnection.touch_keeps now) }
      else none
  | .revoke id now ids =>
      if (db.devices.get? id).all fun d => decide (d.pairedAt ≤ now) then
        some { db with
          devices := db.devices.modify id (.revoke now) (DeviceConnection.revoke_keeps now)
          sessions := updateSessions db.sessions (ids.map fun i => (i, ⟨none, now⟩)) }
      else none

def pairingByHash (db : Db) (hash : Text) : Option DevicePairingCode :=
  db.pairings.rows.find? fun p => decide (p.codeHash = hash)

def sessionByHash (db : Db) (hash : Text) : Option AuthSession :=
  db.sessions.rows.find? fun x => decide (x.refreshTokenHash = hash)

end Db

variable (C : Context)

/-- `_credential_hash`. -/
def credentialHash (raw : Text) : Option Text :=
  if 32 ≤ raw.length ∧ raw.length ≤ 512 then hashToken C.platform raw else none

/-- `normalize_device_name`; `none` is an `InvalidDeviceGrant`. -/
def normalizeDeviceName (value : Text) : Option Text :=
  let blank (c : Nat) : Bool := [32, 9, 13, 10, 160].contains c
  let normalized := (((C.nfkc value).dropWhile blank).reverse.dropWhile blank).reverse
  if 1 ≤ normalized.length ∧ normalized.length ≤ 128 ∧ normalized.all fun c => !C.isOther c then
    some normalized
  else none

abbrev Next := Stage × Effect Db

def goto (stage : Stage) : Next := (stage, .proceed)

def raise (failure : DeviceFailure) : Next := (.failed failure, .release)

/-- `_CredentialRejected`: the transaction is rolled back, and the denial recorded. -/
def credentialRejected : Next := (.denied .invalidCredential, .release)

/-- A statement of a transaction that goes on, or fails and is rolled back. -/
def statement (fate : Fate) (next : Next) : Next :=
  if fate = .ok then next else raise .unexpected

def ownerRequired : DeviceFailure := .invalidGrant "Active OWNER is required"

def projectsRequired : DeviceFailure :=
  .invalidGrant "At least one unique active project is required"

/-- An OWNER who may act. -/
def activeOwner (owner : Option User) : Bool :=
  owner.any fun u => decide (u.role = .owner) && decide (u.status = .active)

/-- `_new_session`. -/
def newSession (deviceId ownerId : UUID) (now : Instant) (a : Answer) :
    Option (AuthSession × DeviceTokenPair) := do
  let issuedAt := now.wholeSeconds
  let (token, accessExpiresAt) ←
    issueDeviceAccessToken C.jwt C.settings deviceId ownerId a.sessionId a.jti issuedAt
  let refreshExpiresAt := issuedAt + Instant.hours (14 * 24)
  if Instant.max < refreshExpiresAt then none
  else
    let hash ← hashToken C.platform a.token
    some (⟨a.sessionId, .device, none, some deviceId, a.jti.text, hash, accessExpiresAt,
      refreshExpiresAt, none, none, issuedAt⟩, ⟨deviceId, token, a.token, accessExpiresAt,
      refreshExpiresAt⟩)

/-- The checks of `refresh` on the locked rows. -/
def refreshAccepted (locator : AuthSession) (owner : Option User)
    (device : Option DeviceConnection) (current : Option AuthSession) (now : Instant) : Bool :=
  activeOwner owner &&
    device.any (fun d => owner.any (fun u => d.ownerId == u.id) && d.revokedAt == none &&
      current.any fun x => x.kind == .device && x.id == locator.id && x.deviceId == some d.id &&
        x.refreshUsedAt == none && x.revokedAt == none && now < x.refreshExpiresAt)

/-- The checks of `authenticate_access_token` on the locked rows. -/
def bearerAccepted (b : Bearer) (owner : Option User) (device : Option DeviceConnection)
    (session : Option AuthSession) (now : Instant) : Bool :=
  activeOwner owner &&
    device.any (fun d => d.ownerId == b.ownerId && d.revokedAt == none) &&
    session.any (fun x => x.kind == .device && x.deviceId == some b.deviceId &&
      x.accessJti == b.jti.text && x.revokedAt == none && x.createdAt == b.issuedAt &&
      x.accessExpiresAt == b.expiresAt && now < x.accessExpiresAt) &&
    b.issuedAt ≤ now && now < b.expiresAt

/-- The claims of a bearer token, with the exceptions of their conversion. -/
def bearerClaims (raw : Text) : Except DeviceFailure Bearer :=
  match decodeDeviceAccessToken C.jwt C.platform C.settings raw with
  | none => .error .invalidCredential
  | some claims =>
      match fromTimestamp claims.iat, fromTimestamp claims.exp with
      | .ok issuedAt, .ok expiresAt =>
          .ok ⟨claims.deviceId, claims.ownerId, claims.sessionId, claims.jti, issuedAt, expiresAt⟩
      | .error .overflow, _ => .error .unexpected
      | .error .validation, _ => .error .invalidCredential
      | .ok _, .error .overflow => .error .unexpected
      | .ok _, .error .validation => .error .invalidCredential

namespace Request

def startStep (a : Answer) (db : Db) : Call → Next
  | .createPairingCode _ projectIds =>
      if projectIds = [] ∨ ¬projectIds.Nodup then raise projectsRequired
      else if Instant.max < a.now + Instant.minutes 10 then raise .unexpected
      else goto (.owner a.now)
  | .pair rawCode deviceName =>
      match normalizeDeviceName C deviceName with
      | none => (.denied (.invalidGrant "Device name is invalid"), .release)
      | some name =>
          match credentialHash C rawCode with
          | none => credentialRejected
          | some hash => statement a.fate <|
              match db.pairingByHash hash with
              | none => credentialRejected
              | some p => goto (.pairing a.now p.id name)
  | .refresh rawRefresh =>
      match credentialHash C rawRefresh with
      | none => credentialRejected
      | some hash => statement a.fate <|
          match db.sessionByHash hash with
          | none => credentialRejected
          | some x => goto (.locator a.now x)
  | .authenticate rawAccess =>
      match bearerClaims C rawAccess with
      | .error failure => raise failure
      | .ok bearer => goto (.bearerOwner a.now bearer)
  | .revoke _ _ => goto (.owner a.now)

/-- After the lock of the OWNER who calls. -/
def ownerStep (now : Instant) (owner : Option User) : Call → Option Next
  | .createPairingCode _ _ => some <|
      match owner with
      | none => raise ownerRequired
      | some u =>
          if activeOwner owner then goto (.projects now u .code) else raise ownerRequired
  | .revoke _ _ => some <|
      match owner with
      | none => raise ownerRequired
      | some u => if activeOwner owner then goto (.device now u) else raise ownerRequired
  | .pair _ _ | .refresh _ | .authenticate _ => none

def selected (purpose : Purpose) : Call → List UUID
  | .createPairingCode _ projectIds => projectIds
  | .pair _ _ | .refresh _ | .authenticate _ | .revoke _ _ =>
      match purpose with
      | .code => []
      | .device pairing _ => pairing.projectIds

/-- After the locks of the projects. -/
def projectsLocked (a : Answer) (now : Instant) (owner : User) (purpose : Purpose)
    (found : List Project) (projectIds : List UUID) : Next :=
  match purpose with
  | .code =>
      if found.length ≠ projectIds.length ∨ found.any fun p => p.status != .active then
        raise projectsRequired
      else
        match hashToken C.platform a.token with
        | none => raise .unexpected
        | some hash =>
            let expiresAt := now + Instant.minutes 10
            goto (.commit (.createPairingCode
              ⟨a.id, owner.id, hash, expiresAt, none, now, projectIds⟩) (.code a.token expiresAt))
  | .device pairing name =>
      if found = [] ∨ found.any fun p => p.status != .active then credentialRejected
      else
        let device : DeviceConnection :=
          ⟨a.id, owner.id, name, now, none, none, found.map (·.id), deviceAccessScopes⟩
        match newSession C device.id device.ownerId now a with
        | none => raise .unexpected
        | some (session, pair) =>
            goto (.commit (.pair pairing.id now device session) (.tokens pair))

def step (a : Answer) (db : Db) (r : Request) : Option Next :=
  match r.stage with
  | .start => some (startStep C a db r.call)
  | .owner now =>
      match r.call with
      | .createPairingCode ownerId _ | .revoke ownerId _ =>
          (ownerStep now (db.users.get? ownerId) r.call).map (statement a.fate)
      | _ => none
  | .pairing now id name => some <| statement a.fate <|
      match db.pairings.get? id with
      | none => credentialRejected
      | some p =>
          if p.usedAt.isSome ∨ p.expiresAt ≤ now then credentialRejected
          else goto (.pairingOwner now p name)
  | .pairingOwner now pairing name => some <| statement a.fate <|
      match db.users.get? pairing.ownerId with
      | none => credentialRejected
      | some u =>
          if activeOwner (some u) then goto (.projects now u (.device pairing name))
          else credentialRejected
  | .projects now owner purpose => some <| statement a.fate <|
      let ids := (db.projects.rows.filter fun p =>
        decide (p.id ∈ selected purpose r.call)).map (·.id)
      goto (.lockProjects now owner purpose ids [])
  | .lockProjects now owner purpose ids found => some <| statement a.fate <|
      match ids with
      | [] => projectsLocked C a now owner purpose found (selected purpose r.call)
      | id :: rest =>
          goto (.lockProjects now owner purpose rest (found ++ (db.projects.get? id).toList))
  | .locator now locator => some <| statement a.fate <|
      match locator.deviceId.bind db.devices.get? with
      | none => credentialRejected
      | some d => goto (.refreshOwner now locator d)
  | .refreshOwner now locator device => some <| statement a.fate <|
      goto (.refreshDevice now locator (db.users.get? device.ownerId))
  | .refreshDevice now locator owner => some <| statement a.fate <|
      goto (.refreshSession now locator owner (locator.deviceId.bind db.devices.get?))
  | .refreshSession now locator owner device => some <| statement a.fate <|
      let current := (db.sessions.get? locator.id).filter fun x =>
        x.refreshTokenHash == locator.refreshTokenHash
      match device with
      | none => credentialRejected
      | some d =>
          if refreshAccepted locator owner (some d) current now then
            match newSession C d.id d.ownerId now a with
            | none => raise .unexpected
            | some (session, pair) =>
                goto (.commit (.refresh locator.id now session) (.tokens pair))
          else credentialRejected
  | .bearerOwner now bearer => some <| statement a.fate <|
      goto (.bearerDevice now bearer (db.users.get? bearer.ownerId))
  | .bearerDevice now bearer owner => some <| statement a.fate <|
      goto (.bearerSession now bearer owner (db.devices.get? bearer.deviceId))
  | .bearerSession now bearer owner device => some <| statement a.fate <|
      match device with
      | none => raise .invalidCredential
      | some d =>
          if bearerAccepted bearer owner (some d) (db.sessions.get? bearer.sessionId) now then
            goto (.bearerProjects now d)
          else raise .invalidCredential
  | .bearerProjects now device => some <| statement a.fate <|
      goto (.bearerScopes now device (device.projectIds.filter fun id =>
        (db.projects.get? id).any fun p => decide (p.status = .active)))
  | .bearerScopes now device projectIds => some <| statement a.fate <|
      let touched := if device.lastUsedAt.all fun t => decide (t < now) then some now else none
      goto (.commit (.authenticate device.id touched) (.actor ⟨.device, device.id, none, projectIds,
        device.scopes.filter fun scope => deviceAccessScopes.contains scope⟩))
  | .device now owner =>
      match r.call with
      | .revoke _ deviceId => some <| statement a.fate <|
          match (db.devices.get? deviceId).filter fun d => d.ownerId == owner.id with
          | none => raise (.invalidGrant "Device is not available")
          | some d =>
              if d.revokedAt.isSome then goto (.commit .nothing .revoked)
              else goto (.sessions now d)
      | _ => none
  | .sessions now device => some <| statement a.fate <|
      let ids := (db.sessions.rows.filter fun x => decide (x.deviceId = some device.id)).map (·.id)
      goto (.lockSessions now device ids [])
  | .lockSessions now device ids unrevoked => some <|
      match ids with
      | [] => goto (.commit (.revoke device.id now unrevoked) .revoked)
      | id :: rest => statement a.fate <|
          if (db.sessions.get? id).any fun x => x.revokedAt == none then
            goto (.lockSessions now device rest (unrevoked ++ [id]))
          else goto (.lockSessions now device rest unrevoked)
  | .commit work reply => some <|
      match db.write? work, a.fate with
      | some db', .ok => (.done reply, .commit db')
      | some db', .lost => (.failed .unexpected, .commit db')
      | _, _ => raise .unexpected
  | .denied failure => some <|
      if a.fate = .ok then raise failure else raise .unexpected
  | .done _ | .failed _ | .aborted => none

/-- Locks that the next statement takes. -/
def needs (r : Request) : List (Lock Row) :=
  match r.stage, r.call with
  | .owner _, .createPairingCode ownerId _ | .owner _, .revoke ownerId _ =>
      [.exclusive (.user ownerId)]
  | .pairing _ id _, _ => [.exclusive (.pairing id)]
  | .pairingOwner _ pairing _, _ => [.exclusive (.user pairing.ownerId)]
  | .lockProjects _ _ _ (id :: _) _, _ => [.exclusive (.project id)]
  | .refreshOwner _ _ device, _ => [.exclusive (.user device.ownerId)]
  | .refreshDevice _ locator _, _ => locator.deviceId.toList.map fun id => .exclusive (.device id)
  | .refreshSession _ locator _ _, _ => [.exclusive (.session locator.id)]
  | .bearerOwner _ bearer, _ => [.exclusive (.user bearer.ownerId)]
  | .bearerDevice _ bearer _, _ => [.exclusive (.device bearer.deviceId)]
  | .bearerSession _ bearer _ _, _ => [.exclusive (.session bearer.sessionId)]
  | .device _ _, .revoke _ deviceId => [.exclusive (.device deviceId)]
  | .lockSessions _ _ (id :: _) _, _ => [.exclusive (.session id)]
  | _, _ => []

/-- A process that stops, or the victim of a deadlock. -/
def abort (r : Request) : Request :=
  match r.stage with
  | .done _ | .failed _ => r
  | _ => { r with stage := .aborted }

end Request

def program : Program Db Request Answer Row where
  initial r := decide (r.stage = .start)
  needs := Request.needs
  step a db r := (r.step C a db).map fun n => ({ r with stage := n.1 }, n.2)
  abort := Request.abort

abbrev DeviceState := State Db Request Row
abbrev DeviceEvent := Event Request Answer

def next : DeviceState → DeviceEvent → Option DeviceState := (program C).apply

end SuperBoss.Devices
