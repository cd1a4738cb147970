import SuperBoss.Library.Components
import SuperBoss.Users.Service

/-!
The web API over one database: browser sessions and passwords, staff and
projects, devices. The commands of the operator are not a part of it.
-/

namespace SuperBoss.Users

open SuperBoss.Core
open SuperBoss.Library.Transactions

structure Context where
  auth : Auth.Context
  devices : Devices.Context

namespace Db

def auth (db : Db) : Auth.Db := ⟨db.users, db.sessions⟩

def putAuth (db : Db) (new : Auth.Db) : Db := { db with users := new.users, sessions := new.sessions }

def deviceView (db : Db) : Devices.Db :=
  ⟨db.users, db.projects, db.pairings, db.devices, db.sessions⟩

def putDevices (db : Db) (new : Devices.Db) : Db :=
  { db with
    users := new.users
    projects := new.projects
    pairings := new.pairings
    devices := new.devices
    sessions := new.sessions }

end Db

def Row.ofAuth : Auth.Row → Row
  | .user id => .user id
  | .session id => .session id

def Row.ofDevices : Devices.Row → Row
  | .user id => .user id
  | .project id => .project id
  | .pairing id => .pairing id
  | .device id => .device id
  | .session id => .session id

/-- `reset_owner_password` is a command of the operator. -/
def fromBrowser (r : Auth.Request) : Bool :=
  match r.call with
  | .resetOwnerPassword _ => false
  | _ => true

/-- The requests of browsers. -/
def authProgram (C : Auth.Context) : Program Auth.Db Auth.Request Auth.Answer Auth.Row :=
  { Auth.program C with initial := fun r => (Auth.program C).initial r && fromBrowser r }

/-- The endpoints of devices. Those of the OWNER check the actor before they call
the service. -/
inductive DeviceRequest
  | createPairingCode (actor : Actor) (projectIds : List UUID)
  | revokeDevice (actor : Actor) (deviceId : UUID)
  | service (r : Devices.Request)
  | failed (error : DomainError)
  | aborted
  deriving DecidableEq

namespace DeviceRequest

def initial : DeviceRequest → Bool
  | .createPairingCode _ _ | .revokeDevice _ _ => true
  | .service ⟨.pair _ _, .start⟩ | .service ⟨.refresh _, .start⟩
  | .service ⟨.authenticate _, .start⟩ => true
  | .service _ | .failed _ | .aborted => false

/-- `_require_owner` of the router. -/
def requireOwner (actor : Actor) (call : Devices.Call) : DeviceRequest × Effect Devices.Db :=
  if isOwner actor then (.service ⟨call, .start⟩, .proceed)
  else (.failed Auth.ownerRequired, .release)

def step (C : Devices.Context) (a : Devices.Answer) (db : Devices.Db) :
    DeviceRequest → Option (DeviceRequest × Effect Devices.Db)
  | .createPairingCode actor projectIds =>
      some (requireOwner actor (.createPairingCode actor.subjectId projectIds))
  | .revokeDevice actor deviceId => some (requireOwner actor (.revoke actor.subjectId deviceId))
  | .service r => ((Devices.program C).step a db r).map fun n => (.service n.1, n.2)
  | .failed _ | .aborted => none

def needs (C : Devices.Context) : DeviceRequest → List (Lock Devices.Row)
  | .service r => (Devices.program C).needs r
  | .createPairingCode _ _ | .revokeDevice _ _ | .failed _ | .aborted => []

def abort (C : Devices.Context) : DeviceRequest → DeviceRequest
  | .service r => .service ((Devices.program C).abort r)
  | .failed error => .failed error
  | .createPairingCode _ _ | .revokeDevice _ _ | .aborted => .aborted

end DeviceRequest

def deviceProgram (C : Devices.Context) :
    Program Devices.Db DeviceRequest Devices.Answer Devices.Row where
  initial := DeviceRequest.initial
  needs := DeviceRequest.needs C
  step := DeviceRequest.step C
  abort := DeviceRequest.abort C

abbrev ApiRequest := Auth.Request ⊕ Request ⊕ DeviceRequest

abbrev ApiAnswer := Auth.Answer ⊕ Answer ⊕ Devices.Answer

def api (C : Context) : Program Db ApiRequest ApiAnswer Row :=
  ((authProgram C.auth).within Db.auth Db.putAuth Row.ofAuth).sum
    ((program C.auth).sum
      ((deviceProgram C.devices).within Db.deviceView Db.putDevices Row.ofDevices))

abbrev ApiState := State Db ApiRequest Row
abbrev ApiEvent := Event ApiRequest ApiAnswer

def next (C : Context) : ApiState → ApiEvent → Option ApiState := (api C).apply

end SuperBoss.Users
