import SuperBoss.Auth.Models

/-!
Projects, pairing codes and device connections with their grants. The sessions
of devices are rows of the table that also holds those of browsers.
-/

namespace SuperBoss.Devices

open SuperBoss.Core
open SuperBoss.Library
open SuperBoss.Auth

inductive ProjectStatus
  | active
  | archived
  deriving DecidableEq

structure Project where
  id : UUID
  status : ProjectStatus
  deriving DecidableEq

abbrev ProjectTable := Table Project.id fun _ _ => True

structure DevicePairingCode where
  id : UUID
  ownerId : UUID
  codeHash : Text
  expiresAt : Instant
  usedAt : Option Instant
  createdAt : Instant
  /-- The rows of `device_pairing_projects`. -/
  projectIds : List UUID
  deriving DecidableEq

namespace DevicePairingCode

def Distinct (p q : DevicePairingCode) : Prop := p.codeHash ≠ q.codeHash

instance : DecidableRel Distinct := fun _ _ => inferInstanceAs (Decidable (_ ≠ _))

/-- `ck_device_pairing_codes_used_order` for a code that is used now. -/
def usable (p : DevicePairingCode) (now : Instant) : Bool :=
  p.createdAt ≤ now && now ≤ p.expiresAt

def use (now : Instant) (p : DevicePairingCode) : DevicePairingCode := { p with usedAt := some now }

theorem use_keeps (now : Instant) : Table.Keeps DevicePairingCode.id Distinct (use now) :=
  ⟨fun _ => rfl, fun h => ⟨h, h⟩⟩

end DevicePairingCode

abbrev PairingTable := Table DevicePairingCode.id DevicePairingCode.Distinct

structure DeviceConnection where
  id : UUID
  ownerId : UUID
  name : Text
  pairedAt : Instant
  lastUsedAt : Option Instant
  revokedAt : Option Instant
  /-- The rows of `device_project_grants`. -/
  projectIds : List UUID
  /-- The rows of `device_scope_grants`. -/
  scopes : List String
  deriving DecidableEq

namespace DeviceConnection

def touch (now : Instant) (d : DeviceConnection) : DeviceConnection :=
  { d with lastUsedAt := some now }

def revoke (now : Instant) (d : DeviceConnection) : DeviceConnection :=
  { d with revokedAt := some now }

theorem touch_keeps (now : Instant) :
    Table.Keeps DeviceConnection.id (fun _ _ => True) (touch now) :=
  ⟨fun _ => rfl, fun h => ⟨h, h⟩⟩

theorem revoke_keeps (now : Instant) :
    Table.Keeps DeviceConnection.id (fun _ _ => True) (revoke now) :=
  ⟨fun _ => rfl, fun h => ⟨h, h⟩⟩

end DeviceConnection

abbrev DeviceTable := Table DeviceConnection.id fun _ _ => True

/-- A session of device `d` that is not revoked. -/
def LiveOn (d : UUID) (x : AuthSession) : Prop := x.deviceId = some d ∧ x.revokedAt = none

instance (d : UUID) (x : AuthSession) : Decidable (LiveOn d x) :=
  inferInstanceAs (Decidable (_ ∧ _))

end SuperBoss.Devices
