import SuperBoss.Core.Security
import SuperBoss.Library.Table

/-!
Users and sessions, with the updates that requests make to their rows.
-/

namespace SuperBoss.Auth

open SuperBoss.Core
open SuperBoss.Library

inductive UserStatus
  | active
  | disabled
  deriving DecidableEq

structure User where
  id : UUID
  username : Text
  displayName : Text
  passwordHash : Text
  mustChangePassword : Bool
  passwordChangedAt : Instant
  failedLoginCount : Nat
  lockedUntil : Option Instant
  role : Role
  status : UserStatus
  lastLoginAt : Option Instant
  deriving DecidableEq

/-- `uq_users_username` and `uq_users_single_owner`. -/
def User.Distinct (u v : User) : Prop :=
  u.username ≠ v.username ∧ ¬(u.role = .owner ∧ v.role = .owner)

instance : DecidableRel User.Distinct := fun _ _ => inferInstanceAs (Decidable (_ ∧ _))

abbrev UserTable := Table User.id User.Distinct

/-- The columns of an `UPDATE users`. -/
structure UserUpdate where
  displayName : Option Text
  passwordHash : Option Text
  mustChangePassword : Option Bool
  passwordChangedAt : Option Instant
  failedLoginCount : Option Nat
  lockedUntil : Option (Option Instant)
  status : Option UserStatus
  lastLoginAt : Option (Option Instant)
  deriving DecidableEq

namespace UserUpdate

/-- A column is only written when it differs from the row as it was loaded. -/
def changed {α : Type} [DecidableEq α] (loaded assigned : α) : Option α :=
  if loaded = assigned then none else some assigned

/-- What a flush writes for a loaded row whose attributes were assigned. -/
def flush (loaded assigned : User) : UserUpdate where
  displayName := changed loaded.displayName assigned.displayName
  passwordHash := changed loaded.passwordHash assigned.passwordHash
  mustChangePassword := changed loaded.mustChangePassword assigned.mustChangePassword
  passwordChangedAt := changed loaded.passwordChangedAt assigned.passwordChangedAt
  failedLoginCount := changed loaded.failedLoginCount assigned.failedLoginCount
  lockedUntil := changed loaded.lockedUntil assigned.lockedUntil
  status := changed loaded.status assigned.status
  lastLoginAt := changed loaded.lastLoginAt assigned.lastLoginAt

def apply (u : UserUpdate) (row : User) : User :=
  { row with
    displayName := u.displayName.getD row.displayName
    passwordHash := u.passwordHash.getD row.passwordHash
    mustChangePassword := u.mustChangePassword.getD row.mustChangePassword
    passwordChangedAt := u.passwordChangedAt.getD row.passwordChangedAt
    failedLoginCount := u.failedLoginCount.getD row.failedLoginCount
    lockedUntil := u.lockedUntil.getD row.lockedUntil
    status := u.status.getD row.status
    lastLoginAt := u.lastLoginAt.getD row.lastLoginAt }

theorem keeps (u : UserUpdate) : Table.Keeps User.id User.Distinct u.apply :=
  ⟨fun _ => rfl, fun h => ⟨h, h⟩⟩

theorem changed_getD {α : Type} [DecidableEq α] (loaded assigned : α) :
    (changed loaded assigned).getD loaded = assigned := by
  unfold changed
  split
  · assumption
  · rfl

/-- Over the row it was computed from, a flush gives the assigned attributes. -/
theorem flush_apply {loaded assigned : User} (hid : assigned.id = loaded.id)
    (husername : assigned.username = loaded.username) (hrole : assigned.role = loaded.role) :
    (flush loaded assigned).apply loaded = assigned := by
  cases assigned
  simp only [apply, flush, changed_getD]
  simp only at hid husername hrole
  rw [hid, husername, hrole]

end UserUpdate

inductive SessionKind
  | user
  | device
  deriving DecidableEq

structure AuthSession where
  id : UUID
  kind : SessionKind
  userId : Option UUID
  deviceId : Option UUID
  accessJti : Text
  refreshTokenHash : Text
  accessExpiresAt : Instant
  refreshExpiresAt : Instant
  refreshUsedAt : Option Instant
  revokedAt : Option Instant
  createdAt : Instant
  deriving DecidableEq

namespace AuthSession

/-- The unique columns. -/
def Distinct (x y : AuthSession) : Prop :=
  x.accessJti ≠ y.accessJti ∧ x.refreshTokenHash ≠ y.refreshTokenHash

instance : DecidableRel Distinct := fun _ _ => inferInstanceAs (Decidable (_ ∧ _))

/-- A session that a browser of user `u` may still use. -/
def LiveOf (u : UUID) (x : AuthSession) : Prop := x.userId = some u ∧ x.revokedAt = none

instance (u : UUID) (x : AuthSession) : Decidable (x.LiveOf u) :=
  inferInstanceAs (Decidable (_ ∧ _))

end AuthSession

abbrev SessionTable := Table AuthSession.id AuthSession.Distinct

/-- An `UPDATE sessions`: every one of the code revokes. -/
structure SessionUpdate where
  refreshUsedAt : Option Instant
  revokedAt : Instant
  deriving DecidableEq

namespace SessionUpdate

def apply (u : SessionUpdate) (x : AuthSession) : AuthSession :=
  { x with
    refreshUsedAt := u.refreshUsedAt.or x.refreshUsedAt
    revokedAt := some u.revokedAt }

theorem keeps (u : SessionUpdate) : Table.Keeps AuthSession.id AuthSession.Distinct u.apply :=
  ⟨fun _ => rfl, fun h => ⟨h, h⟩⟩

@[simp] theorem apply_id (u : SessionUpdate) (x : AuthSession) : (u.apply x).id = x.id := rfl

@[simp] theorem apply_userId (u : SessionUpdate) (x : AuthSession) :
    (u.apply x).userId = x.userId := rfl

@[simp] theorem apply_revokedAt (u : SessionUpdate) (x : AuthSession) :
    (u.apply x).revokedAt = some u.revokedAt := rfl

end SessionUpdate

def updateSessions (sessions : SessionTable) : List (UUID × SessionUpdate) → SessionTable
  | [] => sessions
  | (id, u) :: rest => updateSessions (sessions.modify id u.apply u.keeps) rest

/-- A session row `x` that has become `y`; `touched` says whether it was updated. -/
structure Revises (touched : Prop) (x y : AuthSession) : Prop where
  identity : y = { x with refreshUsedAt := y.refreshUsedAt, revokedAt := y.revokedAt }
  used : x.refreshUsedAt ≠ none → y.refreshUsedAt ≠ none
  kept : ¬touched → y = x
  revoked : touched → y.revokedAt ≠ none

namespace Revises

variable {touched touched' : Prop} {x y : AuthSession}

theorem refl (h : ¬touched) : Revises touched x x :=
  ⟨rfl, fun hused => hused, fun _ => rfl, fun htouched => absurd htouched h⟩

theorem congr (h : Revises touched x y) (hiff : touched ↔ touched') : Revises touched' x y :=
  ⟨h.identity, h.used, fun hnot => h.kept fun ht => hnot (hiff.mp ht), fun ht =>
    h.revoked (hiff.mpr ht)⟩

theorem userId (h : Revises touched x y) : y.userId = x.userId := by
  rw [h.identity]

theorem stays_revoked (h : Revises touched x y) (hx : x.revokedAt ≠ none) :
    y.revokedAt ≠ none := by
  by_cases htouched : touched
  · exact h.revoked htouched
  · rw [h.kept htouched]
    exact hx

end Revises

theorem SessionUpdate.apply_used (u : SessionUpdate) {x : AuthSession}
    (h : x.refreshUsedAt ≠ none) : (u.apply x).refreshUsedAt ≠ none := by
  intro heq
  exact h (Option.or_eq_none_iff.mp heq).2

theorem updateSessions_of_none {t : SessionTable} {id : UUID}
    (ps : List (UUID × SessionUpdate)) (h : t.get? id = none) :
    (updateSessions t ps).get? id = none := by
  induction ps generalizing t with
  | nil => exact h
  | cons p ps ih =>
      apply ih
      rw [Table.get?_modify, h]
      split <;> rfl

theorem updateSessions_of_some {t : SessionTable} {id : UUID} {x : AuthSession}
    (ps : List (UUID × SessionUpdate)) (h : t.get? id = some x) :
    ∃ y, (updateSessions t ps).get? id = some y ∧ Revises (id ∈ ps.map Prod.fst) x y := by
  induction ps generalizing t x with
  | nil => exact ⟨x, h, rfl, fun hused => hused, fun _ => rfl, fun h => by cases h⟩
  | cons p ps ih =>
      by_cases hid : id = p.1
      · have hp : (t.modify p.1 p.2.apply p.2.keeps).get? id = some (p.2.apply x) := by
          rw [Table.get?_modify, if_pos hid, h]
          rfl
        obtain ⟨y, hy, hrev⟩ := ih hp
        refine ⟨y, hy, by rw [hrev.identity]; rfl, fun hused => hrev.used (p.2.apply_used hused),
          fun hnot => ?_, fun _ => ?_⟩
        · exact absurd (List.mem_map.mpr ⟨p, List.mem_cons_self, hid.symm⟩) hnot
        · by_cases hmem : id ∈ ps.map Prod.fst
          · exact hrev.revoked hmem
          · rw [hrev.kept hmem]
            simp
      · have hp : (t.modify p.1 p.2.apply p.2.keeps).get? id = some x := by
          rw [Table.get?_modify, if_neg hid, h]
        obtain ⟨y, hy, hrev⟩ := ih hp
        have hiff : id ∈ (p :: ps).map Prod.fst ↔ id ∈ ps.map Prod.fst := by
          rw [List.map_cons, List.mem_cons]
          exact or_iff_right hid
        exact ⟨y, hy, hrev.identity, hrev.used, fun hnot => hrev.kept fun h => hnot (hiff.mpr h),
          fun h => hrev.revoked (hiff.mp h)⟩

end SuperBoss.Auth
