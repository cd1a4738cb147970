import Mathlib.Algebra.Group.Nat.Defs
import SuperBoss.Core.Json

/-!
Identifiers, clock readings, actors and errors, and the parts of the platform
that are parameters of the model.
-/

namespace SuperBoss.Core

abbrev UUID := BitVec 128

instance : LawfulBEq UUID := inferInstance

namespace UUID

/-- The `i`-th of the 32 hexadecimal digits. -/
def digit (u : UUID) (i : Nat) : Nat := Json.hexDigit (u.toNat / 16 ^ (31 - i) % 16)

/-- `str(UUID)`: lower-case groups of 8, 4, 4, 4 and 12 digits. -/
def text (u : UUID) : Text :=
  let group (start count : Nat) : Text := (List.range count).map fun i => digit u (start + i)
  Text.join [45] [group 0 8, group 8 4, group 12 4, group 16 4, group 20 12]

end UUID

/-- An aware datetime in UTC, in microseconds since 1970. -/
abbrev Instant := Int

/-- A calendar day, in days since 1970-01-01. -/
abbrev Date := Int

def microsecondsPerDay : Int := 86400 * 1000000

namespace Instant

/-- `datetime.min` and `datetime.max`. -/
def min : Instant := -62135596800 * 1000000
def max : Instant := 253402300800 * 1000000 - 1

/-- `datetime.date()`. -/
def date (t : Instant) : Date := t / microsecondsPerDay

def hours (n : Int) : Int := n * 3600 * 1000000
def minutes (n : Int) : Int := n * 60 * 1000000

end Instant

/-- A `datetime`: the wall clock, and the UTC offset when it has one. -/
structure Datetime where
  wall : Int
  offset : Option Int
  deriving DecidableEq

namespace Date

/-- `date.min` and `date.max`. -/
def min : Date := -719162
def max : Date := 2932896

/-- Year, month and day in the proleptic Gregorian calendar, by the usual
computation with years that begin in March. -/
def civil (d : Date) : Int × Int × Int :=
  let z := d + 719468
  let era := z / 146097
  let doe := z % 146097
  let yoe := (doe - doe / 1460 + doe / 36524 - doe / 146096) / 365
  let doy := doe - (365 * yoe + yoe / 4 - yoe / 100)
  let mp := (5 * doy + 2) / 153
  let day := doy - (153 * mp + 2) / 5 + 1
  let month := if mp < 10 then mp + 3 else mp - 9
  (yoe + era * 400 + (if month ≤ 2 then 1 else 0), month, day)

/-- The last `width` decimal digits of a number. -/
def pad : Nat → Int → Text
  | 0, _ => []
  | width + 1, n => pad width (n / 10) ++ [48 + (n % 10).toNat]

/-- `date.isoformat()`. -/
def isoformat (d : Date) : Text :=
  let (year, month, day) := civil d
  pad 4 year ++ 45 :: (pad 2 month ++ 45 :: pad 2 day)

example : isoformat 19782 = Text.ofString "2024-02-29" := by decide

end Date

theorem bind_eq_ok {ε α β : Type} {x : Except ε α} {f : α → Except ε β} {b : β} :
    x >>= f = .ok b ↔ ∃ a, x = .ok a ∧ f a = .ok b := by
  cases x with
  | error e => simp [bind, Except.bind]
  | ok a => simp [bind, Except.bind]

theorem map_eq_ok {ε α β : Type} {x : Except ε α} {f : α → β} {b : β} :
    x.map f = .ok b ↔ ∃ a, x = .ok a ∧ f a = b := by
  cases x with
  | error e => simp [Except.map]
  | ok a => simp [Except.map]

theorem ok_of_toOption {ε α : Type} {x : Except ε α} {a : α} (h : x.toOption = some a) :
    x = .ok a := by
  cases x with
  | error e => cases h
  | ok b => exact congrArg Except.ok (Option.some.inj h)

/-- Exceptions of a validator: errors that pydantic collects into one
`ValidationError`, and the `OverflowError` that it does not catch. -/
inductive PyError
  | validation
  | overflow
  deriving DecidableEq

/-- Validators of the fields of a model all run. Their errors are collected,
but an exception that is no `ValueError` propagates at once. -/
def collect {α β : Type} (f : Except PyError α) (g : Except PyError β) :
    Except PyError (α × β) :=
  match f, g with
  | .ok a, .ok b => .ok (a, b)
  | .error .overflow, _ => .error .overflow
  | .error .validation, .error .overflow => .error .overflow
  | .error .validation, _ => .error .validation
  | .ok _, .error e => .error e

theorem collect_eq_ok {α β : Type} {f : Except PyError α} {g : Except PyError β} {a : α}
    {b : β} : collect f g = .ok (a, b) ↔ f = .ok a ∧ g = .ok b := by
  cases f with
  | ok x => cases g <;> simp [collect]
  | error e =>
      cases e with
      | overflow => simp [collect]
      | validation =>
          cases g with
          | ok y => simp [collect]
          | error e => cases e <;> simp [collect]

/-- The validators of the items of a list. -/
def collectList {α β : Type} (f : α → Except PyError β) : List α → Except PyError (List β)
  | [] => .ok []
  | x :: xs =>
      match collect (f x) (collectList f xs) with
      | .ok (y, ys) => .ok (y :: ys)
      | .error e => .error e

/-- A check that raises `ValueError`. -/
def check (condition : Bool) : Except PyError Unit :=
  if condition then .ok () else .error .validation

inductive Role
  | owner
  | staff
  deriving DecidableEq

def Role.value : Role → String
  | .owner => "OWNER"
  | .staff => "STAFF"

inductive ActorKind
  | user
  | device
  | system
  deriving DecidableEq

def ActorKind.value : ActorKind → String
  | .user => "user"
  | .device => "device"
  | .system => "system"

structure Actor where
  kind : ActorKind
  subjectId : UUID
  role : Option Role
  projectIds : List UUID
  scopes : List String
  deriving DecidableEq

structure DomainError where
  code : String
  message : String
  statusCode : Nat
  deriving DecidableEq

def forbiddenError (code message : String) : DomainError := ⟨code, message, 403⟩
def notFoundError (code message : String) : DomainError := ⟨code, message, 404⟩
def conflictError (code message : String) : DomainError := ⟨code, message, 409⟩

def fileProvisioningPendingError : DomainError :=
  ⟨"FILE_PROVISIONING_PENDING", "File upload provisioning is pending", 503⟩

def fileCompletionPendingError : DomainError :=
  ⟨"FILE_COMPLETION_PENDING", "File completion is pending", 503⟩

/-- What an operation raises: an error of the public API, a `ValueError` of its
argument checks, or any other exception (of the database, of the broker). -/
inductive Failure
  | domain (error : DomainError)
  | value (message : String)
  | unexpected
  deriving DecidableEq

/-- The scopes and role a device needs for an import operation. -/
def Actor.isImportDevice (actor : Actor) (scope : String) : Bool :=
  actor.kind == .device && actor.role == none && actor.scopes.contains scope

/-- `require_project_access`. -/
def requireProjectAccess (actor : Actor) (projectId : UUID) : Except DomainError Unit :=
  let forbidden := forbiddenError "PROJECT_FORBIDDEN" "You cannot access this project"
  if actor.kind != .user then .error forbidden
  else if actor.role == some .owner then .ok ()
  else if actor.role == some .staff && actor.projectIds.contains projectId then .ok ()
  else .error forbidden

/-- What the code takes from its platform: Unicode tables, hashes, and the
conversions of pydantic, which read back what they dump. -/
structure Platform where
  unicode : Nfc
  /-- `str.isalnum` of one character. -/
  isAlnum : Nat → Bool
  /-- `hashlib.sha256(·).hexdigest()`. -/
  sha256 : Bytes → Text
  /-- `uuid5(NAMESPACE_URL, ·)`. -/
  uuid5 : Text → UUID
  parseUuid : Text → Option UUID
  parseDatetime : Json → Option Datetime
  /-- The JSON form of an aware datetime in UTC. -/
  dumpDatetime : Instant → Text
  parseInt : Json → Option Int
  parseUuid_text : ∀ u : UUID, parseUuid u.text = some u
  parseDatetime_dump : ∀ t, Instant.min ≤ t → t ≤ Instant.max →
    parseDatetime (.str (dumpDatetime t)) = some ⟨t, some 0⟩
  parseInt_int : ∀ n, parseInt (.int n) = some n

end SuperBoss.Core
