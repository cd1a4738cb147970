import Mathlib.Algebra.Order.Ring.Rat
import SuperBoss.Devices.Models
import SuperBoss.Files.Storage
import SuperBoss.Imports.Models
import SuperBoss.Library.Transactions

/-!
`AuditService.record` as a transaction of its own, next to transactions that
create the projects which events refer to.
-/

namespace SuperBoss.Audit

open SuperBoss.Core
open SuperBoss.Library
open SuperBoss.Library.Transactions
open SuperBoss.Devices (Project ProjectTable)
open SuperBoss.Files (Fate)
open SuperBoss.Imports (AuditLog AuditTable)

structure Context where
  /-- The number that a float literal stands for. -/
  floatValue : Text → ℚ
  /-- What a `JSONB` column gives back of a value. -/
  jsonb : Json → Json

variable (C : Context)

/-! ### Equality of JSON values -/

/-- The values that Python compares as numbers. -/
def number : Json → Option ℚ
  | .bool b => some (if b then 1 else 0)
  | .int n => some n
  | .float literal => some (C.floatValue literal)
  | .null | .str _ | .arr _ | .obj _ => none

mutual

/-- `==` of two JSON values. -/
def same : Json → Json → Bool
  | .null, .null => true
  | .str s, .str t => decide (s = t)
  | .arr xs, .arr ys => sameItems xs ys
  | .obj fs, .obj gs => fs.length == gs.length && sameFields fs gs
  | x, y =>
      match number C x, number C y with
      | some m, some n => decide (m = n)
      | _, _ => false

def sameItems : List Json → List Json → Bool
  | [], [] => true
  | x :: xs, y :: ys => same x y && sameItems xs ys
  | _, _ => false

/-- Every field has its equal among `gs`. -/
def sameFields : List (Text × Json) → List (Text × Json) → Bool
  | [], _ => true
  | (k, x) :: fs, gs =>
      (match gs.lookup k with
      | some y => same x y
      | none => false) && sameFields fs gs

end

/-! ### Events -/

structure AuditEventInput where
  actor : Actor
  action : String
  objectType : String
  objectId : Option UUID
  projectId : Option UUID
  outcome : String
  requestId : UUID
  eventKey : Option UUID
  metadata : List (Text × Json)
  deriving DecidableEq

/-- `expected_metadata`. -/
def AuditEventInput.payload (event : AuditEventInput) : Json :=
  .obj ((event.metadata.filter fun f => decide (f.1 ≠ Text.ofString "actor_role")) ++
    [Json.field "actor_role"
      (Json.ofOption (fun r => .str (Text.ofString r.value)) event.actor.role)])

/-- The columns besides the metadata. -/
def sameColumns (row : AuditLog) (event : AuditEventInput) : Bool :=
  row.actorKind == event.actor.kind && row.actorId == some event.actor.subjectId &&
    row.action == event.action && row.objectType == event.objectType &&
    row.objectId == event.objectId && row.projectId == event.projectId &&
    row.outcome == event.outcome && row.requestId == some event.requestId

/-- `_same_event`. -/
def sameEvent (row : AuditLog) (event : AuditEventInput) : Bool :=
  sameColumns row event && same C row.metadata event.payload

/-- The row that `write_audit` adds, as it is read back. -/
def newRow (event : AuditEventInput) (id : UUID) : AuditLog where
  id
  actorKind := event.actor.kind
  actorId := some event.actor.subjectId
  action := event.action
  objectType := event.objectType
  objectId := event.objectId
  projectId := event.projectId
  outcome := event.outcome
  metadata := C.jsonb event.payload
  requestId := some event.requestId
  eventKey := event.eventKey

/-! ### Transactions -/

structure Db where
  logs : AuditTable
  projects : ProjectTable

inductive Call
  | record (event : AuditEventInput)
  | createProject (project : Project)
  deriving DecidableEq

inductive RecordFailure
  /-- `RuntimeError(_AUDIT_CONFLICT)`. -/
  | conflict
  | integrity
  | unexpected
  deriving DecidableEq

/-- Where a call is. `persist` runs a second time, as a retry, after an
`IntegrityError` and a rollback. -/
inductive Stage
  | start
  /-- `SELECT … FROM audit_logs WHERE event_key = …`. -/
  | select (retry : Bool)
  | insert (retry : Bool) (row : AuditLog)
  | commit (row : Option AuditLog) (id : UUID)
  | commitProject (project : Project)
  | created
  | done (id : UUID)
  | failed (failure : RecordFailure)
  | aborted
  deriving DecidableEq

structure Request where
  call : Call
  stage : Stage
  deriving DecidableEq

structure Answer where
  fate : Fate
  id : UUID
  deriving DecidableEq

/-- Entries of the indexes of `audit_logs`. -/
inductive Row
  | log (id : UUID)
  | eventKey (key : UUID)
  deriving DecidableEq

abbrev Next := Stage × Effect Db

def goto (stage : Stage) : Next := (stage, .proceed)

def raise (failure : RecordFailure) : Next := (.failed failure, .release)

/-- A statement of a transaction that goes on, or fails and is rolled back. -/
def statement (fate : Fate) (next : Next) : Next :=
  if fate = .ok then next else raise .unexpected

namespace Db

def byKey (db : Db) (key : UUID) : Option AuditLog :=
  db.logs.rows.find? fun row => decide (row.eventKey = some key)

/-- Insert a row; `none` is an `IntegrityError`, of an index or of the foreign key. -/
def insert? (db : Db) (row : AuditLog) : Option Db :=
  if row.projectId.all fun id => (db.projects.get? id).isSome then
    (db.logs.insert? row).map fun logs => { db with logs }
  else none

end Db

namespace Request

/-- `except IntegrityError`: the session is rolled back, and an event with a key
is persisted again. -/
def integrityError (retry : Bool) (event : AuditEventInput) : Next :=
  if retry ∨ event.eventKey = none then raise .integrity else (.select true, .release)

/-- The end of `persist`. The first time, `record` commits; a retry returns, and
the session is closed. -/
def persisted (retry : Bool) (row : Option AuditLog) (id : UUID) : Next :=
  if retry then (.done id, .release) else goto (.commit row id)

def selectStep (a : Answer) (db : Db) (retry : Bool) (event : AuditEventInput) : Next :=
  match event.eventKey.bind db.byKey with
  | some existing =>
      if sameEvent C existing event then persisted retry none existing.id else raise .conflict
  | none => goto (.insert retry (newRow C event a.id))

def step (a : Answer) (db : Db) (r : Request) : Option Next :=
  match r.stage, r.call with
  | .start, .record event =>
      some (if event.eventKey = none then goto (.insert false (newRow C event a.id))
        else goto (.select false))
  | .select retry, .record event => some (statement a.fate (selectStep C a db retry event))
  | .insert retry row, .record event => some <| statement a.fate <|
      match db.insert? row with
      | none => integrityError retry event
      | some _ => persisted retry (some row) row.id
  | .commit none id, .record _ => some <|
      if a.fate = .ok then (.done id, .release) else raise .unexpected
  | .commit (some row) id, .record event => some <|
      match db.insert? row, a.fate with
      | some db', .ok => (.done id, .commit db')
      | some db', .lost => (.failed .unexpected, .commit db')
      | none, .ok => integrityError false event
      | _, _ => raise .unexpected
  | .start, .createProject project => some (goto (.commitProject project))
  | .commitProject project, .createProject _ => some <|
      match db.projects.insert? project, a.fate with
      | some projects, .ok => (.created, .commit { db with projects })
      | some projects, .lost => (.failed .unexpected, .commit { db with projects })
      | none, .ok => raise .integrity
      | _, _ => raise .unexpected
  | _, _ => none

/-- An insertion waits for one of the same id or event key that is not committed. -/
def needs (r : Request) : List (Lock Row) :=
  match r.stage with
  | .insert _ row => .exclusive (.log row.id) :: row.eventKey.toList.map fun key =>
      .exclusive (.eventKey key)
  | _ => []

/-- A process that stops. -/
def abort (r : Request) : Request :=
  match r.stage with
  | .created | .done _ | .failed _ => r
  | _ => { r with stage := .aborted }

end Request

def program : Program Db Request Answer Row where
  initial r := decide (r.stage = .start)
  needs := Request.needs
  step a db r := (r.step C a db).map fun n => ({ r with stage := n.1 }, n.2)
  abort := Request.abort

abbrev AuditState := State Db Request Row
abbrev AuditCallEvent := Event Request Answer

def next : AuditState → AuditCallEvent → Option AuditState := (program C).apply

end SuperBoss.Audit
