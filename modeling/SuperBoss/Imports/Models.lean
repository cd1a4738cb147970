import SuperBoss.Core.Values
import SuperBoss.Library.Table

/-!
Rows of the import jobs, of their attachments and of the audit log, with the
constraints of their tables.
-/

namespace SuperBoss.Imports

open SuperBoss.Core
open SuperBoss.Library

inductive AttachmentKind
  | original
  | revised
  | k3Raw
  deriving DecidableEq

namespace AttachmentKind

def value : AttachmentKind → String
  | .original => "ORIGINAL"
  | .revised => "REVISED"
  | .k3Raw => "K3_RAW"

def all : List AttachmentKind := [.original, .revised, .k3Raw]

/-- `_ATTACHMENT_ORDER`. -/
def rank : AttachmentKind → Nat
  | .original => 0
  | .revised => 1
  | .k3Raw => 2

/-- `ORDER BY kind`: the column holds the names, compared as strings. -/
def columnLe (a b : AttachmentKind) : Prop := Text.ofString a.value ≤ Text.ofString b.value

instance : DecidableRel columnLe := fun a b =>
  inferInstanceAs (Decidable (Text.ofString a.value ≤ Text.ofString b.value))

end AttachmentKind

inductive ImportStatus
  | uploading
  | scanning
  | received
  | rejected
  | conflict
  deriving DecidableEq

namespace ImportStatus

def value : ImportStatus → String
  | .uploading => "UPLOADING"
  | .scanning => "SCANNING"
  | .received => "RECEIVED"
  | .rejected => "REJECTED"
  | .conflict => "CONFLICT"

def terminal : ImportStatus → Bool
  | .received | .rejected | .conflict => true
  | _ => false

end ImportStatus

structure ImportJob where
  id : UUID
  deviceId : UUID
  projectId : UUID
  idempotencyKey : Text
  localTaskId : Text
  externalDocumentReference : Option Text
  baseSha256 : Option Text
  canonicalManifestJson : Json
  manifestFingerprint : Text
  status : ImportStatus
  resultCode : Option String
  submittedAt : Option Instant
  createdAt : Instant
  updatedAt : Instant
  deriving DecidableEq

namespace ImportJob

/-- The columns of `uq_import_jobs_device_idempotency`. -/
def createKey (j : ImportJob) : UUID × Text := (j.deviceId, j.idempotencyKey)

/-- The columns that no statement updates. -/
def identity (j : ImportJob) :=
  (j.id, j.deviceId, j.projectId, j.idempotencyKey, j.localTaskId, j.externalDocumentReference,
    j.baseSha256, j.canonicalManifestJson, j.manifestFingerprint, j.createdAt)

def Distinct (i j : ImportJob) : Prop := i.createKey ≠ j.createKey

instance : DecidableRel Distinct := fun i j =>
  inferInstanceAs (Decidable (i.createKey ≠ j.createKey))

/-- `ck_import_jobs_submission_state`. -/
def SubmissionState (j : ImportJob) : Prop :=
  (j.status = .uploading ∧ j.submittedAt = none) ∨
    (j.status ≠ .uploading ∧ j.submittedAt ≠ none)

/-- `ck_import_jobs_result_state`. -/
def ResultState (j : ImportJob) : Prop :=
  (j.status ∈ [ImportStatus.uploading, .scanning, .received] ∧ j.resultCode = none) ∨
    (j.status ∈ [ImportStatus.rejected, .conflict] ∧ j.resultCode ≠ none)

/-- `ck_import_jobs_time_order`. -/
def TimeOrder (j : ImportJob) : Prop :=
  j.createdAt ≤ j.updatedAt ∧ ∀ t ∈ j.submittedAt, j.createdAt ≤ t ∧ t ≤ j.updatedAt

instance (j : ImportJob) : Decidable j.TimeOrder :=
  inferInstanceAs (Decidable (_ ∧ ∀ t ∈ j.submittedAt, _))

end ImportJob

abbrev JobTable := Table ImportJob.id ImportJob.Distinct

/-- The assignments of `_apply_transition`. -/
structure JobUpdate where
  status : ImportStatus
  resultCode : Option String
  now : Instant
  deriving DecidableEq

namespace JobUpdate

def apply (u : JobUpdate) (j : ImportJob) : ImportJob :=
  { j with
    status := u.status
    resultCode := u.resultCode
    submittedAt := some (j.submittedAt.getD u.now)
    updatedAt := u.now }

variable (u : JobUpdate) (j : ImportJob)

@[simp] theorem apply_id : (u.apply j).id = j.id := rfl
@[simp] theorem apply_status : (u.apply j).status = u.status := rfl
@[simp] theorem apply_resultCode : (u.apply j).resultCode = u.resultCode := rfl
@[simp] theorem apply_baseSha256 : (u.apply j).baseSha256 = j.baseSha256 := rfl
@[simp] theorem apply_projectId : (u.apply j).projectId = j.projectId := rfl
@[simp] theorem apply_createKey : (u.apply j).createKey = j.createKey := rfl
@[simp] theorem apply_manifestFingerprint :
    (u.apply j).manifestFingerprint = j.manifestFingerprint := rfl
@[simp] theorem apply_identity : (u.apply j).identity = j.identity := rfl
@[simp] theorem apply_submittedAt :
    (u.apply j).submittedAt = some (j.submittedAt.getD u.now) := rfl

theorem keeps : Table.Keeps ImportJob.id ImportJob.Distinct u.apply :=
  ⟨fun _ => rfl, fun h => ⟨h, h⟩⟩

end JobUpdate

structure ImportAttachment where
  id : UUID
  jobId : UUID
  projectId : UUID
  fileId : UUID
  uploadId : UUID
  kind : AttachmentKind
  deriving DecidableEq

namespace ImportAttachment

/-- The unique indexes on job and kind, on the file and on the upload. -/
def Distinct (a b : ImportAttachment) : Prop :=
  (a.jobId, a.kind) ≠ (b.jobId, b.kind) ∧ a.fileId ≠ b.fileId ∧ a.uploadId ≠ b.uploadId

instance : DecidableRel Distinct := fun a b => inferInstanceAs (Decidable
  ((a.jobId, a.kind) ≠ (b.jobId, b.kind) ∧ a.fileId ≠ b.fileId ∧ a.uploadId ≠ b.uploadId))

/-- `ORDER BY kind, id`. -/
def columnLe (a b : ImportAttachment) : Prop :=
  if a.kind = b.kind then a.id ≤ b.id else a.kind.columnLe b.kind

instance : DecidableRel columnLe := fun a b =>
  inferInstanceAs (Decidable (if a.kind = b.kind then a.id ≤ b.id else a.kind.columnLe b.kind))

end ImportAttachment

abbrev AttachmentTable := Table ImportAttachment.id ImportAttachment.Distinct

structure AuditLog where
  id : UUID
  actorKind : ActorKind
  actorId : Option UUID
  action : String
  objectType : String
  objectId : Option UUID
  projectId : Option UUID
  outcome : String
  metadata : Json
  requestId : Option UUID
  eventKey : Option UUID
  deriving DecidableEq

namespace AuditLog

/-- `uq_audit_logs_event_key`, a partial index. -/
def Distinct (a b : AuditLog) : Prop := a.eventKey = none ∨ a.eventKey ≠ b.eventKey

instance : DecidableRel Distinct := fun a b =>
  inferInstanceAs (Decidable (a.eventKey = none ∨ a.eventKey ≠ b.eventKey))

end AuditLog

abbrev AuditTable := Table AuditLog.id AuditLog.Distinct

end SuperBoss.Imports
