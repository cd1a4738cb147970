import SuperBoss.Connector.Outbox
import SuperBoss.Files.Models

/-!
The connector's view of the device API: the job responses it accepts, and what
it binds from the response to a create request. Responses are the JSON of their
bodies.
-/

namespace SuperBoss.Connector

open SuperBoss.Core
open SuperBoss.Files
open SuperBoss.Imports

/-! ### Fields of responses -/

/-- A `str` with bounds, which these models do not strip. -/
def strictStr (minLength maxLength : Nat) : Json → Except PyError Text
  | .str t =>
      if (∀ c ∈ t, Text.isSurrogate c = false) ∧ minLength ≤ t.length ∧ t.length ≤ maxLength then
        .ok t
      else .error .validation
  | _ => .error .validation

/-- A `str` with a pattern. -/
def patternStr (pattern : Text → Bool) : Json → Except PyError Text
  | .str t => if pattern t then .ok t else .error .validation
  | _ => .error .validation

def isUpper (c : Nat) : Bool := 65 ≤ c && c ≤ 90

def isCodeChar (c : Nat) : Bool := isUpper c || (48 ≤ c && c ≤ 57) || c == 95

/-- `^[A-Z][A-Z0-9_]{0,63}$`. -/
def isResultCode : Text → Bool
  | [] => false
  | c :: t => isUpper c && decide (t.length ≤ 63) && t.all isCodeChar

/-- A `Literal` or an enumeration, by the values of its members. -/
def literalField {α : Type} (values : List α) (value : α → String) : Json → Except PyError α
  | .str t =>
      match values.find? fun v => decide (t = Text.ofString (value v)) with
      | none => .error .validation
      | some v => .ok v
  | _ => .error .validation

def fileStates : List FileState :=
  [.uploading, .quarantined, .scanning, .clean, .infected, .failed]

def jobStatuses : List ImportStatus := [.uploading, .scanning, .received, .rejected, .conflict]

variable (P : Platform)

/-- A `datetime` with the check that it has an offset. -/
def awareField (j : Json) : Except PyError Instant :=
  match P.parseDatetime j with
  | none => .error .validation
  | some d =>
      match d.offset with
      | none => .error .validation
      | some offset => .ok (d.wall - offset)

/-! ### Responses -/

structure AttachmentResponse where
  id : UUID
  fileId : UUID
  uploadId : UUID
  kind : AttachmentKind
  fileState : FileState
  deriving DecidableEq

namespace AttachmentResponse

def fieldNames : List String := ["id", "file_id", "upload_id", "kind", "file_state"]

def validate : Json → Except PyError AttachmentResponse
  | .obj fields =>
      (collect (requiredField fields "id" (uuidField P))
      (collect (requiredField fields "file_id" (uuidField P))
      (collect (requiredField fields "upload_id" (uuidField P))
      (collect (requiredField fields "kind" kindField)
      (collect (requiredField fields "file_state" (literalField fileStates FileState.value))
      (check (Json.onlyKeys fieldNames fields))))))).map
        fun (id, fileId, uploadId, kind, state, _) => ⟨id, fileId, uploadId, kind, state⟩
  | _ => .error .validation

end AttachmentResponse

structure JobResponse where
  id : UUID
  projectId : UUID
  localTaskId : Text
  externalDocumentReference : Option Text
  baseSha256 : Option Text
  status : ImportStatus
  resultCode : Option Text
  k3Result : K3Result P
  submittedAt : Option Instant
  createdAt : Instant
  updatedAt : Instant
  attachments : List AttachmentResponse
  deriving DecidableEq

namespace JobResponse

def fieldNames : List String :=
  ["id", "project_id", "local_task_id", "external_document_reference", "base_sha256", "status",
    "result_code", "k3_result", "submitted_at", "created_at", "updated_at", "attachments"]

def validateFields : Json → Except PyError (JobResponse P)
  | .obj fields =>
      (collect (requiredField fields "id" (uuidField P))
      (collect (requiredField fields "project_id" (uuidField P))
      (collect (requiredField fields "local_task_id" (strictStr 1 255))
      (collect (requiredField fields "external_document_reference" (nullable (strictStr 1 1024)))
      (collect (requiredField fields "base_sha256" (nullable (patternStr Text.isDigest)))
      (collect (requiredField fields "status" (literalField jobStatuses ImportStatus.value))
      (collect (requiredField fields "result_code" (nullable (patternStr isResultCode)))
      (collect (requiredField fields "k3_result" (K3Result.validate P safeText))
      (collect (requiredField fields "submitted_at" (nullable (awareField P)))
      (collect (requiredField fields "created_at" (awareField P))
      (collect (requiredField fields "updated_at" (awareField P))
      (collect (requiredField fields "attachments" (listOf 1 3 (AttachmentResponse.validate P)))
      (check (Json.onlyKeys fieldNames fields)))))))))))))).map
        fun (id, project, task, external, base, status, code, k3, submitted, created, updated,
            attachments, _) =>
          ⟨id, project, task, external, base, status, code, k3, submitted, created, updated,
            attachments⟩
  | _ => .error .validation

variable {P}

/-- `consistent_status`. -/
def ConsistentStatus (r : JobResponse P) : Prop :=
  r.createdAt ≤ r.updatedAt ∧
    (∀ t ∈ r.submittedAt, r.createdAt ≤ t ∧ t ≤ r.updatedAt) ∧
    (r.status = .uploading ↔ r.submittedAt = none) ∧
    ((r.status = .rejected ∨ r.status = .conflict) ↔ r.resultCode ≠ none)

instance (r : JobResponse P) : Decidable r.ConsistentStatus :=
  inferInstanceAs (Decidable (_ ∧ (∀ t ∈ r.submittedAt, _) ∧ _ ∧ _))

variable (P) in
/-- `JobResponse.model_validate`. -/
def validate (j : Json) : Except PyError (JobResponse P) := do
  let r ← validateFields P j
  if r.ConsistentStatus then .ok r else .error .validation

/-- The fields of `model_dump(mode="json")` that are compared with the request. -/
def echo (r : JobResponse P) : List Json :=
  [.str r.projectId.text, .str r.localTaskId, Json.ofOption .str r.externalDocumentReference,
    Json.ofOption .str r.baseSha256, r.k3Result.dump]

end JobResponse

/-- The same fields of the payload. -/
def ServerManifest.echo {P : Platform} (m : ServerManifest P) : List Json :=
  [.str m.projectId.text, .str m.localTaskId, Json.ofOption .str m.externalDocumentReference,
    Json.ofOption .str m.baseSha256, m.k3Result.dump]

/-- `_json` with the exit code of a rejection. -/
def parseResponse {α : Type} : Except PyError α → Except Fault α
  | .ok a => .ok a
  | .error .validation => .error (.connector serverRejected)
  | .error .overflow => .error .unexpected

variable {P}

/-- The checks of `create_job` on a parsed response. -/
def createdAsRequested (m : ServerManifest P) (r : JobResponse P) : Prop :=
  r.echo = m.echo ∧
    (r.attachments.map (·.kind) = m.attachments.map (·.kind) ∧
      (r.attachments.map (·.kind)).Nodup) ∧
    r.status = .uploading ∧ r.submittedAt = none ∧ r.resultCode = none ∧
    (∀ a ∈ r.attachments, a.fileState = .uploading) ∧
    (r.attachments.map (·.id)).Nodup ∧ (r.attachments.map (·.fileId)).Nodup ∧
    (r.attachments.map (·.uploadId)).Nodup

instance (m : ServerManifest P) (r : JobResponse P) : Decidable (createdAsRequested m r) :=
  inferInstanceAs (Decidable (_ ∧ (_ ∧ _) ∧ _ ∧ _ ∧ _ ∧ _ ∧ _ ∧ _ ∧ _))

/-- `create_job` on the body of a successful response. -/
def createJob (m : ServerManifest P) (body : Json) : Except Fault (JobResponse P) := do
  let r ← parseResponse (JobResponse.validate P body)
  if createdAsRequested m r then .ok r else .error (.connector serverRejected)

/-! ### Binding -/

/-- `by_kind`: the attachments of a response by kind, the last one of a kind. -/
def byKind (r : JobResponse P) (k : AttachmentKind) : Option AttachmentResponse :=
  r.attachments.reverse.find? fun a => decide (a.kind = k)

def AttachmentState.bind (a : AttachmentState) (received : AttachmentResponse) :
    AttachmentState :=
  { a with
    attachmentId := some received.id
    fileId := some received.fileId
    uploadId := some received.uploadId }

/-- The loop of `_bind_created_job`; `zip` is strict. -/
def bindAttachments (r : JobResponse P) :
    List AttachmentState → List PreparedAttachment → Except Fault (List AttachmentState)
  | [], [] => .ok []
  | stored :: as, prepared :: ps => do
      match byKind r prepared.kind with
      | none => .error (.connector serverRejected)
      | some received =>
          let rest ← bindAttachments r as ps
          .ok (stored.bind received :: rest)
  | _, _ => .error .unexpected

/-- `_bind_created_job`. -/
def bindCreatedJob (entry : OutboxEntry) (m : PreparedManifest P) (r : JobResponse P) :
    Except Fault OutboxEntry :=
  if (r.attachments.map (·.kind)).dedup.length ≠ entry.attachments.length then
    .error (.connector serverRejected)
  else do
    let attachments ← bindAttachments r entry.attachments m.attachments
    .ok { entry with
      jobId := some r.id
      attachments := attachments
      phase := .upload }

end SuperBoss.Connector
