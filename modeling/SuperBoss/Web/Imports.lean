import SuperBoss.Core.Fields
import SuperBoss.Imports.Models
import SuperBoss.Web.Files

/-!
`createImportsApi`: the checks on the owner's list of import jobs.
-/

namespace SuperBoss.Web

open SuperBoss.Core
open SuperBoss.Core.Json
open SuperBoss.Files
open SuperBoss.Imports

def maxOwnerImports : Int := 100

/-- `RESULT_CODE`. -/
def isResultCode (value : JsString) : Bool :=
  match value.units with
  | [] => false
  | c :: t => (65 ≤ c && c ≤ 90) && t.length ≤ 63 &&
      t.all fun d => (65 ≤ d && d ≤ 90) || Date.isDigit d || d == 95

def jobStatuses : List ImportStatus := [.uploading, .scanning, .received, .rejected, .conflict]

def fileStates : List FileState :=
  [.uploading, .quarantined, .scanning, .clean, .infected, .failed]

/-! ### Fields -/

/-- The fields of a record with the required keys. -/
def record (required : List String) : Json → Option (List (Text × Json))
  | .obj fields => if required.all fun key => (field? fields key).isSome then some fields else none
  | _ => none

/-- `typeof value === 'string'` with a check. -/
def stringField (check : JsString → Bool) : Json → Option JsString
  | .str t => if check (.ofText t) then some (.ofText t) else none
  | _ => none

/-- `values.includes(value)`, by the strings of the values. -/
def includedField {α : Type} (values : List α) (value : α → String) : Json → Option α
  | .str t => values.find? fun a => decide (t = Text.ofString (value a))
  | _ => none

/-- `value === null ||` before a check. -/
def nullableField {α : Type} (parse : Json → Option α) : Json → Option (Option α)
  | .null => some none
  | j => (parse j).map some

/-- `/(?:Z|[+-]\d{2}:\d{2})$/.test(value)`. -/
def hasZone (value : Text) : Bool :=
  match value.reverse with
  | 90 :: _ => true
  | d :: c :: 58 :: b :: a :: sign :: _ =>
      [a, b, c, d].all Date.isDigit && (sign == 43 || sign == 45)
  | _ => false

/-- `timestamp`; `dateParse` is `Date.parse`, none for `NaN`. -/
def timestamp (dateParse : Text → Option Int) (value : Json) : Option Text :=
  (stringField (fun s => hasZone s.units) value).bind fun s => (dateParse s.units).map toISOString

/-! ### Jobs -/

structure OwnerImportAttachment where
  id : JsString
  fileId : JsString
  uploadId : JsString
  kind : AttachmentKind
  fileState : FileState
  deriving DecidableEq

structure OwnerImportSummary where
  id : JsString
  projectId : JsString
  localTaskId : JsString
  externalDocumentReference : Option JsString
  modelLabel : JsString
  status : ImportStatus
  resultCode : Option JsString
  submittedAt : Option Text
  createdAt : Text
  updatedAt : Text
  attachments : List OwnerImportAttachment
  deriving DecidableEq

def parseAttachment (value : Json) : Option OwnerImportAttachment := do
  let fields ← record ["file_id", "file_state", "id", "kind", "upload_id"] value
  let id ← (field? fields "id").bind (stringField isUuid)
  let fileId ← (field? fields "file_id").bind (stringField isUuid)
  let uploadId ← (field? fields "upload_id").bind (stringField isUuid)
  let kind ← (field? fields "kind").bind (includedField AttachmentKind.all AttachmentKind.value)
  let fileState ← (field? fields "file_state").bind (includedField fileStates FileState.value)
  some ⟨id, fileId, uploadId, kind, fileState⟩

/-- `validStateSemantics`. -/
def validStateSemantics (status : ImportStatus) (resultCode : Option JsString)
    (submittedAt : Option Text) : Bool :=
  match status with
  | .uploading => resultCode.isNone && submittedAt.isNone
  | .scanning | .received => resultCode.isNone && submittedAt.isSome
  | .rejected | .conflict => resultCode.isSome && submittedAt.isSome

/-- `value.attachments.map(parseAttachment)` behind the check of the length. -/
def attachmentsField : Json → Option (List OwnerImportAttachment)
  | .arr items =>
      if 1 ≤ items.length ∧ items.length ≤ 3 then items.mapM parseAttachment else none
  | _ => none

/-- The checks of `parseSummary` on the values as a whole. -/
def OwnerImportSummary.Valid (summary : OwnerImportSummary) : Prop :=
  (summary.attachments.map (·.id)).Nodup ∧ (summary.attachments.map (·.fileId)).Nodup ∧
    (summary.attachments.map (·.uploadId)).Nodup ∧ (summary.attachments.map (·.kind)).Nodup ∧
    validStateSemantics summary.status summary.resultCode summary.submittedAt = true ∧
    summary.createdAt ≤ summary.updatedAt ∧
    ∀ t ∈ summary.submittedAt, summary.createdAt ≤ t ∧ t ≤ summary.updatedAt

instance (summary : OwnerImportSummary) : Decidable summary.Valid :=
  inferInstanceAs (Decidable (_ ∧ _ ∧ _ ∧ _ ∧ _ ∧ _ ∧ ∀ t ∈ summary.submittedAt, _))

/-- `parseSummary`; none is an `ImportContractError`. -/
def parseSummary (dateParse : Text → Option Int) (value : Json) : Option OwnerImportSummary := do
  let fields ← record ["attachments", "created_at", "external_document_reference", "id",
    "local_task_id", "model_label", "project_id", "result_code", "status", "submitted_at",
    "updated_at"] value
  let id ← (field? fields "id").bind (stringField isUuid)
  let projectId ← (field? fields "project_id").bind (stringField isUuid)
  let localTaskId ← (field? fields "local_task_id").bind (stringField (safeText · 255))
  let modelLabel ← (field? fields "model_label").bind (stringField (safeText · 128))
  let externalDocumentReference ← (field? fields "external_document_reference").bind
    (nullableField (stringField (safeText · 1024)))
  let status ← (field? fields "status").bind (includedField jobStatuses ImportStatus.value)
  let resultCode ← (field? fields "result_code").bind (nullableField (stringField isResultCode))
  let attachments ← (field? fields "attachments").bind attachmentsField
  let createdAt ← (field? fields "created_at").bind (timestamp dateParse)
  let submittedAt ← (field? fields "submitted_at").bind (nullableField (timestamp dateParse))
  let updatedAt ← (field? fields "updated_at").bind (timestamp dateParse)
  let summary : OwnerImportSummary := ⟨id, projectId, localTaskId, externalDocumentReference,
    modelLabel, status, resultCode, submittedAt, createdAt, updatedAt, attachments⟩
  if summary.Valid then some summary else none

/-- `list`; `get` answers `GET /owner/import-jobs` with a limit by a status and a body. -/
def list (dateParse : Text → Option Int) (get : Int → Nat × Json) (limit : Int) :
    Option (List OwnerImportSummary) :=
  if 1 ≤ limit ∧ limit ≤ maxOwnerImports then
    match get limit with
    | (200, .arr items) =>
        if items.length ≤ maxOwnerImports.toNat then items.mapM (parseSummary dateParse) else none
    | _ => none
  else none

end SuperBoss.Web
