import SuperBoss.Imports.Evaluate
import SuperBoss.Imports.Schemas
import SuperBoss.Server.Uploads

/-!
The import service: creating a job around the uploads of its attachments,
submitting it, reconciling it with the states of its files, and reading it.
-/

namespace SuperBoss.Server

open SuperBoss.Core
open SuperBoss.Files
open SuperBoss.Imports

/-! ### Reads on jobs -/

structure ImportAttachmentResult where
  id : UUID
  fileId : UUID
  uploadId : UUID
  kind : AttachmentKind
  deriving DecidableEq

structure ImportJobResult where
  id : UUID
  status : ImportStatus
  resultCode : Option String
  submittedAt : Option Instant
  updatedAt : Instant
  attachments : List ImportAttachmentResult
  deriving DecidableEq

/-- `_attachment_result`. -/
def attachmentResult (a : ImportAttachment) : ImportAttachmentResult :=
  ⟨a.id, a.fileId, a.uploadId, a.kind⟩

def resultOf (job : ImportJob) (attachments : List ImportAttachment) : ImportJobResult :=
  ⟨job.id, job.status, job.resultCode, job.submittedAt, job.updatedAt,
    attachments.map attachmentResult⟩

namespace Store

variable (s : Store)

/-- The attachments of a job, `ORDER BY kind, id`. -/
def attachmentsOf (jobId : UUID) : List ImportAttachment :=
  (s.attachments.rows.filter fun a => decide (a.jobId = jobId)).insertionSort
    ImportAttachment.columnLe

/-- `_job_result`. -/
def jobResult (job : ImportJob) : ImportJobResult := resultOf job (s.attachmentsOf job.id)

/-- One row of the join in `_file_observations`. -/
def observe (a : ImportAttachment) : Option FileObservation :=
  match s.files.get? a.fileId with
  | some f => if f.projectId = a.projectId then some ⟨a.kind, f.state, f.sha256⟩ else none
  | none => none

/-- `_file_observations`. -/
def fileObservations (jobId : UUID) : List FileObservation :=
  (s.attachmentsOf jobId).filterMap s.observe

def jobByKey (deviceId : UUID) (key : Text) : Option ImportJob :=
  s.jobs.rows.find? fun j => decide (j.createKey = (deviceId, key))

end Store

def createConflict : DomainError :=
  conflictError "IMPORT_IDEMPOTENCY_CONFLICT"
    "Idempotency key is already bound to another import manifest"

/-- `_matching_result`. -/
def matchingResult (s : Store) (job : ImportJob) (fingerprint : Text) :
    Except DomainError ImportJobResult :=
  if job.manifestFingerprint ≠ fingerprint then .error createConflict else .ok (s.jobResult job)

/-! ### Transitions -/

/-- `_transition_event_key`. -/
def transitionEventKey (P : Platform) (action : String) (jobId : UUID) (status : ImportStatus)
    (resultCode : Option String) : UUID :=
  P.uuid5 (Text.ofString "superboss:" ++ Text.ofString action ++ Text.ofString ":" ++
    jobId.text ++ Text.ofString ":" ++ Text.ofString status.value ++ Text.ofString ":" ++
    Text.ofString (resultCode.getD ""))

def transitionMetadata (e : ImportEvaluation) : Json :=
  .obj [Json.field "actor_role" .null,
    Json.field "status" (.str (Text.ofString e.status.value)),
    Json.field "result_code" (Json.ofOption (fun code => .str (Text.ofString code)) e.resultCode)]

/-- `_apply_transition`. -/
def applyTransition (P : Platform) (job : ImportJob) (e : ImportEvaluation) (action : String)
    (actorKind : ActorKind) (actorId : Option UUID) (requestId : UUID) (now : Instant)
    (auditId : UUID) : Transition :=
  { jobId := job.id
    update := ⟨e.status, e.resultCode, now⟩
    row :=
      { id := auditId
        actorKind
        actorId
        action
        objectType := "import_job"
        objectId := some job.id
        projectId := some job.projectId
        outcome := "SUCCESS"
        metadata := transitionMetadata e
        requestId := some requestId
        eventKey := some (transitionEventKey P action job.id e.status e.resultCode) } }

/-! ### Reconciling -/

/-- Jobs of a program counter are the rows as they were read under their locks. -/
inductive ReconcilePc
  | lookup
  | lock (jobIds : List UUID)
  | observe (locked : List UUID) (todo : List ImportJob) (staged : List Transition)
  | commit (locked : List UUID) (staged : List Transition)
  deriving DecidableEq

namespace ReconcilePc

def holds : ReconcilePc → List Row
  | observe locked _ _ | commit locked _ => locked.map .job
  | _ => []

def needs : ReconcilePc → List Row
  | lock jobIds => jobIds.map .job
  | _ => []

/-- `reconcile_file`. -/
def step (P : Platform) (fileId : UUID) (a : Answer) (s : Store) :
    ReconcilePc → Option (Outcome ReconcilePc Unit)
  | .lookup => some <| .read a.fate <|
      let jobIds :=
        (s.attachments.rows.filter fun t => decide (t.fileId = fileId)).map (·.jobId)
      match jobIds.dedup.insertionSort fun i j : UUID => i.text ≤ j.text with
      | [] => .done ()
      | jobIds => .goto (.lock jobIds)
  | .lock jobIds => some <| .read a.fate <|
      let jobs := (s.jobs.rows.filter fun j => decide (j.id ∈ jobIds)).insertionSort
        fun i j => i.id ≤ j.id
      .goto (.observe (jobs.map (·.id)) jobs [])
  | .observe locked todo staged => some <|
      match todo with
      | [] => .goto (.commit locked staged)
      | job :: todo =>
          if job.status ≠ .scanning then .goto (.observe locked todo staged)
          else .read a.fate <|
            let e := evaluateFiles job.baseSha256 (s.fileObservations job.id)
            if e.status = .scanning then .goto (.observe locked todo staged)
            else
              let eventKey := transitionEventKey P "import.reconcile" job.id e.status e.resultCode
              .goto (.observe locked todo (staged ++ [applyTransition P job e "import.reconcile"
                .system none eventKey a.now a.auditId]))
  | .commit _ staged => some <| .commit s a.fate (.transitions staged) (.returned ())

end ReconcilePc

/-! ### Submitting -/

structure SubmitCall where
  actor : Actor
  jobId : UUID
  requestId : UUID
  deriving DecidableEq

inductive SubmitPc
  | preflight
  | deny (error : DomainError) (projectId : Option UUID)
  | lock (projectId : UUID)
  | observe (job : ImportJob)
  | commit (job : ImportJob) (t : Transition)
  deriving DecidableEq

def jobNotFound : DomainError := notFoundError "IMPORT_JOB_NOT_FOUND" "Import job not found"

def submitForbidden : DomainError :=
  forbiddenError "IMPORT_SUBMIT_FORBIDDEN" "Import submission is not permitted"

def attachmentsIncomplete : DomainError :=
  conflictError "IMPORT_ATTACHMENTS_INCOMPLETE" "Import attachments are incomplete"

namespace SubmitPc

def holds : SubmitPc → List Row
  | observe job | commit job _ => [.job job.id]
  | _ => []

def needs (c : SubmitCall) : SubmitPc → List Row
  | lock _ => [.job c.jobId]
  | _ => []

end SubmitPc

namespace SubmitCall

variable (P : Platform) (c : SubmitCall)

/-- `submit` with `_preflight_submit`. -/
def step (a : Answer) (s : Store) : SubmitPc → Option (Outcome SubmitPc ImportJobResult)
  | .preflight => some <|
      if !c.actor.isImportDevice "imports:submit" then .goto (.deny submitForbidden none)
      else .read a.fate <|
        match s.jobs.get? c.jobId with
        | none => .goto (.deny jobNotFound none)
        | some job =>
            if job.deviceId ≠ c.actor.subjectId then .goto (.deny jobNotFound none)
            else if job.projectId ∉ c.actor.projectIds then
              .goto (.deny submitForbidden (some job.projectId))
            else .goto (.lock job.projectId)
  | .deny error projectId => some <|
      denyWith s a (denialRow c.actor "import.submit" "import_job" (some c.jobId) projectId
        (some c.requestId)
        [Json.field "error_code" (.str (Text.ofString error.code)),
          Json.field "job_id" (.str c.jobId.text)] a.auditId) error
  | .lock projectId => some <| .read a.fate <|
      match s.jobs.get? c.jobId with
      | none => .goto (.deny jobNotFound none)
      | some job =>
          if job.deviceId ≠ c.actor.subjectId then .goto (.deny jobNotFound none)
          else if job.projectId ≠ projectId ∨ job.projectId ∉ c.actor.projectIds then
            .goto (.deny submitForbidden (some job.projectId))
          else if job.status.terminal then .done (s.jobResult job)
          else .goto (.observe job)
  | .observe job => some <| .read a.fate <|
      let observations := s.fileObservations job.id
      if job.status = .uploading ∧ ∃ o ∈ observations, o.state = .uploading then
        .goto (.deny attachmentsIncomplete (some job.projectId))
      else
        let e := evaluateFiles job.baseSha256 observations
        if job.status = .scanning ∧ e.status = .scanning then .done (s.jobResult job)
        else .goto (.commit job (applyTransition P job e "import.submit" .device
          (some c.actor.subjectId) c.requestId a.now a.auditId))
  | .commit job t => some <|
      .commit s a.fate (.transitions [t]) (.returned (s.jobResult (t.update.apply job)))

end SubmitCall

/-! ### Reading -/

structure ImportAttachmentView where
  id : UUID
  fileId : UUID
  uploadId : UUID
  kind : AttachmentKind
  fileState : FileState
  deriving DecidableEq

structure ImportJobView (P : Platform) where
  id : UUID
  projectId : UUID
  localTaskId : Text
  externalDocumentReference : Option Text
  baseSha256 : Option Text
  status : ImportStatus
  resultCode : Option String
  k3Result : K3Result P
  submittedAt : Option Instant
  createdAt : Instant
  updatedAt : Instant
  attachments : List ImportAttachmentView
  deriving DecidableEq

/-- The JSON of an `ImportAttachmentRead`. -/
def ImportAttachmentView.dump (v : ImportAttachmentView) : Json :=
  .obj [Json.field "id" (.str v.id.text),
    Json.field "file_id" (.str v.fileId.text),
    Json.field "upload_id" (.str v.uploadId.text),
    Json.field "kind" (.str (Text.ofString v.kind.value)),
    Json.field "file_state" (.str (Text.ofString v.fileState.value))]

/-- The JSON of an `ImportJobRead`, the body of the responses of the device API. -/
def ImportJobView.dump {P : Platform} (v : ImportJobView P) : Json :=
  .obj [Json.field "id" (.str v.id.text),
    Json.field "project_id" (.str v.projectId.text),
    Json.field "local_task_id" (.str v.localTaskId),
    Json.field "external_document_reference" (Json.ofOption .str v.externalDocumentReference),
    Json.field "base_sha256" (Json.ofOption .str v.baseSha256),
    Json.field "status" (.str (Text.ofString v.status.value)),
    Json.field "result_code" (Json.ofOption (fun code => .str (Text.ofString code)) v.resultCode),
    Json.field "k3_result" v.k3Result.dump,
    Json.field "submitted_at" (Json.ofOption (fun t => .str (P.dumpDatetime t)) v.submittedAt),
    Json.field "created_at" (.str (P.dumpDatetime v.createdAt)),
    Json.field "updated_at" (.str (P.dumpDatetime v.updatedAt)),
    Json.field "attachments" (.arr (v.attachments.map ImportAttachmentView.dump))]

/-- `_attachment_view` with the state of the file; `none` where it is missing. -/
def attachmentView (s : Store) (a : ImportAttachment) : Option ImportAttachmentView :=
  (s.files.get? a.fileId).map fun f => ⟨a.id, a.fileId, a.uploadId, a.kind, f.state⟩

/-- `_job_view`; `none` where it raises. -/
def jobView (P : Platform) (s : Store) (job : ImportJob) : Option (ImportJobView P) := do
  let attachments ← (s.attachmentsOf job.id).mapM (attachmentView s)
  let manifest ← (ImportJobCreate.validate P job.canonicalManifestJson).toOption
  some ⟨job.id, job.projectId, job.localTaskId, job.externalDocumentReference, job.baseSha256,
    job.status, job.resultCode, manifest.k3Result, job.submittedAt, job.createdAt, job.updatedAt,
    attachments⟩

/-- `view_job`. -/
def viewJob (P : Platform) (s : Store) (jobId : UUID) : Except Failure (ImportJobView P) :=
  match s.jobs.get? jobId with
  | none => .error (.domain jobNotFound)
  | some job =>
      match jobView P s job with
      | none => .error .unexpected
      | some view => .ok view

structure ReadCall where
  actor : Actor
  jobId : UUID
  requestId : UUID
  deriving DecidableEq

inductive ReadPc
  | load
  | deny (error : DomainError) (projectId : Option UUID)
  | reconcile (projectId fileId : UUID) (rest : List UUID) (pc : ReconcilePc)
  | view (projectId : UUID)
  deriving DecidableEq

def readForbidden : DomainError :=
  forbiddenError "IMPORT_READ_FORBIDDEN" "Import read is not permitted"

namespace ReadPc

def holds : ReadPc → List Row
  | reconcile _ _ _ pc => pc.holds
  | _ => []

def needs : ReadPc → List Row
  | reconcile _ _ _ pc => pc.needs
  | _ => []

/-- The next file to reconcile, or the view. -/
def next (projectId : UUID) : List UUID → ReadPc
  | [] => view projectId
  | fileId :: rest => reconcile projectId fileId rest .lookup

end ReadPc

namespace ReadCall

variable (P : Platform) (c : ReadCall)

/-- `read`. -/
def step (a : Answer) (s : Store) : ReadPc → Option (Outcome ReadPc (ImportJobView P))
  | .load => some <|
      if !c.actor.isImportDevice "imports:read-own" then .goto (.deny readForbidden none)
      else .read a.fate <|
        match s.jobs.get? c.jobId with
        | none => .goto (.deny jobNotFound none)
        | some job =>
            if job.deviceId ≠ c.actor.subjectId then .goto (.deny jobNotFound none)
            else if job.projectId ∉ c.actor.projectIds then
              .goto (.deny readForbidden (some job.projectId))
            else
              let fileIds := ((s.attachments.rows.filter fun t => decide (t.jobId = job.id)).map
                (·.fileId)).insertionSort (· ≤ ·)
              .goto (.next job.projectId fileIds)
  | .deny error projectId => some <|
      denyWith s a (denialRow c.actor "import.read" "import_job" (some c.jobId) projectId
        (some c.requestId)
        [Json.field "error_code" (.str (Text.ofString error.code)),
          Json.field "job_id" (.str c.jobId.text)] a.auditId) error
  | .reconcile projectId fileId rest pc =>
      (pc.step P fileId a s).map fun o =>
        match o.progress with
        | .running pc => ⟨.running (.reconcile projectId fileId rest pc), o.write⟩
        | .returned () => ⟨.running (.next projectId rest), o.write⟩
        | .raised e => ⟨.raised e, o.write⟩
        | .crashed => ⟨.crashed, o.write⟩
  | .view projectId => some <| .read a.fate <|
      match s.jobs.get? c.jobId with
      | none => .goto (.deny jobNotFound (some projectId))
      | some job =>
          if job.deviceId ≠ c.actor.subjectId ∨ job.projectId ≠ projectId then
            .goto (.deny jobNotFound (some projectId))
          else if job.projectId ∉ c.actor.projectIds then
            .goto (.deny readForbidden (some projectId))
          else
            match jobView P s job with
            | none => .fail .unexpected
            | some view => .done view

end ReadCall

/-! ### Creating -/

structure CreateCall (P : Platform) where
  actor : Actor
  command : ImportJobCreate P
  idempotencyKey : Text
  requestId : UUID
  deriving DecidableEq

inductive CreatePc (P : Platform)
  | begin
  | deny (projectId : Option UUID)
  | existing
  | upload (current : StartCall) (rest : List (AttachmentDeclaration P)) (uploads : List File)
      (pc : StartPc)
  | persist (uploads : List File)
  | insert (uploads : List File)
  deriving DecidableEq

def createForbidden : DomainError :=
  forbiddenError "IMPORT_CREATE_FORBIDDEN" "Import creation is not permitted"

namespace CreatePc

variable {P : Platform}

def holds : CreatePc P → List Row
  | upload _ _ _ pc => pc.holds
  | _ => []

def needs : CreatePc P → List Row
  | upload _ _ _ pc => pc.needs
  | _ => []

end CreatePc

/-- `_child_idempotency_key`; the material is ASCII once the key is validated. -/
def childIdempotencyKey (P : Platform) (deviceId : UUID) (idempotencyKey : Text)
    (kind : AttachmentKind) : Text :=
  let material := deviceId.text ++ 0x1F :: (idempotencyKey ++ 0x1F :: Text.ofString kind.value)
  Text.ofString "import-" ++ P.sha256 (material.utf8.getD [])

namespace CreateCall

variable {P : Platform} (c : CreateCall P)

/-- `_can_create`. -/
def canCreate : Bool :=
  c.actor.isImportDevice "imports:create" && c.actor.projectIds.contains c.command.projectId

def manifestFingerprint : Text := P.sha256 c.command.canonicalManifestBytes

/-- The nested `start_import_upload` of an attachment; `none` where its command
is invalid. -/
def startCall (d : AttachmentDeclaration P) : Option StartCall :=
  (UploadStart.validate c.command.projectId d.filename.val d.sizeBytes.val d.sha256.val
    (Text.ofString "kimi-imports") (Instant.date c.command.k3Result.processedAt.val)
    d.contentType.val).map fun command =>
      ⟨c.actor, command, childIdempotencyKey P c.actor.subjectId c.idempotencyKey d.kind, true⟩

/-- The next attachment to upload, or the job row. -/
def next (uploads : List File) :
    List (AttachmentDeclaration P) → Progress (CreatePc P) ImportJobResult
  | [] => .running (.persist uploads)
  | d :: rest =>
      match c.startCall d with
      | none => .raised .unexpected
      | some current => .running (.upload current rest uploads .select)

/-- The answer of a call that finds its job. -/
def replay (s : Store) (job : ImportJob) : Outcome (CreatePc P) ImportJobResult :=
  match matchingResult s job c.manifestFingerprint with
  | .error e => .reject e
  | .ok result => .done result

def newJob (jobId : UUID) (now : Instant) : ImportJob :=
  { id := jobId
    deviceId := c.actor.subjectId
    projectId := c.command.projectId
    idempotencyKey := c.idempotencyKey
    localTaskId := c.command.localTaskId.val
    externalDocumentReference := c.command.externalDocumentReference.map (·.val)
    baseSha256 := c.command.baseSha256.map (·.val)
    canonicalManifestJson := c.command.dump
    manifestFingerprint := c.manifestFingerprint
    status := .uploading
    resultCode := none
    submittedAt := none
    createdAt := now
    updatedAt := now }

/-- The attachment rows, for the declarations and uploads in order. -/
def newAttachments (jobId : UUID) :
    List UUID → List (AttachmentDeclaration P) → List File → List ImportAttachment
  | id :: ids, d :: ds, f :: fs =>
      ⟨id, jobId, c.command.projectId, f.id, f.id, d.kind⟩ :: newAttachments jobId ids ds fs
  | _, _, _ => []

def createdRow (job : ImportJob) (attachments : List ImportAttachment) (auditId : UUID) :
    AuditLog :=
  { id := auditId
    actorKind := c.actor.kind
    actorId := some c.actor.subjectId
    action := "import.create"
    objectType := "import_job"
    objectId := some job.id
    projectId := some job.projectId
    outcome := "SUCCESS"
    metadata := .obj [Json.field "actor_role" .null,
      Json.field "attachment_count" (.int attachments.length),
      Json.field "attachment_kinds"
        (.arr (attachments.map fun t => .str (Text.ofString t.kind.value))),
      Json.field "manifest_fingerprint" (.str c.manifestFingerprint),
      Json.field "status" (.str (Text.ofString ImportStatus.uploading.value))]
    requestId := some c.requestId
    eventKey := some (P.uuid5 (Text.ofString "superboss:import-create:" ++ job.id.text)) }

/-- `create` with `_persist_job`. -/
def step (a : Answer) (s : Store) : CreatePc P → Option (Outcome (CreatePc P) ImportJobResult)
  | .begin => some <|
      if !Text.isIdempotencyKey c.idempotencyKey then .fail (.value "invalid Idempotency-Key")
      else if c.canCreate then .goto .existing
      else .read a.fate <| .goto <| .deny <|
        if c.command.projectId ∈ s.projects then some c.command.projectId else none
  | .deny projectId => some <|
      denyWith s a (denialRow c.actor "import.create" "import_job" none projectId
        (some c.requestId)
        [Json.field "reason" (.str (Text.ofString createForbidden.code))] a.auditId)
        createForbidden
  | .existing => some <| .read a.fate <|
      match s.jobByKey c.actor.subjectId c.idempotencyKey with
      | some job => c.replay s job
      | none => ⟨c.next [] c.command.attachments, .nothing⟩
  | .upload current rest uploads pc =>
      (current.step P a s pc).map fun o =>
        match o.progress with
        | .running pc => ⟨.running (.upload current rest uploads pc), o.write⟩
        | .returned file => ⟨c.next (uploads ++ [file]) rest, o.write⟩
        | .raised (.domain e) =>
            if e.code = "FILE_UPLOAD_CONFLICT" then ⟨.raised (.domain createConflict), o.write⟩
            else ⟨.raised (.domain e), o.write⟩
        | .raised e => ⟨.raised e, o.write⟩
        | .crashed => ⟨.crashed, o.write⟩
  | .persist uploads => some <| .read a.fate <|
      match s.jobByKey c.actor.subjectId c.idempotencyKey with
      | some job => c.replay s job
      | none => .goto (.insert uploads)
  | .insert uploads =>
      match s.jobByKey c.actor.subjectId c.idempotencyKey with
      -- The unique index objects; the savepoint is rolled back and the winner is read.
      | some job => some <| .read a.fate (c.replay s job)
      | none =>
          if a.attachmentIds.length ≠ uploads.length then none
          else
            let job := c.newJob a.uuid a.now
            let attachments := c.newAttachments job.id a.attachmentIds c.command.attachments uploads
            some <| .commit s a.fate
              (.insertJob job attachments (c.createdRow job attachments a.auditId))
              (.returned (resultOf job attachments))

end CreateCall

end SuperBoss.Server
