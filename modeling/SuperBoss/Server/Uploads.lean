import SuperBoss.Server.Machine

/-!
The file service: starting an upload with its provisioning, presigning a part,
completing an upload, and presigning a download. Completion and presigning are
reached directly or through an attachment of an import job.
-/

namespace SuperBoss.Server

open SuperBoss.Core
open SuperBoss.Files
open SuperBoss.Imports

/-! ### Starting an upload -/

structure StartCall where
  actor : Actor
  command : UploadStart
  idempotencyKey : Text
  /-- `start_import_upload` rather than `start_upload`. -/
  importing : Bool
  deriving DecidableEq

/-- The file of a program counter is the row as it was read under its lock. -/
inductive StartPc
  | select
  | insert
  | lock (fileId : UUID)
  | list (file : File)
  | abort (file : File) (leftovers : List Text)
  | create (file : File)
  | commit (file : File) (multipartId : Text)
  deriving DecidableEq

namespace StartPc

def holds : StartPc → List Row
  | list file | abort file _ | create file | commit file _ => [.file file.id]
  | _ => []

def needs : StartPc → List Row
  | lock fileId => [.file fileId]
  | _ => []

/-- After the listing and the aborts of leftovers. -/
def provision (file : File) : List Text → StartPc
  | [] => create file
  | leftovers => abort file leftovers

end StartPc

namespace StartCall

variable (P : Platform) (c : StartCall)

def authorize : Except DomainError Unit :=
  if c.importing then
    if c.actor.isImportDevice "imports:create" &&
        c.actor.projectIds.contains c.command.projectId then .ok ()
    else .error (forbiddenError "IMPORT_CREATE_FORBIDDEN" "Import creation is not permitted")
  else requireProjectAccess c.actor c.command.projectId

def uploadKey : UUID × ActorKind × UUID × Text :=
  (c.command.projectId, c.actor.kind, c.actor.subjectId, c.idempotencyKey)

def existing (s : Store) : Option File :=
  s.files.rows.find? fun f => decide (f.uploadKey = c.uploadKey)

def newFile (fingerprint : Text) (fileId : UUID) (now : Instant) : File :=
  { id := fileId
    projectId := c.command.projectId
    filename := c.command.filename
    category := c.command.category
    fileDate := c.command.fileDate
    objectKey := objectKey P c.command fileId
    sizeBytes := c.command.sizeBytes
    sha256 := c.command.sha256
    state := .uploading
    uploaderId := c.actor.subjectId
    uploaderKind := c.actor.kind
    contentType := c.command.contentType
    scanResult := none
    metadataFingerprint := fingerprint
    idempotencyKey := c.idempotencyKey
    multipartId := none
    createdAt := now
    updatedAt := now }

def conflict : DomainError := conflictError "FILE_UPLOAD_CONFLICT" "Upload metadata conflicts"

/-- A row with the key of the call is used when its metadata agree. -/
def reuse (fingerprint : Text) (f : File) : Outcome StartPc File :=
  if f.metadataFingerprint ≠ fingerprint then .reject conflict else .goto (.lock f.id)

/-- `_start_upload` and `_provision_upload`, one action for each program counter. -/
def step (a : Answer) (s : Store) : StartPc → Option (Outcome StartPc File)
  | .select => some <|
      match c.authorize with
      | .error e => .reject e
      | .ok () =>
          if !Text.isIdempotencyKey c.idempotencyKey then .fail (.value "invalid Idempotency-Key")
          else
            match fingerprint P c.command with
            | none => .fail .unexpected
            | some fp =>
                .read a.fate <|
                  match c.existing s with
                  | some f => reuse fp f
                  | none => .goto .insert
  | .insert => some <|
      match fingerprint P c.command with
      | none => .fail .unexpected
      | some fp =>
          match c.existing s with
          -- The unique index objects; the transaction is rolled back and the winner is read.
          | some f => .read a.fate (reuse fp f)
          | none =>
              .commit s a.fate (.insertFile (c.newFile P fp a.uuid a.now)) (.running (.lock a.uuid))
  | .lock fileId => some <| .read a.fate <|
      match s.files.get? fileId with
      | none => .reject fileProvisioningPendingError
      | some f =>
          if f.state ≠ .uploading then .reject fileProvisioningPendingError
          else if f.multipartId ≠ none then .done f
          else .goto (.list f)
  | .list file => some <|
      if a.fate ≠ .ok then .reject fileProvisioningPendingError
      else
        match s.storage.listMultipartUploads file.objectKey with
        | [multipartId] => .goto (.commit file multipartId)
        | leftovers => .goto (.provision file leftovers)
  | .abort file leftovers =>
      match leftovers with
      | [] => some (.goto (.create file))
      | multipartId :: rest => some <|
          .attempt a.fate (.call (.abortMultipart file.objectKey multipartId))
            (.running (.provision file rest))
  | .create file =>
      -- The storage never issues an upload id twice.
      if a.multipartId ∈ s.storage.issued then none
      else some <|
        .attempt a.fate (.call (.createMultipart file.objectKey a.multipartId)) <|
          if a.fate = .ok then .running (.commit file a.multipartId)
          else .raised (.domain fileProvisioningPendingError)
  | .commit file multipartId => some <|
      .commit s a.fate (.updateFile file.id (.provision multipartId a.now) none)
        (.returned { file with multipartId := some multipartId })

end StartCall

/-! ### Attachments of import jobs -/

inductive UploadTarget
  | upload (uploadId : UUID)
  | attachment (jobId attachmentId : UUID)
  deriving DecidableEq

def UploadTarget.importing : UploadTarget → Bool
  | .upload _ => false
  | .attachment _ _ => true

def uploadForbidden : DomainError :=
  forbiddenError "IMPORT_UPLOAD_FORBIDDEN" "Import upload is not permitted"

/-- `_resolve_attachment_upload`: the upload id, or the error with the project
that its audit row names. -/
def resolveAttachmentUpload (s : Store) (actor : Actor) (jobId attachmentId : UUID) :
    Except (DomainError × Option UUID) UUID :=
  if !actor.isImportDevice "imports:upload" then .error (uploadForbidden, none)
  else
    let row := do
      let job ← s.jobs.get? jobId
      let attachment ← s.attachments.get? attachmentId
      let file ← s.files.get? attachment.fileId
      if attachment.jobId = jobId ∧ attachment.projectId = job.projectId ∧
          file.projectId = attachment.projectId ∧ file.id = attachment.uploadId ∧
          job.deviceId = actor.subjectId then
        some (job, attachment)
      else none
    match row with
    | none => .error
        (notFoundError "IMPORT_ATTACHMENT_NOT_FOUND" "Import attachment not found", none)
    | some (job, attachment) =>
        if actor.projectIds.contains job.projectId then .ok attachment.uploadId
        else .error (uploadForbidden, some job.projectId)

/-- The statement of `_resolve_attachment_upload` is only run for a device with the scope. -/
def resolveFate (actor : Actor) (a : Answer) : Fate :=
  if actor.isImportDevice "imports:upload" then a.fate else .ok

/-- `_record_attachment_denial`. -/
def attachmentDenialRow (actor : Actor) (action : String) (jobId attachmentId : UUID)
    (projectId requestId : Option UUID) (error : DomainError) (auditId : UUID) :
    AuditLog :=
  denialRow actor action "import_attachment" (some attachmentId) projectId requestId
    [Json.field "error_code" (.str (Text.ofString error.code)),
      Json.field "job_id" (.str jobId.text), Json.field "attachment_id" (.str attachmentId.text)]
    auditId

/-- `_authorize_upload_operation`. -/
def authorizeUploadOperation (actor : Actor) (projectId : UUID) (importing : Bool) :
    Except DomainError Unit :=
  if !importing then requireProjectAccess actor projectId
  else if actor.isImportDevice "imports:upload" && actor.projectIds.contains projectId then .ok ()
  else .error uploadForbidden

def uploadNotFound : DomainError := notFoundError "FILE_UPLOAD_NOT_FOUND" "Upload not found"

def uploadNotActive : DomainError :=
  conflictError "FILE_UPLOAD_NOT_ACTIVE" "Upload is not active"

/-! ### Presigning a part -/

structure PresignCall where
  target : UploadTarget
  actor : Actor
  partNumber : Int
  requestId : Option UUID
  deriving DecidableEq

inductive PresignPc
  | resolve
  | deny (error : DomainError) (projectId : Option UUID)
  | lock (uploadId : UUID)
  deriving DecidableEq

/-- The arguments of `presign_upload_part`. -/
structure PartUrl where
  objectKey : Text
  multipartId : Text
  partNumber : Int
  expiresSeconds : Nat
  deriving DecidableEq

namespace PresignPc

def needs : PresignPc → List Row
  | lock uploadId => [.file uploadId]
  | _ => []

end PresignPc

namespace PresignCall

variable (c : PresignCall)

def begin : PresignPc :=
  match c.target with
  | .upload uploadId => .lock uploadId
  | .attachment _ _ => .resolve

/-- `presign_part`, behind `_resolve_attachment_upload` for a device. -/
def step (a : Answer) (s : Store) : PresignPc → Option (Outcome PresignPc PartUrl)
  | .resolve =>
      match c.target with
      | .upload _ => none
      | .attachment jobId attachmentId => some <| .read (resolveFate c.actor a) <|
          match resolveAttachmentUpload s c.actor jobId attachmentId with
          | .error (e, projectId) => .goto (.deny e projectId)
          | .ok uploadId => .goto (.lock uploadId)
  | .deny error projectId =>
      match c.target with
      | .upload _ => none
      | .attachment jobId attachmentId => some <|
          denyWith s a (attachmentDenialRow c.actor "import.attachment.part_url" jobId
            attachmentId projectId c.requestId error a.auditId) error
  | .lock uploadId => some <|
      if !(1 ≤ c.partNumber && c.partNumber ≤ 10000) then .fail (.value "invalid part number")
      else .read a.fate <|
        match s.files.get? uploadId with
        | none => .reject uploadNotFound
        | some f =>
            if f.state ≠ .uploading then .reject uploadNotActive
            else
              match authorizeUploadOperation c.actor f.projectId c.target.importing with
              | .error e => .reject e
              | .ok () =>
                  match f.multipartId with
                  | none => .reject uploadNotActive
                  | some multipartId => .done ⟨f.objectKey, multipartId, c.partNumber, 900⟩

end PresignCall

/-! ### Completing an upload -/

structure CompleteCall where
  target : UploadTarget
  actor : Actor
  parts : List CompletedPart
  requestId : Option UUID
  deriving DecidableEq

inductive CompletePc
  | resolve
  | deny (error : DomainError) (projectId : Option UUID)
  | lock (uploadId : UUID)
  | finalize (file : File) (multipartId : Text)
  | settle (file : File) (sizeBytes : Nat)
  | discard (objectKey : Text)
  | enqueue (file : File)
  deriving DecidableEq

namespace CompletePc

def holds : CompletePc → List Row
  | finalize file _ | settle file _ => [.file file.id]
  | _ => []

def needs : CompletePc → List Row
  | lock uploadId => [.file uploadId]
  | _ => []

end CompletePc

namespace CompleteCall

variable (c : CompleteCall)

def begin : CompletePc :=
  match c.target with
  | .upload uploadId => .lock uploadId
  | .attachment _ _ => .resolve

def sizeMismatch : DomainError :=
  conflictError "FILE_UPLOAD_SIZE_MISMATCH"
    "Uploaded object size does not match declared size"

/-- The audit row of a completed upload. -/
def completedRow (file : File) (auditId : UUID) : Option AuditLog :=
  c.requestId.map fun requestId =>
    { id := auditId
      actorKind := c.actor.kind
      actorId := some c.actor.subjectId
      action := "file.upload.complete"
      objectType := "file"
      objectId := some file.id
      projectId := some file.projectId
      outcome := "SUCCESS"
      metadata := .obj [Json.field "state" (.str (Text.ofString FileState.quarantined.value)),
        Json.field "size_bytes" (.int file.sizeBytes),
        Json.field "actor_role"
          (Json.ofOption (fun r => .str (Text.ofString r.value)) c.actor.role)]
      requestId := some requestId
      eventKey := none }

/-- `_complete_upload`, behind `_resolve_attachment_upload` for a device. The
row stays locked from the check of its state to the commit. -/
def step (a : Answer) (s : Store) : CompletePc → Option (Outcome CompletePc File)
  | .resolve =>
      match c.target with
      | .upload _ => none
      | .attachment jobId attachmentId => some <| .read (resolveFate c.actor a) <|
          match resolveAttachmentUpload s c.actor jobId attachmentId with
          | .error (e, projectId) => .goto (.deny e projectId)
          | .ok uploadId => .goto (.lock uploadId)
  | .deny error projectId =>
      match c.target with
      | .upload _ => none
      | .attachment jobId attachmentId => some <|
          denyWith s a (attachmentDenialRow c.actor "import.attachment.complete" jobId
            attachmentId projectId c.requestId error a.auditId) error
  | .lock uploadId => some <| .read a.fate <|
      match s.files.get? uploadId with
      | none => .reject uploadNotFound
      | some f =>
          match authorizeUploadOperation c.actor f.projectId c.target.importing with
          | .error e => .reject e
          | .ok () =>
              if f.state ≠ .uploading then .done f
              else
                match f.multipartId with
                | none => .reject uploadNotActive
                | some multipartId =>
                    if (c.parts.map (·.partNumber)).Nodup then .goto (.finalize f multipartId)
                    else .fail (.value "duplicate part number")
  | .finalize file multipartId => some <|
      -- An unknown upload id is NoSuchUpload, whatever else could go wrong.
      if (file.objectKey, multipartId) ∉ s.storage.uploads then
        .reject fileCompletionPendingError
      else
        .attempt a.fate (.call (.completeMultipart file.objectKey multipartId a.content)) <|
          if a.fate = .ok ∧ a.head = true then .running (.settle file a.content.length)
          else .raised (.domain fileCompletionPendingError)
  | .settle file sizeBytes => some <|
      if sizeBytes ≠ file.sizeBytes then
        .commit s a.fate
          (.updateFile file.id (.settle .failed (some (Text.ofString "SIZE_MISMATCH")) a.now) none)
          (.running (.discard file.objectKey))
      else
        .commit s a.fate
          (.updateFile file.id (.settle .quarantined none a.now) (c.completedRow file a.auditId))
          (.running (.enqueue { file with state := .quarantined }))
  | .discard objectKey => some <|
      .attempt a.fate (.call (.deleteObject objectKey)) (.raised (.domain sizeMismatch))
  | .enqueue file => some <| .attempt a.fate (.publish file.id) (.returned file)

end CompleteCall

/-! ### Presigning a download -/

structure DownloadCall where
  actor : Actor
  fileId : UUID
  deriving DecidableEq

/-- The arguments of `presign_get`. -/
structure DownloadUrl where
  objectKey : Text
  expiresSeconds : Nat
  deriving DecidableEq

inductive DownloadPc
  | read
  deriving DecidableEq

/-- `ensure_downloadable`. -/
def ensureDownloadable (f : File) : Except DomainError Unit :=
  if f.state = .infected then
    .error (conflictError "FILE_INFECTED" "File did not pass security scanning")
  else if f.state = .failed then
    .error (conflictError "FILE_SCAN_FAILED" "File scanning did not complete")
  else if f.state ≠ .clean then
    .error (conflictError "FILE_NOT_READY" "File is not available for download")
  else .ok ()

/-- `presign_download`. -/
def DownloadCall.step (c : DownloadCall) (a : Answer) (s : Store) :
    DownloadPc → Option (Outcome DownloadPc DownloadUrl)
  | .read => some <| .read a.fate <|
      match s.files.get? c.fileId with
      | none => .reject (notFoundError "FILE_NOT_FOUND" "File not found")
      | some f =>
          match requireProjectAccess c.actor f.projectId, ensureDownloadable f with
          | .error e, _ => .reject e
          | .ok (), .error e => .reject e
          | .ok (), .ok () => .done ⟨f.objectKey, 60⟩

end SuperBoss.Server
