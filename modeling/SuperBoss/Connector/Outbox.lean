import SuperBoss.Connector.Manifest

/-!
The connector's recovery state: one entry for each unfinished operation.
-/

namespace SuperBoss.Connector

open SuperBoss.Core
open SuperBoss.Imports

inductive Phase
  | create
  | upload
  | submit
  | evidence
  deriving DecidableEq

structure CompletedPart where
  partNumber : Nat
  etag : Text
  deriving DecidableEq

structure AttachmentState where
  kind : AttachmentKind
  path : Text
  filename : Text
  sizeBytes : Nat
  sha256 : Text
  partSha256s : List Text
  contentType : Text
  attachmentId : Option UUID
  fileId : Option UUID
  uploadId : Option UUID
  completedParts : List CompletedPart
  completed : Bool
  deriving DecidableEq

/-- A `datetime` with an offset, as the validators return it. -/
structure AwareDatetime where
  wall : Int
  offset : Int
  valid : (Instant.min ≤ wall ∧ wall ≤ Instant.max) ∧
    (Instant.hours (-24) < offset ∧ offset < Instant.hours 24)
  deriving DecidableEq

def AwareDatetime.instant (d : AwareDatetime) : Instant := d.wall - d.offset

structure EvidenceState where
  jobId : UUID
  status : ImportStatus
  resultCode : Option Text
  submittedAt : AwareDatetime
  updatedAt : AwareDatetime
  deriving DecidableEq

structure OutboxEntry where
  normalizedOrigin : Text
  idempotencyKey : Text
  manifestPath : Text
  manifestFingerprint : Text
  jobId : Option UUID
  phase : Phase
  attachments : List AttachmentState
  evidence : Option EvidenceState
  updatedAt : Instant
  deriving DecidableEq

def AttachmentState.ofPrepared (a : PreparedAttachment) : AttachmentState :=
  { kind := a.kind
    path := a.path
    filename := a.filename
    sizeBytes := a.sizeBytes
    sha256 := a.sha256
    partSha256s := a.partSha256s
    contentType := a.contentType
    attachmentId := none
    fileId := none
    uploadId := none
    completedParts := []
    completed := false }

/-- `initial_entry`. -/
def initialEntry {P : Platform} (origin : Text) (m : PreparedManifest P) (now : Instant) :
    OutboxEntry :=
  { normalizedOrigin := origin
    idempotencyKey := m.idempotencyKey
    manifestPath := m.path
    manifestFingerprint := m.fingerprint
    jobId := none
    phase := .create
    attachments := m.attachments.map .ofPrepared
    evidence := none
    updatedAt := now }

end SuperBoss.Connector
