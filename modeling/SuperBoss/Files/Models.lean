import SuperBoss.Core.Values
import SuperBoss.Library.Table

/-!
File rows, upload commands, and the values the file service derives from them:
the object key, the metadata fingerprint and the stored scan result.
-/

namespace SuperBoss.Files

open SuperBoss.Core
open SuperBoss.Library

inductive FileState
  | uploading
  | quarantined
  | scanning
  | clean
  | infected
  | failed
  deriving DecidableEq

namespace FileState

def value : FileState → String
  | .uploading => "UPLOADING"
  | .quarantined => "QUARANTINED"
  | .scanning => "SCANNING"
  | .clean => "CLEAN"
  | .infected => "INFECTED"
  | .failed => "FAILED"

/-- `_TERMINAL_STATES`. -/
def terminal : FileState → Bool
  | .clean | .infected | .failed => true
  | _ => false

/-- Position in the lifecycle. -/
def rank : FileState → Nat
  | .uploading => 0
  | .quarantined => 1
  | .scanning => 2
  | .clean | .infected | .failed => 3

end FileState

def attachmentMaxBytes : Nat := 100 * 1024 * 1024

/-- `not value.strip()`: `str.isspace` also holds of the separators 0x1C to 0x1F. -/
def isBlank (t : Text) : Bool :=
  t.all fun c => Text.isWhitespace c || (0x1C ≤ c && c ≤ 0x1F)

/-- `safe_text` behind the length bounds of its field. -/
def safeText (maxLength : Nat) (t : Text) : Bool :=
  1 ≤ t.length && t.length ≤ maxLength && !isBlank t && Text.noControls false t

structure UploadStart where
  projectId : UUID
  filename : Text
  sizeBytes : Nat
  sha256 : Text
  category : Text
  fileDate : Date
  contentType : Text
  safeFilename : safeText 1024 filename = true
  dateRange : Date.min ≤ fileDate ∧ fileDate ≤ Date.max
  sizeRange : 1 ≤ sizeBytes ∧ sizeBytes ≤ attachmentMaxBytes
  digest : Text.isDigest sha256 = true
  safeCategory : safeText 255 category = true
  safeContentType : contentType.length ≤ 255 ∧ Text.isMimeType contentType = true
  deriving DecidableEq

/-- The constructor call `UploadStart(...)`; `none` is its `ValidationError`. A
`date` is in the calendar. -/
def UploadStart.validate (projectId : UUID) (filename : Text) (sizeBytes : Nat) (sha256 : Text)
    (category : Text) (fileDate : Date) (contentType : Text) : Option UploadStart :=
  if h : safeText 1024 filename = true ∧ (Date.min ≤ fileDate ∧ fileDate ≤ Date.max) ∧
      (1 ≤ sizeBytes ∧ sizeBytes ≤ attachmentMaxBytes) ∧
      Text.isDigest sha256 = true ∧ safeText 255 category = true ∧
      (contentType.length ≤ 255 ∧ Text.isMimeType contentType = true) then
    some ⟨projectId, filename, sizeBytes, sha256, category, fileDate, contentType,
      h.1, h.2.1, h.2.2.1, h.2.2.2.1, h.2.2.2.2.1, h.2.2.2.2.2⟩
  else none

structure CompletedPart where
  partNumber : Nat
  etag : Text
  deriving DecidableEq

structure File where
  id : UUID
  projectId : UUID
  filename : Text
  category : Text
  fileDate : Date
  objectKey : Text
  sizeBytes : Nat
  sha256 : Text
  state : FileState
  uploaderId : UUID
  uploaderKind : ActorKind
  contentType : Text
  scanResult : Option Text
  metadataFingerprint : Text
  idempotencyKey : Text
  multipartId : Option Text
  createdAt : Instant
  updatedAt : Instant
  deriving DecidableEq

namespace File

/-- The columns of `uq_files_upload_idempotency`. -/
def uploadKey (f : File) : UUID × ActorKind × UUID × Text :=
  (f.projectId, f.uploaderKind, f.uploaderId, f.idempotencyKey)

/-- The unique indexes beside the primary key. -/
def Distinct (f g : File) : Prop := f.uploadKey ≠ g.uploadKey ∧ f.objectKey ≠ g.objectKey

instance : DecidableRel Distinct := fun f g =>
  inferInstanceAs (Decidable (f.uploadKey ≠ g.uploadKey ∧ f.objectKey ≠ g.objectKey))

/-- The columns that no statement updates. -/
def identity (f : File) :=
  (f.id, f.projectId, f.filename, f.category, f.fileDate, f.objectKey, f.sizeBytes, f.sha256,
    f.uploaderId, f.uploaderKind, f.contentType, f.metadataFingerprint, f.idempotencyKey,
    f.createdAt)

end File

abbrev FileTable := Table File.id File.Distinct

/-- The assignments of one `UPDATE files`; a column that is not assigned is `none`. -/
structure FileUpdate where
  state : Option FileState
  scanResult : Option Text
  multipartId : Option Text
  /-- `onupdate=func.now()`. -/
  now : Instant
  deriving DecidableEq

namespace FileUpdate

def apply (u : FileUpdate) (f : File) : File :=
  { f with
    state := u.state.getD f.state
    scanResult := u.scanResult.or f.scanResult
    multipartId := u.multipartId.or f.multipartId
    updatedAt := u.now }

variable (u : FileUpdate) (f : File)

@[simp] theorem apply_id : (u.apply f).id = f.id := rfl
@[simp] theorem apply_projectId : (u.apply f).projectId = f.projectId := rfl
@[simp] theorem apply_sizeBytes : (u.apply f).sizeBytes = f.sizeBytes := rfl
@[simp] theorem apply_sha256 : (u.apply f).sha256 = f.sha256 := rfl
@[simp] theorem apply_objectKey : (u.apply f).objectKey = f.objectKey := rfl
@[simp] theorem apply_uploadKey : (u.apply f).uploadKey = f.uploadKey := rfl
@[simp] theorem apply_identity : (u.apply f).identity = f.identity := rfl
@[simp] theorem apply_state : (u.apply f).state = u.state.getD f.state := rfl
@[simp] theorem apply_multipartId : (u.apply f).multipartId = u.multipartId.or f.multipartId := rfl

theorem keeps : Table.Keeps File.id File.Distinct u.apply := ⟨fun _ => rfl, fun h => ⟨h, h⟩⟩

/-- `file.state = state; file.scan_result = result`. -/
def settle (state : FileState) (result : Option Text) (now : Instant) : FileUpdate :=
  ⟨some state, result, none, now⟩

/-- `file.multipart_id = multipart_id`. -/
def provision (multipartId : Text) (now : Instant) : FileUpdate :=
  ⟨none, none, some multipartId, now⟩

end FileUpdate

/-- `re.split("[\\\\/]", value)[-1]`. -/
def lastComponent (value : Text) : Text :=
  value.rtakeWhile fun c => !(c == 47 || c == 92)

def stripDots (t : Text) : Text :=
  (t.dropWhile fun c => c == 46 || c == 95).rdropWhile fun c => c == 46 || c == 95

/-- `FileService._segment`. -/
def segment (P : Platform) (value fallback : Text) : Text :=
  let kept := (lastComponent value).filter fun c => 32 ≤ c && c != 127
  let mapped := kept.map fun c => if P.isAlnum c || c == 46 || c == 95 || c == 45 then c else 95
  let stripped := stripDots mapped
  if stripped = [] then fallback else stripped

/-- The object key of a new file. -/
def objectKey (P : Platform) (command : UploadStart) (fileId : UUID) : Text :=
  Text.join [47] [Text.ofString "projects", command.projectId.text,
    segment P command.category (Text.ofString "uncategorized"),
    command.fileDate.isoformat, fileId.text, segment P command.filename (Text.ofString "file")]

/-- `FileService._fingerprint`; `none` where the text has no UTF-8 encoding. -/
def fingerprint (P : Platform) (command : UploadStart) : Option Text :=
  let material := Text.join [0x1F] [command.filename, command.category,
    command.fileDate.isoformat, Text.ofNat command.sizeBytes, command.sha256,
    command.contentType]
  material.utf8.map P.sha256

def isSignatureChar (c : Nat) : Bool :=
  Text.isAlnumAscii c || [46, 95, 58, 32, 43, 40, 41, 45].contains c

/-- `FileScanService._safe_signature`. -/
def safeSignature : Option Text → Text
  | none => Text.ofString "INFECTED"
  | some signature =>
      let sanitized := (signature.map fun c => if isSignatureChar c then c else 95).take 128
      if sanitized = [] then Text.ofString "INFECTED" else sanitized

end SuperBoss.Files
