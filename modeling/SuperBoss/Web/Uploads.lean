import SuperBoss.Core.Encoding
import SuperBoss.Web.Files

/-!
`createMultipartUploader`. An event is a call by the page, the settlement of a promise
together with the turn of `runUpload` that awaited it, the settlement of one `PUT` of
the batch, or the turn behind `Promise.allSettled`.
-/

namespace SuperBoss.Web

open SuperBoss.Core
open SuperBoss.Files

/-! ### Commands -/

structure FileHandle where
  name : JsString
  lastModified : Int
  size : Nat
  type : JsString
  deriving DecidableEq

/-- `UploadCommand`. -/
structure UploadCommand where
  category : JsString
  file : FileHandle
  fileDate : JsString
  projectId : JsString
  deriving DecidableEq

inductive UserCode
  | empty
  | tooLarge
  | badType
  deriving DecidableEq

/-- What a promise is rejected with. -/
inductive UploadFailure
  | contract
  | user (code : UserCode)
  | client
  | other
  deriving DecidableEq

/-- `isSafeText`, with the body of `safeText`. -/
def isSafeText (value : JsString) (maximum : Nat) : Bool := safeText value maximum

def isEtag (value : JsString) : Bool :=
  isSafeText value 1024 && value.trim == value && value.all fun c => c != 13 && c != 10

namespace FileHandle

/-- `file.type || 'application/octet-stream'`. -/
def contentType (file : FileHandle) : JsString :=
  if file.type = [] then JsString.ofString "application/octet-stream" else file.type

end FileHandle

/-- `canonicalCommand` on values of the types it asks for. -/
def canonicalCommand (dateParse : Text → Option Int) (value : UploadCommand) :
    Except UploadFailure UploadCommand :=
  if ¬(isSafeText value.file.name 1024 ∧
      (-maxSafeInteger ≤ value.file.lastModified ∧ value.file.lastModified ≤ maxSafeInteger) ∧
      0 ≤ value.file.lastModified ∧ isSafeText value.category 255 ∧
      calendarDate dateParse value.fileDate ∧ isUuid value.projectId) then
    .error .contract
  else if value.file.size < 1 then .error (.user .empty)
  else if attachmentMaxBytes < value.file.size then .error (.user .tooLarge)
  else if isContentType value.file.contentType then .ok value
  else .error (.user .badType)

/-! ### The idempotency key -/

def hexDigit (n : Nat) : UInt16 := UInt16.ofNat (if n < 10 then 48 + n else 87 + n)

/-- `hex`. -/
def hex (buffer : Bytes) : JsString :=
  buffer.flatMap fun byte => [hexDigit (byte.toNat / 16), hexDigit (byte.toNat % 16)]

/-- `\u` and four digits. -/
def unicodeEscape (c : UInt16) : JsString :=
  JsString.ofString "\\u" ++ [hexDigit (c.toNat / 4096), hexDigit (c.toNat / 256 % 16),
    hexDigit (c.toNat / 16 % 16), hexDigit (c.toNat % 16)]

/-- A code unit in a string of `JSON.stringify`, no paired surrogate. -/
def stringifyUnit (c : UInt16) : JsString :=
  if c = 34 then JsString.ofString "\\\""
  else if c = 92 then JsString.ofString "\\\\"
  else if c = 8 then JsString.ofString "\\b"
  else if c = 9 then JsString.ofString "\\t"
  else if c = 10 then JsString.ofString "\\n"
  else if c = 12 then JsString.ofString "\\f"
  else if c = 13 then JsString.ofString "\\r"
  else if c.toNat < 32 ∨ JsString.isHigh c ∨ JsString.isLow c then unicodeEscape c
  else [c]

def stringifyUnits : JsString → JsString
  | [] => []
  | [c] => stringifyUnit c
  | c :: d :: rest =>
      if JsString.isHigh c && JsString.isLow d then c :: d :: stringifyUnits rest
      else stringifyUnit c ++ stringifyUnits (d :: rest)

/-- `JSON.stringify` of a string. -/
def stringify (value : JsString) : JsString := 34 :: stringifyUnits value ++ [34]

/-- `JSON.stringify` of a number that is a natural one. -/
def stringifyNat (n : Nat) : JsString := (Text.ofNat n).map UInt16.ofNat

/-- `TextEncoder`: an unpaired surrogate becomes U+FFFD. -/
def encodeText (value : JsString) : Bytes :=
  value.codePoints.flatMap fun c =>
    (Text.encodePoint (if Text.isSurrogate c then 0xFFFD else c)).getD []

/-- The text that `uploadIdempotencyKey` digests. -/
def keyText (command : UploadCommand) (sha256 : JsString) : JsString :=
  let field (name : String) (value : JsString) : JsString :=
    stringify (JsString.ofString name) ++ 58 :: value
  let fields := [field "category" (stringify command.category),
    field "content_type" (stringify command.file.contentType),
    field "file_date" (stringify command.fileDate),
    field "filename" (stringify command.file.name),
    field "last_modified" (stringifyNat command.file.lastModified.toNat),
    field "project_id" (stringify command.projectId), field "sha256" (stringify sha256),
    field "size_bytes" (stringifyNat command.file.size)]
  JsString.ofString "superboss-upload-idempotency-v1\n" ++
    123 :: (List.intercalate [44] fields ++ [125])

/-- `uploadIdempotencyKey`, where the digest can be computed. -/
def uploadIdempotencyKey (digest : Bytes → Vector UInt8 32) (command : UploadCommand)
    (sha256 : JsString) : JsString :=
  JsString.ofString "file-" ++ hex (digest (encodeText (keyText command sha256))).toList

/-- The argument of `filesApi.start`. -/
def UploadCommand.start (command : UploadCommand) (sha256 : JsString) : FileUploadStart where
  category := command.category
  contentType := command.file.contentType
  fileDate := command.fileDate
  filename := command.file.name
  projectId := command.projectId
  sha256
  sizeBytes := command.file.size

/-! ### One upload -/

def uploadPartSize : Nat := 8 * 1024 * 1024

def maxParallelPuts : Nat := 3

/-- `file.slice(start, stop)`. -/
structure Slice where
  start : Nat
  stop : Nat
  deriving DecidableEq

/-- `Math.ceil(size / UPLOAD_PART_SIZE)`. -/
def partCount (size : Nat) : Nat := (size + uploadPartSize - 1) / uploadPartSize

/-- The body of a part. -/
def partSlice (size partNumber : Nat) : Slice :=
  let start := (partNumber - 1) * uploadPartSize
  ⟨start, min (start + uploadPartSize) size⟩

structure PreparedPart where
  body : Slice
  partNumber : Nat
  url : JsString
  deriving DecidableEq

/-- What an upload calls, how its `PUT`s settle, and when it is aborted. -/
inductive UploadAction
  | start (command : FileUploadStart) (idempotencyKey : JsString)
  | partUrl (uploadId : JsString) (partNumber : Nat)
  | put (url : JsString) (partNumber : Nat) (body : Slice)
  | stored (partNumber : Nat) (etag : JsString)
  | refused (partNumber : Nat)
  | progress (uploadedBytes : Nat)
  | complete (uploadId : JsString) (parts : List FilePart)
  | abort
  deriving DecidableEq

/-- Where `runUpload` awaits. -/
inductive UploadPoint
  | hashing
  | keying (sha256 : JsString)
  | starting
  | presigning (uploadId : JsString) (batchEnd partNumber : Nat) (prepared : List PreparedPart)
  | putting (uploadId : JsString) (batchEnd : Nat) (prepared : List PreparedPart)
      (results : List (Option (Except UploadFailure JsString)))
  | completing
  | finished (failure : Option UploadFailure)
  deriving DecidableEq

structure Upload where
  command : UploadCommand
  aborted : Bool
  completed : List FilePart
  point : UploadPoint
  /-- The actions so far. -/
  actions : List UploadAction
  deriving DecidableEq

/-- What `onProgress` does. -/
structure Callback where
  cancels : Bool
  throws : Bool
  deriving DecidableEq

/-- How an awaited promise settles. -/
inductive UploadAnswer
  | hashed (result : Except UploadFailure JsString)
  | keyed (result : Except UploadFailure Unit)
  | started (result : Except UploadFailure JsString) (onProgress : Callback)
  | presigned (result : Except UploadFailure JsString)
  | put (index : Nat) (result : Except UploadFailure JsString)
  | allSettled (onProgress : Callback)
  | completed (result : Except UploadFailure Unit)
  deriving DecidableEq

/-- `rethrowUploadFailure`. -/
def rethrowUploadFailure : UploadFailure → UploadFailure
  | .other => .contract
  | failure => failure

namespace Upload

def size (u : Upload) : Nat := u.command.file.size

def act (u : Upload) (actions : List UploadAction) : Upload :=
  { u with actions := u.actions ++ actions }

def goto (u : Upload) (point : UploadPoint) : Upload := { u with point }

def abort (u : Upload) : Upload := { u.act [.abort] with aborted := true }

def fail (u : Upload) (failure : UploadFailure) : Upload :=
  u.goto (.finished (some (rethrowUploadFailure failure)))

/-- A call of `onProgress`. -/
def report (u : Upload) (uploadedBytes : Nat) (onProgress : Callback) : Upload :=
  let u := u.act [.progress uploadedBytes]
  if onProgress.cancels then u.abort else u

/-- The loop `while (nextPart <= partCount)` and what follows it, up to the next `await`. -/
def nextBatch (u : Upload) (uploadId : JsString) (nextPart : Nat) : Upload :=
  if u.aborted then u.fail .contract
  else if nextPart ≤ partCount u.size then
    (u.act [.partUrl uploadId nextPart]).goto
      (.presigning uploadId (min (nextPart + maxParallelPuts - 1) (partCount u.size)) nextPart [])
  else (u.act [.complete uploadId u.completed]).goto .completing

/-- A report of the progress, and the turn behind it. -/
def advance (u : Upload) (uploadId : JsString) (nextPart uploadedBytes : Nat)
    (onProgress : Callback) : Upload :=
  let u := u.report uploadedBytes onProgress
  if onProgress.throws then u.fail .other else u.nextBatch uploadId nextPart

/-- The `PUT` of a prepared part. -/
def putAction (part : PreparedPart) : UploadAction := .put part.url part.partNumber part.body

/-- A part that was stored. -/
def completedPart (part : PreparedPart) (result : Option (Except UploadFailure JsString)) :
    Option FilePart :=
  match result with
  | some (.ok etag) => if isEtag etag then some ⟨part.partNumber, etag⟩ else none
  | _ => none

/-- The loop over `settled`: none where it sets `failed`. -/
def collect : List PreparedPart → List (Option (Except UploadFailure JsString)) →
    Option (List FilePart)
  | part :: prepared, result :: results => do
      let first ← completedPart part result
      let others ← collect prepared results
      some (first :: others)
  | [], [] => some []
  | _, _ => none

/-- The turn behind `Promise.allSettled`. -/
def settle (u : Upload) (uploadId : JsString) (batchEnd : Nat) (prepared : List PreparedPart)
    (results : List (Option (Except UploadFailure JsString))) (onProgress : Callback) : Upload :=
  if u.aborted then u.fail .contract
  else
    match collect prepared results with
    | none => u.fail .contract
    | some parts =>
        let u := { u with completed := u.completed ++ parts }
        u.advance uploadId (batchEnd + 1) (min (u.completed.length * uploadPartSize) u.size)
          onProgress

/-- A `PUT` settles. -/
def putAnswer (part : PreparedPart) : Except UploadFailure JsString → UploadAction
  | .ok etag => .stored part.partNumber etag
  | .error _ => .refused part.partNumber

/-- The turn behind `filesApi.partUrl`. -/
def presigned (u : Upload) (uploadId : JsString) (batchEnd partNumber : Nat)
    (prepared : List PreparedPart) (url : JsString) : Upload :=
  let prepared := prepared ++ [⟨partSlice u.size partNumber, partNumber, url⟩]
  if u.aborted then u.fail .contract
  else if partNumber + 1 ≤ batchEnd then
    (u.act [.partUrl uploadId (partNumber + 1)]).goto
      (.presigning uploadId batchEnd (partNumber + 1) prepared)
  else
    (u.act (prepared.map putAction)).goto
      (.putting uploadId batchEnd prepared (prepared.map fun _ => none))

def step (digest : Bytes → Vector UInt8 32) (u : Upload) (answer : UploadAnswer) : Option Upload :=
  match u.point, answer with
  | .hashing, .hashed (.ok sha256) =>
      some (if isDigest sha256 ∧ u.aborted = false then u.goto (.keying sha256)
        else u.fail .contract)
  | .keying sha256, .keyed (.ok ()) =>
      some (if u.aborted then u.fail .contract
        else
          (u.act [.start (u.command.start sha256)
            (uploadIdempotencyKey digest u.command sha256)]).goto .starting)
  | .starting, .started (.ok uploadId) onProgress => some (u.advance uploadId 1 0 onProgress)
  | .presigning uploadId batchEnd partNumber prepared, .presigned (.ok url) =>
      some (u.presigned uploadId batchEnd partNumber prepared url)
  | .putting uploadId batchEnd prepared results, .put index result =>
      match prepared[index]?, results[index]? with
      | some part, some none =>
          some ((u.act [putAnswer part result]).goto
            (.putting uploadId batchEnd prepared (results.set index (some result))))
      | _, _ => none
  | .putting uploadId batchEnd prepared results, .allSettled onProgress =>
      if results.all Option.isSome then
        some (u.settle uploadId batchEnd prepared results onProgress)
      else none
  | .completing, .completed (.ok ()) => some (u.goto (.finished none))
  -- Each of these is awaited in a `try` block that ends in `rethrowUploadFailure`, or
  -- throws what the uploader passes to it.
  | .hashing, .hashed (.error failure) | .keying _, .keyed (.error failure)
  | .starting, .started (.error failure) _ | .presigning _ _ _ _, .presigned (.error failure)
  | .completing, .completed (.error failure) => some (u.fail failure)
  | _, _ => none

end Upload

/-! ### The uploader -/

/-- `active`, and the uploads that were active before. -/
structure Uploader where
  past : List Upload
  active : Option Upload
  deriving DecidableEq

inductive UploaderEvent
  | upload (command : UploadCommand)
  | cancel
  | answer (a : UploadAnswer)
  /-- The callback of `finally`. -/
  | release
  deriving DecidableEq

namespace Uploader

def init : Uploader := ⟨[], none⟩

/-- `runUpload` up to its first `await`. -/
def begin (dateParse : Text → Option Int) (command : UploadCommand) : Upload :=
  match canonicalCommand dateParse command with
  | .error failure => ⟨command, false, [], .finished (some (rethrowUploadFailure failure)), []⟩
  | .ok command => ⟨command, false, [], .hashing, []⟩

def next (dateParse : Text → Option Int) (digest : Bytes → Vector UInt8 32) (s : Uploader) :
    UploaderEvent → Option Uploader
  | .upload command =>
      match s.active with
      | some _ => some s
      | none => some { s with active := some (begin dateParse command) }
  | .cancel =>
      match s.active with
      | some u => some { s with active := some u.abort }
      | none => some s
  | .answer a => s.active.bind fun u => (u.step digest a).map fun u => { s with active := some u }
  | .release =>
      match s.active with
      | some u =>
          match u.point with
          | .finished _ => some ⟨s.past ++ [u], none⟩
          | _ => none
      | none => none

end Uploader

/-! ### Sample -/

/-- `new Date` on a text of the form that `calendarDate` makes. -/
def utcMidnight (t : Text) : Option Int := (Date.parse (t.take 10)).map fun d => d * 86400000

def sampleCommand (category : JsString) (size : Nat) : UploadCommand where
  category := category
  file := ⟨JsString.ofString "plan.txt", 1783987200000, size, JsString.ofString "text/plain"⟩
  fileDate := JsString.ofString "2026-07-14"
  projectId := JsString.ofString "1b4e28ba-2fa1-41d2-883f-0016d3cca427"

/-- The digest of the eleven bytes "hello world". -/
def sampleSha256 : JsString :=
  JsString.ofString "b94d27b9934d3e08a52e52d7da7dabfac484efe37a5380ee9088f7ace2efcde9"

/-- SHA-256 of the key text of the sample with the category "K3" and eleven bytes. -/
def sampleKeyDigest : Vector UInt8 32 :=
  #v[209, 227, 42, 73, 69, 196, 178, 216, 147, 19, 95, 71, 238, 14, 51, 243, 67, 174, 117, 234, 116,
    177, 20, 145, 189, 173, 55, 94, 22, 221, 149, 103]

end SuperBoss.Web
