import SuperBoss.Connector.Markers
import SuperBoss.Connector.Responses
import SuperBoss.Library.Procedures

/-!
The commands of the connector: procedures over the state of one origin, which the
operating system, the network and the local files answer as they like. The
commands of an origin hold its lock, so they run one after another.
-/

namespace SuperBoss.Connector

open SuperBoss.Core
open SuperBoss.Files
open SuperBoss.Imports
open SuperBoss.Library

def outboxBusy : ConnectorError :=
  ⟨2, "Another operation is active; retry this command shortly."⟩
def outboxConflict : ConnectorError := ⟨2, "An unfinished operation exists; run retry first."⟩
def fileChanged : ConnectorError :=
  ⟨4, "A local attachment changed; submit a new result package."⟩
def pairIncomplete : ConnectorError :=
  ⟨2, "Pairing is incomplete; locally rerun superboss pair --server <ORIGIN> " ++
    "--code <ONE_TIME_CODE> --name <DEVICE_NAME> with a valid one-time code."⟩
def pairTemporaryFailure : ConnectorError :=
  ⟨6, "Pairing did not finish; locally rerun superboss pair --server <ORIGIN> " ++
    "--code <ONE_TIME_CODE> --name <DEVICE_NAME> with a valid one-time code."⟩

/-! ### Calls -/

/-- Whose answer a refresh token came from. -/
inductive Grant
  | pairing
  | rotation
  deriving DecidableEq

/-- A call of a command on the outbox of its origin, the keyring, the server, the
local files or the terminal. -/
inductive Call
  | loadReplacementMarker
  | saveReplacementMarker (oldRefreshSha256 : Option Text) (oldOutbox : Text)
  | deleteReplacementMarker
  | loadPairCompletionMarker
  | savePairCompletionMarker (oldRefreshSha256 : Option Text)
  | deletePairCompletionMarker
  | loadOptional
  | outboxExists (name : Text)
  | save (name : Text) (entry : OutboxEntry)
  | delete (name : Text)
  | loadRefreshOptional
  | saveRefresh (grant : Grant) (value : Text)
  | request (r : Request)
  | putPart (url : Text) (content : Bytes)
  | look
  | readSlice (path : Text) (offset : Nat)
  | now
  | echo (line : Text)

/-- What a call returns. -/
abbrev Call.Value : Call → Type
  | .loadReplacementMarker => Option ReplacementMarker
  | .loadPairCompletionMarker => Option PairCompletionMarker
  | .loadOptional => Option (Text × OutboxEntry)
  | .outboxExists _ => Bool
  | .save _ _ => OutboxEntry
  | .loadRefreshOptional => Option Text
  | .request _ => Bytes
  | .putPart _ _ => Text
  | .look => FileSystem
  | .readSlice _ _ => Option Bytes
  | .now => Moment
  | _ => Unit

abbrev Call.Answer (c : Call) : Type := Except Fault c.Value

structure Event where
  call : Call
  answer : call.Answer

/-- The directory and the credential of an origin, and the calls so far, the
latest first. -/
structure Workstation where
  documents : Documents
  replacement : Option Bytes
  pairCompletion : Option Bytes
  credential : Option Text
  history : List Event

/-- What the environment does with a call. -/
structure Chance (A : Type) where
  /-- The operating system or the keyring raises. -/
  fails : Bool
  /-- A keyring that raises has stored the credential all the same. -/
  stored : Bool
  now : Moment
  outcome : HttpOutcome
  check : Lookup
  connect : Lookup
  network : IPAddress A → Connection
  files : FileSystem
  slice : Option Bytes

section calls

variable {P : Platform} {A : Type} [DecidableEq A] (T : Timestamps P) (C : UrlContext A)
  (origin : Text)

def stateFailure {α : Type} : Except Fault α := .error (.connector outboxInvalid)

/-- A call on the directory, which the operating system may refuse. -/
def guarded {α : Type} (i : Chance A) (result : Except Fault α) : Except Fault α :=
  if i.fails then stateFailure else result

/-- A call that changes the world when it succeeds. -/
def guardedChange {α : Type} (i : Chance A) (w : Workstation)
    (result : Except ConnectorError (α × Workstation)) : Except Fault α × Workstation :=
  if i.fails then (stateFailure, w)
  else
    match result with
    | .ok (a, w') => (.ok a, w')
    | .error e => (.error (.connector e), w)

def loadMarker {α : Type} (validate : Json → Except PyError α) (normalizedOrigin : α → Text)
    (file : Option Bytes) : Except Fault (Option α) :=
  match file with
  | none => .ok none
  | some b =>
      match readMarker validate b with
      | none => stateFailure
      | some m => if normalizedOrigin m ≠ origin then stateFailure else .ok (some m)

def serialized {α : Type} : Option α → Except ConnectorError α
  | some a => .ok a
  | none => .error outboxInvalid

/-- `path.unlink()` of a marker. -/
def unlink (file : Option Bytes) : Except ConnectorError Unit :=
  if file.isSome then .ok () else .error outboxInvalid

/-- `load_refresh_optional`: `value or None`. -/
def Workstation.refresh (w : Workstation) : Option Text := w.credential.filter fun t => t != []

/-- What a call returns and does to the world. -/
def Workstation.perform (w : Workstation) (i : Chance A) : (c : Call) → c.Answer × Workstation
  | .loadReplacementMarker => (guarded i
      (loadMarker origin ReplacementMarker.validate (·.normalizedOrigin) w.replacement), w)
  | .saveReplacementMarker sha256 name => guardedChange i w <| (serialized
      (serializeMarker ReplacementMarker.fields ReplacementMarker.validate
        ⟨⟨origin, .of sha256, sha256⟩, name⟩)).map fun b => ((), { w with replacement := some b })
  | .deleteReplacementMarker =>
      guardedChange i w <| (unlink w.replacement).map fun _ => ((), { w with replacement := none })
  | .loadPairCompletionMarker => (guarded i
      (loadMarker origin PairCompletionMarker.validate (·.normalizedOrigin) w.pairCompletion), w)
  | .savePairCompletionMarker sha256 => guardedChange i w <| (serialized
      (serializeMarker PairCompletionMarker.fields PairCompletionMarker.validate
        ⟨origin, .of sha256, sha256⟩)).map fun b => ((), { w with pairCompletion := some b })
  | .deletePairCompletionMarker => guardedChange i w <|
      (unlink w.pairCompletion).map fun _ => ((), { w with pairCompletion := none })
  | .loadOptional =>
      (guarded i ((loadOptional P origin w.documents).mapError Fault.connector), w)
  | .outboxExists name =>
      (if i.fails then .error (.connector outboxBusy)
        else .ok (w.documents.any fun d => decide (d.1 = name)), w)
  | .save name e => guardedChange i w <|
      (save T w.documents name e i.now).map fun docs =>
        (e.stamp i.now, { w with documents := docs })
  | .delete name => guardedChange i w <|
      if (w.documents.any fun d => decide (d.1 = name)) = true then
        .ok ((), { w with documents := w.documents.remove name })
      else .error outboxInvalid
  | .loadRefreshOptional =>
      (if i.fails then .error (.connector credentialError) else .ok w.refresh, w)
  | .saveRefresh _ value =>
      (if i.fails then .error (.connector credentialError) else .ok (),
        if i.fails && !i.stored then w else { w with credential := some value })
  | .request r => (receive r.authFailure i.outcome, w)
  | .putPart url _ => ((putPart C i.check i.connect i.network url).result.mapError .connector, w)
  | .look => (.ok i.files, w)
  | .readSlice _ _ => (.ok (i.slice.map fun b => b.take partSize), w)
  | .now => (.ok i.now, w)
  | .echo _ => (guarded i (.ok ()), w)

/-- A call with its record. -/
def Workstation.answer (c : Call) (i : Chance A) (w : Workstation) : c.Answer × Workstation :=
  let r := w.perform T C origin i c
  (r.1, { r.2 with history := ⟨c, r.1⟩ :: r.2.history })

end calls

/-! ### Procedures -/

abbrev Command (α : Type) := Procedure Call Call.Answer Fault α

def call (c : Call) : Command c.Value := Procedure.perform c >>= Procedure.ofExcept

def raise {α : Type} (e : ConnectorError) : Command α := .raise (.connector e)

/-- `except ConnectorError`. -/
def catchConnector {α : Type} (p : Command α) (handler : ConnectorError → Command α) : Command α :=
  p.handle fun f =>
    match f with
    | .connector e => handler e
    | .unexpected => .raise .unexpected

section markers

variable (P : Platform)

/-- `_refresh_fingerprint`. -/
def refreshFingerprint : Option Text → Except Fault (Option Text)
  | none => .ok none
  | some value =>
      match value.utf8 with
      | none => .error .unexpected
      | some b => .ok (some (P.sha256 b))

/-- `_credential_was_replaced`. -/
def credentialWasReplaced (m : PairCompletionMarker) (currentRefresh : Option Text) :
    Except Fault Bool := do
  let currentFingerprint ← refreshFingerprint P currentRefresh
  .ok ((m.oldCredentialState == .missing && currentRefresh.isSome) ||
    (m.oldCredentialState == .present && currentRefresh.isSome &&
      decide (currentFingerprint ≠ m.oldRefreshSha256)))

/-- The deletion of `_recover_replacement`. -/
def deleteReplaced (m : ReplacementMarker) (durable : Bool) : Command Unit := do
  if durable then
    let present : Bool ← call (.outboxExists m.oldOutboxFilename)
    if present then call (.delete m.oldOutboxFilename)

/-- `_recover_replacement`. -/
def recoverReplacement (retainCompletedMarker : Bool) : Command Bool := do
  match ← call .loadReplacementMarker with
  | none => pure false
  | some marker => do
      let currentRefresh ← call .loadRefreshOptional
      let durable ← Procedure.ofExcept
        (credentialWasReplaced P marker.toPairCompletionMarker currentRefresh)
      deleteReplaced marker durable
      if durable && retainCompletedMarker then pure true
      else do
        call .deleteReplacementMarker
        pure durable

/-- `_recover_initial_pair`. -/
def recoverInitialPair : Command Bool := do
  match ← call .loadPairCompletionMarker with
  | none => pure false
  | some marker => do
      let currentRefresh ← call .loadRefreshOptional
      if ← Procedure.ofExcept (credentialWasReplaced P marker currentRefresh) then pure true
      else do
        call .deletePairCompletionMarker
        pure false

/-- `_reject_pending_initial_pair`. -/
def rejectPendingInitialPair : Command Unit := do
  if (← call .loadPairCompletionMarker).isSome then raise pairIncomplete

/-- `_safe_argument`. -/
def safeArgument (value : Text) (maximum : Nat) : Except Fault Unit :=
  if value.utf8.isNone ∨ ¬(1 ≤ value.length ∧ value.length ≤ maximum) ∨
      stripEtag value = [] ∨ Text.noControls false value = false then
    .error (.connector invalidInput)
  else .ok ()

/-- `ApiClient.pair` and `ApiClient.refresh` on the answer of a request. -/
def storeToken (grant : Grant) (r : Request) : Command Text := do
  let payload ← call (.request r)
  let token ← Procedure.ofExcept (parseToken P payload)
  call (.saveRefresh grant token.refreshToken)
  pure token.accessToken

/-- `ApiClient.refresh`. -/
def refresh : Command Text := do
  match ← call .loadRefreshOptional with
  | none => raise credentialError
  | some refreshToken => storeToken P .rotation (.refresh refreshToken)

def reportReplacement : Text :=
  Text.ofString "Device paired. Old operation abandoned; create a new manifest and UUID."

def devicePaired : Text := Text.ofString "Device paired."

/-- The pairing itself, between the marker and its removal. -/
def pairClient (code name : Text) : Command Unit :=
  catchConnector (do
    let _ ← storeToken P .pairing (.pair code name))
    fun e => if e.exitCode = 6 then raise pairTemporaryFailure else raise e

/-- `pair`, behind `normalize_origin`. -/
def pair (code name : Text) : Command Unit := do
  Procedure.ofExcept (safeArgument code 255)
  Procedure.ofExcept (safeArgument name 255)
  if ← recoverReplacement P true then do
    call (.echo reportReplacement)
    call .deleteReplacementMarker
  else if ← recoverInitialPair P then do
    call (.echo devicePaired)
    call .deletePairCompletionMarker
  else
    match ← call .loadOptional with
    | some (outbox, entry) =>
        if entry.phase = .evidence then raise outboxConflict
        else do
          let oldRefresh ← call .loadRefreshOptional
          let sha256 ← Procedure.ofExcept (refreshFingerprint P oldRefresh)
          call (.saveReplacementMarker sha256 outbox)
          pairClient P code name
          call (.delete outbox)
          call (.echo reportReplacement)
          call .deleteReplacementMarker
    | none => do
        let oldRefresh ← call .loadRefreshOptional
        let sha256 ← Procedure.ofExcept (refreshFingerprint P oldRefresh)
        call (.savePairCompletionMarker sha256)
        pairClient P code name
        call (.echo devicePaired)
        call .deletePairCompletionMarker

end markers

/-! ### Files -/

section files

variable {P : Platform}

/-- `verify_attachment`. -/
def verifyAttachment (P : Platform) (fs : FileSystem) (a : AttachmentState) : Bool :=
  match hashRegularFile P fs a.path with
  | some (size, sha256, _) => decide (size = a.sizeBytes ∧ sha256 = a.sha256)
  | none => false

/-- The comparison of `_prepared_for_retry`. -/
def comparePrepared : List PreparedAttachment → List AttachmentState → Except Fault Unit
  | prepared :: ps, stored :: as =>
      if prepared.sha256 = stored.sha256 ∧ prepared.partSha256s ≠ stored.partSha256s then
        .error (.connector outboxInvalid)
      else if prepared.kind ≠ stored.kind ∨ prepared.path ≠ stored.path ∨
          prepared.filename ≠ stored.filename ∨ prepared.sizeBytes ≠ stored.sizeBytes ∨
          prepared.sha256 ≠ stored.sha256 ∨ prepared.partSha256s ≠ stored.partSha256s ∨
          prepared.contentType ≠ stored.contentType then
        .error (.connector fileChanged)
      else comparePrepared ps as
  | _, _ => .ok ()

variable (P) in
/-- `_prepared_for_retry`. -/
def preparedForRetry (fs : FileSystem) (entry : OutboxEntry) : Except Fault (PreparedManifest P) :=
  match prepareManifest P fs entry.manifestPath with
  | .error (.connector _) => .error (.connector fileChanged)
  | .error .unexpected => .error .unexpected
  | .ok m =>
      if m.idempotencyKey ≠ entry.idempotencyKey ∨ m.fingerprint ≠ entry.manifestFingerprint ∨
          m.attachments.length ≠ entry.attachments.length then
        .error (.connector fileChanged)
      else (comparePrepared m.attachments entry.attachments).map fun _ => m

/-- `_read_part` on the bytes that were read. -/
def checkPart (P : Platform) (a : AttachmentState) (partNumber : Nat) (expectedSha256 : Text)
    (slice : Option Bytes) : Except Fault Bytes :=
  match slice with
  | none => .error (.connector fileChanged)
  | some content =>
      if content.length ≠ min partSize (a.sizeBytes - (partNumber - 1) * partSize) ∨
          P.sha256 content ≠ expectedSha256 then
        .error (.connector fileChanged)
      else .ok content

end files

/-! ### Submitting -/

section submitting

variable {P : Platform} {A : Type} (T : Timestamps P) (C : UrlContext A)

/-- A model built from values; a `ValidationError` is no `ConnectorError`. -/
def construct {α : Type} : Except PyError α → Except Fault α
  | .ok a => .ok a
  | .error _ => .error .unexpected

/-- `completed_parts.sort(key=...)`. -/
def partLe (p q : CompletedPart) : Prop := p.partNumber ≤ q.partNumber

instance : DecidableRel partLe := fun p q =>
  inferInstanceAs (Decidable (p.partNumber ≤ q.partNumber))

instance : IsTrans _ partLe := ⟨fun _ _ _ => le_trans⟩

instance : Std.Total partLe := ⟨fun p q => le_total p.partNumber q.partNumber⟩

/-- The attachment with one more completed part. -/
def AttachmentState.addPart (a : AttachmentState) (p : CompletedPart) : AttachmentState :=
  { a with completedParts := (a.completedParts ++ [p]).insertionSort partLe }

def AttachmentState.complete (a : AttachmentState) : AttachmentState := { a with completed := true }

/-- The entry with its attachment at a place changed. -/
def OutboxEntry.modify (e : OutboxEntry) (i : Nat) (f : AttachmentState → AttachmentState) :
    OutboxEntry :=
  { e with attachments := e.attachments.modify i f }

/-- A look at an attachment before its bytes are sent. -/
def verify (P : Platform) (a : AttachmentState) : Command Unit := do
  let fs ← call .look
  if verifyAttachment P fs a then pure () else raise fileChanged

/-- The body of the loop over the parts of the attachment at `i`. -/
def uploadPart (accessToken name : Text) (jobId attachmentId : UUID) (i : Nat) (a : AttachmentState)
    (entry : OutboxEntry) (partNumber : Nat) : Command OutboxEntry := do
  if partNumber ∈ a.partNumbers then pure entry
  else do
    let payload ← call (.request (.partUrl jobId attachmentId partNumber accessToken))
    let url ← Procedure.ofExcept (parsePartUrl C payload)
    verify P a
    match a.partSha256s[partNumber - 1]? with
    | none => .raise .unexpected
    | some expectedSha256 => do
        let slice ← call (.readSlice a.path ((partNumber - 1) * partSize))
        let content ← Procedure.ofExcept (checkPart P a partNumber expectedSha256 slice)
        let etag ← call (.putPart url content)
        let part ← Procedure.ofExcept
          (construct (CompletedPart.validate P (CompletedPart.dump ⟨partNumber, etag⟩)))
        call (.save name (entry.modify i fun b => b.addPart part))

/-- The last step of an attachment. -/
def completeAttachment (P : Platform) (accessToken name : Text)
    (jobId attachmentId fileId uploadId : UUID) (i : Nat) (entry : OutboxEntry)
    (a : AttachmentState) : Command OutboxEntry := do
  if a.completed then pure entry
  else do
    verify P a
    let payload ← call (.request (.complete jobId attachmentId a.completedParts accessToken))
    let _ ← Procedure.ofExcept
      (parseCompleted P ⟨attachmentId, fileId, uploadId, a.kind, .uploading⟩ payload)
    call (.save name (entry.modify i AttachmentState.complete))

/-- The body of the loop over the attachments. -/
def uploadAttachment (accessToken name : Text) (jobId : UUID) (entry : OutboxEntry) (i : Nat) :
    Command OutboxEntry :=
  match entry.attachments[i]? with
  | none => pure entry
  | some a => do
      verify P a
      match a.attachmentId, a.fileId, a.uploadId with
      | some attachmentId, some fileId, some uploadId => do
          if ¬a.partNumbers.Nodup ∨ ∃ n ∈ a.partNumbers, a.totalParts < n then raise outboxInvalid
          else do
            let entry ← Procedure.each
              (uploadPart (P := P) C accessToken name jobId attachmentId i a) entry
              (List.range' 1 a.totalParts)
            match entry.attachments[i]? with
            | none => pure entry
            | some a =>
                completeAttachment P accessToken name jobId attachmentId fileId uploadId i entry a
      | _, _, _ => raise outboxInvalid

/-- The `CREATE` phase of `_resume`. -/
def resumeCreate (accessToken name : Text) (manifest : PreparedManifest P) (entry : OutboxEntry) :
    Command OutboxEntry := do
  if entry.phase = .create then do
    let payload ← call
      (.request (.createJob manifest.server.serverPayload entry.idempotencyKey accessToken))
    let created ← Procedure.ofExcept (parseCreatedJob manifest.server payload)
    let entry ← Procedure.ofExcept (bindCreatedJob entry manifest created)
    call (.save name entry)
  else pure entry

/-- The `UPLOAD` phase of `_resume`. -/
def resumeUpload (P : Platform) (accessToken name : Text) (jobId : UUID) (entry : OutboxEntry) :
    Command OutboxEntry := do
  if entry.phase = .upload then do
    let entry ← Procedure.each (uploadAttachment (P := P) C accessToken name jobId) entry
      (List.range entry.attachments.length)
    call (.save name { entry with phase := .submit })
  else pure entry

/-- The end of `_resume`. -/
def resumeSubmit (accessToken name : Text) (jobId : UUID) (entry : OutboxEntry) :
    Command EvidenceState := do
  let payload ← call (.request (.submit jobId accessToken))
  let result ← Procedure.ofExcept (parseSubmitted P jobId payload)
  let evidence ← Procedure.ofExcept
    (construct (EvidenceState.validate P (result.evidence.dump T)))
  let _ ← call (.save name { entry with phase := .evidence, evidence := some evidence })
  pure result.evidence

/-- `_resume`. -/
def resume (accessToken name : Text) (manifest : PreparedManifest P) (entry : OutboxEntry) :
    Command EvidenceState := do
  let entry ← resumeCreate accessToken name manifest entry
  match entry.jobId with
  | none => raise outboxInvalid
  | some jobId => do
      let entry ← resumeUpload C P accessToken name jobId entry
      resumeSubmit T accessToken name jobId entry

/-- The line of `_print_result`. -/
def resultLine (id : UUID) (status : ImportStatus) (resultCode : Option Text) : Text :=
  Text.join [32] ([id.text, Text.ofString status.value] ++ resultCode.toList)

/-- `_print_result_and_delete`. -/
def printResultAndDelete (result : EvidenceState) (name : Text) : Command Unit := do
  call (.echo (resultLine result.jobId result.status result.resultCode))
  call (.delete name)

/-- `_discard_on_file_change` around a procedure. -/
def discardOnFileChange {α : Type} (name : Text) (p : Command α) : Command α :=
  catchConnector p fun e => do
    if e.exitCode = 4 then call (.delete name)
    raise e

/-- `submit`, behind `normalize_origin`. -/
def submit (origin manifestPath : Text) : Command Unit := do
  let fs ← call .look
  let prepared ← Procedure.ofExcept (prepareManifest P fs manifestPath)
  rejectPendingInitialPair
  let _ ← recoverReplacement P false
  if (← call .loadOptional).isSome then raise outboxConflict
  else do
    let now ← call .now
    let entry ← Procedure.ofExcept (construct (validatedInitialEntry T origin prepared now))
    let name := pathFor P prepared.idempotencyKey
    let entry ← call (.save name entry)
    let result ← discardOnFileChange name do
      let accessToken ← refresh P
      resume T C accessToken name prepared entry
    printResultAndDelete result name

/-- `status`, behind `normalize_origin`. -/
def status (P : Platform) (jobId : UUID) : Command Unit := do
  rejectPendingInitialPair
  let _ ← recoverReplacement P false
  let accessToken ← refresh P
  let payload ← call (.request (.status jobId accessToken))
  let result ← Procedure.ofExcept (parseStatus P jobId payload)
  call (.echo (resultLine result.id result.status result.resultCode))

/-- `retry`, behind `normalize_origin`. -/
def retry : Command Unit := do
  rejectPendingInitialPair
  let _ ← recoverReplacement P false
  match ← call .loadOptional with
  | none => raise outboxInvalid
  | some (name, entry) =>
      if entry.phase = .evidence then
        match entry.evidence with
        | none => raise outboxInvalid
        | some evidence => printResultAndDelete evidence name
      else do
        let result ← discardOnFileChange name do
          let fs ← call .look
          let prepared ← Procedure.ofExcept (preparedForRetry P fs entry)
          let accessToken ← refresh P
          resume T C accessToken name prepared entry
        printResultAndDelete result name

end submitting

end SuperBoss.Connector
