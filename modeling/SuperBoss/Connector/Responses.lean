import SuperBoss.Connector.OutboxStore

/-!
`ApiClient`: what is made of an exchange with the server, and the responses that
each request takes.
-/

namespace SuperBoss.Connector

open SuperBoss.Core
open SuperBoss.Files
open SuperBoss.Imports

def credentialError : ConnectorError := ⟨3, "Device credentials are unavailable or invalid."⟩

def responseMaxBytes : Nat := 128 * 1024
def tokenMaxChars : Nat := 4096
def urlMaxChars : Nat := 4096

/-! ### Outcomes -/

/-- A response as far as `_request` looks at it. -/
structure HttpResponse where
  statusCode : Nat
  contentEncoding : Option Text
  /-- The header as `int` reads it; none inside is a `ValueError`. -/
  contentLength : Option (Option Int)
  chunks : List Bytes

/-- What the network makes of a request. -/
inductive HttpOutcome
  /-- An `httpx.RequestError`. -/
  | failed
  /-- An exception that the handlers do not name. -/
  | broken
  | answered (response : HttpResponse)

/-- The loop over `iter_raw`. -/
def readPayload (payload : Bytes) : List Bytes → Option Bytes
  | [] => some payload
  | chunk :: chunks =>
      let remaining := responseMaxBytes + 1 - payload.length
      let payload := payload ++ chunk.take remaining
      if responseMaxBytes < payload.length ∨ remaining < chunk.length then none
      else readPayload payload chunks

/-- `content_encoding.strip().lower() != "identity"`. -/
def encoded (contentEncoding : Option Text) : Bool :=
  contentEncoding.any fun t => decide ((stripEtag t).map Text.asciiLower ≠ Text.ofString "identity")

/-- The error of a response that cannot be taken. -/
def refusal (authFailure : Bool) : ConnectorError :=
  if authFailure then credentialError else serverRejected

/-- `_request` on an outcome. -/
def receive (authFailure : Bool) : HttpOutcome → Except Fault Bytes
  | .failed => .error (.connector temporaryFailure)
  | .broken => .error .unexpected
  | .answered response =>
      if response.statusCode = 429 ∨ 500 ≤ response.statusCode then
        .error (.connector temporaryFailure)
      else if ¬(200 ≤ response.statusCode ∧ response.statusCode < 300) ∨
          encoded response.contentEncoding = true ∨
          (response.contentLength.any fun length => length.all fun n =>
            decide (n < 0 ∨ (responseMaxBytes : Int) < n)) = true then
        .error (.connector (refusal authFailure))
      else
        match readPayload [] response.chunks with
        | some payload => .ok payload
        | none => .error (.connector (refusal authFailure))

/-- `_json` on a payload. -/
def parsePayload {α : Type} (error : ConnectorError) (validate : Json → Except PyError α)
    (payload : Bytes) : Except Fault α :=
  match Json.loads payload with
  | none => .error (.connector error)
  | some j =>
      match validate j with
      | .ok a => .ok a
      | .error .validation => .error (.connector error)
      | .error .overflow => .error .unexpected

/-- No payload is longer than the limit. -/
theorem readPayload_length {payload result : Bytes} {chunks : List Bytes}
    (hpayload : payload.length ≤ responseMaxBytes) (h : readPayload payload chunks = some result) :
    result.length ≤ responseMaxBytes := by
  induction chunks generalizing payload with
  | nil =>
      cases h
      exact hpayload
  | cons chunk chunks ih =>
      rw [readPayload] at h
      split at h
      · cases h
      · rename_i hfits
        exact ih (Nat.not_lt.mp fun hlong => hfits (.inl hlong)) h

theorem receive_length {authFailure : Bool} {outcome : HttpOutcome} {payload : Bytes}
    (h : receive authFailure outcome = .ok payload) : payload.length ≤ responseMaxBytes := by
  unfold receive at h
  split at h
  · cases h
  · cases h
  · split at h
    · cases h
    · split at h
      · cases h
      · split at h
        · rename_i hread
          cases h
          exact readPayload_length (Nat.zero_le _) hread
        · cases h

/-- The exit codes of `_request`. -/
theorem receive_error {authFailure : Bool} {outcome : HttpOutcome} {error : ConnectorError}
    (h : receive authFailure outcome = .error (.connector error)) :
    error = temporaryFailure ∨ error = refusal authFailure := by
  unfold receive at h
  split at h
  · cases h
    exact .inl rfl
  · cases h
  · split at h
    · cases h
      exact .inl rfl
    · split at h
      · cases h
        exact .inr rfl
      · split at h
        · cases h
        · cases h
          exact .inr rfl

theorem parsePayload_eq_ok {α : Type} {error : ConnectorError} {validate : Json → Except PyError α}
    {payload : Bytes} {a : α} (h : parsePayload error validate payload = .ok a) :
    ∃ j, Json.loads payload = some j ∧ validate j = .ok a := by
  unfold parsePayload at h
  split at h
  · cases h
  · rename_i j hloads
    split at h
    · rename_i hvalid
      cases h
      exact ⟨j, hloads, hvalid⟩
    · cases h
    · cases h

theorem parsePayload_error {α : Type} {error error' : ConnectorError}
    {validate : Json → Except PyError α} {payload : Bytes}
    (h : parsePayload error validate payload = .error (.connector error')) : error' = error := by
  unfold parsePayload at h
  split at h
  · cases h
    rfl
  · split at h
    · cases h
    · cases h
      rfl
    · cases h

/-! ### Responses -/

variable (P : Platform)

structure TokenResponse where
  accessToken : Text
  refreshToken : Text
  expiresAt : Instant
  refreshExpiresAt : Instant
  deriving DecidableEq

namespace TokenResponse

def fieldNames : List String :=
  ["access_token", "refresh_token", "token_type", "expires_at", "refresh_expires_at"]

/-- `TokenResponse.model_validate`. -/
def validate : Json → Except PyError TokenResponse
  | .obj fields =>
      (collect (requiredField fields "access_token" (stateText 1 tokenMaxChars))
      (collect (requiredField fields "refresh_token" (stateText 1 tokenMaxChars))
      (collect (requiredField fields "token_type" (literalField [()] fun _ => "Bearer"))
      (collect (requiredField fields "expires_at" (awareField P))
      (collect (requiredField fields "refresh_expires_at" (awareField P))
      (check (Json.onlyKeys fieldNames fields))))))).map
        fun (access, refresh, _, expires, refreshExpires, _) =>
          ⟨access, refresh, expires, refreshExpires⟩
  | _ => .error .validation

end TokenResponse

structure SubmitResponse where
  id : UUID
  status : ImportStatus
  resultCode : Option Text
  submittedAt : AwareDatetime
  updatedAt : AwareDatetime
  deriving DecidableEq

namespace SubmitResponse

def fieldNames : List String := ["id", "status", "result_code", "submitted_at", "updated_at"]

def validateFields : Json → Except PyError SubmitResponse
  | .obj fields =>
      (collect (requiredField fields "id" (uuidField P))
      (collect (requiredField fields "status" (literalField evidenceStatuses ImportStatus.value))
      (collect (requiredField fields "result_code" (nullable (patternStr isResultCode)))
      (collect (requiredField fields "submitted_at" (awareDatetimeField P))
      (collect (requiredField fields "updated_at" (awareDatetimeField P))
      (check (Json.onlyKeys fieldNames fields))))))).map
        fun (id, status, code, submitted, updated, _) => ⟨id, status, code, submitted, updated⟩
  | _ => .error .validation

/-- The fields of an `EvidenceState`. -/
def evidence (r : SubmitResponse) : EvidenceState :=
  ⟨r.id, r.status, r.resultCode, r.submittedAt, r.updatedAt⟩

/-- `SubmitResponse.model_validate`; `consistent_status` is the check of an evidence. -/
def validate (j : Json) : Except PyError SubmitResponse := do
  let r ← validateFields P j
  if r.evidence.ConsistentResult then .ok r else .error .validation

end SubmitResponse

variable {A : Type} (C : UrlContext A)

/-- `safe_url`. -/
def safeUrl (url : Text) : Bool :=
  match (do
    let parsed ← urlsplit C url
    let port ← parsed.port
    some (parsed, port)) with
  | none => false
  | some (parsed, port) =>
      decide (parsed.scheme = Text.ofString "https") &&
        ((parsed.hostname C).any fun h => h != []) &&
        (parsed.username.all fun t => t == []) && (parsed.password.all fun t => t == []) &&
        decide (parsed.fragment = []) && decide (port ≠ some 0)

/-- `PartUrlResponse.model_validate`, with the URL as its result. -/
def validatePartUrl : Json → Except PyError Text
  | .obj fields =>
      (collect (do
        let url ← requiredField fields "url" (stateText 1 urlMaxChars)
        if safeUrl C url then .ok url else .error .validation)
      (check (Json.onlyKeys ["url"] fields))).map Prod.fst
  | _ => .error .validation

/-! ### Requests -/

/-- A request to the device API, with what it carries. -/
inductive Request
  | pair (pairingCode deviceName : Text)
  | refresh (refreshToken : Text)
  | createJob (body : Json) (idempotencyKey accessToken : Text)
  | partUrl (jobId attachmentId : UUID) (partNumber : Nat) (accessToken : Text)
  | complete (jobId attachmentId : UUID) (parts : List CompletedPart) (accessToken : Text)
  | submit (jobId : UUID) (accessToken : Text)
  | status (jobId : UUID) (accessToken : Text)

/-- The `auth_failure` of a request. -/
def Request.authFailure : Request → Bool
  | .pair .. | .refresh .. => true
  | _ => false

/-- `pair` and `refresh` on a payload. -/
def parseToken (payload : Bytes) : Except Fault TokenResponse :=
  parsePayload credentialError (TokenResponse.validate P) payload

variable {P} in
/-- `create_job` on a payload. -/
def parseCreatedJob (m : ServerManifest P) (payload : Bytes) : Except Fault (JobResponse P) :=
  match Json.loads payload with
  | none => .error (.connector serverRejected)
  | some body => createJob m body

/-- `part_url` on a payload. -/
def parsePartUrl (payload : Bytes) : Except Fault Text :=
  parsePayload serverRejected (validatePartUrl C) payload

/-- `complete_attachment` on a payload. -/
def parseCompleted (expected : AttachmentResponse) (payload : Bytes) :
    Except Fault AttachmentResponse := do
  let parsed ← parsePayload serverRejected (AttachmentResponse.validate P) payload
  if parsed.id ≠ expected.id ∨ parsed.fileId ≠ expected.fileId ∨
      parsed.uploadId ≠ expected.uploadId ∨ parsed.kind ≠ expected.kind ∨
      parsed.fileState = .uploading then
    .error (.connector serverRejected)
  else .ok parsed

/-- `submit_job` on a payload. -/
def parseSubmitted (jobId : UUID) (payload : Bytes) : Except Fault SubmitResponse := do
  let parsed ← parsePayload serverRejected (SubmitResponse.validate P) payload
  if parsed.id ≠ jobId then .error (.connector serverRejected) else .ok parsed

/-- `status` on a payload. -/
def parseStatus (jobId : UUID) (payload : Bytes) : Except Fault (JobResponse P) := do
  let parsed ← parsePayload serverRejected (JobResponse.validate P) payload
  if parsed.id ≠ jobId then .error (.connector serverRejected) else .ok parsed

end SuperBoss.Connector
