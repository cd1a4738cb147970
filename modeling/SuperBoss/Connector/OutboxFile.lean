import SuperBoss.Core.JsonText
import SuperBoss.Connector.Client
import SuperBoss.Connector.Destinations

/-!
The file of an outbox entry: the validators of its models, what is written, and
what is read back.
-/

namespace SuperBoss.Connector

open SuperBoss.Core
open SuperBoss.Imports

def outboxInvalid : ConnectorError := ⟨2, "Local recovery state is invalid."⟩

def localStateMaxBytes : Nat := 256 * 1024

def pathMaxChars : Nat := 32767

/-- `datetime.isoformat` as pydantic writes it, for a datetime with an offset. -/
structure Timestamps (P : Platform) where
  dump : AwareDatetime → Text
  parse_dump : ∀ d, P.parseDatetime (.str (dump d)) = some ⟨d.wall, some d.offset⟩

/-! ### Fields -/

/-- A `str` of the state files: bounds, and no control character. -/
def StateText (minLength maxLength : Nat) (t : Text) : Prop :=
  ((∀ c ∈ t, Text.isSurrogate c = false) ∧ minLength ≤ t.length ∧ t.length ≤ maxLength) ∧
    Text.noControls false t = true

instance (minLength maxLength : Nat) (t : Text) : Decidable (StateText minLength maxLength t) :=
  inferInstanceAs (Decidable ((_ ∧ _ ∧ _) ∧ _))

def stateText (minLength maxLength : Nat) : Json → Except PyError Text
  | .str t => if StateText minLength maxLength t then .ok t else .error .validation
  | _ => .error .validation

/-- `safe_key`. -/
def SafeKey (t : Text) : Prop :=
  (1 ≤ t.length ∧ t.length ≤ 255) ∧ t.all isPrintable = true

instance (t : Text) : Decidable (SafeKey t) := inferInstanceAs (Decidable ((_ ∧ _) ∧ _))

def safeKeyField : Json → Except PyError Text
  | .str t => if SafeKey t then .ok t else .error .validation
  | _ => .error .validation

/-- `safe_etag`, behind the bounds of the field. -/
def etagField : Json → Except PyError Text
  | .str t =>
      if (∀ c ∈ t, Text.isSurrogate c = false) ∧ 1 ≤ t.length ∧ t.length ≤ etagMaxChars ∧
          stripEtag t ≠ [] ∧ Text.noControls false (stripEtag t) = true then .ok (stripEtag t)
      else .error .validation
  | _ => .error .validation

/-- `list[T]` without bounds. -/
def anyListOf {α : Type} (parse : Json → Except PyError α) : Json → Except PyError (List α)
  | .arr items => collectList parse items
  | _ => .error .validation

def boolField : Json → Except PyError Bool
  | .bool b => .ok b
  | _ => .error .validation

/-- `Literal[8_388_608]`. -/
def partSizeField (j : Json) : Except PyError Unit := check (decide (j = .int partSize))

def phases : List Phase := [.create, .upload, .submit, .evidence]

def Phase.value : Phase → String
  | .create => "CREATE"
  | .upload => "UPLOAD"
  | .submit => "SUBMIT"
  | .evidence => "EVIDENCE"

def evidenceStatuses : List ImportStatus := [.scanning, .received, .rejected, .conflict]

variable (P : Platform)

/-- A `datetime` with the check that it has an offset; Python's are in its range. -/
def awareDatetimeField (j : Json) : Except PyError AwareDatetime :=
  match P.parseDatetime j with
  | some ⟨wall, some offset⟩ =>
      if h : (Instant.min ≤ wall ∧ wall ≤ Instant.max) ∧
          (Instant.hours (-24) < offset ∧ offset < Instant.hours 24) then .ok ⟨wall, offset, h⟩
      else .error .validation
  | _ => .error .validation

/-! ### Validators -/

namespace CompletedPart

def fieldNames : List String := ["part_number", "etag"]

def validate : Json → Except PyError CompletedPart
  | .obj fields =>
      (collect (requiredField fields "part_number" (natField P 1 10000))
      (collect (requiredField fields "etag" etagField)
      (check (Json.onlyKeys fieldNames fields)))).map fun (n, etag, _) => ⟨n.val, etag⟩
  | _ => .error .validation

end CompletedPart

namespace AttachmentState

def fieldNames : List String :=
  ["kind", "path", "filename", "size_bytes", "sha256", "part_sha256s", "content_type",
    "part_size", "attachment_id", "file_id", "upload_id", "completed_parts", "completed"]

def validateFields : Json → Except PyError AttachmentState
  | .obj fields =>
      (collect (requiredField fields "kind" kindField)
      (collect (requiredField fields "path" (stateText 1 pathMaxChars))
      (collect (requiredField fields "filename" (stateText 1 1024))
      (collect (requiredField fields "size_bytes" (natField P 1 attachmentMaxBytes))
      (collect (requiredField fields "sha256" (patternStr Text.isDigest))
      (collect (requiredField fields "part_sha256s" (listOf 1 13 (patternStr Text.isDigest)))
      (collect (requiredField fields "content_type" (stateText 1 255))
      (collect (defaultField fields "part_size" () partSizeField)
      (collect (defaultField fields "attachment_id" none (nullable (uuidField P)))
      (collect (defaultField fields "file_id" none (nullable (uuidField P)))
      (collect (defaultField fields "upload_id" none (nullable (uuidField P)))
      (collect (defaultField fields "completed_parts" []
        (anyListOf (CompletedPart.validate P)))
      (collect (defaultField fields "completed" false boolField)
      (check (Json.onlyKeys fieldNames fields))))))))))))))).map
        fun (kind, path, filename, size, sha256, parts, type, _, attachment, file, upload, done,
            completed, _) =>
          ⟨kind, path, filename, size.val, sha256, parts, type, attachment, file, upload, done,
            completed⟩
  | _ => .error .validation

/-- `(size_bytes + part_size - 1) // part_size`. -/
def totalParts (a : AttachmentState) : Nat := (a.sizeBytes + partSize - 1) / partSize

def partNumbers (a : AttachmentState) : List Nat := a.completedParts.map (·.partNumber)

/-- `consistent_progress`. -/
def ConsistentProgress (a : AttachmentState) : Prop :=
  ((a.attachmentId = none ↔ a.fileId = none) ∧ (a.attachmentId = none ↔ a.uploadId = none)) ∧
    a.partNumbers.Nodup ∧ a.partNumbers.Pairwise (· ≤ ·) ∧
    (∀ n ∈ a.partNumbers, n ≤ a.totalParts) ∧ a.partSha256s.length = a.totalParts ∧
    (a.completed = true → a.partNumbers.length = a.totalParts)

instance (a : AttachmentState) : Decidable a.ConsistentProgress :=
  inferInstanceAs (Decidable ((_ ∧ _) ∧ _ ∧ _ ∧ _ ∧ _ ∧ (_ → _)))

end AttachmentState

namespace AttachmentState

def validate (j : Json) : Except PyError AttachmentState := do
  let a ← validateFields P j
  if a.ConsistentProgress then .ok a else .error .validation

end AttachmentState

namespace EvidenceState

def fieldNames : List String := ["job_id", "status", "result_code", "submitted_at", "updated_at"]

def validateFields : Json → Except PyError EvidenceState
  | .obj fields =>
      (collect (requiredField fields "job_id" (uuidField P))
      (collect (requiredField fields "status" (literalField evidenceStatuses ImportStatus.value))
      (collect (requiredField fields "result_code" (nullable (patternStr isResultCode)))
      (collect (requiredField fields "submitted_at" (awareDatetimeField P))
      (collect (requiredField fields "updated_at" (awareDatetimeField P))
      (check (Json.onlyKeys fieldNames fields))))))).map
        fun (job, status, code, submitted, updated, _) => ⟨job, status, code, submitted, updated⟩
  | _ => .error .validation

/-- `consistent_result`. -/
def ConsistentResult (e : EvidenceState) : Prop :=
  ((e.status = .rejected ∨ e.status = .conflict) ↔ e.resultCode ≠ none) ∧
    e.submittedAt.instant ≤ e.updatedAt.instant

instance (e : EvidenceState) : Decidable e.ConsistentResult :=
  inferInstanceAs (Decidable ((_ ∨ _ ↔ _) ∧ _))

def validate (j : Json) : Except PyError EvidenceState := do
  let e ← validateFields P j
  if e.ConsistentResult then .ok e else .error .validation

end EvidenceState

namespace OutboxEntry

def fieldNames : List String :=
  ["normalized_origin", "idempotency_key", "manifest_path", "manifest_fingerprint", "job_id",
    "phase", "attachments", "evidence", "updated_at"]

def validateFields : Json → Except PyError OutboxEntry
  | .obj fields =>
      (collect (requiredField fields "normalized_origin" (stateText 1 4096))
      (collect (requiredField fields "idempotency_key" safeKeyField)
      (collect (requiredField fields "manifest_path" (stateText 1 pathMaxChars))
      (collect (requiredField fields "manifest_fingerprint" (patternStr Text.isDigest))
      (collect (defaultField fields "job_id" none (nullable (uuidField P)))
      (collect (defaultField fields "phase" .create (literalField phases Phase.value))
      (collect (requiredField fields "attachments" (listOf 1 3 (AttachmentState.validate P)))
      (collect (defaultField fields "evidence" none (nullable (EvidenceState.validate P)))
      (collect (requiredField fields "updated_at" (awareField P))
      (check (Json.onlyKeys fieldNames fields))))))))))).map
        fun (origin, key, path, fingerprint, job, phase, attachments, evidence, updated, _) =>
          ⟨origin, key, path, fingerprint, job, phase, attachments, evidence, updated⟩
  | _ => .error .validation

/-- `consistent_phase`. -/
def ConsistentPhase (e : OutboxEntry) : Prop :=
  (e.attachments.map (·.kind)).Nodup ∧
    (e.phase = .create → e.jobId = none ∧ ∀ a ∈ e.attachments,
      a.attachmentId = none ∧ a.completedParts = [] ∧ a.completed = false) ∧
    (e.phase ≠ .create → e.jobId ≠ none ∧ ∀ a ∈ e.attachments, a.attachmentId ≠ none) ∧
    (e.phase = .submit ∨ e.phase = .evidence → ∀ a ∈ e.attachments, a.completed = true) ∧
    (e.phase = .evidence → ∃ v ∈ e.evidence, e.jobId = some v.jobId) ∧
    (e.phase ≠ .evidence → e.evidence = none)

instance (e : OutboxEntry) : Decidable e.ConsistentPhase :=
  inferInstanceAs (Decidable (_ ∧ (_ → _ ∧ ∀ a ∈ e.attachments, _) ∧
    (_ → _ ∧ ∀ a ∈ e.attachments, _) ∧ (_ → ∀ a ∈ e.attachments, _) ∧
      (_ → ∃ v ∈ e.evidence, _) ∧ (_ → _)))

/-- `OutboxEntry.model_validate`. -/
def validate (j : Json) : Except PyError OutboxEntry := do
  let e ← validateFields P j
  if e.ConsistentPhase then .ok e else .error .validation

end OutboxEntry

/-! ### Dumps -/

def CompletedPart.fields (p : CompletedPart) : List (Text × Json) :=
  [Json.field "part_number" (.int p.partNumber), Json.field "etag" (.str p.etag)]

def CompletedPart.dump (p : CompletedPart) : Json := .obj p.fields

def uuidJson (u : UUID) : Json := .str u.text

def AttachmentState.fields (a : AttachmentState) : List (Text × Json) :=
  [Json.field "kind" (.str (Text.ofString a.kind.value)),
    Json.field "path" (.str a.path),
    Json.field "filename" (.str a.filename),
    Json.field "size_bytes" (.int a.sizeBytes),
    Json.field "sha256" (.str a.sha256),
    Json.field "part_sha256s" (.arr (a.partSha256s.map .str)),
    Json.field "content_type" (.str a.contentType),
    Json.field "part_size" (.int partSize),
    Json.field "attachment_id" (Json.ofOption uuidJson a.attachmentId),
    Json.field "file_id" (Json.ofOption uuidJson a.fileId),
    Json.field "upload_id" (Json.ofOption uuidJson a.uploadId),
    Json.field "completed_parts" (.arr (a.completedParts.map CompletedPart.dump)),
    Json.field "completed" (.bool a.completed)]

def AttachmentState.dump (a : AttachmentState) : Json := .obj a.fields

variable {P} (T : Timestamps P)

def EvidenceState.fields (e : EvidenceState) : List (Text × Json) :=
  [Json.field "job_id" (uuidJson e.jobId),
    Json.field "status" (.str (Text.ofString e.status.value)),
    Json.field "result_code" (Json.ofOption .str e.resultCode),
    Json.field "submitted_at" (.str (T.dump e.submittedAt)),
    Json.field "updated_at" (.str (T.dump e.updatedAt))]

def EvidenceState.dump (e : EvidenceState) : Json := .obj (e.fields T)

def OutboxEntry.fields (e : OutboxEntry) : List (Text × Json) :=
  [Json.field "normalized_origin" (.str e.normalizedOrigin),
    Json.field "idempotency_key" (.str e.idempotencyKey),
    Json.field "manifest_path" (.str e.manifestPath),
    Json.field "manifest_fingerprint" (.str e.manifestFingerprint),
    Json.field "job_id" (Json.ofOption uuidJson e.jobId),
    Json.field "phase" (.str (Text.ofString e.phase.value)),
    Json.field "attachments" (.arr (e.attachments.map AttachmentState.dump)),
    Json.field "evidence" (Json.ofOption (EvidenceState.dump T) e.evidence),
    Json.field "updated_at" (.str (P.dumpDatetime e.updatedAt))]

/-- `model_dump(mode="json")`. -/
def OutboxEntry.dump (e : OutboxEntry) : Json := .obj (e.fields T)

/-! ### Validated values -/

/-- A part as its validators leave it. -/
structure CompletedPart.Ok (p : CompletedPart) : Prop where
  number : 1 ≤ p.partNumber ∧ p.partNumber ≤ 10000
  encodable : ∀ c ∈ p.etag, Text.isSurrogate c = false
  length : 1 ≤ p.etag.length ∧ p.etag.length ≤ etagMaxChars
  stripped : stripEtag p.etag = p.etag
  controls : Text.noControls false p.etag = true

structure AttachmentState.Ok (a : AttachmentState) : Prop where
  path : StateText 1 pathMaxChars a.path
  filename : StateText 1 1024 a.filename
  size : 1 ≤ a.sizeBytes ∧ a.sizeBytes ≤ attachmentMaxBytes
  sha256 : Text.isDigest a.sha256 = true
  parts : (1 ≤ a.partSha256s.length ∧ a.partSha256s.length ≤ 13) ∧
    ∀ d ∈ a.partSha256s, Text.isDigest d = true
  contentType : StateText 1 255 a.contentType
  completed : ∀ p ∈ a.completedParts, p.Ok
  consistent : a.ConsistentProgress

structure EvidenceState.Ok (e : EvidenceState) : Prop where
  status : e.status ∈ evidenceStatuses
  resultCode : ∀ code ∈ e.resultCode, isResultCode code = true
  consistent : e.ConsistentResult

structure OutboxEntry.Ok (e : OutboxEntry) : Prop where
  origin : StateText 1 4096 e.normalizedOrigin
  key : SafeKey e.idempotencyKey
  path : StateText 1 pathMaxChars e.manifestPath
  fingerprint : Text.isDigest e.manifestFingerprint = true
  attachments : (1 ≤ e.attachments.length ∧ e.attachments.length ≤ 3) ∧
    ∀ a ∈ e.attachments, a.Ok
  evidence : ∀ v ∈ e.evidence, v.Ok
  dated : Instant.min ≤ e.updatedAt ∧ e.updatedAt ≤ Instant.max
  consistent : e.ConsistentPhase

section fields

variable {κ : Json → Json} (hκ : Json.Reorders κ)

include hκ

theorem stateText_dump {minLength maxLength : Nat} {t : Text} (h : StateText minLength maxLength t) :
    stateText minLength maxLength (κ (.str t)) = .ok t := by
  rw [hκ.str, stateText, if_pos h]

theorem patternStr_dump {pattern : Text → Bool} {t : Text} (h : pattern t = true) :
    patternStr pattern (κ (.str t)) = .ok t := by
  rw [hκ.str, patternStr, h]
  rfl

theorem natField_dump {min max n : Nat} (h : min ≤ n ∧ n ≤ max) :
    natField P min max (κ (.int n)) = .ok ⟨n, h⟩ := by
  rw [hκ.int]
  exact natField_int P ⟨n, h⟩

theorem anyListOf_dump {α : Type} (parse : Json → Except PyError α) (dump : α → Json)
    {l : List α} (h : ∀ a ∈ l, parse (κ (dump a)) = .ok a) :
    anyListOf parse (κ (.arr (l.map dump))) = .ok l := by
  rw [hκ.arr, anyListOf, List.map_map]
  induction l with
  | nil => rfl
  | cons a l ih =>
      have ha := h a List.mem_cons_self
      have hrest := ih fun b hb => h b (List.mem_cons_of_mem a hb)
      simp only [List.map_cons, Function.comp_apply, collectList, ha, hrest, collect]

theorem listOf_dump {α : Type} (parse : Json → Except PyError α) (dump : α → Json) {l : List α}
    {minLength maxLength : Nat} (hlength : minLength ≤ l.length ∧ l.length ≤ maxLength)
    (h : ∀ a ∈ l, parse (κ (dump a)) = .ok a) :
    listOf minLength maxLength parse (κ (.arr (l.map dump))) = .ok l := by
  have hlist := anyListOf_dump hκ parse dump h
  rw [hκ.arr] at hlist ⊢
  rw [listOf, if_pos (by simpa using hlength)]
  exact hlist

theorem nullable_dump {α : Type} {parse : Json → Except PyError α} {dump : α → Json}
    {o : Option α} (hnull : ∀ a ∈ o, κ (dump a) ≠ .null)
    (h : ∀ a ∈ o, parse (κ (dump a)) = .ok a) :
    nullable parse (κ (Json.ofOption dump o)) = .ok o := by
  cases o with
  | none => rw [Json.ofOption, hκ.null, nullable]
  | some a =>
      rw [Json.ofOption]
      unfold nullable
      split
      · rename_i heq
        exact absurd heq (hnull a rfl)
      · rw [h a rfl]
        rfl

theorem uuid_dump (o : Option UUID) :
    nullable (uuidField P) (κ (Json.ofOption uuidJson o)) = .ok o := by
  refine nullable_dump hκ (fun u _ => ?_) fun u _ => ?_
  · rw [uuidJson, hκ.str]
    nofun
  · rw [uuidJson, hκ.str]
    exact uuidField_text P u

theorem literalField_dump {α : Type} {values : List α} {value : α → String} {a : α}
    (h : literalField values value (.str (Text.ofString (value a))) = .ok a) :
    literalField values value (κ (.str (Text.ofString (value a)))) = .ok a := by
  rw [hκ.str, h]

theorem awareDatetimeField_dump (d : AwareDatetime) :
    awareDatetimeField P (κ (.str (T.dump d))) = .ok d := by
  rw [hκ.str, awareDatetimeField, T.parse_dump]
  dsimp only
  rw [dif_pos d.valid]

theorem CompletedPart.validate_dump {p : CompletedPart} (h : p.Ok) :
    CompletedPart.validate P (κ p.dump) = .ok p := by
  obtain ⟨fields, hobj, hfield, honly⟩ := hκ.obj p.fields
    (Json.nodup_keys (by decide : CompletedPart.fieldNames.Nodup) rfl)
  have hetag : etagField (κ (.str p.etag)) = .ok p.etag := by
    have hne : p.etag ≠ [] := List.length_pos_iff_ne_nil.mp h.length.1
    rw [hκ.str, etagField, h.stripped,
      if_pos ⟨h.encodable, h.length.1, h.length.2, hne, h.controls⟩]
  rw [CompletedPart.dump, hobj]
  simp [CompletedPart.validate, requiredField, hfield, honly, natField_dump hκ h.number, hetag,
    CompletedPart.fieldNames, CompletedPart.fields, check, collect, Except.map]

theorem AttachmentState.validate_dump {a : AttachmentState} (h : a.Ok) :
    AttachmentState.validate P (κ a.dump) = .ok a := by
  obtain ⟨fields, hobj, hfield, honly⟩ := hκ.obj a.fields
    (Json.nodup_keys (by decide : AttachmentState.fieldNames.Nodup) rfl)
  have hkind : kindField (κ (.str (Text.ofString a.kind.value))) = .ok a.kind := by
    rw [hκ.str]
    cases a.kind <;> rfl
  have hparts := listOf_dump hκ (patternStr Text.isDigest) Json.str h.parts.1
    fun d hd => patternStr_dump hκ (h.parts.2 d hd)
  have hsize : partSizeField (κ (.int partSize)) = .ok () := by
    rw [hκ.int]
    rfl
  have hdone := anyListOf_dump hκ (CompletedPart.validate P) CompletedPart.dump
    fun p hp => CompletedPart.validate_dump hκ (h.completed p hp)
  have hcompleted : boolField (κ (.bool a.completed)) = .ok a.completed := by
    rw [hκ.bool]
    rfl
  have hfields : AttachmentState.validateFields P (.obj fields) = .ok a := by
    simp [AttachmentState.validateFields, requiredField, defaultField, hfield, honly, hkind,
      stateText_dump hκ h.path, stateText_dump hκ h.filename, natField_dump hκ h.size,
      patternStr_dump hκ h.sha256, hparts, stateText_dump hκ h.contentType, hsize, uuid_dump hκ,
      hdone, hcompleted, AttachmentState.fieldNames, AttachmentState.fields, check, collect,
      Except.map]
  rw [AttachmentState.dump, hobj, AttachmentState.validate, hfields]
  exact if_pos h.consistent

theorem EvidenceState.validate_dump {e : EvidenceState} (h : e.Ok) :
    EvidenceState.validate P (κ (e.dump T)) = .ok e := by
  obtain ⟨fields, hobj, hfield, honly⟩ := hκ.obj (e.fields T)
    (Json.nodup_keys (by decide : EvidenceState.fieldNames.Nodup) rfl)
  have hjob : uuidField P (κ (uuidJson e.jobId)) = .ok e.jobId := by
    rw [uuidJson, hκ.str]
    exact uuidField_text P e.jobId
  have hstatus : literalField evidenceStatuses ImportStatus.value
      (κ (.str (Text.ofString e.status.value))) = .ok e.status := by
    have hmem := h.status
    refine literalField_dump hκ ?_
    revert hmem
    cases e.status <;> decide
  have hcode : nullable (patternStr isResultCode) (κ (Json.ofOption .str e.resultCode)) =
      .ok e.resultCode := by
    refine nullable_dump hκ (fun c _ => ?_) fun c hc => patternStr_dump hκ (h.resultCode c hc)
    rw [hκ.str]
    nofun
  have hfields : EvidenceState.validateFields P (.obj fields) = .ok e := by
    simp [EvidenceState.validateFields, requiredField, hfield, honly, hjob, hstatus, hcode,
      awareDatetimeField_dump T hκ, EvidenceState.fieldNames, EvidenceState.fields, check, collect,
      Except.map]
  rw [EvidenceState.dump, hobj, EvidenceState.validate, hfields]
  exact if_pos h.consistent

theorem OutboxEntry.validate_dump {e : OutboxEntry} (h : e.Ok) :
    OutboxEntry.validate P (κ (e.dump T)) = .ok e := by
  obtain ⟨fields, hobj, hfield, honly⟩ := hκ.obj (e.fields T)
    (Json.nodup_keys (by decide : OutboxEntry.fieldNames.Nodup) rfl)
  have hkey : safeKeyField (κ (.str e.idempotencyKey)) = .ok e.idempotencyKey := by
    rw [hκ.str, safeKeyField, if_pos h.key]
  have hphase : literalField phases Phase.value (κ (.str (Text.ofString e.phase.value))) =
      .ok e.phase := by
    refine literalField_dump hκ ?_
    cases e.phase <;> decide
  have hattachments := listOf_dump hκ (AttachmentState.validate P) AttachmentState.dump h.attachments.1
    fun a ha => AttachmentState.validate_dump hκ (h.attachments.2 a ha)
  have hevidence : nullable (EvidenceState.validate P)
      (κ (Json.ofOption (EvidenceState.dump T) e.evidence)) = .ok e.evidence := by
    refine nullable_dump hκ (fun v hv => ?_)
      fun v hv => EvidenceState.validate_dump T hκ (h.evidence v hv)
    obtain ⟨fields, hobj, -⟩ := hκ.obj (v.fields T)
      (Json.nodup_keys (by decide : EvidenceState.fieldNames.Nodup) rfl)
    rw [EvidenceState.dump, hobj]
    nofun
  have hupdated : awareField P (κ (.str (P.dumpDatetime e.updatedAt))) = .ok e.updatedAt := by
    rw [hκ.str, awareField, P.parseDatetime_dump _ h.dated.1 h.dated.2]
    exact congrArg Except.ok (Int.sub_zero _)
  have hfields : OutboxEntry.validateFields P (.obj fields) = .ok e := by
    simp [OutboxEntry.validateFields, requiredField, defaultField, hfield, honly,
      stateText_dump hκ h.origin, hkey, stateText_dump hκ h.path, patternStr_dump hκ h.fingerprint,
      uuid_dump hκ, hphase, hattachments, hevidence, hupdated, OutboxEntry.fieldNames,
      OutboxEntry.fields, check, collect, Except.map]
  rw [OutboxEntry.dump, hobj, OutboxEntry.validate, hfields]
  exact if_pos h.consistent

end fields

/-! ### Dumps that are accepted -/

def CompletedPart.strip (p : CompletedPart) : CompletedPart :=
  { p with etag := stripEtag p.etag }

def AttachmentState.strip (a : AttachmentState) : AttachmentState :=
  { a with completedParts := a.completedParts.map CompletedPart.strip }

/-- The entry whose parts have the ETags that the validator returns. -/
def OutboxEntry.strip (e : OutboxEntry) : OutboxEntry :=
  { e with attachments := e.attachments.map AttachmentState.strip }

theorem stateText_str {minLength maxLength : Nat} {t u : Text}
    (h : stateText minLength maxLength (.str t) = .ok u) :
    u = t ∧ StateText minLength maxLength u := by
  rw [stateText] at h
  split at h
  · rename_i htext
    cases h
    exact ⟨rfl, htext⟩
  · cases h

theorem patternStr_str {pattern : Text → Bool} {t u : Text}
    (h : patternStr pattern (.str t) = .ok u) : u = t ∧ pattern u = true := by
  rw [patternStr] at h
  split at h
  · rename_i hpattern
    cases h
    exact ⟨rfl, hpattern⟩
  · cases h

theorem natField_nat {min max n : Nat} {m : { m : Nat // min ≤ m ∧ m ≤ max }}
    (h : natField P min max (.int n) = .ok m) : m.val = n := by
  simp only [natField, P.parseInt_int, Int.toNat_natCast] at h
  split at h
  · rw [← Except.ok.inj h]
  · cases h

theorem collectList_of_map {α β : Type} {parse : Json → Except PyError β} {dump : α → Json}
    {f : α → β} {Q : β → Prop} (h : ∀ a b, parse (dump a) = .ok b → b = f a ∧ Q b) {l : List α}
    {bs : List β} (hbs : collectList parse (l.map dump) = .ok bs) :
    bs = l.map f ∧ ∀ b ∈ bs, Q b := by
  induction l generalizing bs with
  | nil =>
      cases hbs
      exact ⟨rfl, fun b hb => absurd hb List.not_mem_nil⟩
  | cons a l ih =>
      rw [List.map_cons, collectList] at hbs
      split at hbs
      · rename_i b bs' hcollect
        cases hbs
        obtain ⟨ha, hrest⟩ := collect_eq_ok.mp hcollect
        obtain ⟨rfl, hb⟩ := h a b ha
        obtain ⟨rfl, hall⟩ := ih hrest
        exact ⟨rfl, List.forall_mem_cons.mpr ⟨hb, hall⟩⟩
      · cases hbs

theorem listOf_of_map {α β : Type} {parse : Json → Except PyError β} {dump : α → Json}
    {f : α → β} {Q : β → Prop} (h : ∀ a b, parse (dump a) = .ok b → b = f a ∧ Q b)
    {minLength maxLength : Nat} {l : List α} {bs : List β}
    (hbs : listOf minLength maxLength parse (.arr (l.map dump)) = .ok bs) :
    bs = l.map f ∧ (minLength ≤ l.length ∧ l.length ≤ maxLength) ∧ ∀ b ∈ bs, Q b := by
  rw [listOf] at hbs
  split at hbs
  · rename_i hlength
    obtain ⟨hmap, hall⟩ := collectList_of_map h hbs
    exact ⟨hmap, by simpa using hlength, hall⟩
  · cases hbs

theorem nullable_of_option {α β : Type} {parse : Json → Except PyError β} (dump : α → Json)
    {f : α → β} {Q : β → Prop} (hnull : ∀ a, dump a ≠ .null)
    (h : ∀ a b, parse (dump a) = .ok b → b = f a ∧ Q b) {o : Option α} {o' : Option β}
    (ho : nullable parse (Json.ofOption dump o) = .ok o') : o' = o.map f ∧ ∀ b ∈ o', Q b := by
  cases o with
  | none =>
      cases ho
      exact ⟨rfl, nofun⟩
  | some a =>
      rw [Json.ofOption] at ho
      unfold nullable at ho
      split at ho
      · exact absurd ‹_› (hnull a)
      · obtain ⟨b, hb, rfl⟩ := map_eq_ok.mp ho
        obtain ⟨rfl, hq⟩ := h a b hb
        exact ⟨rfl, fun c hc => Option.some.inj hc ▸ hq⟩

theorem CompletedPart.ok_of_validate {p q : CompletedPart}
    (h : CompletedPart.validate P p.dump = .ok q) : q = p.strip ∧ q.Ok := by
  simp only [CompletedPart.dump, CompletedPart.fields, CompletedPart.validate, requiredField,
    field?_cons, if_true, String.reduceEq, if_false] at h
  obtain ⟨⟨n, etag, _⟩, hparts, rfl⟩ := map_eq_ok.mp h
  obtain ⟨hn, hparts⟩ := collect_eq_ok.mp hparts
  obtain ⟨hetag, -⟩ := collect_eq_ok.mp hparts
  rw [etagField] at hetag
  split at hetag
  · rename_i hchecks
    obtain ⟨hencodable, -, hmax, hne, hcontrols⟩ := hchecks
    cases hetag
    refine ⟨by rw [CompletedPart.strip, natField_nat hn], ⟨n.property, ?_, ?_, ?_, hcontrols⟩⟩
    · exact fun c hc => hencodable c ((Text.trim_isInfix _ _).subset hc)
    · exact ⟨List.length_pos_iff_ne_nil.mpr hne, (Text.trim_isInfix _ _).length_le.trans hmax⟩
    · exact Text.trim_trim _ p.etag
  · cases hetag

theorem uuidField_of_text {u v : UUID} (h : uuidField P (uuidJson u) = .ok v) : v = u :=
  (Except.ok.inj ((uuidField_text P u).symm.trans h)).symm

theorem uuid_of_option {o o' : Option UUID}
    (h : nullable (uuidField P) (Json.ofOption uuidJson o) = .ok o') : o' = o := by
  obtain ⟨rfl, -⟩ := nullable_of_option uuidJson (f := id) (Q := fun _ => True) (fun _ => Json.noConfusion)
    (fun u v hv => ⟨uuidField_of_text hv, trivial⟩) h
  exact Option.map_id_apply

theorem AttachmentState.ok_of_validate {a b : AttachmentState}
    (h : AttachmentState.validate P a.dump = .ok b) : b = a.strip ∧ b.Ok := by
  obtain ⟨b', hfields, h⟩ := bind_eq_ok.mp h
  split at h
  · rename_i hconsistent
    cases h
    simp only [AttachmentState.dump, AttachmentState.fields, AttachmentState.validateFields,
      requiredField, defaultField, field?_cons, if_true, String.reduceEq, if_false] at hfields
    obtain ⟨⟨kind, path, filename, size, sha256, parts, type, _, attachment, file, upload, done,
      completed, _⟩, hparts, rfl⟩ := map_eq_ok.mp hfields
    simp only [collect_eq_ok] at hparts
    obtain ⟨hkind, hpath, hfilename, hsize, hsha256, hdigests, htype, -, hattachment, hfile,
      hupload, hdone, hcompleted, -⟩ := hparts
    have hkind' : kind = a.kind := by
      revert hkind
      cases a.kind <;> exact fun hkind => (Except.ok.inj hkind).symm
    obtain ⟨rfl, hpath⟩ := stateText_str hpath
    obtain ⟨rfl, hfilename⟩ := stateText_str hfilename
    obtain ⟨rfl, hsha256⟩ := patternStr_str hsha256
    obtain ⟨rfl, htype⟩ := stateText_str htype
    obtain ⟨rfl, hlength, hdigests⟩ := listOf_of_map (f := id)
      (fun _ _ hd => patternStr_str hd) hdigests
    obtain ⟨rfl, hok⟩ := collectList_of_map (fun _ _ hp => CompletedPart.ok_of_validate hp) hdone
    cases hcompleted
    subst hkind'
    have hsize' := natField_nat hsize
    refine ⟨?_, ?_⟩
    · rw [AttachmentState.strip, hsize', uuid_of_option hattachment, uuid_of_option hfile,
        uuid_of_option hupload, List.map_id]
    · exact ⟨hpath, hfilename, size.property, hsha256, ⟨by simpa using hlength, by simpa using hdigests⟩,
        htype, hok, hconsistent⟩
  · cases h

variable {T} in
theorem EvidenceState.ok_of_validate {e e' : EvidenceState}
    (h : EvidenceState.validate P (e.dump T) = .ok e') : e' = e ∧ e'.Ok := by
  obtain ⟨e'', hfields, h⟩ := bind_eq_ok.mp h
  split at h
  · rename_i hconsistent
    cases h
    simp only [EvidenceState.dump, EvidenceState.fields, EvidenceState.validateFields,
      requiredField, field?_cons, if_true, String.reduceEq, if_false] at hfields
    obtain ⟨⟨job, status, code, submitted, updated, _⟩, hparts, rfl⟩ := map_eq_ok.mp hfields
    simp only [collect_eq_ok] at hparts
    obtain ⟨hjob, hstatus, hcode, hsubmitted, hupdated, -⟩ := hparts
    have hstatus' : status = e.status ∧ status ∈ evidenceStatuses := by
      revert hstatus
      cases e.status <;> cases status <;> decide
    have hsubmitted' := awareDatetimeField_dump T Json.reorders_id e.submittedAt
    have hupdated' := awareDatetimeField_dump T Json.reorders_id e.updatedAt
    obtain ⟨rfl, hcode⟩ := nullable_of_option Json.str (f := id) (fun _ => Json.noConfusion)
      (fun _ _ hc => patternStr_str hc) hcode
    refine ⟨?_, hstatus'.2, by simpa using hcode, hconsistent⟩
    rw [uuidField_of_text hjob, hstatus'.1, ← Except.ok.inj (hsubmitted'.symm.trans hsubmitted),
      ← Except.ok.inj (hupdated'.symm.trans hupdated), Option.map_id_apply]
  · cases h

variable {T} in
theorem OutboxEntry.ok_of_validate {e e' : OutboxEntry}
    (hdated : Instant.min ≤ e.updatedAt ∧ e.updatedAt ≤ Instant.max)
    (h : OutboxEntry.validate P (e.dump T) = .ok e') : e' = e.strip ∧ e'.Ok := by
  obtain ⟨e'', hfields, h⟩ := bind_eq_ok.mp h
  split at h
  · rename_i hconsistent
    cases h
    simp only [OutboxEntry.dump, OutboxEntry.fields, OutboxEntry.validateFields, requiredField,
      defaultField, field?_cons, if_true, String.reduceEq, if_false] at hfields
    obtain ⟨⟨origin, key, path, fingerprint, job, phase, attachments, evidence, updated, _⟩, hparts,
      rfl⟩ := map_eq_ok.mp hfields
    simp only [collect_eq_ok] at hparts
    obtain ⟨horigin, hkey, hpath, hfingerprint, hjob, hphase, hattachments, hevidence, hupdated,
      -⟩ := hparts
    have hkey' : key = e.idempotencyKey ∧ SafeKey e.idempotencyKey := by
      rw [safeKeyField] at hkey
      split at hkey
      · rename_i hsafe
        exact ⟨(Except.ok.inj hkey).symm, hsafe⟩
      · cases hkey
    have hphase' : phase = e.phase := by
      revert hphase
      cases e.phase <;> cases phase <;> decide
    have hupdated' : updated = e.updatedAt := by
      rw [awareField, P.parseDatetime_dump _ hdated.1 hdated.2] at hupdated
      exact (Except.ok.inj hupdated).symm.trans (Int.sub_zero _)
    obtain ⟨rfl, horigin⟩ := stateText_str horigin
    obtain ⟨rfl, hpath⟩ := stateText_str hpath
    obtain ⟨rfl, hfingerprint⟩ := patternStr_str hfingerprint
    obtain ⟨rfl, hlength, hok⟩ := listOf_of_map (fun _ _ ha => AttachmentState.ok_of_validate ha)
      hattachments
    obtain ⟨rfl, hevidence⟩ := nullable_of_option (EvidenceState.dump T) (f := id) (fun _ => Json.noConfusion)
      (fun _ _ hv => EvidenceState.ok_of_validate hv) hevidence
    obtain ⟨rfl, hsafe⟩ := hkey'
    subst hphase' hupdated'
    refine ⟨?_, ?_⟩
    · rw [OutboxEntry.strip, uuid_of_option hjob, Option.map_id_apply]
    · exact ⟨horigin, hsafe, hpath, hfingerprint, ⟨by simpa using hlength, hok⟩,
        by simpa using hevidence, hdated, hconsistent⟩
  · cases h

/-! ### Writing and reading -/

theorem CompletedPart.plain (p : CompletedPart) : p.dump.Plain :=
  ⟨Json.nodup_keys (by decide : CompletedPart.fieldNames.Nodup) rfl, trivial, trivial, trivial⟩

theorem plain_uuid (o : Option UUID) : (Json.ofOption uuidJson o).Plain :=
  Json.plain_ofOption fun _ _ => trivial

theorem AttachmentState.plain (a : AttachmentState) : a.dump.Plain :=
  ⟨Json.nodup_keys (by decide : AttachmentState.fieldNames.Nodup) rfl, trivial, trivial, trivial,
    trivial, trivial, Json.plain_map fun _ _ => trivial, trivial, trivial,
    plain_uuid a.attachmentId, plain_uuid a.fileId, plain_uuid a.uploadId,
    Json.plain_map fun p _ => p.plain, trivial, trivial⟩

theorem EvidenceState.plain (e : EvidenceState) : (e.dump T).Plain :=
  ⟨Json.nodup_keys (by decide : EvidenceState.fieldNames.Nodup) rfl, trivial, trivial,
    Json.plain_ofOption fun _ _ => trivial, trivial, trivial, trivial⟩

theorem OutboxEntry.plain (e : OutboxEntry) : (e.dump T).Plain :=
  ⟨Json.nodup_keys (by decide : OutboxEntry.fieldNames.Nodup) rfl, trivial, trivial, trivial,
    trivial, plain_uuid e.jobId, trivial, Json.plain_map fun a _ => a.plain,
    Json.plain_ofOption fun v _ => v.plain T, trivial, trivial⟩

/-- The bytes that `save` writes for an entry that it has stamped; none is a
`ConnectorError`. -/
def serialize (e : OutboxEntry) : Option Bytes :=
  match OutboxEntry.validate P (e.dump T) with
  | .ok validated => (validated.dump T).jsonBytes Json.compact
  | .error _ => none

variable (P) in
/-- `_read_json` and `OutboxEntry.model_validate` of a regular file. -/
def readEntry (serialized : Bytes) : Option OutboxEntry :=
  if serialized = [] ∨ localStateMaxBytes < serialized.length then none
  else (Json.loads serialized).bind fun raw => (OutboxEntry.validate P raw).toOption

variable {T}

/-- What is written for an entry is read back, unless it is longer than the
reader's limit. -/
theorem readEntry_serialize {e : OutboxEntry}
    (hdated : Instant.min ≤ e.updatedAt ∧ e.updatedAt ≤ Instant.max) {b : Bytes}
    (h : serialize T e = some b) :
    e.strip.Ok ∧
      readEntry P b = if b.length ≤ localStateMaxBytes then some e.strip else none := by
  unfold serialize at h
  split at h
  · rename_i validated hvalidated
    obtain ⟨rfl, hok⟩ := OutboxEntry.ok_of_validate hdated hvalidated
    have hloads := Json.loads_jsonBytes (e.strip.plain T) h
    have hne : b ≠ [] := by
      rintro rfl
      rw [Json.loads_nil] at hloads
      cases hloads
    refine ⟨hok, ?_⟩
    unfold readEntry
    by_cases hlength : b.length ≤ localStateMaxBytes
    · rw [if_neg (not_or.mpr ⟨hne, Nat.not_lt.mpr hlength⟩), if_pos hlength, hloads,
        Option.bind_some, OutboxEntry.validate_dump T Json.reorders_canon hok]
      rfl
    · rw [if_pos (.inr (Nat.lt_of_not_le hlength)), if_neg hlength]
  · cases h

end SuperBoss.Connector
