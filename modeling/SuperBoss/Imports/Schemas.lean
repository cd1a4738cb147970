import SuperBoss.Core.Fields
import SuperBoss.Files.Models
import SuperBoss.Imports.Models

/-!
The request contract of an import manifest. Validated manifests carry what
their validators establish: normalized texts, sorted tags, attachments in rank
order with one `K3_RAW`, and a bounded JSON form.
-/

namespace SuperBoss.Imports

open SuperBoss.Core
open SuperBoss.Files

def manifestMaxUtf8Bytes : Nat := 65536
def modelLabelMaxChars : Nat := 128
def localTaskIdMaxChars : Nat := 255
def externalReferenceMaxChars : Nat := 1024
def k3TextMaxChars : Nat := 4096
def suggestedTitleMaxChars : Nat := 1024
def suggestedTagMaxChars : Nat := 128
def k3ListMaxItems : Nat := 100
def suggestedTagMaxItems : Nat := 64
def attachmentFilenameMaxChars : Nat := 1024

/-- `_reject_controls`. -/
def rejectControls : SafeText where
  check := Text.noControls
  sound := id
  complete := Clean.controls

variable (P : Platform)

/-- `sorted` on strings. -/
def tagLe {P : Platform} (a b : CleanText P false suggestedTagMaxChars) : Prop := a.val ≤ b.val

instance {P : Platform} : DecidableRel (tagLe (P := P)) := fun a b =>
  inferInstanceAs (Decidable (a.val ≤ b.val))

instance {P : Platform} : IsTrans _ (tagLe (P := P)) := ⟨fun _ _ _ => le_trans⟩

instance {P : Platform} : Std.Total (tagLe (P := P)) := ⟨fun a b => le_total a.val b.val⟩

/-- Pairwise different tags in order. -/
structure Tags where
  items : List (CleanText P false suggestedTagMaxChars)
  length : items.length ≤ suggestedTagMaxItems
  nodup : items.Nodup
  sorted : items.Pairwise tagLe
  deriving DecidableEq

structure K3Result where
  modelLabel : CleanText P false modelLabelMaxChars
  processedAt : Moment
  modificationDetails : List (CleanText P true k3TextMaxChars)
  knowledgePoints : List (CleanText P true k3TextMaxChars)
  risks : List (CleanText P true k3TextMaxChars)
  suggestedTitle : Option (CleanText P false suggestedTitleMaxChars)
  suggestedTags : Tags P
  modificationDetailsLength : modificationDetails.length ≤ k3ListMaxItems
  knowledgePointsLength : knowledgePoints.length ≤ k3ListMaxItems
  risksLength : risks.length ≤ k3ListMaxItems
  deriving DecidableEq

/-- `unique_sorted_tags` behind the bound on the number of tags. -/
def tagsField (safe : SafeText) (j : Json) : Except PyError (Tags P) := do
  let items ← listOf 0 suggestedTagMaxItems (textField P safe false suggestedTagMaxChars) j
  if h : items.length ≤ suggestedTagMaxItems ∧ items.Nodup then
    .ok {
      items := items.insertionSort tagLe
      length := by rw [List.length_insertionSort]; exact h.1
      nodup := (List.perm_insertionSort tagLe items).nodup_iff.mpr h.2
      sorted := List.pairwise_insertionSort tagLe items }
  else .error .validation

/-- A list of documents of the K3 result. -/
def documentsField (safe : SafeText) (j : Json) : Except PyError
    { l : List (CleanText P true k3TextMaxChars) // l.length ≤ k3ListMaxItems } := do
  let items ← listOf 0 k3ListMaxItems (textField P safe true k3TextMaxChars) j
  if h : items.length ≤ k3ListMaxItems then .ok ⟨items, h⟩ else .error .validation

namespace K3Result

def fieldNames : List String :=
  ["model_label", "processed_at", "modification_details", "knowledge_points", "risks",
    "suggested_title", "suggested_tags"]

/-- `K3Result.model_validate`, for the after-validator `safe` of its texts. -/
def validate (safe : SafeText) : Json → Except PyError (K3Result P)
  | .obj fields =>
      (collect (requiredField fields "model_label" (textField P safe false modelLabelMaxChars))
      (collect (requiredField fields "processed_at" (datetimeField P))
      (collect (requiredField fields "modification_details" (documentsField P safe))
      (collect (requiredField fields "knowledge_points" (documentsField P safe))
      (collect (requiredField fields "risks" (documentsField P safe))
      (collect (defaultField fields "suggested_title" none
        (nullable (textField P safe false suggestedTitleMaxChars)))
      (collect (defaultField fields "suggested_tags" ⟨[], Nat.zero_le _, .nil, .nil⟩
        (tagsField P safe))
      (check (Json.onlyKeys fieldNames fields))))))))).map
        fun (label, at', details, points, risks, title, tags, _) =>
          ⟨label, at', details.val, points.val, risks.val, title, tags,
            details.property, points.property, risks.property⟩
  | _ => .error .validation

variable {P}

/-- `model_dump(mode="json")`. -/
def dump (k : K3Result P) : Json :=
  .obj [Json.field "model_label" k.modelLabel.dump,
    Json.field "processed_at" (k.processedAt.dump P),
    Json.field "modification_details" (.arr (k.modificationDetails.map CleanText.dump)),
    Json.field "knowledge_points" (.arr (k.knowledgePoints.map CleanText.dump)),
    Json.field "risks" (.arr (k.risks.map CleanText.dump)),
    Json.field "suggested_title" (Json.ofOption CleanText.dump k.suggestedTitle),
    Json.field "suggested_tags" (.arr (k.suggestedTags.items.map CleanText.dump))]

end K3Result

def kindField : Json → Except PyError AttachmentKind
  | .str t =>
      match AttachmentKind.all.find? fun k => decide (t = Text.ofString k.value) with
      | none => .error .validation
      | some k => .ok k
  | _ => .error .validation

structure AttachmentDeclaration where
  kind : AttachmentKind
  filename : CleanText P false attachmentFilenameMaxChars
  sizeBytes : { n : Nat // 1 ≤ n ∧ n ≤ attachmentMaxBytes }
  sha256 : Digest
  contentType : MimeType
  deriving DecidableEq

namespace AttachmentDeclaration

def fieldNames : List String := ["kind", "filename", "size_bytes", "sha256", "content_type"]

def validate : Json → Except PyError (AttachmentDeclaration P)
  | .obj fields =>
      (collect (requiredField fields "kind" kindField)
      (collect (requiredField fields "filename"
        (textField P rejectControls false attachmentFilenameMaxChars))
      (collect (requiredField fields "size_bytes" (natField P 1 attachmentMaxBytes))
      (collect (requiredField fields "sha256" digestField)
      (collect (requiredField fields "content_type" mimeField)
      (check (Json.onlyKeys fieldNames fields))))))).map
        fun (kind, filename, size, sha256, mime, _) => ⟨kind, filename, size, sha256, mime⟩
  | _ => .error .validation

variable {P}

def dump (d : AttachmentDeclaration P) : Json :=
  .obj [Json.field "kind" (.str (Text.ofString d.kind.value)),
    Json.field "filename" d.filename.dump,
    Json.field "size_bytes" (.int d.sizeBytes.val),
    Json.field "sha256" d.sha256.dump,
    Json.field "content_type" d.contentType.dump]

end AttachmentDeclaration

/-- The fields of a manifest, before the checks on the manifest as a whole. -/
structure ManifestFields where
  projectId : UUID
  localTaskId : CleanText P false localTaskIdMaxChars
  externalDocumentReference : Option (CleanText P false externalReferenceMaxChars)
  baseSha256 : Option Digest
  k3Result : K3Result P
  attachments : List (AttachmentDeclaration P)
  deriving DecidableEq

namespace ManifestFields

variable {P}

/-- `model_dump(mode="json")`. -/
def dump (m : ManifestFields P) : Json :=
  .obj [Json.field "project_id" (.str m.projectId.text),
    Json.field "local_task_id" m.localTaskId.dump,
    Json.field "external_document_reference"
      (Json.ofOption CleanText.dump m.externalDocumentReference),
    Json.field "base_sha256" (Json.ofOption Digest.dump m.baseSha256),
    Json.field "k3_result" m.k3Result.dump,
    Json.field "attachments" (.arr (m.attachments.map AttachmentDeclaration.dump))]

def kinds (m : ManifestFields P) : List AttachmentKind := m.attachments.map (·.kind)

/-- `max(compact_octets, postgres_octets) <= MANIFEST_MAX_UTF8_BYTES`. -/
def withinBudget (payload : Json) : Bool :=
  match payload.jsonBytes Json.compact, payload.jsonBytes Json.spaced with
  | some compact, some spaced => max compact.length spaced.length ≤ manifestMaxUtf8Bytes
  | _, _ => false

end ManifestFields

def rankLe {P : Platform} (a b : AttachmentDeclaration P) : Prop := a.kind.rank ≤ b.kind.rank

instance {P : Platform} : DecidableRel (rankLe (P := P)) := fun a b =>
  inferInstanceAs (Decidable (a.kind.rank ≤ b.kind.rank))

instance {P : Platform} : IsTrans _ (rankLe (P := P)) := ⟨fun _ _ _ => le_trans⟩

instance {P : Platform} : Std.Total (rankLe (P := P)) :=
  ⟨fun a b => le_total a.kind.rank b.kind.rank⟩

structure ImportJobCreate extends ManifestFields P where
  kindsNodup : toManifestFields.kinds.Nodup
  k3Raw : .k3Raw ∈ toManifestFields.kinds
  baseOriginal : baseSha256 ≠ none → .original ∈ toManifestFields.kinds
  ranked : attachments.Pairwise rankLe
  budget : ManifestFields.withinBudget toManifestFields.dump = true
  deriving DecidableEq

namespace ImportJobCreate

def fieldNames : List String :=
  ["project_id", "local_task_id", "external_document_reference", "base_sha256", "k3_result",
    "attachments"]

def maxAttachments : Nat := 3

def validateFields : Json → Except PyError (ManifestFields P)
  | .obj fields =>
      (collect (requiredField fields "project_id" (uuidField P))
      (collect (requiredField fields "local_task_id"
        (textField P rejectControls false localTaskIdMaxChars))
      (collect (defaultField fields "external_document_reference" none
        (nullable (textField P rejectControls false externalReferenceMaxChars)))
      (collect (defaultField fields "base_sha256" none (nullable digestField))
      (collect (requiredField fields "k3_result" (K3Result.validate P rejectControls))
      (collect (requiredField fields "attachments"
        (listOf 1 maxAttachments (AttachmentDeclaration.validate P)))
      (check (Json.onlyKeys fieldNames fields)))))))).map
        fun (project, task, external, base, k3, attachments, _) =>
          ⟨project, task, external, base, k3, attachments⟩
  | _ => .error .validation

/-- `normalize_and_validate_manifest`. -/
def normalize (m : ManifestFields P) : Except PyError (ImportJobCreate P) :=
  if h : m.kinds.Nodup ∧ .k3Raw ∈ m.kinds ∧ (m.baseSha256 ≠ none → .original ∈ m.kinds) then
    let sorted := m.attachments.insertionSort rankLe
    let m' : ManifestFields P := { m with attachments := sorted }
    if hb : ManifestFields.withinBudget m'.dump = true then
      have hperm : (m'.kinds).Perm m.kinds := (List.perm_insertionSort rankLe m.attachments).map _
      .ok { m' with
        kindsNodup := hperm.nodup_iff.mpr h.1
        k3Raw := hperm.mem_iff.mpr h.2.1
        baseOriginal := fun hbase => hperm.mem_iff.mpr (h.2.2 hbase)
        ranked := List.pairwise_insertionSort rankLe m.attachments
        budget := hb }
    else .error .validation
  else .error .validation

/-- `ImportJobCreate.model_validate`. -/
def validate (j : Json) : Except PyError (ImportJobCreate P) := do
  normalize P (← validateFields P j)

variable {P}

def dump (m : ImportJobCreate P) : Json := m.toManifestFields.dump

/-- `canonical_manifest_bytes`. -/
def canonicalManifestBytes (m : ImportJobCreate P) : Bytes :=
  (m.dump.jsonBytes Json.compact).getD []

end ImportJobCreate

/-! Validating the dump of a value gives the value back. -/

section roundTrip

variable {P}

theorem collect_ok {α β : Type} {a : α} {b : β} :
    collect (.ok a : Except PyError α) (.ok b) = .ok (a, b) := rfl

theorem documentsField_dump {safe : SafeText} {l : List (CleanText P true k3TextMaxChars)}
    (h : l.length ≤ k3ListMaxItems) :
    documentsField P safe (.arr (l.map CleanText.dump)) = .ok ⟨l, h⟩ := by
  rw [documentsField, listOf_map textField_dump (Nat.zero_le _) h]
  exact dif_pos h

theorem tagsField_dump {safe : SafeText} (tags : Tags P) :
    tagsField P safe (.arr (tags.items.map CleanText.dump)) = .ok tags := by
  rw [tagsField, listOf_map textField_dump (Nat.zero_le _) tags.length]
  refine (dif_pos ⟨tags.length, tags.nodup⟩).trans ?_
  congr 2
  exact tags.sorted.insertionSort_eq

theorem CleanText.dump_ne_null {document : Bool} {maxLength : Nat}
    (t : CleanText P document maxLength) : t.dump ≠ .null := nofun

namespace K3Result

theorem validate_dump {safe : SafeText} (k : K3Result P) : validate P safe k.dump = .ok k := by
  simp only [validate, dump, requiredField, defaultField, field?_cons, onlyKeys_cons,
    onlyKeys_nil, fieldNames, String.reduceEq, if_true, if_false, textField_dump,
    datetimeField_dump, documentsField_dump k.modificationDetailsLength,
    documentsField_dump k.knowledgePointsLength, documentsField_dump k.risksLength,
    nullable_ofOption textField_dump CleanText.dump_ne_null, tagsField_dump]
  rfl

end K3Result

theorem kindField_value (k : AttachmentKind) :
    kindField (.str (Text.ofString k.value)) = .ok k := by
  cases k <;> decide

namespace AttachmentDeclaration

theorem validate_dump (d : AttachmentDeclaration P) : validate P d.dump = .ok d := by
  simp only [validate, dump, requiredField, field?_cons, onlyKeys_cons, onlyKeys_nil, fieldNames,
    String.reduceEq, if_true, if_false, kindField_value, textField_dump, natField_int,
    digestField_dump, mimeField_dump]
  rfl

end AttachmentDeclaration

theorem Digest.dump_ne_null (d : Digest) : d.dump ≠ .null := nofun

namespace ImportJobCreate

theorem kinds_length_le (m : ManifestFields P) (h : m.kinds.Nodup) :
    m.attachments.length ≤ maxAttachments := by
  have hsub : m.kinds ⊆ AttachmentKind.all := fun k _ => by cases k <;> decide
  have hle := (List.subperm_of_subset h hsub).length_le
  rw [ManifestFields.kinds, List.length_map] at hle
  exact hle

theorem validateFields_dump (m : ManifestFields P) (h : m.kinds.Nodup)
    (hne : m.attachments ≠ []) : validateFields P m.dump = .ok m := by
  have hattachments : listOf 1 maxAttachments (AttachmentDeclaration.validate P)
      (.arr (m.attachments.map AttachmentDeclaration.dump)) = .ok m.attachments :=
    listOf_map AttachmentDeclaration.validate_dump (List.length_pos_iff.mpr hne)
      (kinds_length_le m h)
  simp only [validateFields, ManifestFields.dump, requiredField, defaultField, field?_cons,
    onlyKeys_cons, onlyKeys_nil, fieldNames, String.reduceEq, if_true, if_false, uuidField_text,
    textField_dump, nullable_ofOption textField_dump CleanText.dump_ne_null,
    nullable_ofOption digestField_dump Digest.dump_ne_null, K3Result.validate_dump, hattachments]
  rfl

theorem normalize_toManifestFields (m : ImportJobCreate P) :
    normalize P m.toManifestFields = .ok m := by
  have hsorted : m.attachments.insertionSort rankLe = m.attachments :=
    m.ranked.insertionSort_eq
  unfold normalize
  rw [dif_pos ⟨m.kindsNodup, m.k3Raw, m.baseOriginal⟩]
  simp only [hsorted]
  exact dif_pos m.budget

theorem attachments_ne_nil (m : ImportJobCreate P) : m.attachments ≠ [] := by
  intro h
  have hmem := m.k3Raw
  simp [ManifestFields.kinds, h] at hmem

theorem validate_dump (m : ImportJobCreate P) : validate P m.dump = .ok m := by
  rw [validate, dump, validateFields_dump _ m.kindsNodup m.attachments_ne_nil]
  exact normalize_toManifestFields m

end ImportJobCreate

end roundTrip

end SuperBoss.Imports
