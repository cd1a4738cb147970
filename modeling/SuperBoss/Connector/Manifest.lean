import SuperBoss.Imports.Schemas
import SuperBoss.Library.Framing

/-!
The connector's local envelope and the server manifest it derives. Files are
read through a file system whose answers are arbitrary.
-/

namespace SuperBoss.Connector

open SuperBoss.Core
open SuperBoss.Library.Framing
open SuperBoss.Imports

structure ConnectorError where
  exitCode : Nat
  message : String
  deriving DecidableEq

def invalidInput : ConnectorError := ⟨2, "Input validation failed."⟩
def serverRejected : ConnectorError := ⟨5, "The server rejected the operation."⟩

/-- An expected failure, or an exception that no handler of the connector names. -/
inductive Fault
  | connector (error : ConnectorError)
  | unexpected
  deriving DecidableEq

def partSize : Nat := 8 * 1024 * 1024
def attachmentMaxBytes : Nat := 100 * 1024 * 1024
def manifestMaxUtf8Bytes : Nat := 65536
def manifestInputMaxBytes : Nat := 256 * 1024

/-! ### Texts -/

/-- `_safe_text`. -/
def safeText : SafeText where
  check document t := t.utf8.isSome && Text.noControls document t
  sound h := (Bool.and_eq_true_iff.mp h).2
  complete {P document maxLength t} h := by
    have hencode : ∀ l : Text, (∀ c ∈ l, Text.isSurrogate c = false) →
        (l.mapM Text.encodePoint).isSome = true := by
      intro l hl
      induction l with
      | nil => rfl
      | cons c l ih =>
          have hc : (Text.encodePoint c).isSome = true := by
            simp only [Text.encodePoint, hl c List.mem_cons_self, Bool.false_eq_true, if_false]
            split
            · rfl
            · split
              · rfl
              · split <;> rfl
          obtain ⟨b, hb⟩ := Option.isSome_iff_exists.mp hc
          obtain ⟨bs, hbs⟩ := Option.isSome_iff_exists.mp
            (ih fun x hx => hl x (List.mem_cons_of_mem c hx))
          simp [List.mapM_cons, hb, hbs]
    simp only [Text.utf8, Option.isSome_map, hencode t h.encodable, h.controls, Bool.and_self]

/-- A stripped `str` with bounds on its length. -/
def boundedStr (minLength maxLength : Nat) (t : Text) : Except PyError Text :=
  let s := t.strip
  if (∀ c ∈ s, Text.isSurrogate c = false) ∧ minLength ≤ s.length ∧ s.length ≤ maxLength then
    .ok s
  else .error .validation

/-- `33 <= ord(character) <= 126`. -/
def isPrintable (c : Nat) : Bool := 33 ≤ c && c ≤ 126

/-- `idempotency_key` with its before-validator. -/
def keyField : Json → Except PyError Text
  | .str t => if t ≠ [] ∧ t.all isPrintable = true then boundedStr 1 255 t else .error .validation
  | _ => .error .validation

variable (P : Platform)

/-! ### The local envelope -/

structure LocalAttachment where
  kind : AttachmentKind
  path : CleanText P false 4096
  contentType : Option MimeType

namespace LocalAttachment

def fieldNames : List String := ["kind", "path", "content_type"]

def validate : Json → Except PyError (LocalAttachment P)
  | .obj fields =>
      (collect (requiredField fields "kind" kindField)
      (collect (requiredField fields "path" (textField P safeText false 4096))
      (collect (defaultField fields "content_type" none (nullable mimeField))
      (check (Json.onlyKeys fieldNames fields))))).map
        fun (kind, path, mime, _) => ⟨kind, path, mime⟩
  | _ => .error .validation

end LocalAttachment

structure LocalManifest where
  idempotencyKey : Text
  projectId : UUID
  localTaskId : CleanText P false 255
  externalDocumentReference : Option (CleanText P false 1024)
  baseSha256 : Option Digest
  k3Result : K3Result P
  attachments : List (LocalAttachment P)

namespace LocalManifest

def fieldNames : List String :=
  ["idempotency_key", "project_id", "local_task_id", "external_document_reference",
    "base_sha256", "k3_result", "attachments"]

def validateFields : Json → Except PyError (LocalManifest P)
  | .obj fields =>
      (collect (requiredField fields "idempotency_key" keyField)
      (collect (requiredField fields "project_id" (uuidField P))
      (collect (requiredField fields "local_task_id" (textField P safeText false 255))
      (collect (defaultField fields "external_document_reference" none
        (nullable (textField P safeText false 1024)))
      (collect (defaultField fields "base_sha256" none (nullable digestField))
      (collect (requiredField fields "k3_result" (K3Result.validate P safeText))
      (collect (requiredField fields "attachments" (listOf 1 3 (LocalAttachment.validate P)))
      (check (Json.onlyKeys fieldNames fields))))))))).map
        fun (key, project, task, external, base, k3, attachments, _) =>
          ⟨key, project, task, external, base, k3, attachments⟩
  | _ => .error .validation

variable {P}

def kinds (m : LocalManifest P) : List AttachmentKind := m.attachments.map (·.kind)

/-- `validate_attachment_kinds`. -/
def kindsOk (m : LocalManifest P) : Prop :=
  m.kinds.Nodup ∧ m.kinds.count .k3Raw = 1 ∧ (m.baseSha256 ≠ none → .original ∈ m.kinds)

instance (m : LocalManifest P) : Decidable m.kindsOk :=
  inferInstanceAs (Decidable (_ ∧ _ ∧ _))

variable (P) in
/-- `LocalManifest.model_validate`. -/
def validate (j : Json) : Except PyError (LocalManifest P) := do
  let m ← validateFields P j
  if m.kindsOk then .ok m else .error .validation

end LocalManifest

/-! ### The server manifest -/

/-- An attachment declaration; its strings are as the validators return them. -/
structure ServerAttachment where
  kind : AttachmentKind
  filename : Text
  sizeBytes : Nat
  sha256 : Text
  contentType : Text
  deriving DecidableEq

namespace ServerAttachment

/-- `ServerAttachment(...)`. -/
def validate (a : ServerAttachment) : Except PyError ServerAttachment :=
  (collect (do
      let filename ← boundedStr 1 1024 a.filename
      if safeText.check false filename then .ok filename else .error .validation)
  (collect (check (decide (1 ≤ a.sizeBytes ∧ a.sizeBytes ≤ attachmentMaxBytes)))
  (collect (digest a.sha256) (mimeType a.contentType)))).map
    fun (filename, _, sha256, mime) => ⟨a.kind, filename, a.sizeBytes, sha256.val, mime.val⟩

def dump (a : ServerAttachment) : Json :=
  .obj [Json.field "kind" (.str (Text.ofString a.kind.value)),
    Json.field "filename" (.str a.filename),
    Json.field "size_bytes" (.int a.sizeBytes),
    Json.field "sha256" (.str a.sha256),
    Json.field "content_type" (.str a.contentType)]

end ServerAttachment

structure ServerManifest where
  projectId : UUID
  localTaskId : Text
  externalDocumentReference : Option Text
  baseSha256 : Option Text
  k3Result : K3Result P
  attachments : List ServerAttachment
  deriving DecidableEq

namespace ServerManifest

variable {P}

/-- `model_dump(mode="json")`. -/
def dump (m : ServerManifest P) : Json :=
  .obj [Json.field "project_id" (.str m.projectId.text),
    Json.field "local_task_id" (.str m.localTaskId),
    Json.field "external_document_reference"
      (Json.ofOption .str m.externalDocumentReference),
    Json.field "base_sha256" (Json.ofOption .str m.baseSha256),
    Json.field "k3_result" m.k3Result.dump,
    Json.field "attachments" (.arr (m.attachments.map ServerAttachment.dump))]

/-- `validate_size_budget`. -/
def withinBudget (payload : Json) : Bool :=
  match payload.jsonBytes Json.compact, payload.jsonBytes Json.spaced with
  | some compact, some postgres => max compact.length postgres.length ≤ manifestMaxUtf8Bytes
  | _, _ => false

def optionalStr (minLength maxLength : Nat) : Option Text → Except PyError (Option Text)
  | none => .ok none
  | some t => (boundedStr minLength maxLength t).map some

/-- A `str` without bounds. -/
def plainStr (t : Text) : Except PyError Text := boundedStr 0 t.length t

/-- `ServerManifest(...)`; model instances among its arguments are kept as they are. -/
def validate (m : ServerManifest P) : Except PyError (ServerManifest P) := do
  let (task, external, base, _) ←
    collect (boundedStr 1 255 m.localTaskId)
    (collect (optionalStr 1 1024 m.externalDocumentReference)
    (collect (match m.baseSha256 with
      | none => .ok none
      | some t => (plainStr t).map some)
    (check (decide (1 ≤ m.attachments.length ∧ m.attachments.length ≤ 3)))))
  let m' : ServerManifest P :=
    ⟨m.projectId, task, external, base, m.k3Result, m.attachments⟩
  if withinBudget m'.dump then .ok m' else .error .validation

/-- `server_payload`. -/
def serverPayload (m : ServerManifest P) : Json := m.dump

/-- `_json_bytes` of the payload, compact. -/
def canonicalBytes (m : ServerManifest P) : Bytes :=
  (m.dump.jsonBytes Json.compact).getD []

end ServerManifest

/-! ### Files -/

/-- What the connector looks at in an `os.stat_result`. -/
structure Stat where
  mode : Nat
  size : Nat
  mtime : Int
  deriving DecidableEq

/-- `stat.S_ISREG`. -/
def Stat.isRegular (st : Stat) : Bool := st.mode &&& 0o170000 == 0o100000

/-- The two looks at a file that `_hash_regular_file` takes, and the bytes
between them. -/
structure Reading where
  before : Stat
  content : Bytes
  after : Stat

/-- The calls of the connector on local files; `none` is an `OSError`. Paths
are in their string form. -/
structure FileSystem where
  /-- `Path.resolve(strict=True)`. -/
  resolve : Text → Option Text
  parent : Text → Text
  /-- `Path.name`. -/
  name : Text → Text
  isAbsolute : Text → Bool
  isSymlink : Text → Bool
  /-- `base / candidate`. -/
  join : Text → Text → Text
  isRelativeTo : Text → Text → Bool
  /-- The manifest's `stat` and the first bytes of it. -/
  readManifest : Text → Option (Stat × Bytes)
  /-- `json.loads(serialized.decode("utf-8"))`. -/
  loads : Bytes → Option Json
  readAttachment : Text → Option Reading
  /-- `mimetypes.guess_type(·)[0]`. -/
  guessType : Text → Option Text

/-- `_hash_regular_file`. -/
def hashRegularFile (fs : FileSystem) (path : Text) : Option (Nat × Text × List Text) := do
  let r ← fs.readAttachment path
  if r.before.isRegular ∧ 1 ≤ r.before.size ∧ r.before.size ≤ attachmentMaxBytes ∧
      r.before = r.after then
    some (r.before.size, P.sha256 r.content, (slices partSize r.content).map P.sha256)
  else none

/-! ### Preparing -/

structure PreparedAttachment where
  kind : AttachmentKind
  path : Text
  filename : Text
  sizeBytes : Nat
  sha256 : Text
  partSha256s : List Text
  contentType : Text
  deriving DecidableEq

structure PreparedManifest where
  path : Text
  idempotencyKey : Text
  server : ServerManifest P
  attachments : List PreparedAttachment
  fingerprint : Text
  deriving DecidableEq

/-- The handlers of `prepare_manifest`: a `ValidationError` becomes an input
error, an `OverflowError` is not among the exceptions they name. -/
def validated {α : Type} : Except PyError α → Except Fault α
  | .ok a => .ok a
  | .error .validation => .error (.connector invalidInput)
  | .error .overflow => .error .unexpected

/-- `OSError`, `ValueError` and the checks of `prepare_manifest`. -/
def expected {α : Type} : Option α → Except Fault α
  | some a => .ok a
  | none => .error (.connector invalidInput)

variable {P}

/-- `content_type or "application/octet-stream"`. -/
def contentTypeOr (fs : FileSystem) (declared : Option MimeType) (name : Text) : Text :=
  match declared with
  | some m => m.val
  | none =>
      match fs.guessType name with
      | some (c :: t) => c :: t
      | _ => Text.ofString "application/octet-stream"

/-- One turn of the loop over the declared attachments. -/
def prepareAttachment (fs : FileSystem) (base : Text) (seen : List Text)
    (d : LocalAttachment P) : Except Fault PreparedAttachment := do
  let resolved ← expected <|
    if fs.isAbsolute d.path.val then none
    else if fs.isSymlink (fs.join base d.path.val) then none
    else fs.resolve (fs.join base d.path.val)
  if !fs.isRelativeTo resolved base || seen.contains resolved then
    .error (.connector invalidInput)
  else
    let (size, sha256, parts) ← expected (hashRegularFile P fs resolved)
    let mime := contentTypeOr fs d.contentType (fs.name resolved)
    let a ← validated <| ServerAttachment.validate
      ⟨d.kind, P.unicode.nfc (fs.name resolved), size, sha256, mime⟩
    .ok ⟨d.kind, resolved, a.filename, size, sha256, parts, mime⟩

def prepareAttachments (fs : FileSystem) (base : Text) (seen : List Text) :
    List (LocalAttachment P) → Except Fault (List PreparedAttachment)
  | [] => .ok []
  | d :: ds => do
      let a ← prepareAttachment fs base seen d
      let as ← prepareAttachments fs base (a.path :: seen) ds
      .ok (a :: as)

/-- `ServerAttachment(...)` of a prepared attachment. -/
def PreparedAttachment.server (a : PreparedAttachment) : ServerAttachment :=
  ⟨a.kind, a.filename, a.sizeBytes, a.sha256, a.contentType⟩

/-- `prepared.sort(key=...)`. -/
def PreparedAttachment.rankLe (a b : PreparedAttachment) : Prop := a.kind.rank ≤ b.kind.rank

instance : DecidableRel PreparedAttachment.rankLe := fun a b =>
  inferInstanceAs (Decidable (a.kind.rank ≤ b.kind.rank))

instance : IsTrans _ PreparedAttachment.rankLe := ⟨fun _ _ _ => le_trans⟩

instance : Std.Total PreparedAttachment.rankLe := ⟨fun a b => le_total a.kind.rank b.kind.rank⟩

variable (P) in
/-- `prepare_manifest`. -/
def prepareManifest (fs : FileSystem) (path : Text) : Except Fault (PreparedManifest P) := do
  let manifestPath ← expected (fs.resolve path)
  let (st, serialized) ← expected (fs.readManifest manifestPath)
  if !st.isRegular || st.size < 1 || st.size > manifestInputMaxBytes || serialized.isEmpty ||
      serialized.length > manifestInputMaxBytes then
    .error (.connector invalidInput)
  else
    let raw ← expected (fs.loads serialized)
    let m ← validated (LocalManifest.validate P raw)
    let prepared ← prepareAttachments fs (fs.parent manifestPath) [] m.attachments
    let prepared := prepared.insertionSort PreparedAttachment.rankLe
    let attachments ← validated (prepared.mapM fun a => a.server.validate)
    let server ← validated <| ServerManifest.validate
      ⟨m.projectId, m.localTaskId.val, m.externalDocumentReference.map (·.val),
        m.baseSha256.map (·.val), m.k3Result, attachments⟩
    .ok ⟨manifestPath, m.idempotencyKey, server, prepared, P.sha256 server.canonicalBytes⟩

end SuperBoss.Connector
