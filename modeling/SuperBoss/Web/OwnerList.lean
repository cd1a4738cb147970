import SuperBoss.Files.Fingerprint
import SuperBoss.Connector.CreatedJobs
import SuperBoss.Web.Agreement
import SuperBoss.Web.Imports

/-!
The owner's list of import jobs between the server and the web client.
-/

namespace SuperBoss.Core

namespace UUID

/-- The version and the variant that `uuid4` sets. -/
def isRandom (u : UUID) : Bool :=
  digit u 12 == 52 && [56, 57, 97, 98].contains (digit u 16)

end UUID

end SuperBoss.Core

namespace SuperBoss.Server

open SuperBoss.Core
open SuperBoss.Imports

/-! ### The response -/

/-- The JSON of an `OwnerImportJobRead`. -/
def OwnerImportJobView.dump (P : Platform) (v : OwnerImportJobView) : Json :=
  .obj [Json.field "id" (.str v.id.text),
    Json.field "project_id" (.str v.projectId.text),
    Json.field "local_task_id" (.str v.localTaskId),
    Json.field "external_document_reference" (Json.ofOption .str v.externalDocumentReference),
    Json.field "model_label" (.str v.modelLabel),
    Json.field "status" (.str (Text.ofString v.status.value)),
    Json.field "result_code" (Json.ofOption (fun code => .str (Text.ofString code)) v.resultCode),
    Json.field "submitted_at" (Json.ofOption (fun t => .str (P.dumpDatetime t)) v.submittedAt),
    Json.field "created_at" (.str (P.dumpDatetime v.createdAt)),
    Json.field "updated_at" (.str (P.dumpDatetime v.updatedAt)),
    Json.field "attachments" (.arr (v.attachments.map ImportAttachmentView.dump))]

/-- The bounds of `OwnerImportJobRead`. -/
def OwnerImportJobView.Readable (v : OwnerImportJobView) : Prop :=
  (1 ≤ v.localTaskId.length ∧ v.localTaskId.length ≤ localTaskIdMaxChars) ∧
    (∀ t ∈ v.externalDocumentReference,
      1 ≤ t.length ∧ t.length ≤ externalReferenceMaxChars) ∧
    (1 ≤ v.modelLabel.length ∧ v.modelLabel.length ≤ modelLabelMaxChars) ∧
    (∀ code ∈ v.resultCode, 1 ≤ (Text.ofString code).length ∧ (Text.ofString code).length ≤ 64) ∧
    1 ≤ v.attachments.length ∧ v.attachments.length ≤ 3

instance (v : OwnerImportJobView) : Decidable v.Readable :=
  inferInstanceAs (Decidable (_ ∧ (∀ t ∈ v.externalDocumentReference, _) ∧ _ ∧
    (∀ code ∈ v.resultCode, _) ∧ _))

/-- `list_owner_imports`: the status and the body of the answer, without the bodies of
errors. -/
def listOwnerImports (P : Platform) (s : Store) (actor : Actor) (limit : Int) : Nat × Json :=
  if ¬(1 ≤ limit ∧ limit ≤ 100) then (422, .null)
  else
    match listOwner P s actor limit with
    | .ok views =>
        if ∀ v ∈ views, v.Readable then (200, .arr (views.map (·.dump P))) else (500, .null)
    | .error (.domain e) => (e.statusCode, .null)
    | .error _ => (500, .null)

/-- The rows that `list_owner` selects. -/
def Store.newestJobs (s : Store) (limit : Int) : List ImportJob :=
  (s.jobs.rows.insertionSort fun i j =>
    j.createdAt < i.createdAt ∨ (i.createdAt = j.createdAt ∧ j.id ≤ i.id)).take limit.toNat

end SuperBoss.Server

namespace SuperBoss.Web

open SuperBoss.Core
open SuperBoss.Core.JsString
open SuperBoss.Library
open SuperBoss.Library.Transition
open SuperBoss.Files
open SuperBoss.Imports
open SuperBoss.Server
open SuperBoss.Connector (IsDatetime Dated Shows)
open SuperBoss.Infrastructure.Clamav

/-! ### Texts -/

/-- What `trim` removes, on code points; the C1 control U+0085 is not among them. -/
def isTrimmed (c : Nat) : Bool := (Text.isWhitespace c && c != 0x85) || c == 0xFEFF

/-- The texts of the server that the client's `safeText` takes: without C1 controls, and with
a character that `trim` leaves. -/
def Legible (t : Text) : Prop :=
  (∀ c ∈ t, ¬(0x80 ≤ c ∧ c ≤ 0x9F)) ∧ ∃ c ∈ t, isTrimmed c = false

instance (t : Text) : Decidable (Legible t) :=
  inferInstanceAs (Decidable ((∀ c ∈ t, _) ∧ ∃ c ∈ t, _))

theorem scan_pair {c d : UInt16} {rest : JsString} (hc : isHigh c = true) (hd : isLow d = true) :
    scan (c :: d :: rest) = scan rest := by
  have hcontrol : isControl c = false := by
    rw [isHigh_iff] at hc
    rw [isControl_eq_false]
    omega
  rw [scan, hcontrol, hc, hd]
  rfl

theorem scan_unit {c : UInt16} {rest : JsString} (hc : isHigh c = false) (hlow : isLow c = false) :
    scan (c :: rest) = (!isControl c && scan rest) := by
  cases rest with
  | nil =>
      change (!isControl c && !isLow c) = _
      rw [hlow]
      rfl
  | cons d rest =>
      rw [scan, hc, hlow]
      cases isControl c <;> rfl

section points

variable {t : Text} (h : ∀ c ∈ t, Text.isSurrogate c = false)

include h

theorem scan_ofText : scan (ofText t) = true ↔ ∀ c ∈ t, 32 ≤ c ∧ (c < 127 ∨ 160 ≤ c) := by
  induction t with
  | nil => exact iff_of_true rfl (List.forall_mem_nil _)
  | cons c t ih =>
      have hpoint := h c List.mem_cons_self
      rw [List.forall_mem_cons, ← ih fun d hd => h d (List.mem_cons_of_mem c hd)]
      by_cases hc : c < 0x10000
      · obtain ⟨hhigh, hlow⟩ := unit_of_point hc hpoint
        rw [ofText_unit hc, scan_unit hhigh hlow, Bool.and_eq_true, Bool.not_eq_true',
          isControl_eq_false, toNat_ofNat_unit hc]
      · have hlt := lt_of_isSurrogate hpoint
        obtain ⟨hhigh, hlow, -⟩ := surrogates_of_point (Nat.not_lt.mp hc) hlt
          (toNat_ofNat_unit (by omega)) (toNat_ofNat_unit (by omega))
        rw [ofText_pair (Nat.not_lt.mp hc), scan_pair hhigh hlow]
        exact (and_iff_right ⟨by omega, .inr (by omega)⟩).symm

theorem isSpace_ofText : (∀ u ∈ ofText t, isSpace u = true) ↔ ∀ c ∈ t, isTrimmed c = true := by
  induction t with
  | nil => exact iff_of_true (List.forall_mem_nil _) (List.forall_mem_nil _)
  | cons c t ih =>
      have hpoint := h c List.mem_cons_self
      rw [List.forall_mem_cons, ← ih fun d hd => h d (List.mem_cons_of_mem c hd)]
      by_cases hc : c < 0x10000
      · have hspace : isSpace (UInt16.ofNat c) = isTrimmed c := by
          rw [Bool.eq_iff_iff]
          simp only [isSpace, isTrimmed, Text.isWhitespace, toNat_ofNat_unit hc, Bool.or_eq_true,
            Bool.and_eq_true, decide_eq_true_eq, beq_iff_eq, bne_iff_ne]
          omega
        rw [ofText_unit hc, List.forall_mem_cons, hspace]
      · have hlt := lt_of_isSurrogate hpoint
        obtain ⟨hhigh, -⟩ := surrogates_of_point (Nat.not_lt.mp hc) hlt
          (toNat_ofNat_unit (by omega)) (toNat_ofNat_unit (by omega))
        have hlarge : isTrimmed c = false := by
          simp only [isTrimmed, Text.isWhitespace, Bool.or_eq_false_iff, Bool.and_eq_false_iff,
            decide_eq_false_iff_not, beq_eq_false_iff_ne]
          omega
        rw [ofText_pair (Nat.not_lt.mp hc), List.forall_mem_cons, not_isSpace_of_isHigh hhigh,
          hlarge]
        exact iff_of_false (fun h => Bool.false_ne_true h.1) fun h => Bool.false_ne_true h.1

end points

variable {P : Platform}

/-- A text of the server passes the client's `safeText` exactly when it is legible. -/
theorem safeText_ofText {maxLength : Nat} {t : Text} (h : Clean P false maxLength t) :
    safeText (ofText t) maxLength = true ↔ Legible t := by
  have hcontrols : ∀ c ∈ t, 32 ≤ c ∧ c ≠ 127 := by
    intro c hc
    have hcontrol := List.all_eq_true.mp h.controls c hc
    simp only [Bool.false_and, Bool.not_false, Bool.and_true, Bool.not_eq_true',
      Bool.or_eq_false_iff, beq_eq_false_iff_ne, decide_eq_false_iff_not] at hcontrol
    omega
  have hscan : scan (ofText t) = true ↔ ∀ c ∈ t, ¬(0x80 ≤ c ∧ c ≤ 0x9F) := by
    rw [scan_ofText h.encodable]
    refine forall₂_congr fun c hc => ?_
    have := hcontrols c hc
    omega
  have htrim : (ofText t).trim ≠ [] ↔ ∃ c ∈ t, isTrimmed c = false := by
    rw [Ne, trim_eq_nil_iff, isSpace_ofText h.encodable]
    push Not
    simp only [ne_eq, Bool.not_eq_true]
  simp only [safeText, Bool.and_eq_true, bne_iff_ne, decide_eq_true_eq,
    codePoints_ofText h.encodable]
  rw [htrim, hscan, and_iff_left h.maxLength, Legible, and_comm]

/-! ### Fields -/

theorem ascii_text (u : UUID) : ∀ c ∈ u.text, c < 128 := by
  intro c hc
  rcases mem_uuid hc with rfl | hhex
  · decide
  · simp only [Text.isLowerHex, Bool.or_eq_true, Bool.and_eq_true, decide_eq_true_eq] at hhex
    omega

theorem isHexDigit_digit (u : UUID) (i : Nat) : UUID.isHexDigit (UUID.digit u i) = true := by
  have hhex := UUID.isLowerHex_hexDigit (Nat.mod_lt (u.toNat / 16 ^ (31 - i)) (by decide : 0 < 16))
  simp only [Text.isLowerHex, Bool.or_eq_true, Bool.and_eq_true, decide_eq_true_eq] at hhex
  change _ ∨ _ at hhex
  rw [UUID.isHexDigit, Bool.or_eq_true, Bool.or_eq_true, Bool.and_eq_true, Bool.and_eq_true,
    Bool.and_eq_true, decide_eq_true_eq, decide_eq_true_eq, decide_eq_true_eq, decide_eq_true_eq,
    decide_eq_true_eq, decide_eq_true_eq]
  exact hhex.imp .inl id

/-- The client takes the ids that `uuid4` draws. -/
theorem isUuid_text {u : UUID} (h : u.isRandom = true) : isUuid (ofText u.text) = true := by
  rw [UUID.isRandom, Bool.and_eq_true, beq_iff_eq, List.contains_iff_mem] at h
  have hform : UUID.isHyphenated u.text = true := by
    have hdigit := isHexDigit_digit u
    simp [UUID.isHyphenated, UUID.text, Text.join, List.range_succ, hdigit]
  have hversion : u.text[14]? = some (UUID.digit u 12) := rfl
  have hvariant : u.text[19]? = some (UUID.digit u 16) := rfl
  simp only [isUuid, units_ofText (ascii_text u), hform, hversion, hvariant, h.1,
    Option.any_some, Bool.true_and, Bool.and_eq_true, List.contains_iff_mem]
  refine ⟨by decide, ?_⟩
  have := h.2
  simp only [List.mem_cons, List.not_mem_nil, or_false] at this ⊢
  omega

theorem stringField_uuid {u : UUID} (h : u.isRandom = true) :
    stringField isUuid (.str u.text) = some (ofText u.text) :=
  if_pos (isUuid_text h)

theorem includedField_value {α : Type} {values : List α} {value : α → String}
    (hinj : ∀ a ∈ values, ∀ b ∈ values, value a = value b → a = b) {a : α} (ha : a ∈ values) :
    includedField values value (.str (Text.ofString (value a))) = some a :=
  Text.find?_ofString hinj ha

theorem kindField_value (k : AttachmentKind) :
    includedField AttachmentKind.all AttachmentKind.value (.str (Text.ofString k.value)) = some k :=
  includedField_value (by decide) (by cases k <;> decide)

theorem stateField_value (st : FileState) :
    includedField fileStates FileState.value (.str (Text.ofString st.value)) = some st :=
  includedField_value (by decide) (by cases st <;> decide)

theorem isResultCode_of_mem {code : String} (h : code ∈ resultCodes) :
    isResultCode (ofText (Text.ofString code)) = true := by
  revert code
  decide

theorem statusField_value (st : ImportStatus) :
    includedField jobStatuses ImportStatus.value (.str (Text.ofString st.value)) = some st :=
  includedField_value (by decide) (by cases st <;> decide)

theorem nullableField_map {α β : Type} {f : Json → Option α} {g : β → Json} {h : β → α}
    {o : Option β} (hf : ∀ b ∈ o, f (g b) = some (h b)) (hnull : ∀ b, g b ≠ .null) :
    nullableField f (Json.ofOption g o) = some (o.map h) := by
  cases o with
  | none => rfl
  | some b =>
      simp only [Json.ofOption]
      unfold nullableField
      split
      · exact absurd ‹_› (hnull b)
      · rw [hf b rfl]
        rfl

/-- `Date.parse` on the timestamps of the server: six digits of a second are cut to three. -/
structure ReadsDatetimes (P : Platform) (dateParse : Text → Option Int) : Prop where
  zone : ∀ t, IsDatetime t → hasZone (ofText (P.dumpDatetime t)).units = true
  parse : ∀ t, IsDatetime t → dateParse (ofText (P.dumpDatetime t)).units = some (t / 1000)

theorem timestamp_dump {dateParse : Text → Option Int} (hparse : ReadsDatetimes P dateParse)
    {t : Instant} (h : IsDatetime t) :
    timestamp dateParse (.str (P.dumpDatetime t)) = some (toISOString (t / 1000)) := by
  have hfield : stringField (fun s => hasZone s.units) (.str (P.dumpDatetime t)) =
      some (ofText (P.dumpDatetime t)) := if_pos (hparse.zone t h)
  rw [timestamp, hfield, Option.bind_some, hparse.parse t h]
  rfl

/-- ISO strings of times in the years 0 to 9999 are in the order of the times. -/
theorem toISOString_mono {t t' : Int} (h : t ≤ t')
    (ht : Date.min ≤ t / 86400000 ∧ t / 86400000 ≤ Date.max)
    (ht' : Date.min ≤ t' / 86400000 ∧ t' / 86400000 ≤ Date.max) :
    toISOString t ≤ toISOString t' := by
  obtain ⟨hyear, hmonth, hday⟩ := Date.civil_range ht
  obtain ⟨hyear', hmonth', hday'⟩ := Date.civil_range ht'
  have hyears : 0 ≤ (Date.civil (t / 86400000)).1 ∧ (Date.civil (t / 86400000)).1 ≤ 9999 := by
    omega
  have hyears' : 0 ≤ (Date.civil (t' / 86400000)).1 ∧ (Date.civil (t' / 86400000)).1 ≤ 9999 := by
    omega
  unfold toISOString
  dsimp only
  rw [if_pos hyears, if_pos hyears']
  rcases Int.lt_or_eq_of_le (Int.ediv_le_ediv (by decide : (0 : Int) < 86400000) h) with hlt | heq
  · -- The days decide.
    rcases Date.civil_lt hlt with hlt | ⟨heq, hlt | ⟨heq', hlt⟩⟩
    · exact Date.pad_append_le hyear hyear' (.inl hlt)
    · refine Date.pad_append_le hyear hyear' (.inr ⟨heq, List.cons_le_cons _ ?_⟩)
      exact Date.pad_append_le hmonth hmonth' (.inl hlt)
    · refine Date.pad_append_le hyear hyear' (.inr ⟨heq, List.cons_le_cons _ ?_⟩)
      refine Date.pad_append_le hmonth hmonth' (.inr ⟨heq', List.cons_le_cons _ ?_⟩)
      exact Date.pad_append_le hday hday' (.inl hlt)
  · -- The times of one day, from the hours to the milliseconds.
    rw [heq]
    refine Date.pad_append_le hyear' hyear' (.inr ⟨rfl, List.cons_le_cons _ ?_⟩)
    refine Date.pad_append_le hmonth' hmonth' (.inr ⟨rfl, List.cons_le_cons _ ?_⟩)
    refine Date.pad_append_le hday' hday' (.inr ⟨rfl, List.cons_le_cons _ ?_⟩)
    have hms : t % 86400000 ≤ t' % 86400000 := by omega
    have hrange : 0 ≤ t % 86400000 ∧ t % 86400000 < 86400000 := by omega
    have hrange' : 0 ≤ t' % 86400000 ∧ t' % 86400000 < 86400000 := by omega
    generalize t % 86400000 = ms at hms hrange
    generalize t' % 86400000 = ms' at hms hrange'
    by_cases hhour : ms / 3600000 = ms' / 3600000
    · refine Date.pad_append_le (by omega) (by omega) (.inr ⟨hhour, List.cons_le_cons _ ?_⟩)
      by_cases hminute : ms / 60000 % 60 = ms' / 60000 % 60
      · refine Date.pad_append_le (by omega) (by omega) (.inr ⟨hminute, List.cons_le_cons _ ?_⟩)
        by_cases hsecond : ms / 1000 % 60 = ms' / 1000 % 60
        · refine Date.pad_append_le (by omega) (by omega) (.inr ⟨hsecond, List.cons_le_cons _ ?_⟩)
          by_cases hlast : ms % 1000 = ms' % 1000
          · rw [hlast]
          · exact Date.pad_append_le (by omega) (by omega) (.inl (by omega))
        · exact Date.pad_append_le (by omega) (by omega) (.inl (by omega))
      · exact Date.pad_append_le (by omega) (by omega) (.inl (by omega))
    · exact Date.pad_append_le (by omega) (by omega) (.inl (by omega))

/-! ### Jobs -/

/-- The ids of a view were drawn by `uuid4`. -/
structure DrawnView (v : ImportJobView P) : Prop where
  id : v.id.isRandom = true
  projectId : v.projectId.isRandom = true
  attachments : ∀ a ∈ v.attachments,
    a.id.isRandom = true ∧ a.fileId.isRandom = true ∧ a.uploadId.isRandom = true

/-- The attachments of a view are those of one job. -/
structure Apart (v : ImportJobView P) : Prop where
  ids : (v.attachments.map (·.id)).Nodup
  fileIds : (v.attachments.map (·.fileId)).Nodup
  uploadIds : (v.attachments.map (·.uploadId)).Nodup

/-- The texts of a manifest that the owner's list shows are legible. -/
def Listed (m : ImportJobCreate P) : Prop :=
  Legible m.localTaskId.val ∧ Legible m.k3Result.modelLabel.val ∧
    ∀ t ∈ m.externalDocumentReference, Legible t.val

instance (m : ImportJobCreate P) : Decidable (Listed m) :=
  inferInstanceAs (Decidable (_ ∧ _ ∧ ∀ t ∈ m.externalDocumentReference, _))

def OwnerImportAttachment.ofView (v : ImportAttachmentView) : OwnerImportAttachment :=
  ⟨ofText v.id.text, ofText v.fileId.text, ofText v.uploadId.text, v.kind, v.fileState⟩

/-- The item that a view is read as. -/
def OwnerImportSummary.ofView (v : OwnerImportJobView) : OwnerImportSummary :=
  ⟨ofText v.id.text, ofText v.projectId.text, ofText v.localTaskId,
    v.externalDocumentReference.map ofText, ofText v.modelLabel, v.status,
    v.resultCode.map fun code => ofText (Text.ofString code),
    v.submittedAt.map fun t => toISOString (t / 1000), toISOString (v.createdAt / 1000),
    toISOString (v.updatedAt / 1000), v.attachments.map .ofView⟩

theorem parseAttachment_view {v : ImportAttachmentView} (hid : v.id.isRandom = true)
    (hfile : v.fileId.isRandom = true) (hupload : v.uploadId.isRandom = true) :
    parseAttachment v.dump = some (.ofView v) := by
  simp only [parseAttachment, record, ImportAttachmentView.dump, field?_cons, String.reduceEq,
    if_true, if_false, List.all_cons, List.all_nil, Option.isSome_some, Bool.and_self,
    Option.bind_eq_bind, Option.bind_some, stringField_uuid hid, stringField_uuid hfile,
    stringField_uuid hupload, kindField_value, stateField_value]
  rfl

theorem mapM_map {α β γ : Type} {f : β → Option γ} {g : α → β} {h : α → γ} {l : List α}
    (hf : ∀ a ∈ l, f (g a) = some (h a)) : (l.map g).mapM f = some (l.map h) := by
  induction l with
  | nil => rfl
  | cons a l ih =>
      rw [List.map_cons, List.mapM_cons, hf a List.mem_cons_self,
        ih fun b hb => hf b (List.mem_cons_of_mem a hb)]
      rfl

theorem ofText_inj {t t' : Text} (h : ∀ c ∈ t, Text.isSurrogate c = false)
    (h' : ∀ c ∈ t', Text.isSurrogate c = false) (heq : ofText t = ofText t') : t = t' := by
  rw [← codePoints_ofText h, heq, codePoints_ofText h']

theorem unicode_of_ascii {t : Text} (h : ∀ c ∈ t, c < 128) :
    ∀ c ∈ t, Text.isSurrogate c = false := by
  intro c hc
  have hlt := h c hc
  simp only [Text.isSurrogate, Bool.or_eq_false_iff, Bool.and_eq_false_iff,
    decide_eq_false_iff_not]
  omega

theorem uuidText_injective : Function.Injective fun u : UUID => ofText u.text := by
  intro u v h
  have htext : u.text = v.text := ofText_inj (unicode_of_ascii (ascii_text u))
    (unicode_of_ascii (ascii_text v)) h
  have hparse := UUID.parse_text u
  rw [htext, UUID.parse_text v] at hparse
  exact (Option.some.inj hparse).symm

theorem nodup_ofView {l : List ImportAttachmentView} {f : ImportAttachmentView → UUID}
    (h : (l.map f).Nodup) : (l.map fun v => ofText (f v).text).Nodup := by
  have hmap := h.map uuidText_injective
  rwa [List.map_map] at hmap

/-- The item of a view meets the client's checks on the whole. -/
theorem valid_ofView {v : ImportJobView P} {m : ImportJobCreate P} (hshows : Shows v m)
    (hdated : Dated v) (hapart : Apart v) :
    (OwnerImportSummary.ofView (.ofView v)).Valid := by
  obtain ⟨horder, hsubmission, hstatus, hresult⟩ := hshows.status
  have hday : ∀ {t : Instant}, IsDatetime t →
      Date.min ≤ t / 1000 / 86400000 ∧ t / 1000 / 86400000 ≤ Date.max := by
    intro (t : Int) (ht : (-62135596800 * 1000000 : Int) ≤ t ∧ t ≤ 253402300800 * 1000000 - 1)
    change (-719162 : Int) ≤ _ ∧ _ ≤ (2932896 : Int)
    omega
  have hmono : ∀ {t t' : Instant}, IsDatetime t → IsDatetime t' → t ≤ t' →
      toISOString (t / 1000) ≤ toISOString (t' / 1000) := fun ht ht' hle =>
    toISOString_mono (Int.ediv_le_ediv (by decide) hle) (hday ht) (hday ht')
  refine ⟨?_, ?_, ?_, ?_, ?_, ?_, ?_⟩
  · rw [OwnerImportSummary.ofView, List.map_map]
    exact nodup_ofView hapart.ids
  · rw [OwnerImportSummary.ofView, List.map_map]
    exact nodup_ofView hapart.fileIds
  · rw [OwnerImportSummary.ofView, List.map_map]
    exact nodup_ofView hapart.uploadIds
  · rw [OwnerImportSummary.ofView, List.map_map]
    exact hshows.kinds.nodup_iff.mpr m.kindsNodup
  · change validStateSemantics v.status (v.resultCode.map fun code => ofText (Text.ofString code))
      (v.submittedAt.map fun t => toISOString (t / 1000)) = true
    have hstatus' : v.status = .uploading ↔ v.submittedAt = none := hstatus
    have hresult' : (v.status = .rejected ∨ v.status = .conflict) ↔ v.resultCode ≠ none := by
      refine hresult.trans ?_
      rw [Ne, Ne, not_iff_not]
      exact Option.map_eq_none_iff
    revert hstatus' hresult'
    cases v.status <;> cases v.resultCode <;> cases v.submittedAt <;> simp [validStateSemantics]
  · exact hmono hdated.createdAt hdated.updatedAt horder
  · intro t ht
    obtain ⟨u, hu, rfl⟩ := Option.map_eq_some_iff.mp ht
    have hle := hsubmission u hu
    have hu' := hdated.submittedAt u hu
    exact ⟨hmono hdated.createdAt hu' hle.1, hmono hu' hdated.updatedAt hle.2⟩

theorem stringField_text {maxLength : Nat} (t : CleanText P false maxLength) :
    stringField (safeText · maxLength) (.str t.val) =
      if Legible t.val then some (ofText t.val) else none := by
  simp only [stringField, safeText_ofText t.property]

theorem referenceField_text {maxLength : Nat} (o : Option (CleanText P false maxLength)) :
    nullableField (stringField (safeText · maxLength)) (Json.ofOption .str (o.map (·.val))) =
      if ∀ t ∈ o, Legible t.val then some ((o.map (·.val)).map ofText) else none := by
  cases o with
  | none => rfl
  | some t =>
      change (stringField (safeText · maxLength) (.str t.val)).map some = _
      rw [stringField_text]
      by_cases h : Legible t.val
      · rw [if_pos h, if_pos (by rintro _ ⟨rfl⟩; exact h)]
        rfl
      · rw [if_neg h, if_neg fun hall => h (hall t rfl)]
        rfl

/-- The client reads the view of a job exactly when its texts are legible. -/
theorem parseSummary_view {dateParse : Text → Option Int} (hparse : ReadsDatetimes P dateParse)
    {v : ImportJobView P} {m : ImportJobCreate P} (hshows : Shows v m) (hdated : Dated v)
    (hdrawn : DrawnView v) (hapart : Apart v) :
    parseSummary dateParse (OwnerImportJobView.dump P (.ofView v)) =
      if Listed m then some (.ofView (.ofView v)) else none := by
  have hcode : nullableField (stringField isResultCode)
      (Json.ofOption (fun code => .str (Text.ofString code)) v.resultCode) =
        some (v.resultCode.map fun code => ofText (Text.ofString code)) :=
    nullableField_map (fun code hc => if_pos (isResultCode_of_mem (hshows.resultCode code hc)))
      fun _ => Json.noConfusion
  have hsubmitted : nullableField (timestamp dateParse)
      (Json.ofOption (fun t => .str (P.dumpDatetime t)) v.submittedAt) =
        some (v.submittedAt.map fun t => toISOString (t / 1000)) :=
    nullableField_map (fun t ht => timestamp_dump hparse (hdated.submittedAt t ht))
      fun _ => Json.noConfusion
  have hlength : v.attachments.length = m.attachments.length := by
    have hkinds := hshows.kinds.length_eq
    rwa [List.length_map, ManifestFields.kinds, List.length_map] at hkinds
  have hattachments : attachmentsField (.arr (v.attachments.map ImportAttachmentView.dump)) =
      some (v.attachments.map .ofView) := by
    rw [attachmentsField, List.length_map, hlength]
    refine (if_pos ⟨List.length_pos_iff.mpr m.attachments_ne_nil,
      ImportJobCreate.kinds_length_le _ m.kindsNodup⟩).trans ?_
    exact mapM_map fun a ha => parseAttachment_view (hdrawn.attachments a ha).1
      (hdrawn.attachments a ha).2.1 (hdrawn.attachments a ha).2.2
  have hexternal : nullableField (stringField (safeText · 1024))
      (Json.ofOption .str v.externalDocumentReference) =
        if ∀ t ∈ m.externalDocumentReference, Legible t.val then
          some (v.externalDocumentReference.map ofText) else none := by
    rw [hshows.externalDocumentReference]
    exact referenceField_text m.externalDocumentReference
  have htask : stringField (safeText · 255) (.str v.localTaskId) =
      if Legible m.localTaskId.val then some (ofText v.localTaskId) else none := by
    rw [hshows.localTaskId]
    exact stringField_text m.localTaskId
  have hlabel : stringField (safeText · 128) (.str v.k3Result.modelLabel.val) =
      if Legible m.k3Result.modelLabel.val then some (ofText v.k3Result.modelLabel.val)
      else none := by
    rw [hshows.k3Result]
    exact stringField_text m.k3Result.modelLabel
  simp only [parseSummary, record, OwnerImportJobView.dump, OwnerImportJobView.ofView, field?_cons,
    String.reduceEq, if_true, if_false, List.all_cons, List.all_nil, Option.isSome_some,
    Bool.and_self, Option.bind_eq_bind, Option.bind_some, stringField_uuid hdrawn.id,
    stringField_uuid hdrawn.projectId, htask, hlabel, hexternal, statusField_value, hcode,
    hattachments, timestamp_dump hparse hdated.createdAt, hsubmitted,
    timestamp_dump hparse hdated.updatedAt]
  by_cases hlisted : Listed m
  · rw [if_pos hlisted, if_pos hlisted.1, if_pos hlisted.2.1, if_pos hlisted.2.2]
    exact if_pos (valid_ofView hshows hdated hapart)
  · rw [if_neg hlisted]
    by_cases htaskLegible : Legible m.localTaskId.val
    · by_cases hlabelLegible : Legible m.k3Result.modelLabel.val
      · rw [if_pos htaskLegible, if_pos hlabelLegible,
          if_neg fun hreference => hlisted ⟨htaskLegible, hlabelLegible, hreference⟩]
        rfl
      · rw [if_pos htaskLegible, if_neg hlabelLegible]
        rfl
    · rw [if_neg htaskLegible]
      rfl

/-! ### The page -/

/-- The ids of a row and of its attachments were drawn by `uuid4`. -/
structure Drawn (s : Store) (j : ImportJob) : Prop where
  id : j.id.isRandom = true
  projectId : j.projectId.isRandom = true
  attachments : ∀ a ∈ s.attachmentsOf j.id,
    a.id.isRandom = true ∧ a.fileId.isRandom = true ∧ a.uploadId.isRandom = true

/-- The times of a row are datetimes. -/
structure Timed (j : ImportJob) : Prop where
  submittedAt : ∀ t ∈ j.submittedAt, IsDatetime t
  createdAt : IsDatetime j.createdAt
  updatedAt : IsDatetime j.updatedAt

/-- The manifest of a row has legible texts. -/
def ListedRow (P : Platform) (j : ImportJob) : Prop :=
  ∀ m : ImportJobCreate P, j.canonicalManifestJson = m.dump → Listed m

/-- An item of the client with the ids, texts, status and result code of a view. -/
structure Same (v : OwnerImportJobView) (item : OwnerImportSummary) : Prop where
  id : item.id.codePoints = v.id.text
  projectId : item.projectId.codePoints = v.projectId.text
  localTaskId : item.localTaskId.codePoints = v.localTaskId
  externalDocumentReference :
    item.externalDocumentReference.map codePoints = v.externalDocumentReference
  modelLabel : item.modelLabel.codePoints = v.modelLabel
  status : item.status = v.status
  resultCode : item.resultCode.map codePoints = v.resultCode.map Text.ofString
  attachments : List.Forall₂
    (fun (a : ImportAttachmentView) (b : OwnerImportAttachment) => b.id.codePoints = a.id.text ∧
      b.fileId.codePoints = a.fileId.text ∧ b.uploadId.codePoints = a.uploadId.text ∧
      b.kind = a.kind ∧ b.fileState = a.fileState) v.attachments item.attachments

theorem ascii_of_resultCode {code : String} (h : code ∈ resultCodes) :
    ∀ c ∈ Text.ofString code, c < 128 := by
  revert code
  decide

theorem length_of_resultCode {code : String} (h : code ∈ resultCodes) :
    1 ≤ (Text.ofString code).length ∧ (Text.ofString code).length ≤ 64 := by
  revert code
  decide

theorem codePoints_uuid (u : UUID) : (ofText u.text).codePoints = u.text :=
  codePoints_ofText (unicode_of_ascii (ascii_text u))

theorem same_ofView {v : ImportJobView P} {m : ImportJobCreate P} (hshows : Shows v m) :
    Same (.ofView v) (.ofView (.ofView v)) where
  id := codePoints_uuid v.id
  projectId := codePoints_uuid v.projectId
  localTaskId := by
    show (ofText v.localTaskId).codePoints = v.localTaskId
    rw [hshows.localTaskId]
    exact codePoints_ofText m.localTaskId.property.encodable
  externalDocumentReference := by
    show (v.externalDocumentReference.map ofText).map codePoints = v.externalDocumentReference
    rw [hshows.externalDocumentReference, Option.map_map, Option.map_map]
    exact Option.map_congr fun t _ => codePoints_ofText t.property.encodable
  modelLabel := codePoints_ofText v.k3Result.modelLabel.property.encodable
  status := rfl
  resultCode := by
    show (v.resultCode.map fun code => ofText (Text.ofString code)).map codePoints = _
    rw [Option.map_map]
    refine Option.map_congr fun code hcode => codePoints_ofText (unicode_of_ascii ?_)
    exact ascii_of_resultCode (hshows.resultCode code hcode)
  attachments := by
    show List.Forall₂ _ v.attachments (v.attachments.map OwnerImportAttachment.ofView)
    rw [List.forall₂_map_right_iff]
    exact List.forall₂_same.mpr fun a _ => ⟨codePoints_uuid a.id, codePoints_uuid a.fileId,
      codePoints_uuid a.uploadId, rfl, rfl⟩

section page

variable {cfg : ScannerConfig} {projects : List UUID} {s : SystemState P}

/-- What the list shows of a row. -/
structure RowView (s : Store) (j : ImportJob) (m : ImportJobCreate P) (v : ImportJobView P) :
    Prop where
  manifest : j.canonicalManifestJson = m.dump
  view : jobView P s j = some v
  shows : Shows v m
  dated : Dated v
  drawn : DrawnView v
  apart : Apart v

theorem exists_of_forall₂ {α β : Type} {R : α → β → Prop} {l : List α} {l' : List β}
    (h : List.Forall₂ R l l') {b : β} (hb : b ∈ l') : ∃ a ∈ l, R a b := by
  induction h with
  | nil => cases hb
  | cons hab _ ih =>
      rcases List.mem_cons.mp hb with rfl | hb
      · exact ⟨_, List.mem_cons_self, hab⟩
      · obtain ⟨a, ha, hr⟩ := ih hb
        exact ⟨a, List.mem_cons_of_mem _ ha, hr⟩

theorem rowView_of_reachable (h : Reachable (Server.next P cfg) (initialState P projects) s)
    {j : ImportJob} (hj : j ∈ s.store.jobs.rows) (hdrawn : Drawn s.store j) (htimed : Timed j) :
    ∃ m v, RowView (P := P) s.store j m v := by
  have hget := Table.get?_of_mem hj
  obtain ⟨m, hm⟩ := manifested_of_reachable h j.id j hget
  obtain ⟨v, hv, -⟩ := jobView_eq_some (consistent_of_reachable h).wellFormed hm
  have hread : viewJob P s.store j.id = .ok v := by
    simp only [viewJob, hget, hv]
  have hview := Connector.viewOfJob_of_reachable h hget hm hread
  have hrow : v.id = j.id ∧ v.projectId = j.projectId ∧ v.createdAt = j.createdAt ∧
      v.updatedAt = j.updatedAt := by
    obtain ⟨attachments, -, hview⟩ := Option.bind_eq_some_iff.mp hv
    obtain ⟨manifest, -, hview⟩ := Option.bind_eq_some_iff.mp hview
    cases hview
    exact ⟨rfl, rfl, rfl, rfl⟩
  obtain ⟨hid, hproject, hcreated, hupdated⟩ := hrow
  obtain ⟨hids, hfiles, huploads⟩ := Connector.attachmentsOf_nodup s.store j.id
  have hrows := hview.attachments
  refine ⟨m, v, ⟨hm, hv, hview.shows, ⟨?_, ?_, ?_⟩, ⟨?_, ?_, ?_⟩, ⟨?_, ?_, ?_⟩⟩⟩
  · rw [hview.submittedAt]
    exact htimed.submittedAt
  · rw [hcreated]
    exact htimed.createdAt
  · rw [hupdated]
    exact htimed.updatedAt
  · rw [hid]
    exact hdrawn.id
  · rw [hproject]
    exact hdrawn.projectId
  · intro a ha
    obtain ⟨row, hrow, hof⟩ := exists_of_forall₂ hrows ha
    rw [hof.id, hof.fileId, hof.uploadId]
    exact hdrawn.attachments row hrow
  · rwa [Connector.map_eq_of_forall₂ (g := (·.id)) hrows fun a v hav => hav.id]
  · rwa [Connector.map_eq_of_forall₂ (g := (·.fileId)) hrows fun a v hav => hav.fileId]
  · rwa [Connector.map_eq_of_forall₂ (g := (·.uploadId)) hrows fun a v hav => hav.uploadId]

theorem readable_ofView {v : ImportJobView P} {m : ImportJobCreate P} (h : Shows v m) :
    (OwnerImportJobView.ofView v).Readable := by
  have hlength : v.attachments.length = m.attachments.length := by
    have hkinds := h.kinds.length_eq
    rwa [List.length_map, ManifestFields.kinds, List.length_map] at hkinds
  refine ⟨?_, ?_, ⟨v.k3Result.modelLabel.property.minLength,
    v.k3Result.modelLabel.property.maxLength⟩, ?_, ?_⟩
  · show 1 ≤ v.localTaskId.length ∧ v.localTaskId.length ≤ localTaskIdMaxChars
    rw [h.localTaskId]
    exact ⟨m.localTaskId.property.minLength, m.localTaskId.property.maxLength⟩
  · intro t ht
    change t ∈ v.externalDocumentReference at ht
    rw [h.externalDocumentReference] at ht
    obtain ⟨u, -, rfl⟩ := Option.map_eq_some_iff.mp ht
    exact ⟨u.property.minLength, u.property.maxLength⟩
  · exact fun code hcode => length_of_resultCode (h.resultCode code hcode)
  · show 1 ≤ v.attachments.length ∧ v.attachments.length ≤ 3
    rw [hlength]
    exact ⟨List.length_pos_iff.mpr m.attachments_ne_nil,
      ImportJobCreate.kinds_length_le _ m.kindsNodup⟩

/-- The views of rows that are listed, and what they show. -/
theorem rowViews_of_reachable (h : Reachable (Server.next P cfg) (initialState P projects) s)
    (hrows : ∀ j ∈ s.store.jobs.rows, Drawn s.store j ∧ Timed j) (jobs : List ImportJob)
    (hjobs : ∀ j ∈ jobs, j ∈ s.store.jobs.rows) :
    ∃ views, jobs.mapM (jobView P s.store) = some views ∧
      List.Forall₂ (fun j v => ∃ m, RowView (P := P) s.store j m v) jobs views := by
  induction jobs with
  | nil => exact ⟨[], rfl, .nil⟩
  | cons j jobs ih =>
      have hj := hjobs j List.mem_cons_self
      obtain ⟨m, v, hv⟩ := rowView_of_reachable h hj (hrows j hj).1 (hrows j hj).2
      obtain ⟨views, hviews, hall⟩ := ih fun i hi => hjobs i (List.mem_cons_of_mem j hi)
      refine ⟨v :: views, ?_, .cons ⟨m, hv⟩ hall⟩
      rw [List.mapM_cons, hv.view, hviews]
      rfl

theorem RowView.listed {j : ImportJob} {m : ImportJobCreate P} {v : ImportJobView P} {st : Store}
    (h : RowView st j m v) : ListedRow P j ↔ Listed m := by
  refine ⟨fun hrow => hrow m h.manifest, fun hlisted m' hm' => ?_⟩
  rwa [← Connector.ImportJobCreate.dump_inj (h.manifest.symm.trans hm')]

/-- The client reads the views of rows one by one, and fails on the first that is not listed. -/
theorem parseSummaries {dateParse : Text → Option Int} (hparse : ReadsDatetimes P dateParse)
    {st : Store} {jobs : List ImportJob} {views : List (ImportJobView P)}
    (h : List.Forall₂ (fun j v => ∃ m, RowView (P := P) st j m v) jobs views) :
    ((views.map fun v => OwnerImportJobView.dump P (.ofView v)).mapM (parseSummary dateParse) =
        some (views.map fun v => .ofView (.ofView v)) ∧ ∀ j ∈ jobs, ListedRow P j) ∨
      ((views.map fun v => OwnerImportJobView.dump P (.ofView v)).mapM (parseSummary dateParse) =
        none ∧ ∃ j ∈ jobs, ¬ListedRow P j) := by
  induction h with
  | nil => exact .inl ⟨rfl, List.forall_mem_nil _⟩
  | @cons j v jobs views hrow _ ih =>
      obtain ⟨m, hrow⟩ := hrow
      rw [List.map_cons, List.map_cons, List.mapM_cons,
        parseSummary_view hparse hrow.shows hrow.dated hrow.drawn hrow.apart]
      by_cases hlisted : Listed m
      · rw [if_pos hlisted]
        rcases ih with ⟨hrest, hall⟩ | ⟨hrest, i, hi, hi'⟩
        · refine .inl ⟨?_, List.forall_mem_cons.mpr ⟨hrow.listed.mpr hlisted, hall⟩⟩
          rw [hrest]
          rfl
        · refine .inr ⟨?_, i, List.mem_cons_of_mem j hi, hi'⟩
          rw [hrest]
          rfl
      · rw [if_neg hlisted]
        exact .inr ⟨rfl, j, List.mem_cons_self, fun hj => hlisted (hrow.listed.mp hj)⟩

theorem same_ofViews {st : Store} {jobs : List ImportJob} {views : List (ImportJobView P)}
    (h : List.Forall₂ (fun j v => ∃ m, RowView (P := P) st j m v) jobs views) :
    List.Forall₂ Same (views.map .ofView)
      (views.map fun v => OwnerImportSummary.ofView (.ofView v)) := by
  induction h with
  | nil => exact .nil
  | cons hrow _ ih =>
      obtain ⟨m, hrow⟩ := hrow
      exact .cons (same_ofView hrow.shows) ih

end page

/-- In every reachable state the server answers an owner's list request, and the client reads
the whole page, item by item with the same ids, texts, status and result code, exactly when
every job on it has legible texts; otherwise it reads nothing of it. -/
theorem owner_list_read_iff (P : Platform) (cfg : ScannerConfig) (projects : List UUID)
    {dateParse : Text → Option Int} (hparse : ReadsDatetimes P dateParse) {s : SystemState P}
    (h : Reachable (Server.next P cfg) (initialState P projects) s)
    (hrows : ∀ j ∈ s.store.jobs.rows, Drawn s.store j ∧ Timed j) {actor : Actor}
    (hactor : actor.kind = .user ∧ actor.role = some .owner) {limit : Int}
    (hlimit : 1 ≤ limit ∧ limit ≤ 100) :
    ∃ views, listOwner P s.store actor limit = .ok views ∧
      views.length = (s.store.newestJobs limit).length ∧
      (∀ items, list dateParse (listOwnerImports P s.store actor) limit = some items →
        List.Forall₂ Same views items) ∧
      ((∃ items, list dateParse (listOwnerImports P s.store actor) limit = some items) ↔
        ∀ j ∈ s.store.newestJobs limit, ListedRow P j) := by
  obtain ⟨views, hviews, hall⟩ := rowViews_of_reachable h hrows (s.store.newestJobs limit)
    fun j hj => (List.mem_insertionSort _).mp (List.mem_of_mem_take hj)
  have hlist : listOwner P s.store actor limit = .ok (views.map .ofView) := by
    rw [listOwner, if_neg (by rw [hactor.1, hactor.2]; decide), if_neg (not_not.mpr hlimit)]
    rw [Store.newestJobs] at hviews
    simp only [hviews]
  have hreadable : ∀ v ∈ views.map OwnerImportJobView.ofView, v.Readable := by
    intro v hv
    obtain ⟨w, hw, rfl⟩ := List.mem_map.mp hv
    obtain ⟨j, -, m, hrow⟩ := exists_of_forall₂ hall hw
    exact readable_ofView hrow.shows
  have hanswer : listOwnerImports P s.store actor limit =
      (200, .arr (views.map fun v => OwnerImportJobView.dump P (.ofView v))) := by
    rw [listOwnerImports, if_neg (not_not.mpr hlimit), hlist]
    change (if _ then _ else _) = _
    rw [if_pos hreadable, List.map_map]
    rfl
  have hcount : views.length = (s.store.newestJobs limit).length := hall.length_eq.symm
  have hshort : views.length ≤ 100 := by
    rw [hcount, Store.newestJobs, List.length_take]
    omega
  have hclient : list dateParse (listOwnerImports P s.store actor) limit =
      (views.map fun v => OwnerImportJobView.dump P (.ofView v)).mapM
        (parseSummary dateParse) := by
    rw [list, if_pos (show 1 ≤ limit ∧ limit ≤ maxOwnerImports from hlimit), hanswer]
    exact if_pos (by rw [List.length_map]; exact hshort)
  refine ⟨views.map .ofView, hlist, by rw [List.length_map, hcount], ?_, ?_⟩
  · intro items hitems
    rw [hclient] at hitems
    rcases parseSummaries hparse hall with ⟨hparsed, -⟩ | ⟨hparsed, -⟩
    · rw [hparsed] at hitems
      cases hitems
      exact same_ofViews hall
    · rw [hparsed] at hitems
      cases hitems
  · rw [hclient]
    rcases parseSummaries hparse hall with ⟨hparsed, hlisted⟩ | ⟨hparsed, j, hj, hnot⟩
    · exact iff_of_true ⟨_, hparsed⟩ hlisted
    · refine iff_of_false ?_ fun hlisted => hnot (hlisted j hj)
      rintro ⟨items, hitems⟩
      rw [hparsed] at hitems
      cases hitems

/-! ### Sample pages -/

namespace Sample

/-- The sample platform with every datetime in a spelling that ends with its zone. -/
def zoned : Platform :=
  { Server.Sample.platform with
    parseDatetime
      | .str t => some ⟨Equiv.intEquivNat.symm (t.length - 1), some 0⟩
      | _ => none
    dumpDatetime := fun t => List.replicate (Equiv.intEquivNat t) 65 ++ [90]
    parseDatetime_dump := fun t _ _ => by simp }

def zonedParse (t : Text) : Option Int := some (Equiv.intEquivNat.symm (t.length - 1) / 1000)

theorem readsDatetimes : ReadsDatetimes zoned zonedParse := by
  have hunits : ∀ t : Instant, (ofText (zoned.dumpDatetime t)).units =
      List.replicate (Equiv.intEquivNat t) 65 ++ [90] := by
    intro t
    refine units_ofText fun c hc => ?_
    rcases List.mem_append.mp hc with hc | hc
    · rw [List.eq_of_mem_replicate hc]
      decide
    · rw [List.mem_singleton.mp hc]
      decide
  refine ⟨fun t _ => ?_, fun t _ => ?_⟩
  · rw [hunits, hasZone, List.reverse_append]
    rfl
  · rw [hunits, zonedParse, List.length_append, List.length_replicate]
    exact congrArg (fun n => some (n / 1000)) (Equiv.symm_apply_apply _ t)

/-- An id as `uuid4` draws it. -/
def drawn (n : Nat) : UUID := BitVec.ofNat 128 (0x40008000000000000000 + n)

def body (localTaskId : Text) : Json :=
  .obj [Json.field "project_id" (.str (drawn 1).text),
    Json.field "local_task_id" (.str localTaskId),
    Json.field "k3_result" Server.Sample.k3Result.dump,
    Json.field "attachments" (.arr [(Server.Sample.declaration .k3Raw).dump])]

/-- The device that may create jobs in the project. -/
def device : Actor := { Server.Sample.device with projectIds := [drawn 1] }

/-- A job created with the given local task id: file 10, job 20, attachment 30. -/
def listed (localTaskId : Text) : Option (SystemState zoned) := do
  let m ← (ImportJobCreate.validate zoned (body localTaskId)).toOption
  let creation : CreateCall zoned := ⟨device, m, Text.ofString "create-key-00000001", 40⟩
  let answer := Server.Sample.answer
  run (Server.next zoned Server.Sample.scanner) (initialState zoned [drawn 1])
    (.spawn (.createImport creation (.running .begin)) ::
      List.replicate 8 (.act 0 { answer with uuid := drawn 10 }) ++
        List.replicate 2 (.act 0 { answer with uuid := drawn 20, attachmentIds := [drawn 30] }))
/-- The client's reading of the owner's list. -/
def ownerList (s : SystemState zoned) : Option (List OwnerImportSummary) :=
  list zonedParse (listOwnerImports zoned s.store Server.Sample.owner) 100

def rowsOk (s : SystemState zoned) : Bool :=
  s.store.jobs.rows.all fun j =>
    j.id.isRandom && j.projectId.isRandom && (s.store.attachmentsOf j.id).all (fun a =>
      a.id.isRandom && a.fileId.isRandom && a.uploadId.isRandom) &&
    j.submittedAt.isNone && j.createdAt == 0 && j.updatedAt == 0

theorem rows_of_rowsOk {s : SystemState zoned} (h : rowsOk s = true) :
    ∀ j ∈ s.store.jobs.rows, Drawn s.store j ∧ Timed j := by
  intro j hj
  have hrow := List.all_eq_true.mp h j hj
  simp only [Bool.and_eq_true, List.all_eq_true, beq_iff_eq, Option.isNone_iff_eq_none] at hrow
  obtain ⟨⟨⟨⟨⟨hid, hproject⟩, hattachments⟩, hsubmitted⟩, hcreated⟩, hupdated⟩ := hrow
  refine ⟨⟨hid, hproject, fun a ha => ?_⟩, ⟨fun t ht => ?_, ?_, ?_⟩⟩
  · obtain ⟨⟨ha, hfile⟩, hupload⟩ := hattachments a ha
    exact ⟨ha, hfile, hupload⟩
  · rw [hsubmitted] at ht
    cases ht
  · rw [hcreated]
    exact Server.Sample.epoch_ok
  · rw [hupdated]
    exact Server.Sample.epoch_ok

theorem reachable_of_listed {localTaskId : Text} {s : SystemState zoned}
    (h : listed localTaskId = some s) :
    Reachable (Server.next zoned Server.Sample.scanner) (initialState zoned [drawn 1]) s := by
  obtain ⟨m, -, hrun⟩ := Option.bind_eq_some_iff.mp h
  exact ⟨_, hrun⟩

end Sample

/-- A page with one job. -/
theorem owner_list_read_task :
    ∃ s views items, Sample.listed (Text.ofString "task") = some s ∧
      listOwner Sample.zoned s.store Server.Sample.owner 100 = .ok views ∧ views.length = 1 ∧
      Sample.ownerList s = some items ∧ List.Forall₂ Same views items := by
  have hrun : ((Sample.listed (Text.ofString "task")).map fun s =>
      (Sample.rowsOk s, (s.store.newestJobs 100).length, (Sample.ownerList s).isSome)) =
        some (true, 1, true) := by decide +kernel
  obtain ⟨s, hs, hchecks⟩ := Option.map_eq_some_iff.mp hrun
  obtain ⟨hrows, hchecks⟩ := Prod.mk.inj hchecks
  obtain ⟨hcount, hread⟩ := Prod.mk.inj hchecks
  obtain ⟨items, hitems⟩ := Option.isSome_iff_exists.mp hread
  have howner : Server.Sample.owner.kind = .user ∧ Server.Sample.owner.role = some .owner :=
    ⟨rfl, rfl⟩
  have hlimit : (1 : Int) ≤ 100 ∧ (100 : Int) ≤ 100 := by decide
  obtain ⟨views, hviews, hlength, hsame, -⟩ :=
    owner_list_read_iff Sample.zoned Server.Sample.scanner [Sample.drawn 1] Sample.readsDatetimes
      (Sample.reachable_of_listed hs) (Sample.rows_of_rowsOk hrows) howner hlimit
  exact ⟨s, views, items, hs, hviews, hlength.trans hcount, hitems, hsame items hitems⟩

/-- One job whose local task id starts with a C1 control, and the page is not read. -/
theorem owner_list_poisoned :
    ∃ s, Sample.listed [0x80, 65] = some s ∧
      (listOwner Sample.zoned s.store Server.Sample.owner 100).isOk = true ∧
      Sample.ownerList s = none := by
  have hrun : ((Sample.listed [0x80, 65]).map fun s =>
      ((listOwner Sample.zoned s.store Server.Sample.owner 100).isOk, Sample.ownerList s)) =
        some (true, none) := by decide +kernel
  obtain ⟨s, hs, hchecks⟩ := Option.map_eq_some_iff.mp hrun
  exact ⟨s, hs, (Prod.mk.inj hchecks).1, (Prod.mk.inj hchecks).2⟩

end SuperBoss.Web
