import SuperBoss.Core.Encoding
import Mathlib.Data.List.Perm.Basic

/-!
Field validators of pydantic models with `str_strip_whitespace` and
`extra="forbid"`. A validated value carries what its validator checked, so
that dumping it and validating the dump again gives it back.
-/

namespace SuperBoss.Core

open Text

section fields

variable {α : Type}

def requiredField (fields : List (Text × Json)) (name : String)
    (parse : Json → Except PyError α) : Except PyError α :=
  match Json.field? fields name with
  | none => .error .validation
  | some j => parse j

/-- A field with a default, on which the validators do not run. -/
def defaultField (fields : List (Text × Json)) (name : String) (default : α)
    (parse : Json → Except PyError α) : Except PyError α :=
  match Json.field? fields name with
  | none => .ok default
  | some j => parse j

/-- `T | None`. -/
def nullable (parse : Json → Except PyError α) : Json → Except PyError (Option α)
  | .null => .ok none
  | j => (parse j).map some

/-- `list[T]` with bounds on the number of items. -/
def listOf (minLength maxLength : Nat) (parse : Json → Except PyError α) :
    Json → Except PyError (List α)
  | .arr items =>
      if minLength ≤ items.length ∧ items.length ≤ maxLength then collectList parse items
      else .error .validation
  | _ => .error .validation

@[simp] theorem field?_nil (name : String) : Json.field? [] name = none := rfl

@[simp] theorem field?_cons (n name : String) (j : Json) (fields : List (Text × Json)) :
    Json.field? (Json.field n j :: fields) name =
      if n = name then some j else Json.field? fields name := by
  unfold Json.field? Json.field
  rw [List.find?_cons]
  by_cases h : n = name <;> simp [h, Text.ofString_inj]

@[simp] theorem onlyKeys_nil (names : List String) : Json.onlyKeys names [] = true := rfl

@[simp] theorem onlyKeys_cons (names : List String) (n : String) (j : Json)
    (fields : List (Text × Json)) :
    Json.onlyKeys names (Json.field n j :: fields) =
      (names.contains n && Json.onlyKeys names fields) := by
  have hname : (fun m => decide (Text.ofString n = Text.ofString m)) = fun m => n == m := by
    funext m
    by_cases h : n = m <;> simp [h, Text.ofString_inj]
  simp only [Json.onlyKeys, Json.field, List.all_cons, List.contains_eq_any_beq, hname]

theorem collectList_map {f : Json → Except PyError α} {g : α → Json}
    (h : ∀ a, f (g a) = .ok a) (l : List α) : collectList f (l.map g) = .ok l := by
  induction l with
  | nil => rfl
  | cons a l ih => simp [collectList, h a, ih, collect]

theorem listOf_map {f : Json → Except PyError α} {g : α → Json} (h : ∀ a, f (g a) = .ok a)
    {l : List α} {minLength maxLength : Nat} (hmin : minLength ≤ l.length)
    (hmax : l.length ≤ maxLength) : listOf minLength maxLength f (.arr (l.map g)) = .ok l := by
  simp [listOf, hmin, hmax, collectList_map h]

theorem nullable_ofOption {f : Json → Except PyError α} {g : α → Json}
    (h : ∀ a, f (g a) = .ok a) (hnull : ∀ a, g a ≠ .null) (o : Option α) :
    nullable f (Json.ofOption g o) = .ok o := by
  cases o with
  | none => rfl
  | some a =>
      simp only [Json.ofOption]
      unfold nullable
      split
      · exact absurd ‹_› (hnull a)
      · rw [h a]
        rfl

end fields

section texts

variable (P : Platform)

/-- `_normalize_text`. -/
def normalizeText (document : Bool) (t : Text) : Text :=
  if document then foldNewlines (P.unicode.nfc t) else P.unicode.nfc t

/-- What holds of a validated text. -/
structure Clean (document : Bool) (maxLength : Nat) (t : Text) : Prop where
  normal : P.unicode.Normal t
  newlines : document = true → 13 ∉ t
  stripped : strip t = t
  minLength : 1 ≤ t.length
  maxLength : t.length ≤ maxLength
  encodable : ∀ c ∈ t, isSurrogate c = false
  controls : noControls document t = true

def CleanText (document : Bool) (maxLength : Nat) : Type :=
  { t : Text // Clean P document maxLength t }

instance (document : Bool) (maxLength : Nat) : DecidableEq (CleanText P document maxLength) :=
  inferInstanceAs (DecidableEq { t : Text // Clean P document maxLength t })

theorem normalizeText_normal (document : Bool) (t : Text) :
    P.unicode.Normal (normalizeText P document t) := by
  cases document with
  | false => exact P.unicode.nfc_nfc t
  | true => exact Nfc.Normal.foldNewlines (P.unicode.nfc_nfc t)

theorem notMem_normalizeText (t : Text) : 13 ∉ normalizeText P true t :=
  notMem_foldNewlines _

variable {P} in
theorem Clean.normalizeText_eq {document : Bool} {maxLength : Nat} {t : Text}
    (h : Clean P document maxLength t) : normalizeText P document t = t := by
  cases document with
  | false => exact h.normal
  | true =>
      have hnormal : P.unicode.nfc t = t := h.normal
      simp only [normalizeText, if_true, hnormal]
      exact foldNewlines_of_notMem (h.newlines rfl)

/-- The after-validator of a text field. It rejects control characters, and
accepts every clean text. -/
structure SafeText where
  check : Bool → Text → Bool
  sound : ∀ {document t}, check document t = true → noControls document t = true
  complete : ∀ {P document maxLength t}, Clean P document maxLength t → check document t = true

/-- A text through the normalizer, the `str` of pydantic and the after-validator. -/
def cleanText (safe : SafeText) (document : Bool) (maxLength : Nat) (t : Text) :
    Except PyError (CleanText P document maxLength) :=
  let s := strip (normalizeText P document t)
  if h : (∀ c ∈ s, isSurrogate c = false) ∧ (1 ≤ s.length ∧ s.length ≤ maxLength) ∧
      safe.check document s = true then
    .ok ⟨s, {
      normal := (normalizeText_normal P document t).of_isInfix (strip_isInfix _)
      newlines := fun hd hm => by
        subst hd
        exact notMem_normalizeText P t ((strip_isInfix _).subset hm)
      stripped := strip_strip _
      minLength := h.2.1.1
      maxLength := h.2.1.2
      encodable := h.1
      controls := safe.sound h.2.2 }⟩
  else .error .validation

def textField (safe : SafeText) (document : Bool) (maxLength : Nat) :
    Json → Except PyError (CleanText P document maxLength)
  | .str t => cleanText P safe document maxLength t
  | _ => .error .validation

variable {P}

def CleanText.dump {document : Bool} {maxLength : Nat} (t : CleanText P document maxLength) :
    Json := .str t.val

theorem cleanText_val {safe : SafeText} {document : Bool} {maxLength : Nat}
    (t : CleanText P document maxLength) :
    cleanText P safe document maxLength t.val = .ok t := by
  have h := t.property
  have hs : strip (normalizeText P document t.val) = t.val := by
    rw [h.normalizeText_eq, h.stripped]
  unfold cleanText
  simp only [hs]
  rw [dif_pos ⟨h.encodable, ⟨h.minLength, h.maxLength⟩, safe.complete h⟩]
  rfl

theorem textField_dump {safe : SafeText} {document : Bool} {maxLength : Nat}
    (t : CleanText P document maxLength) :
    textField P safe document maxLength t.dump = .ok t :=
  cleanText_val t

/-- Texts are equal when their dumps are. -/
theorem CleanText.dump_inj {document : Bool} {maxLength : Nat}
    {s t : CleanText P document maxLength} : s.dump = t.dump ↔ s = t := by
  simp only [CleanText.dump, Json.str.injEq]
  exact Subtype.ext_iff.symm

end texts

/-- The values that `[0-9a-f]{64}` matches. -/
def Digest : Type := { t : Text // isDigest t = true }

instance : DecidableEq Digest := inferInstanceAs (DecidableEq { t : Text // isDigest t = true })

def Digest.dump (d : Digest) : Json := .str d.val

/-- A stripped `str` that the regular expression has to match. -/
def digest (t : Text) : Except PyError Digest :=
  if h : isDigest (strip t) = true then .ok ⟨strip t, h⟩ else .error .validation

def digestField : Json → Except PyError Digest
  | .str t => digest t
  | _ => .error .validation

def mimeMaxLength : Nat := 255

def MimeType : Type :=
  { t : Text // (1 ≤ t.length ∧ t.length ≤ mimeMaxLength) ∧ isMimeType t = true }

instance : DecidableEq MimeType := inferInstanceAs
  (DecidableEq { t : Text // (1 ≤ t.length ∧ t.length ≤ mimeMaxLength) ∧ isMimeType t = true })

def MimeType.dump (m : MimeType) : Json := .str m.val

def mimeType (t : Text) : Except PyError MimeType :=
  let s := strip t
  if h : (1 ≤ s.length ∧ s.length ≤ mimeMaxLength) ∧ isMimeType s = true then .ok ⟨s, h⟩
  else .error .validation

def mimeField : Json → Except PyError MimeType
  | .str t => mimeType t
  | _ => .error .validation

/-- A text without white space is its own strip. -/
theorem strip_of_forall {t : Text} (h : ∀ c ∈ t, isWhitespace c = false) : strip t = t := by
  have hdrop : t.dropWhile isWhitespace = t := by
    rw [List.dropWhile_eq_self_iff]
    intro hpos
    simp [h _ (List.getElem_mem hpos)]
  rw [strip, hdrop, List.rdropWhile_eq_self_iff]
  intro hne
  simp [h _ (List.getLast_mem hne)]

theorem isWhitespace_of_isLowerHex {c : Nat} (h : isLowerHex c = true) :
    isWhitespace c = false := by
  simp only [isLowerHex, Bool.or_eq_true, Bool.and_eq_true, decide_eq_true_eq] at h
  simp only [isWhitespace, Bool.or_eq_false_iff, Bool.and_eq_false_iff, decide_eq_false_iff_not,
    beq_eq_false_iff_ne]
  omega

theorem isWhitespace_of_isMimeChar {c : Nat} (h : isMimeChar c = true ∨ c = 47) :
    isWhitespace c = false := by
  simp only [isMimeChar, isAlnumAscii, Bool.or_eq_true, Bool.and_eq_true, decide_eq_true_eq,
    List.contains_iff_mem, List.mem_cons, List.not_mem_nil, or_false] at h
  simp only [isWhitespace, Bool.or_eq_false_iff, Bool.and_eq_false_iff, decide_eq_false_iff_not,
    beq_eq_false_iff_ne]
  omega

theorem isMimeChar_of_mem {t : Text} (h : isMimeType t = true) {c : Nat} (hc : c ∈ t) :
    isMimeChar c = true ∨ c = 47 := by
  unfold isMimeType at h
  split at h
  · rename_i a b hspan
    rw [List.span_eq_takeWhile_dropWhile, Prod.mk.injEq] at hspan
    rw [← List.takeWhile_append_dropWhile (p := isMimeChar) (l := t), hspan.2] at hc
    simp only [Bool.and_eq_true, List.all_eq_true] at h
    rcases List.mem_append.mp hc with hc | hc
    · exact .inl (List.mem_takeWhile_imp hc)
    · rcases List.mem_cons.mp hc with rfl | hc
      · exact .inr rfl
      · exact .inl (h.2 c hc)
  · cases h

theorem digest_val (d : Digest) : digest d.val = .ok d := by
  have hall : ∀ c ∈ d.val, isLowerHex c = true := by
    have h := d.property
    simp only [isDigest, Bool.and_eq_true, List.all_eq_true] at h
    exact h.2
  have hs : strip d.val = d.val :=
    strip_of_forall fun c hc => isWhitespace_of_isLowerHex (hall c hc)
  unfold digest
  rw [dif_pos (hs.symm ▸ d.property)]
  exact congrArg Except.ok (Subtype.ext hs)

theorem digestField_dump (d : Digest) : digestField d.dump = .ok d := digest_val d

theorem mimeType_val (m : MimeType) : mimeType m.val = .ok m := by
  have hs : strip m.val = m.val := strip_of_forall fun c hc =>
    isWhitespace_of_isMimeChar (isMimeChar_of_mem m.property.2 hc)
  unfold mimeType
  simp only [hs]
  rw [dif_pos m.property]
  rfl

theorem mimeField_dump (m : MimeType) : mimeField m.dump = .ok m := mimeType_val m

/-- Datetimes that Python can hold. -/
def Moment : Type := { t : Instant // Instant.min ≤ t ∧ t ≤ Instant.max }

instance : DecidableEq Moment :=
  inferInstanceAs (DecidableEq { t : Instant // Instant.min ≤ t ∧ t ≤ Instant.max })

namespace Datetime

/-- `value.astimezone(UTC)` behind the check that an offset is there. -/
def toUtc (d : Datetime) : Except PyError Moment :=
  match d.offset with
  | none => .error .validation
  | some offset =>
      if h : Instant.min ≤ d.wall - offset ∧ d.wall - offset ≤ Instant.max then
        .ok ⟨d.wall - offset, h⟩
      else .error .overflow

end Datetime

section platform

variable (P : Platform)

def Moment.dump (t : Moment) : Json := .str (P.dumpDatetime t.val)

def datetimeField (j : Json) : Except PyError Moment :=
  match P.parseDatetime j with
  | none => .error .validation
  | some d => d.toUtc

def uuidField : Json → Except PyError UUID
  | .str t =>
      match P.parseUuid t with
      | none => .error .validation
      | some u => .ok u
  | _ => .error .validation

/-- `int = Field(ge=min, le=max)`. -/
def natField (min max : Nat) (j : Json) : Except PyError { n : Nat // min ≤ n ∧ n ≤ max } :=
  match P.parseInt j with
  | none => .error .validation
  | some n =>
      if h : 0 ≤ n ∧ min ≤ n.toNat ∧ n.toNat ≤ max then .ok ⟨n.toNat, h.2⟩
      else .error .validation

theorem datetimeField_dump (t : Moment) : datetimeField P (t.dump P) = .ok t := by
  simp only [datetimeField, Moment.dump, P.parseDatetime_dump t.val t.property.1 t.property.2,
    Datetime.toUtc, Int.sub_zero]
  rw [dif_pos t.property]
  rfl

theorem uuidField_text (u : UUID) : uuidField P (.str u.text) = .ok u := by
  simp [uuidField, P.parseUuid_text]

theorem natField_int {min max : Nat} (n : { n : Nat // min ≤ n ∧ n ≤ max }) :
    natField P min max (.int n.val) = .ok n := by
  simp only [natField, P.parseInt_int, Int.toNat_natCast]
  rw [dif_pos ⟨Int.natCast_nonneg _, n.property⟩]

end platform

end SuperBoss.Core
