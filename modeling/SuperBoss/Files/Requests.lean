import SuperBoss.Core.Calendar
import SuperBoss.Core.Json
import SuperBoss.Files.Models

/-!
The requests of the upload endpoints: what pydantic makes of their JSON bodies, and
the pattern of the `Idempotency-Key` header.
-/

namespace SuperBoss.Core

/-- A string that can be encoded: pydantic refuses unpaired surrogates in a string
with a bound on its length. -/
def Text.isUnicode (t : Text) : Bool := t.all fun c => !isSurrogate c

namespace UUID

def isHexDigit (c : Nat) : Bool :=
  (48 ≤ c && c ≤ 57) || (65 ≤ c && c ≤ 70) || (97 ≤ c && c ≤ 102)

/-- Groups of 8, 4, 4, 4 and 12 hexadecimal digits. -/
def isHyphenated (t : Text) : Bool :=
  t.length == 36 && (List.range 36).all fun i =>
    if i ∈ [8, 13, 18, 23] then t[i]? == some 45 else t[i]?.any isHexDigit

def hexDigitValue (c : Nat) : Nat :=
  if c ≤ 57 then c - 48 else if c ≤ 70 then c - 55 else c - 87

/-- The validator of `UUID` on the hyphenated form. -/
def ofHyphenated (t : Text) : Option UUID :=
  if isHyphenated t then
    some (BitVec.ofNat 128 ((t.filter fun c => c != 45).foldl (fun n c => n * 16 + hexDigitValue c) 0))
  else none

theorem mem_isHyphenated {t : Text} (h : isHyphenated t = true) {c : Nat} (hc : c ∈ t) :
    c < 128 := by
  simp only [isHyphenated, Bool.and_eq_true, beq_iff_eq, List.all_eq_true, List.mem_range] at h
  obtain ⟨hlength, hall⟩ := h
  obtain ⟨i, hi, rfl⟩ := List.mem_iff_getElem.mp hc
  have hdigit := hall i (by omega)
  rw [List.getElem?_eq_getElem hi] at hdigit
  split at hdigit
  · have heq : t[i] = 45 := by simpa using hdigit
    omega
  · simp only [Option.any_some, isHexDigit, Bool.or_eq_true, Bool.and_eq_true,
      decide_eq_true_eq] at hdigit
    omega

end UUID

end SuperBoss.Core

namespace SuperBoss.Files

open SuperBoss.Core

/-- The fields of a body of `POST /files/uploads`. -/
structure StartBody where
  projectId : Text
  filename : Text
  sizeBytes : Int
  sha256 : Text
  category : Text
  fileDate : Text
  contentType : Text
  deriving DecidableEq

/-- `UploadStart` of a request body; none is a validation error. -/
def UploadStart.ofBody (b : StartBody) : Option UploadStart := do
  let projectId ← UUID.ofHyphenated b.projectId
  let fileDate ← Date.parse b.fileDate
  if 0 ≤ b.sizeBytes ∧ Text.isUnicode b.filename ∧ Text.isUnicode b.category ∧
      Text.isUnicode b.contentType then
    UploadStart.validate projectId b.filename b.sizeBytes.toNat b.sha256 b.category fileDate
      b.contentType
  else none

/-- A part in a body of `POST /files/uploads/{id}/complete`. -/
structure PartBody where
  partNumber : Int
  etag : Text
  deriving DecidableEq

/-- What `str.strip` removes. -/
def isStripped (c : Nat) : Bool := Text.isWhitespace c || (0x1C ≤ c && c ≤ 0x1F)

/-- `PartComplete`. -/
def PartComplete.ofBody (b : PartBody) : Option CompletedPart :=
  if (1 ≤ b.partNumber ∧ b.partNumber ≤ 10000) ∧ Text.isUnicode b.etag ∧
      1 ≤ b.etag.length ∧ b.etag.length ≤ 1024 then
    let etag := (b.etag.dropWhile isStripped).rdropWhile isStripped
    if etag ≠ [] ∧ Text.noControls false etag then some ⟨b.partNumber.toNat, etag⟩ else none
  else none

/-- `UploadComplete`: the parts in the order of their numbers. -/
def UploadComplete.ofBody (parts : List PartBody) : Option (List CompletedPart) :=
  if parts = [] then none
  else
    (parts.mapM PartComplete.ofBody).bind fun parts =>
      if (parts.map (·.partNumber)).Nodup then
        some (parts.insertionSort fun a b => a.partNumber ≤ b.partNumber)
      else none

end SuperBoss.Files
