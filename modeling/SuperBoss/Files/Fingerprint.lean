import SuperBoss.Core.Encoding
import SuperBoss.Core.Platform
import SuperBoss.Files.Models

/-!
Texts that are joined of parts and determine them: the metadata fingerprint of an
upload tells metadata apart, and an object key files.
-/

namespace SuperBoss.Files

open SuperBoss.Core

/-! ### Fingerprints -/

/-- Filename, category, date, size, digest and content type. -/
abbrev Metadata := Text × Text × Date × Nat × Text × Text

def UploadStart.metadata (command : UploadStart) : Metadata :=
  (command.filename, command.category, command.fileDate, command.sizeBytes, command.sha256,
    command.contentType)

def File.metadata (f : File) : Metadata :=
  (f.filename, f.category, f.fileDate, f.sizeBytes, f.sha256, f.contentType)

/-- The parts that `_fingerprint` joins. -/
def Metadata.parts (m : Metadata) : List Text :=
  [m.1, m.2.1, m.2.2.1.isoformat, Text.ofNat m.2.2.2.1, m.2.2.2.2.1, m.2.2.2.2.2]

/-- The bytes that `_fingerprint` hashes. -/
def Metadata.bytes (m : Metadata) : Option Bytes := (Text.join [0x1F] m.parts).utf8

def Metadata.hashed (m : Metadata) : Bytes := m.bytes.getD []

theorem fingerprint_eq (P : Platform) (command : UploadStart) :
    fingerprint P command = command.metadata.bytes.map P.sha256 := rfl

theorem separator_notMem_of_safeText {maxLength : Nat} {t : Text}
    (h : safeText maxLength t = true) : 0x1F ∉ t := by
  intro hmem
  have hcontrols := (Bool.and_eq_true_iff.mp h).2
  have hc := List.all_eq_true.mp hcontrols _ hmem
  simp at hc

theorem separator_notMem_of_mimeType {t : Text} (h : Text.isMimeType t = true) : 0x1F ∉ t := by
  intro hmem
  unfold Text.isMimeType at h
  rw [List.span_eq_takeWhile_dropWhile] at h
  split at h
  · rename_i a b hspan
    obtain ⟨htake, hdrop⟩ := Prod.mk.inj hspan
    rw [← List.takeWhile_append_dropWhile (p := Text.isMimeChar) (l := t)] at hmem
    rcases List.mem_append.mp hmem with hmem | hmem
    · have hc := List.mem_takeWhile_imp hmem
      simp [Text.isMimeChar, Text.isAlnumAscii] at hc
    · rw [hdrop] at hmem
      rcases List.mem_cons.mp hmem with hc | hmem
      · simp at hc
      · have hc := List.all_eq_true.mp (Bool.and_eq_true_iff.mp h).2 _ hmem
        simp [Text.isMimeChar, Text.isAlnumAscii] at hc
  · cases h

theorem UploadStart.separator_notMem (command : UploadStart) :
    ∀ t ∈ command.metadata.parts, 0x1F ∉ t := by
  intro t ht
  simp only [Metadata.parts, metadata, List.mem_cons, List.not_mem_nil, or_false] at ht
  rcases ht with rfl | rfl | rfl | rfl | rfl | rfl
  · exact separator_notMem_of_safeText command.safeFilename
  · exact separator_notMem_of_safeText command.safeCategory
  · intro hmem
    have := Date.mem_isoformat hmem
    omega
  · intro hmem
    have := Text.digits_ofNat hmem
    omega
  · intro hmem
    have hhex := List.all_eq_true.mp (Bool.and_eq_true_iff.mp command.digest).2 _ hmem
    simp [Text.isLowerHex] at hhex
  · exact separator_notMem_of_mimeType command.safeContentType.2

/-- Commands that hash the same bytes have the same metadata. -/
theorem UploadStart.metadata_inj {c d : UploadStart} {b : Bytes}
    (hc : c.metadata.bytes = some b) (hd : d.metadata.bytes = some b) :
    c.metadata = d.metadata := by
  have hlength : c.metadata.parts.length = d.metadata.parts.length := rfl
  have hparts := Text.join_inj hlength c.separator_notMem d.separator_notMem
    (Text.utf8_inj hc hd)
  simp only [Metadata.parts, metadata, List.cons.injEq, and_true] at hparts
  obtain ⟨hfilename, hcategory, hdate, hsize, hsha256, htype⟩ := hparts
  simp only [metadata, hfilename, hcategory, Date.isoformat_inj c.dateRange d.dateRange hdate,
    Text.ofNat_inj hsize, hsha256, htype]

/-- Commands with one fingerprint have the same metadata, unless two different
byte strings have one hash. -/
theorem metadata_of_fingerprint {P : Platform} {c d : UploadStart} {fp : Text}
    (hc : fingerprint P c = some fp) (hd : fingerprint P d = some fp)
    (hno : P.sha256 c.metadata.hashed = P.sha256 d.metadata.hashed →
      c.metadata.hashed = d.metadata.hashed) : c.metadata = d.metadata := by
  obtain ⟨b, hb, hbhash⟩ := Option.map_eq_some_iff.mp hc
  obtain ⟨b', hb', hbhash'⟩ := Option.map_eq_some_iff.mp hd
  have hcb : c.metadata.hashed = b := congrArg (·.getD []) hb
  have hdb : d.metadata.hashed = b' := congrArg (·.getD []) hb'
  rw [hcb, hdb] at hno
  have hsame : b = b' := hno (hbhash.trans hbhash'.symm)
  exact UploadStart.metadata_inj hb (hsame ▸ hb')

/-! ### Object keys -/

theorem mem_uuid {u : UUID} {c : Nat} (h : c ∈ u.text) : c = 45 ∨ Text.isLowerHex c = true := by
  have hdigit : ∀ {start count : Nat},
      (c ∈ (List.range count).map fun i => UUID.digit u (start + i)) → Text.isLowerHex c = true := by
    intro start count hmem
    obtain ⟨i, -, rfl⟩ := List.mem_map.mp hmem
    exact UUID.isLowerHex_hexDigit (Nat.mod_lt _ (by decide : 0 < 16))
  rcases Text.mem_join h with h | ⟨t, ht, hc⟩
  · exact .inl (List.mem_singleton.mp h)
  · simp only [List.mem_cons, List.not_mem_nil, or_false] at ht
    rcases ht with rfl | rfl | rfl | rfl | rfl <;> exact .inr (hdigit hc)

theorem slash_notMem_uuid (u : UUID) : 47 ∉ u.text := by
  intro h
  rcases mem_uuid h with hc | hc <;> exact absurd hc (by decide)

theorem slash_notMem_segment {P : Platform} {value fallback : Text} (h : 47 ∉ fallback) :
    47 ∉ segment P value fallback := by
  intro hmem
  simp only [segment] at hmem
  split at hmem
  · exact h hmem
  · have hmapped := (List.dropWhile_suffix _).subset
      ((List.rdropWhile_prefix _ _).subset hmem)
    obtain ⟨c, hc, heq⟩ := List.mem_map.mp hmapped
    have hlast : (!(c == 47 || c == 92)) = true :=
      List.mem_rtakeWhile_imp (p := fun c => !(c == 47 || c == 92)) (List.mem_filter.mp hc).1
    split at heq
    · subst heq
      cases hlast
    · cases heq

/-- The parts that make up an object key. -/
def objectKeyParts (P : Platform) (command : UploadStart) (fileId : UUID) : List Text :=
  [Text.ofString "projects", command.projectId.text,
    segment P command.category (Text.ofString "uncategorized"),
    command.fileDate.isoformat, fileId.text, segment P command.filename (Text.ofString "file")]

theorem slash_notMem_parts {P : Platform} (command : UploadStart) (fileId : UUID) :
    ∀ t ∈ objectKeyParts P command fileId, 47 ∉ t := by
  intro t ht
  simp only [objectKeyParts, List.mem_cons, List.not_mem_nil, or_false] at ht
  rcases ht with rfl | rfl | rfl | rfl | rfl | rfl
  · decide
  · exact slash_notMem_uuid _
  · exact slash_notMem_segment (by decide)
  · intro hmem
    have := Date.mem_isoformat hmem
    omega
  · exact slash_notMem_uuid _
  · exact slash_notMem_segment (by decide)

/-- Different files have different object keys. -/
theorem objectKey_inj {P : Platform} {c d : UploadStart} {i j : UUID}
    (h : objectKey P c i = objectKey P d j) : i = j := by
  have hlength : (objectKeyParts P c i).length = (objectKeyParts P d j).length := rfl
  have hjoin := Text.join_inj hlength (slash_notMem_parts c i) (slash_notMem_parts d j) h
  simp only [objectKeyParts, List.cons.injEq, and_true, true_and] at hjoin
  have htext : i.text = j.text := hjoin.2.2.2.1
  exact Option.some.inj ((UUID.parse_text i).symm.trans (htext ▸ UUID.parse_text j))

end SuperBoss.Files
