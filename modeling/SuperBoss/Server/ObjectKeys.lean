import SuperBoss.Files.Fingerprint
import SuperBoss.Server.FileLifecycle

/-!
The object keys of uploads: how they split into segments, which keys lie where,
and how many bytes they have.
-/

namespace SuperBoss.Server

open SuperBoss.Core
open SuperBoss.Files
open SuperBoss.Imports

/-! ### Segments -/

/-- A control character: C0, DEL or C1. -/
def isControl (c : Nat) : Bool := c < 32 || (127 ≤ c && c ≤ 159)

def dot : Text := [46]

def dotDot : Text := [46, 46]

/-- A component of an object key that names no directory and hides nothing. -/
structure SafeSegment (t : Text) : Prop where
  nonempty : t ≠ []
  noDot : t ≠ dot
  noDotDot : t ≠ dotDot
  chars : ∀ c ∈ t, isControl c = false ∧ c ≠ 92

section segments

variable {P : Platform}

theorem stripDots_subset (t : Text) : ∀ c ∈ stripDots t, c ∈ t := fun _ h =>
  (List.dropWhile_suffix _).subset ((List.rdropWhile_prefix _ _).subset h)

/-- The first character that is left is neither a dot nor an underscore. -/
theorem head_stripDots {t : Text} {c : Nat} (h : (stripDots t).head? = some c) :
    c ≠ 46 ∧ c ≠ 95 := by
  obtain ⟨rest, hrest⟩ := List.head?_eq_some_iff.mp h
  obtain ⟨after, hafter⟩ := List.rdropWhile_prefix (fun c => c == 46 || c == 95)
    (t.dropWhile fun c => c == 46 || c == 95)
  have hdrop : t.dropWhile (fun c => c == 46 || c == 95) = c :: (rest ++ after) := by
    rw [← hafter]
    exact congrArg (· ++ after) hrest
  have hfirst := List.head?_dropWhile_not (fun c => c == 46 || c == 95) t
  rw [hdrop] at hfirst
  simpa using hfirst

/-- What the sanitizer leaves of a name, unless it leaves nothing. -/
theorem mem_stripped {value : Text} {c : Nat}
    (h : c ∈ stripDots (((lastComponent value).filter fun c => 32 ≤ c && c != 127).map fun c =>
      if P.isAlnum c || c == 46 || c == 95 || c == 45 then c else 95)) :
    c = 95 ∨ (32 ≤ c ∧ c ≠ 127 ∧ c ≠ 92) ∧ (P.isAlnum c = true ∨ c = 46 ∨ c = 45) := by
  obtain ⟨x, hx, rfl⟩ := List.mem_map.mp (stripDots_subset _ c h)
  obtain ⟨hlast, hkept⟩ := List.mem_filter.mp hx
  have hseparator : (!(x == 47 || x == 92)) = true :=
    List.mem_rtakeWhile_imp (p := fun c => !(c == 47 || c == 92)) hlast
  simp only [Bool.and_eq_true, decide_eq_true_eq, bne_iff_ne] at hkept
  simp only [Bool.not_eq_true', Bool.or_eq_false_iff, beq_eq_false_iff_ne] at hseparator
  split
  · rename_i hchar
    simp only [Bool.or_eq_true, beq_iff_eq] at hchar
    rcases hchar with ((halnum | hdot) | hunder) | hhyphen
    · exact .inr ⟨⟨hkept.1, hkept.2, hseparator.2⟩, .inl halnum⟩
    · exact .inr ⟨⟨hkept.1, hkept.2, hseparator.2⟩, .inr (.inl hdot)⟩
    · exact .inl hunder
    · exact .inr ⟨⟨hkept.1, hkept.2, hseparator.2⟩, .inr (.inr hhyphen)⟩
  · exact .inl rfl

theorem safe_segment (hcontrol : ∀ c, 128 ≤ c → c ≤ 159 → P.isAlnum c = false)
    {value fallback : Text} (hfallback : SafeSegment fallback) :
    SafeSegment (segment P value fallback) := by
  unfold Files.segment
  simp only
  split
  · exact hfallback
  · rename_i hne
    have hhead : ∀ t : Text, t.head? = some 46 → stripDots (((lastComponent value).filter fun c =>
        32 ≤ c && c != 127).map fun c =>
          if P.isAlnum c || c == 46 || c == 95 || c == 45 then c else 95) ≠ t := by
      rintro t ht rfl
      exact (head_stripDots ht).1 rfl
    refine ⟨hne, hhead dot rfl, hhead dotDot rfl, fun c hc => ?_⟩
    rcases mem_stripped hc with rfl | ⟨⟨hlow, hdel, hslash⟩, hkind⟩
    · exact ⟨rfl, by decide⟩
    · refine ⟨?_, hslash⟩
      have hc1 : ¬(128 ≤ c ∧ c ≤ 159) := by
        rintro ⟨h1, h2⟩
        rw [hcontrol c h1 h2] at hkind
        rcases hkind with h | h | h
        · cases h
        · omega
        · omega
      simp only [isControl, Bool.or_eq_false_iff, Bool.and_eq_false_iff, decide_eq_false_iff_not]
      omega

theorem length_segment (value fallback : Text) :
    (segment P value fallback).length ≤ max value.length fallback.length := by
  unfold Files.segment
  simp only
  split
  · exact Nat.le_max_right _ _
  · refine le_trans ?_ (Nat.le_max_left _ _)
    refine ((List.rdropWhile_prefix _ _).length_le.trans
      (List.dropWhile_suffix _).length_le).trans ?_
    rw [List.length_map]
    exact (List.length_filter_le _ _).trans (List.rtakeWhile_suffix _ _).length_le

/-- Digits and hyphens make safe segments. -/
theorem safe_of_plain {t : Text} (hne : t ≠ [])
    (h : ∀ c ∈ t, c = 45 ∨ Text.isLowerHex c = true) : SafeSegment t := by
  have hrange : ∀ c ∈ t, c = 45 ∨ (48 ≤ c ∧ c ≤ 57) ∨ 97 ≤ c ∧ c ≤ 102 := by
    intro c hc
    have hchar := h c hc
    simp only [Text.isLowerHex, Bool.or_eq_true, Bool.and_eq_true, decide_eq_true_eq] at hchar
    exact hchar
  have hdot : 46 ∉ t := by
    intro hmem
    have := hrange 46 hmem
    omega
  refine ⟨hne, ?_, ?_, fun c hc => ?_⟩
  · rintro rfl
    exact hdot List.mem_cons_self
  · rintro rfl
    exact hdot List.mem_cons_self
  · have := hrange c hc
    simp only [isControl, Bool.or_eq_false_iff, Bool.and_eq_false_iff, decide_eq_false_iff_not]
    omega

theorem length_uuid (u : UUID) : u.text.length = 36 := by
  simp [UUID.text, Text.join]

theorem length_isoformat (d : Date) : d.isoformat.length = 10 := by
  simp [Date.isoformat, Date.length_pad]

theorem safe_uuid (u : UUID) : SafeSegment u.text := by
  refine safe_of_plain (fun h => ?_) fun c hc => mem_uuid hc
  have hlength := length_uuid u
  rw [h] at hlength
  cases hlength

theorem safe_date (d : Date) : SafeSegment d.isoformat := by
  refine safe_of_plain (fun h => ?_) fun c hc => ?_
  · have hlength := length_isoformat d
    rw [h] at hlength
    cases hlength
  · rcases Date.mem_isoformat hc with hc | hc
    · exact .inl hc
    · refine .inr ?_
      simp only [Text.isLowerHex, Bool.or_eq_true, Bool.and_eq_true, decide_eq_true_eq]
      exact .inl hc

theorem safe_parts (hcontrol : ∀ c, 128 ≤ c → c ≤ 159 → P.isAlnum c = false)
    (command : UploadStart) (fileId : UUID) :
    ∀ t ∈ objectKeyParts P command fileId, SafeSegment t := by
  intro t ht
  simp only [objectKeyParts, List.mem_cons, List.not_mem_nil, or_false] at ht
  rcases ht with rfl | rfl | rfl | rfl | rfl | rfl
  · exact ⟨by decide, by decide, by decide, by decide⟩
  · exact safe_uuid _
  · exact safe_segment hcontrol ⟨by decide, by decide, by decide, by decide⟩
  · exact safe_date _
  · exact safe_uuid _
  · exact safe_segment hcontrol ⟨by decide, by decide, by decide, by decide⟩

end segments

/-! ### Keys -/

theorem join_eq_intercalate (sep : Text) (l : List Text) : Text.join sep l = sep.intercalate l := by
  induction l with
  | nil => rfl
  | cons t ts ih =>
      cases ts with
      | nil => simp [Text.join]
      | cons u us =>
          show t ++ sep ++ Text.join sep (u :: us) = _
          rw [ih]
          simp [List.append_assoc]

section keys

variable {P : Platform}

theorem splitOn_objectKey (command : UploadStart) (fileId : UUID) :
    (objectKey P command fileId).splitOn 47 = objectKeyParts P command fileId := by
  show (Text.join [47] (objectKeyParts P command fileId)).splitOn 47 = _
  rw [join_eq_intercalate]
  exact List.splitOn_intercalate 47 (slash_notMem_parts command fileId) (by simp [objectKeyParts])

theorem length_objectKey (command : UploadStart) (fileId : UUID) :
    (objectKey P command fileId).length =
      95 + (segment P command.category (Text.ofString "uncategorized")).length +
        (segment P command.filename (Text.ofString "file")).length := by
  have hprojects : (Text.ofString "projects").length = 8 := by decide
  simp only [objectKey, Text.join, List.length_append, List.length_singleton, length_uuid,
    length_isoformat, hprojects]
  omega

/-- A key fits its column. -/
theorem length_objectKey_le (command : UploadStart) (fileId : UUID) :
    (objectKey P command fileId).length ≤ Store.objectKeyMaxLength := by
  have hcategory := length_segment (P := P) command.category (Text.ofString "uncategorized")
  have hfilename := length_segment (P := P) command.filename (Text.ofString "file")
  have hbound : ∀ {n : Nat} {t : Text}, safeText n t = true → t.length ≤ n := by
    intro n t h
    simp only [safeText, Bool.and_eq_true, decide_eq_true_eq] at h
    exact h.1.1.2
  have hc := hbound command.safeCategory
  have hf := hbound command.safeFilename
  have hfallback : (Text.ofString "uncategorized").length = 13 ∧
      (Text.ofString "file").length = 4 := by
    decide
  rw [length_objectKey]
  unfold Store.objectKeyMaxLength
  omega

/-- The prefix of a project's keys. -/
def projectPrefix (projectId : UUID) : Text :=
  Text.ofString "projects" ++ 47 :: (projectId.text ++ [47])

theorem projectId_of_prefix {command : UploadStart} {fileId projectId : UUID}
    (h : projectPrefix projectId <+: objectKey P command fileId) : projectId = command.projectId := by
  obtain ⟨rest, hrest⟩ := h
  have hsplit := splitOn_objectKey (P := P) command fileId
  rw [← hrest, projectPrefix, List.append_assoc, List.cons_append, List.append_assoc,
    List.splitOn_append_cons_self_of_not_mem (by decide), List.singleton_append,
    List.splitOn_append_cons_self_of_not_mem (slash_notMem_uuid projectId), objectKeyParts] at hsplit
  simp only [List.cons.injEq, true_and] at hsplit
  have htext : projectId.text = command.projectId.text := hsplit.1
  exact Option.some.inj ((UUID.parse_text _).symm.trans (htext ▸ UUID.parse_text _))

end keys

/-! ### Attachments -/

theorem day_range {t : Int} (hlow : -62135596800 * 1000000 ≤ t)
    (hhigh : t ≤ 253402300800 * 1000000 - 1) :
    -719162 ≤ t / (86400 * 1000000) ∧ t / (86400 * 1000000) ≤ 2932896 := by
  omega

theorem date_of_moment (t : Moment) :
    Date.min ≤ Instant.date t.val ∧ Instant.date t.val ≤ Date.max :=
  day_range t.property.1 t.property.2

theorem safeText_of_clean {P : Platform} {maxLength : Nat} {t : Text}
    (h : Clean P false maxLength t) : safeText maxLength t = true := by
  have hblank : isBlank t = false := by
    by_contra hne
    rw [Bool.not_eq_false] at hne
    have hall : ∀ c ∈ t, Text.isWhitespace c = true := by
      intro c hc
      have hchar := List.all_eq_true.mp hne c hc
      have hcontrol := List.all_eq_true.mp h.controls c hc
      simp only [Bool.or_eq_true, Bool.and_eq_true, decide_eq_true_eq] at hchar
      rcases hchar with hchar | hchar
      · exact hchar
      · simp at hcontrol
        omega
    have hdrop : t.dropWhile Text.isWhitespace = [] := List.dropWhile_eq_nil_iff.mpr hall
    have hstrip := h.stripped
    rw [Text.strip, hdrop] at hstrip
    have hlength := h.minLength
    rw [← hstrip] at hlength
    cases hlength
  simp only [safeText, Bool.and_eq_true, decide_eq_true_eq, Bool.not_eq_true']
  exact ⟨⟨⟨h.minLength, h.maxLength⟩, hblank⟩, h.controls⟩

/-- Every declaration of a manifest makes a valid upload command. -/
theorem startCall_eq_some {P : Platform} (c : CreateCall P) (d : AttachmentDeclaration P) :
    ∃ start, c.startCall d = some start := by
  have hvalid := safeText_of_clean d.filename.property
  unfold CreateCall.startCall UploadStart.validate
  rw [dif_pos ⟨hvalid, date_of_moment _, d.sizeBytes.property, d.sha256.property, by decide,
    d.contentType.property.1.2, d.contentType.property.2⟩]
  exact ⟨_, rfl⟩

/-! ### Bytes -/

section bytes

variable {P : Platform}

/-- The number of bytes of a code point in UTF-8. -/
def pointLength (c : Nat) : Nat :=
  if c < 0x80 then 1 else if c < 0x800 then 2 else if c < 0x10000 then 3 else 4

def utf8Length (t : Text) : Nat := (t.map pointLength).sum

theorem length_encodePoint {c : Nat} {b : Bytes} (h : Text.encodePoint c = some b) :
    b.length = pointLength c := by
  unfold Text.encodePoint at h
  unfold pointLength
  split_ifs at h ⊢ <;> cases h <;> rfl

theorem length_utf8 {t : Text} {b : Bytes} (h : t.utf8 = some b) : b.length = utf8Length t := by
  induction t generalizing b with
  | nil =>
      cases h
      rfl
  | cons c t ih =>
      obtain ⟨x, y, hx, hy, rfl⟩ := Text.utf8_cons h
      rw [List.length_append, length_encodePoint hx, ih hy]
      simp [utf8Length]

theorem utf8Length_append (t u : Text) : utf8Length (t ++ u) = utf8Length t + utf8Length u := by
  simp [utf8Length]

theorem utf8Length_ascii {t : Text} (h : ∀ c ∈ t, c < 0x80) : utf8Length t = t.length := by
  have hone : t.map pointLength = t.map fun _ => 1 :=
    List.map_congr_left fun c hc => if_pos (h c hc)
  rw [utf8Length, hone]
  simp

theorem lt_of_isLowerHex {c : Nat} (h : c = 45 ∨ Text.isLowerHex c = true) : c < 0x80 := by
  simp only [Text.isLowerHex, Bool.or_eq_true, Bool.and_eq_true, decide_eq_true_eq] at h
  omega

theorem utf8Length_objectKey (command : UploadStart) (fileId : UUID) :
    utf8Length (objectKey P command fileId) =
      95 + utf8Length (segment P command.category (Text.ofString "uncategorized")) +
        utf8Length (segment P command.filename (Text.ofString "file")) := by
  have huuid : ∀ u : UUID, utf8Length u.text = 36 := fun u =>
    (utf8Length_ascii fun c hc => lt_of_isLowerHex (mem_uuid hc)).trans (length_uuid u)
  have hdate : utf8Length command.fileDate.isoformat = 10 := by
    refine (utf8Length_ascii fun c hc => ?_).trans (length_isoformat _)
    have := Date.mem_isoformat hc
    omega
  have hprojects : utf8Length (Text.ofString "projects") = 8 := by decide
  have hslash : utf8Length [47] = 1 := by decide
  simp only [objectKey, Text.join, utf8Length_append, huuid, hdate, hprojects, hslash]
  omega

end bytes

/-- The longest key that S3 takes. -/
def storageKeyMaxBytes : Nat := 1024

/-- A key is storable just when its category and its name take at most 929 bytes
once they are sanitized. -/
theorem object_key_storable_iff {P : Platform} (command : UploadStart) (fileId : UUID) {key : Bytes}
    (hkey : (objectKey P command fileId).utf8 = some key) :
    key.length ≤ storageKeyMaxBytes ↔
      utf8Length (segment P command.category (Text.ofString "uncategorized")) +
        utf8Length (segment P command.filename (Text.ofString "file")) ≤ 929 := by
  rw [length_utf8 hkey, utf8Length_objectKey]
  unfold storageKeyMaxBytes
  omega

namespace Sample

def longName : Text := List.replicate 1024 97

theorem longName_safe : safeText 1024 longName = true := by decide +kernel

def longUpload : UploadStart :=
  { upload.command with
    filename := longName
    safeFilename := longName_safe }

end Sample

/-- The key of the sample file has 111 bytes. -/
theorem object_key_storable_sample :
    ∃ key, (objectKey Sample.platform Sample.upload.command 10).utf8 = some key ∧
      key.length ≤ storageKeyMaxBytes := by
  have hencoded : (objectKey Sample.platform Sample.upload.command 10).utf8.isSome = true := by
    decide +kernel
  obtain ⟨key, hkey⟩ := Option.isSome_iff_exists.mp hencoded
  exact ⟨key, hkey, (object_key_storable_iff Sample.upload.command 10 hkey).mpr (by decide +kernel)⟩

/-- A name of 1024 letters makes a key that is too long. -/
theorem object_key_too_long :
    ¬∀ (command : UploadStart) (fileId : UUID) (key : Bytes),
      (objectKey Sample.platform command fileId).utf8 = some key →
        key.length ≤ storageKeyMaxBytes := by
  intro h
  have hlong : (objectKey Sample.platform Sample.longUpload 10).utf8.any
      (fun key => decide (storageKeyMaxBytes < key.length)) = true := by
    decide +kernel
  obtain ⟨key, hkey, hover⟩ := (Option.any_eq_true _ _).mp hlong
  have hle := h Sample.longUpload 10 key hkey
  exact absurd (of_decide_eq_true hover) (Nat.not_lt.mpr hle)

/-- What holds of the key of a valid upload: six safe segments, among them the
project and the file, and room in its column. -/
structure KeyOf (P : Platform) (command : UploadStart) (fileId : UUID) (key : Text) : Prop where
  segments : ∃ category date name, key.splitOn 47 =
    [Text.ofString "projects", command.projectId.text, category, date, fileId.text, name]
  safe : ∀ t ∈ key.splitOn 47, SafeSegment t
  separate : ∀ (other : UploadStart) (id : UUID), id ≠ fileId → objectKey P other id ≠ key
  project : ∀ projectId, projectPrefix projectId <+: key → projectId = command.projectId
  column : key.length ≤ Store.objectKeyMaxLength

/-- Every declaration makes a valid upload, and every valid upload a key of its
own, below its project. -/
theorem object_keys_separate {P : Platform}
    (hcontrol : ∀ c, 128 ≤ c → c ≤ 159 → P.isAlnum c = false) :
    (∀ (c : CreateCall P) (d : AttachmentDeclaration P), ∃ start, c.startCall d = some start) ∧
      ∀ (command : UploadStart) (fileId : UUID),
        KeyOf P command fileId (objectKey P command fileId) := by
  refine ⟨startCall_eq_some, fun command fileId => ⟨⟨_, _, _, splitOn_objectKey command fileId⟩,
    fun t ht => ?_, fun other id hne h => hne (objectKey_inj h), fun projectId h =>
      projectId_of_prefix h, length_objectKey_le command fileId⟩⟩
  rw [splitOn_objectKey] at ht
  exact safe_parts hcontrol command fileId t ht

/-- The key of the sample file. -/
theorem object_keys_separate_sample :
    (objectKey Sample.platform Sample.upload.command 10).length ≤ Store.objectKeyMaxLength := by
  have hcontrol : ∀ c, 128 ≤ c → c ≤ 159 → Sample.platform.isAlnum c = false := by
    intro c hlow hhigh
    simp only [Sample.platform, asciiPlatform, Text.isAlnumAscii, Bool.or_eq_false_iff,
      Bool.and_eq_false_iff, decide_eq_false_iff_not]
    omega
  exact ((object_keys_separate hcontrol).2 Sample.upload.command 10).column

end SuperBoss.Server
