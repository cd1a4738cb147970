import SuperBoss.Core.Fields
import SuperBoss.Web.Files

/-!
The checks of the web client on upload commands and part lists against those of the
server.
-/

namespace SuperBoss.Web

open SuperBoss.Core
open SuperBoss.Core.JsString
open SuperBoss.Files

/-! ### Texts -/

theorem scanned_of_scan {s : JsString} (h : scan s = true) :
    Scanned (fun c => isControl c = false) s := by
  induction s using scan.induct with
  | case1 => exact .nil
  | case2 c =>
      simp only [scan, Bool.and_eq_true, Bool.not_eq_true'] at h
      cases hc : isHigh c with
      | true => exact .last hc
      | false => exact .unit h.1 hc h.2 .nil
  | case3 c d rest hcontrol =>
      rw [scan, if_pos hcontrol] at h
      cases h
  | case4 c d rest hcontrol hc ih =>
      rw [scan, if_neg hcontrol, if_pos hc, Bool.and_eq_true] at h
      exact .pair hc h.1 (ih h.2)
  | case5 c d rest hcontrol hc ih =>
      rw [scan, if_neg hcontrol, if_neg hc, Bool.and_eq_true, Bool.not_eq_true'] at h
      rw [Bool.not_eq_true] at hcontrol hc
      exact .unit hcontrol hc h.1 (ih h.2)

theorem isControl_eq_false {c : UInt16} :
    isControl c = false ↔ 32 ≤ c.toNat ∧ (c.toNat < 127 ∨ 160 ≤ c.toNat) := by
  simp only [isControl, Bool.or_eq_false_iff, Bool.and_eq_false_iff, decide_eq_false_iff_not]
  omega

/-- What the server strips, the client trims, controls apart. -/
theorem isSpace_of_isStripped {c : UInt16} (h : isStripped c.toNat = true)
    (hcontrol : isControl c = false) : isSpace c = true := by
  rw [isControl_eq_false] at hcontrol
  simp only [isStripped, Text.isWhitespace, Bool.or_eq_true, Bool.and_eq_true, decide_eq_true_eq,
    beq_iff_eq] at h
  simp only [isSpace, Bool.or_eq_true, Bool.and_eq_true, decide_eq_true_eq, beq_iff_eq]
  omega

section scanned

variable {s : JsString} (h : Scanned (fun c => isControl c = false) s)

include h

theorem noControls_codePoints : Text.noControls false s.codePoints = true := by
  rw [Text.noControls, List.all_eq_true]
  intro q hq
  have hrange : 32 ≤ q ∧ q ≠ 127 := by
    rcases h.codePoint_cases hq with ⟨c, -, hcontrol, -, -, rfl⟩ | hsupplementary | ⟨-, hhigh⟩
    · rw [isControl_eq_false] at hcontrol
      omega
    · omega
    · omega
  simp only [Bool.false_and, Bool.not_false, Bool.and_true, Bool.not_eq_true', Bool.or_eq_false_iff,
    beq_eq_false_iff_ne, decide_eq_false_iff_not]
  omega

/-- The server takes the text for Unicode unless it ends with a surrogate. -/
theorem isUnicode_codePoints : Text.isUnicode s.codePoints = !s.endsHigh := by
  cases hends : s.endsHigh with
  | true =>
      obtain ⟨q, hq, hrange⟩ := h.surrogate_of_endsHigh hends
      have hsurrogate : Text.isSurrogate q = true := by
        simp only [Text.isSurrogate, Bool.or_eq_true, Bool.and_eq_true, decide_eq_true_eq]
        omega
      rw [Bool.not_true, Text.isUnicode, List.all_eq_false]
      exact ⟨q, hq, by rw [hsurrogate]; decide⟩
  | false =>
      rw [Bool.not_false, Text.isUnicode, List.all_eq_true]
      intro q hq
      rw [Bool.not_eq_true']
      simp only [Text.isSurrogate, Bool.or_eq_false_iff, Bool.and_eq_false_iff,
        decide_eq_false_iff_not]
      rcases h.codePoint_cases hq with ⟨c, -, -, hc, hlow, rfl⟩ | hsupplementary | ⟨hhigh, -⟩
      · have hlt := c.toNat_lt
        simp only [isHigh, isLow, Bool.and_eq_false_iff, decide_eq_false_iff_not] at hc hlow
        omega
      · omega
      · rw [hends] at hhigh
        cases hhigh

theorem isSpace_of_blank (hblank : s.codePoints.all isStripped = true) {c : UInt16}
    (hc : c ∈ s) : isSpace c = true := by
  rw [List.all_eq_true] at hblank
  rcases h.codePoint_of_mem hc with ⟨hpoint, hcontrol⟩ | ⟨q, hq, hrange⟩
  · exact isSpace_of_isStripped (hblank _ hpoint) hcontrol
  · have hstripped := hblank q hq
    simp only [isStripped, Text.isWhitespace, Bool.or_eq_true, Bool.and_eq_true,
      decide_eq_true_eq, beq_iff_eq] at hstripped
    omega

end scanned

/-- A text that passes the client passes the server's `safe_text`. -/
theorem safeText_codePoints {s : JsString} {maximum : Nat} (h : safeText s maximum = true) :
    Files.safeText maximum s.codePoints = true := by
  simp only [safeText, Bool.and_eq_true, bne_iff_ne, decide_eq_true_eq] at h
  obtain ⟨⟨htrim, hlength⟩, hscan⟩ := h
  have hscanned := scanned_of_scan hscan
  have hblank : ¬(s.codePoints.all isStripped = true) := fun hblank =>
    htrim (trim_eq_nil fun c hc => isSpace_of_blank hscanned hblank hc)
  have hpos : 1 ≤ s.codePoints.length := by
    rw [Nat.one_le_iff_ne_zero]
    intro hzero
    rw [List.length_eq_zero_iff.mp hzero] at hblank
    exact hblank rfl
  simp only [Files.safeText, Bool.and_eq_true, decide_eq_true_eq, Bool.not_eq_true']
  exact ⟨⟨⟨hpos, hlength⟩, Bool.eq_false_iff.mpr hblank⟩, noControls_codePoints hscanned⟩

theorem isUnicode_of_safeText {s : JsString} {maximum : Nat} (h : safeText s maximum = true) :
    Text.isUnicode s.codePoints = !s.endsHigh := by
  rw [safeText, Bool.and_eq_true] at h
  exact isUnicode_codePoints (scanned_of_scan h.2)

/-! ### Fields in ASCII -/

/-- A string whose code units are in ASCII arrives as it is. -/
theorem codePoints_of_ascii {s : JsString} (h : ∀ c ∈ s.units, c < 128) :
    s.codePoints = s.units := by
  refine codePoints_eq_units fun c hc => ?_
  have hlt := h c.toNat (List.mem_map_of_mem hc)
  simp only [isHigh, Bool.and_eq_false_iff, decide_eq_false_iff_not]
  omega

theorem ofHyphenated_of_isUuid {s : JsString} (h : isUuid s = true) :
    (UUID.ofHyphenated s.codePoints).isSome = true := by
  simp only [isUuid, Bool.and_eq_true] at h
  obtain ⟨⟨hform, -⟩, -⟩ := h
  rw [codePoints_of_ascii fun c hc => UUID.mem_isHyphenated hform hc, UUID.ofHyphenated,
    if_pos hform]
  rfl

theorem isDigest_codePoints {s : JsString} (h : isDigest s = true) :
    Text.isDigest s.codePoints = true := by
  have hform : Text.isDigest s.units = true := h
  rw [codePoints_of_ascii fun c hc => ?_]
  · exact hform
  · simp only [Text.isDigest, Bool.and_eq_true, List.all_eq_true, Text.isLowerHex, Bool.or_eq_true,
      decide_eq_true_eq] at hform
    have := hform.2 c hc
    omega

theorem mem_isMimeType {t : Text} (h : Text.isMimeType t = true) {c : Nat} (hc : c ∈ t) :
    c < 128 := by
  rcases isMimeChar_of_mem h hc with hchar | rfl
  · simp only [Text.isMimeChar, Text.isAlnumAscii, Bool.or_eq_true, Bool.and_eq_true,
      decide_eq_true_eq, List.contains_iff_mem, List.mem_cons, List.not_mem_nil, or_false] at hchar
    omega
  · decide

theorem isMimeType_codePoints {s : JsString} (h : isContentType s = true) :
    s.codePoints.length ≤ 255 ∧ Text.isMimeType s.codePoints = true ∧
      Text.isUnicode s.codePoints = true := by
  rw [isContentType, Bool.and_eq_true, decide_eq_true_eq] at h
  obtain ⟨hlength, hform⟩ := h
  rw [codePoints_of_ascii fun c hc => mem_isMimeType hform hc]
  refine ⟨?_, hform, ?_⟩
  · rwa [units, List.length_map]
  · rw [Text.isUnicode, List.all_eq_true]
    intro c hc
    have hlt := mem_isMimeType hform hc
    rw [Bool.not_eq_true']
    simp only [Text.isSurrogate, Bool.or_eq_false_iff, Bool.and_eq_false_iff,
      decide_eq_false_iff_not]
    omega

/-- The first ten characters of an ISO string in the form of a day are a day. -/
theorem isoformat_of_toISOString {time : Int} {t : Text} (h : (toISOString time).take 10 = t)
    (hform : Date.isDateText t = true) :
    (0 ≤ (Date.civil (time / 86400000)).1 ∧ (Date.civil (time / 86400000)).1 ≤ 9999) ∧
      t = Date.isoformat (time / 86400000) := by
  obtain ⟨d, hd⟩ : ∃ d : Date, d = time / 86400000 := ⟨_, rfl⟩
  rw [← hd]
  by_cases hyear : 0 ≤ (Date.civil d).1 ∧ (Date.civil d).1 ≤ 9999
  · refine ⟨hyear, ?_⟩
    rw [← h, toISOString, ← hd]
    dsimp only
    rw [if_pos hyear]
    simp [Date.isoformat, Date.pad]
  · -- The string begins with a sign.
    rw [← h, toISOString, ← hd] at hform
    dsimp only at hform
    rw [if_neg hyear] at hform
    have hsign := Date.isDigit_of_isDateText hform
    split at hsign
    · cases hsign
    · cases hsign

/-- A calendar day of the client is one of the server. -/
theorem parse_of_calendarDate {dateParse : Text → Option Int} {s : JsString}
    (h : calendarDate dateParse s = true) :
    ∃ d, Date.parse s.codePoints = some d ∧ Date.min ≤ d ∧ d ≤ Date.max := by
  simp only [calendarDate, Bool.and_eq_true, bne_iff_ne] at h
  obtain ⟨⟨hform, hzero⟩, hparse⟩ := h
  obtain ⟨time, -, htime⟩ := (Option.any_eq_true _ _).mp hparse
  obtain ⟨⟨hlow, hhigh⟩, hiso⟩ := isoformat_of_toISOString (beq_iff_eq.mp htime) hform
  have hascii : ∀ c ∈ s.units, c < 128 := by
    intro c hc
    rw [hiso] at hc
    have := Date.mem_isoformat hc
    omega
  have hvalid := Date.civil_valid (time / 86400000)
  have hmax := Date.daysInMonth_le (Date.civil (time / 86400000)).1 (Date.civil (time / 86400000)).2.1
  have hyear : (Date.civil (time / 86400000)).1 ≠ 0 := by
    intro hyear
    refine hzero ?_
    rw [hiso, Date.isoformat]
    dsimp only
    rw [hyear]
    rfl
  have hcivil : ∃ d, Date.ofCivil (Date.civil (time / 86400000)).1
      (Date.civil (time / 86400000)).2.1 (Date.civil (time / 86400000)).2.2 = some d := by
    refine ⟨_, if_pos ⟨⟨?_, hhigh⟩, hvalid⟩⟩
    omega
  obtain ⟨d, hd⟩ := hcivil
  rw [codePoints_of_ascii hascii, hiso, Date.parse_isoformat (by omega) (by omega) (by omega), hd]
  exact ⟨d, rfl, Date.ofCivil_range hd⟩

/-! ### Bodies -/

/-- No text of the command ends with a surrogate. -/
def FileUploadStart.Paired (command : FileUploadStart) : Prop :=
  command.filename.endsHigh = false ∧ command.category.endsHigh = false

/-- The server takes a command of the client, unless its file name or its category ends
with a surrogate. -/
theorem ofBody_isSome_iff {dateParse : Text → Option Int} {command canonical : FileUploadStart}
    (h : canonicalStart dateParse command = some canonical) :
    (UploadStart.ofBody canonical.body).isSome = true ↔ canonical.Paired := by
  unfold canonicalStart at h
  split at h
  · rename_i hvalid
    obtain rfl := Option.some.inj h
    obtain ⟨hproject, hfilename, -, hpos, hmax, hdigest, hcategory, hdate, hcontent⟩ := hvalid
    obtain ⟨projectId, hprojectId⟩ :=
      Option.isSome_iff_exists.mp (ofHyphenated_of_isUuid hproject)
    obtain ⟨fileDate, hfileDate, hrange⟩ := parse_of_calendarDate hdate
    obtain ⟨hlength, hmime, hunicode⟩ := isMimeType_codePoints hcontent
    have hsize : 1 ≤ command.sizeBytes.toNat ∧ command.sizeBytes.toNat ≤ attachmentMaxBytes := by
      constructor <;> omega
    have hfields : (UploadStart.validate projectId command.body.filename
        command.body.sizeBytes.toNat command.body.sha256 command.body.category fileDate
        command.body.contentType).isSome = true := by
      unfold UploadStart.validate
      rw [dif_pos ⟨safeText_codePoints hfilename, hrange, hsize, isDigest_codePoints hdigest,
        safeText_codePoints hcategory, hlength, hmime⟩]
      rfl
    have hproject' : UUID.ofHyphenated command.body.projectId = some projectId := hprojectId
    have hdate' : Date.parse command.body.fileDate = some fileDate := hfileDate
    simp only [UploadStart.ofBody, hproject', hdate', Option.bind_eq_bind, Option.bind_some]
    have hnonneg : 0 ≤ command.body.sizeBytes := by
      change 0 ≤ command.sizeBytes
      omega
    have hfilename' : Text.isUnicode command.body.filename = !command.filename.endsHigh :=
      isUnicode_of_safeText hfilename
    have hcategory' : Text.isUnicode command.body.category = !command.category.endsHigh :=
      isUnicode_of_safeText hcategory
    have hcontent' : Text.isUnicode command.body.contentType = true := hunicode
    rw [hfilename', hcategory', hcontent', FileUploadStart.Paired]
    constructor
    · intro hsome
      split at hsome
      · rename_i hguard
        exact ⟨(Bool.not_eq_true' _).mp hguard.2.1, (Bool.not_eq_true' _).mp hguard.2.2.1⟩
      · cases hsome
    · rintro ⟨hname, hcat⟩
      rw [if_pos ⟨hnonneg, by rw [hname]; rfl, by rw [hcat]; rfl, rfl⟩]
      exact hfields
  · cases h

/-- The header of a key of the client has the form that the server asks for. -/
theorem isIdempotencyKey_codePoints {key : JsString} (h : isIdempotencyKey key = true) :
    Text.isIdempotencyKey key.codePoints = true := by
  simp only [isIdempotencyKey, Bool.and_eq_true, decide_eq_true_eq] at h
  obtain ⟨⟨hpos, hlength⟩, hchars⟩ := h
  have hunits : key.codePoints = key.units := by
    refine codePoints_eq_units_of_lt fun q hq => ?_
    have hchar := List.all_eq_true.mp hchars q hq
    simp only [Bool.and_eq_true, decide_eq_true_eq] at hchar
    omega
  rw [hunits] at hchars ⊢
  simp only [Text.isIdempotencyKey, Bool.and_eq_true, decide_eq_true_eq]
  rw [units, List.length_map]
  exact ⟨⟨hpos, hlength⟩, hchars⟩

/-! ### Parts -/

/-- The server strips nothing off what the client has trimmed. -/
theorem strip_trim {s : JsString} (h : Scanned (fun c => isControl c = false) s) :
    ((s.trim.codePoints.dropWhile isStripped).rdropWhile isStripped) = s.trim.codePoints := by
  have hscanned : Scanned (fun c => isControl c = false) s.trim := h.trim
  have hedge : ∀ q : Nat, isStripped q = true →
      ¬((0xD800 ≤ q ∧ q ≤ 0xDBFF) ∨ 0x10000 ≤ q) := by
    intro q hstripped hhigh
    simp only [isStripped, Text.isWhitespace, Bool.or_eq_true, Bool.and_eq_true,
      decide_eq_true_eq, beq_iff_eq] at hstripped
    omega
  have hleft : s.trim.codePoints.dropWhile isStripped = s.trim.codePoints := by
    rw [List.dropWhile_eq_self_iff]
    intro hpos hstripped
    have hhead : s.trim.codePoints.head? = some s.trim.codePoints[0] := List.head?_eq_getElem? ▸
      List.getElem?_eq_getElem hpos
    rcases hscanned.head_cases hhead with ⟨c, hc, hcontrol, hq⟩ | hhigh
    · rw [hq] at hstripped
      have hspace := isSpace_of_isStripped hstripped hcontrol
      rw [not_isSpace_of_head_trim hc] at hspace
      cases hspace
    · exact hedge _ hstripped hhigh
  rw [hleft, List.rdropWhile_eq_self_iff]
  intro hne hstripped
  rcases hscanned.last_cases (List.getLast?_eq_some_getLast hne) with ⟨c, hc, hcontrol, hq⟩ | hhigh
  · rw [hq] at hstripped
    have hspace := isSpace_of_isStripped hstripped hcontrol
    rw [not_isSpace_of_last_trim hc] at hspace
    cases hspace
  · exact hedge _ hstripped hhigh

/-- A part of the client as the server reads it. -/
def FilePart.completed (part : FilePart) : CompletedPart :=
  ⟨part.partNumber.toNat, part.etag.codePoints⟩

/-- What `canonicalParts` has checked of a part. -/
structure FilePart.Canonical (part : FilePart) : Prop where
  range : 1 ≤ part.partNumber ∧ part.partNumber ≤ 10000
  etag : ∃ etag : JsString, safeText etag 1024 = true ∧ part.etag = etag.trim ∧ part.etag ≠ []

theorem canonical_of_canonicalPart {seen : List Int} {part canonical : FilePart}
    (h : canonicalPart seen part = some canonical) :
    canonical.Canonical ∧ canonical.partNumber = part.partNumber ∧ part.partNumber ∉ seen := by
  unfold canonicalPart at h
  split at h
  · rename_i hvalid
    dsimp only at h
    split at h
    · cases h
    · rename_i hnew
      rw [not_or] at hnew
      cases h
      exact ⟨⟨⟨hvalid.1, hvalid.2.1⟩, part.etag, hvalid.2.2, rfl, hnew.1⟩, rfl, hnew.2⟩
  · cases h

/-- The parts are checked one by one, and no number is seen twice. -/
theorem canonical_of_canonicalPartsFrom {seen : List Int} {parts canonical : List FilePart}
    (h : canonicalPartsFrom seen parts = some canonical) :
    (∀ part ∈ canonical, part.Canonical) ∧
      (canonical.map (·.partNumber)).Nodup ∧ ∀ part ∈ canonical, part.partNumber ∉ seen := by
  induction parts generalizing seen canonical with
  | nil =>
      cases h
      exact ⟨List.forall_mem_nil _, List.nodup_nil, List.forall_mem_nil _⟩
  | cons part parts ih =>
      obtain ⟨first, hfirst, h⟩ := Option.bind_eq_some_iff.mp h
      obtain ⟨others, hothers, h⟩ := Option.bind_eq_some_iff.mp h
      cases h
      obtain ⟨hcanonical, hnumber, hnew⟩ := canonical_of_canonicalPart hfirst
      obtain ⟨hall, hnodup, hseen⟩ := ih hothers
      refine ⟨List.forall_mem_cons.mpr ⟨hcanonical, hall⟩, ?_, ?_⟩
      · rw [List.map_cons, List.nodup_cons]
        refine ⟨fun hmem => ?_, hnodup⟩
        obtain ⟨other, hother, hsame⟩ := List.mem_map.mp hmem
        refine hseen other hother (List.mem_append_right _ ?_)
        rw [hsame, hnumber]
        exact List.mem_singleton.mpr rfl
      · intro other hother
        rcases List.mem_cons.mp hother with rfl | hother
        · rwa [hnumber]
        · exact fun hmem => hseen other hother (List.mem_append_left _ hmem)

/-- The server takes a part of the client, unless its ETag ends with a surrogate. -/
theorem partComplete_ofBody {part : FilePart} (h : part.Canonical) :
    PartComplete.ofBody part.body = if part.etag.endsHigh then none else some part.completed := by
  obtain ⟨hrange, etag, hsafe, hetag, hne⟩ := h
  simp only [safeText, Bool.and_eq_true, decide_eq_true_eq] at hsafe
  have hscanned := scanned_of_scan hsafe.2
  have hunicode : Text.isUnicode part.etag.codePoints = !part.etag.endsHigh := by
    rw [hetag]
    exact isUnicode_codePoints hscanned.trim
  have hpoints : part.etag.codePoints ≠ [] := fun hnil => hne (codePoints_eq_nil hnil)
  have hlength : part.etag.codePoints.length ≤ 1024 := by
    rw [hetag]
    exact (length_codePoints_trim etag).trans hsafe.1.2
  have hstrip : (part.etag.codePoints.dropWhile isStripped).rdropWhile isStripped =
      part.etag.codePoints := by
    rw [hetag]
    exact strip_trim hscanned
  have hcontrols : Text.noControls false part.etag.codePoints = true := by
    rw [hetag]
    exact noControls_codePoints hscanned.trim
  have hpos : 1 ≤ part.etag.codePoints.length := List.length_pos_of_ne_nil hpoints
  simp only [PartComplete.ofBody, FilePart.body, hstrip, hunicode]
  cases hends : part.etag.endsHigh with
  | true => simp
  | false => simp [hrange, hpos, hlength, hpoints, hcontrols, FilePart.completed]

theorem mapM_ofBody {parts : List FilePart} (h : ∀ part ∈ parts, part.Canonical) :
    (parts.map FilePart.body).mapM PartComplete.ofBody =
      if ∀ part ∈ parts, part.etag.endsHigh = false then some (parts.map FilePart.completed)
      else none := by
  induction parts with
  | nil => simp
  | cons part parts ih =>
      rw [List.forall_mem_cons] at h
      rw [List.map_cons, List.mapM_cons, partComplete_ofBody h.1, ih h.2]
      by_cases hends : part.etag.endsHigh = true
      · have hnot : ¬∀ other ∈ part :: parts, other.etag.endsHigh = false := by
          intro hall
          rw [hall part List.mem_cons_self] at hends
          cases hends
        rw [if_pos hends, if_neg hnot]
        rfl
      · rw [if_neg hends]
        by_cases hall : ∀ part ∈ parts, part.etag.endsHigh = false
        · have hcons : ∀ other ∈ part :: parts, other.etag.endsHigh = false := by
            intro other hother
            rcases List.mem_cons.mp hother with rfl | hother
            · exact Bool.eq_false_iff.mpr hends
            · exact hall other hother
          rw [if_pos hall, if_pos hcons]
          rfl
        · have hcons : ¬∀ other ∈ part :: parts, other.etag.endsHigh = false := fun hcons =>
            hall fun other hother => hcons other (List.mem_cons_of_mem part hother)
          rw [if_neg hall, if_neg hcons]
          rfl

/-- What `canonicalParts` returns. -/
theorem canonical_of_canonicalParts {parts canonical : List FilePart}
    (h : canonicalParts parts = some canonical) :
    canonical ≠ [] ∧ (∀ part ∈ canonical, part.Canonical) ∧
      (canonical.map (·.partNumber)).Nodup ∧
      canonical.Pairwise fun left right => left.partNumber ≤ right.partNumber := by
  unfold canonicalParts at h
  split at h
  · rename_i hlength
    obtain ⟨checked, hchecked, rfl⟩ := Option.map_eq_some_iff.mp h
    obtain ⟨hall, hnodup, -⟩ := canonical_of_canonicalPartsFrom hchecked
    have hperm := List.perm_insertionSort
      (fun left right : FilePart => left.partNumber ≤ right.partNumber) checked
    have htotal : Std.Total fun left right : FilePart => left.partNumber ≤ right.partNumber :=
      ⟨fun left right => le_total _ _⟩
    have htrans : IsTrans FilePart fun left right => left.partNumber ≤ right.partNumber :=
      ⟨fun _ _ _ => le_trans⟩
    refine ⟨fun hnil => ?_, fun part hpart => hall part (hperm.mem_iff.mp hpart),
      (hperm.map _).nodup_iff.mpr hnodup, List.pairwise_insertionSort _ checked⟩
    rw [hnil] at hperm
    rw [hperm.nil_eq.symm] at hchecked
    cases parts with
    | nil => exact absurd hlength.1 (by decide)
    | cons part parts =>
        obtain ⟨first, -, hrest⟩ := Option.bind_eq_some_iff.mp hchecked
        obtain ⟨others, -, hcons⟩ := Option.bind_eq_some_iff.mp hrest
        cases hcons
  · cases h

/-- The server takes the parts as the client has listed them, unless an ETag ends with a
surrogate. -/
theorem ofBody_parts {parts canonical : List FilePart}
    (h : canonicalParts parts = some canonical) :
    UploadComplete.ofBody (canonical.map FilePart.body) =
      if ∀ part ∈ canonical, part.etag.endsHigh = false then
        some (canonical.map FilePart.completed)
      else none := by
  obtain ⟨hne, hall, hnodup, hsorted⟩ := canonical_of_canonicalParts h
  have hnil : canonical.map FilePart.body ≠ [] := fun hnil => hne (List.map_eq_nil_iff.mp hnil)
  rw [UploadComplete.ofBody, if_neg hnil, mapM_ofBody hall]
  split
  · rw [Option.bind_some]
    have hnumbers : ((canonical.map FilePart.completed).map (·.partNumber)).Nodup := by
      rw [List.map_map]
      refine List.Nodup.map_on (fun left hleft right hright hsame => ?_) (List.Nodup.of_map _ hnodup)
      refine List.inj_on_of_nodup_map hnodup hleft hright ?_
      have hl := (hall left hleft).range
      have hr := (hall right hright).range
      change left.partNumber.toNat = right.partNumber.toNat at hsame
      omega
    rw [if_pos hnumbers]
    refine congrArg some (List.Pairwise.insertionSort_eq ?_)
    rw [List.pairwise_map]
    refine hsorted.imp fun hle => ?_
    exact Int.toNat_le_toNat hle
  · rfl

end SuperBoss.Web
