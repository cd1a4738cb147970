import SuperBoss.Core.Text

/-!
Strings of JavaScript: lists of UTF-16 code units. A string that is sent as JSON
arrives as the list of its code points, unpaired surrogates as themselves.
-/

namespace SuperBoss.Core

abbrev JsString := List UInt16

namespace JsString

def ofString (s : String) : JsString := s.toList.map fun c => UInt16.ofNat c.toNat

/-- A text as a string: UTF-16. -/
def ofText (t : Text) : JsString :=
  t.flatMap fun c =>
    if c < 0x10000 then [UInt16.ofNat c]
    else [UInt16.ofNat (0xD800 + (c - 0x10000) / 0x400),
      UInt16.ofNat (0xDC00 + (c - 0x10000) % 0x400)]

/-- The code units as numbers. -/
def units (s : JsString) : Text := s.map UInt16.toNat

def isHigh (c : UInt16) : Bool := 0xD800 ≤ c.toNat && c.toNat ≤ 0xDBFF

def isLow (c : UInt16) : Bool := 0xDC00 ≤ c.toNat && c.toNat ≤ 0xDFFF

/-- The code point of a surrogate pair. -/
def pair (high low : UInt16) : Nat := 0x10000 + (high.toNat - 0xD800) * 0x400 + (low.toNat - 0xDC00)

/-- `[...value]`. -/
def codePoints : JsString → Text
  | [] => []
  | [c] => [c.toNat]
  | c :: d :: rest =>
      if isHigh c && isLow d then pair c d :: codePoints rest
      else c.toNat :: codePoints (d :: rest)

/-- White space and line terminators, which `trim` removes. -/
def isSpace (c : UInt16) : Bool :=
  (9 ≤ c.toNat && c.toNat ≤ 13) || c.toNat == 0x20 || c.toNat == 0xA0 || c.toNat == 0x1680 ||
    (0x2000 ≤ c.toNat && c.toNat ≤ 0x200A) || c.toNat == 0x2028 || c.toNat == 0x2029 ||
    c.toNat == 0x202F || c.toNat == 0x205F || c.toNat == 0x3000 || c.toNat == 0xFEFF

/-- `value.trim()`. -/
def trim (s : JsString) : JsString := (s.dropWhile isSpace).rdropWhile isSpace

/-- The string ends with a high surrogate. -/
def endsHigh (s : JsString) : Bool := s.getLast?.any isHigh

/-! ### Code points -/

theorem isHigh_iff {c : UInt16} : isHigh c = true ↔ 0xD800 ≤ c.toNat ∧ c.toNat ≤ 0xDBFF := by
  simp [isHigh]

theorem isLow_iff {c : UInt16} : isLow c = true ↔ 0xDC00 ≤ c.toNat ∧ c.toNat ≤ 0xDFFF := by
  simp [isLow]

theorem pair_range {c d : UInt16} (hc : isHigh c = true) (hd : isLow d = true) :
    0x10000 ≤ pair c d ∧ pair c d < 0x110000 := by
  rw [isHigh_iff] at hc
  rw [isLow_iff] at hd
  unfold pair
  constructor <;> omega

theorem not_isSpace_of_isHigh {c : UInt16} (h : isHigh c = true) : isSpace c = false := by
  rw [isHigh_iff] at h
  simp only [isSpace, Bool.or_eq_false_iff, Bool.and_eq_false_iff, decide_eq_false_iff_not,
    beq_eq_false_iff_ne]
  omega

theorem codePoints_pair {c d : UInt16} (hc : isHigh c = true) (hd : isLow d = true)
    (rest : JsString) : codePoints (c :: d :: rest) = pair c d :: codePoints rest := by
  rw [codePoints, hc, hd]
  rfl

theorem codePoints_unit {c : UInt16} (hc : isHigh c = false) (rest : JsString) :
    codePoints (c :: rest) = c.toNat :: codePoints rest := by
  cases rest with
  | nil => rfl
  | cons d rest =>
      rw [codePoints, hc]
      rfl

theorem codePoints_eq_nil {s : JsString} (h : codePoints s = []) : s = [] := by
  unfold codePoints at h
  split at h
  · rfl
  · cases h
  · split at h
    · cases h
    · cases h

/-- Without surrogates the code points are the code units. -/
theorem codePoints_eq_units {s : JsString} (h : ∀ c ∈ s, isHigh c = false) :
    codePoints s = units s := by
  induction s with
  | nil => rfl
  | cons c s ih =>
      rw [codePoints_unit (h c List.mem_cons_self),
        ih fun d hd => h d (List.mem_cons_of_mem c hd)]
      rfl

theorem codePoints_eq_units_of_lt {s : JsString} (h : ∀ q ∈ codePoints s, q < 0xD800) :
    codePoints s = units s := by
  induction s using codePoints.induct with
  | case1 => rfl
  | case2 c => rfl
  | case3 c d rest hpair ih =>
      obtain ⟨hc, hd⟩ := Bool.and_eq_true_iff.mp hpair
      have hlt := h (pair c d) (by rw [codePoints_pair hc hd]; exact List.mem_cons_self)
      have hlarge := (pair_range hc hd).1
      omega
  | case4 c d rest hpair ih =>
      rw [codePoints, if_neg hpair] at h ⊢
      rw [ih fun q hq => h q (List.mem_cons_of_mem _ hq)]
      rfl

/-- A code unit that is no low surrogate stands for itself after any string. -/
theorem codePoints_concat {c : UInt16} (hc : isLow c = false) (s : JsString) :
    codePoints (s ++ [c]) = codePoints s ++ [c.toNat] := by
  induction s using codePoints.induct with
  | case1 => rfl
  | case2 d =>
      change codePoints [d, c] = [d.toNat, c.toNat]
      rw [codePoints, hc, Bool.and_false]
      rfl
  | case3 d e rest hpair ih =>
      obtain ⟨hd, he⟩ := Bool.and_eq_true_iff.mp hpair
      change codePoints (d :: e :: (rest ++ [c])) = codePoints (d :: e :: rest) ++ [c.toNat]
      rw [codePoints_pair hd he, codePoints_pair hd he, ih]
      rfl
  | case4 d e rest hpair ih =>
      change codePoints (d :: e :: (rest ++ [c])) = codePoints (d :: e :: rest) ++ [c.toNat]
      rw [codePoints, codePoints, if_neg hpair, if_neg hpair]
      change d.toNat :: codePoints (e :: rest ++ [c]) = _
      rw [ih]
      rfl

theorem not_surrogate_of_isSpace {c : UInt16} (h : isSpace c = true) :
    isHigh c = false ∧ isLow c = false := by
  simp only [isSpace, Bool.or_eq_true, Bool.and_eq_true, decide_eq_true_eq, beq_iff_eq] at h
  simp only [isHigh, isLow, Bool.and_eq_false_iff, decide_eq_false_iff_not]
  constructor <;> omega

/-- Trimming makes a string no longer. -/
theorem length_codePoints_trim (s : JsString) :
    (codePoints (trim s)).length ≤ (codePoints s).length := by
  have hleft : ∀ t : JsString, (codePoints (t.dropWhile isSpace)).length ≤ (codePoints t).length := by
    intro t
    induction t with
    | nil => exact Nat.le_refl 0
    | cons c t ih =>
        by_cases hc : isSpace c = true
        · rw [List.dropWhile_cons_of_pos hc, codePoints_unit (not_surrogate_of_isSpace hc).1]
          exact Nat.le_succ_of_le ih
        · rw [List.dropWhile_cons_of_neg hc]
  have hright : ∀ t : JsString,
      (codePoints (t.rdropWhile isSpace)).length ≤ (codePoints t).length := by
    intro t
    induction t using List.reverseRecOn with
    | nil => exact Nat.le_refl 0
    | append_singleton t c ih =>
        by_cases hc : isSpace c = true
        · rw [List.rdropWhile_concat_pos _ _ _ hc,
            codePoints_concat (not_surrogate_of_isSpace hc).2, List.length_append]
          exact Nat.le_add_right_of_le ih
        · rw [List.rdropWhile_concat_neg _ _ _ hc]
  exact (hright _).trans (hleft s)

/-! ### Scanned strings -/

/-- Every surrogate is one of a pair, a high one at the end apart, and the other code
units satisfy `p`. -/
inductive Scanned (p : UInt16 → Prop) : JsString → Prop
  | nil : Scanned p []
  | last {c : UInt16} (h : isHigh c = true) : Scanned p [c]
  | pair {c d : UInt16} {rest : JsString} (hc : isHigh c = true) (hd : isLow d = true)
      (h : Scanned p rest) : Scanned p (c :: d :: rest)
  | unit {c : UInt16} {rest : JsString} (hp : p c) (hc : isHigh c = false) (hlow : isLow c = false)
      (h : Scanned p rest) : Scanned p (c :: rest)

variable {p : UInt16 → Prop} {s t : JsString}

theorem endsHigh_cons_cons (c d : UInt16) (s : JsString) :
    endsHigh (c :: d :: s) = endsHigh (d :: s) := rfl

theorem endsHigh_cons {c : UInt16} (h : endsHigh s = true) : endsHigh (c :: s) = true := by
  cases s with
  | nil => cases h
  | cons d s => exact h

theorem Scanned.dropWhile (h : Scanned p s) : Scanned p (s.dropWhile isSpace) := by
  induction h with
  | nil => exact .nil
  | last h =>
      rw [List.dropWhile_cons_of_neg (by rw [not_isSpace_of_isHigh h]; decide)]
      exact .last h
  | pair hc hd h ih =>
      rw [List.dropWhile_cons_of_neg (by rw [not_isSpace_of_isHigh hc]; decide)]
      exact .pair hc hd h
  | @unit c rest hp hc hlow h ih =>
      by_cases hspace : isSpace c = true
      · rw [List.dropWhile_cons_of_pos hspace]
        exact ih
      · rw [List.dropWhile_cons_of_neg hspace]
        exact .unit hp hc hlow h

/-- A cut through a pair leaves its high surrogate at the end. -/
theorem Scanned.of_prefix (h : Scanned p s) (ht : t <+: s) : Scanned p t := by
  induction h generalizing t with
  | nil =>
      rw [List.prefix_nil.mp ht]
      exact .nil
  | @last c h =>
      rcases t with _ | ⟨d, t⟩
      · exact .nil
      · obtain ⟨rfl, htail⟩ := List.cons_prefix_cons.mp ht
        rw [List.prefix_nil.mp htail]
        exact .last h
  | @pair c d rest hc hd h ih =>
      rcases t with _ | ⟨c', _ | ⟨d', t⟩⟩
      · exact .nil
      · obtain ⟨rfl, -⟩ := List.cons_prefix_cons.mp ht
        exact .last hc
      · obtain ⟨rfl, htail⟩ := List.cons_prefix_cons.mp ht
        obtain ⟨rfl, hrest⟩ := List.cons_prefix_cons.mp htail
        exact .pair hc hd (ih hrest)
  | @unit c rest hp hc hlow h ih =>
      rcases t with _ | ⟨c', t⟩
      · exact .nil
      · obtain ⟨rfl, htail⟩ := List.cons_prefix_cons.mp ht
        exact .unit hp hc hlow (ih htail)

theorem Scanned.trim (h : Scanned p s) : Scanned p (trim s) :=
  h.dropWhile.of_prefix (List.rdropWhile_prefix _ _)

/-- The code points of a scanned string: code units that satisfy `p`, points of a
supplementary plane, and the surrogate at the end. -/
theorem Scanned.codePoint_cases (h : Scanned p s) {q : Nat} (hq : q ∈ codePoints s) :
    (∃ c ∈ s, p c ∧ isHigh c = false ∧ isLow c = false ∧ q = c.toNat) ∨
      (0x10000 ≤ q ∧ q < 0x110000) ∨
      endsHigh s = true ∧ 0xD800 ≤ q ∧ q ≤ 0xDBFF := by
  induction h with
  | nil => cases hq
  | @last c h =>
      obtain rfl : q = c.toNat := List.mem_singleton.mp hq
      exact .inr (.inr ⟨h, isHigh_iff.mp h⟩)
  | @pair c d rest hc hd h ih =>
      rw [codePoints_pair hc hd] at hq
      rcases List.mem_cons.mp hq with heq | hq
      · rw [heq]
        exact .inr (.inl (pair_range hc hd))
      · rcases ih hq with ⟨e, he, hunit⟩ | hsupplementary | ⟨hends, hhigh⟩
        · exact .inl ⟨e, List.mem_cons_of_mem _ (List.mem_cons_of_mem _ he), hunit⟩
        · exact .inr (.inl hsupplementary)
        · exact .inr (.inr ⟨endsHigh_cons (endsHigh_cons hends), hhigh⟩)
  | @unit c rest hp hc hlow h ih =>
      rw [codePoints_unit hc] at hq
      rcases List.mem_cons.mp hq with rfl | hq
      · exact .inl ⟨c, List.mem_cons_self, hp, hc, hlow, rfl⟩
      · rcases ih hq with ⟨e, he, hunit⟩ | hsupplementary | ⟨hends, hhigh⟩
        · exact .inl ⟨e, List.mem_cons_of_mem _ he, hunit⟩
        · exact .inr (.inl hsupplementary)
        · exact .inr (.inr ⟨endsHigh_cons hends, hhigh⟩)

/-- The surrogate at the end is among the code points. -/
theorem Scanned.surrogate_of_endsHigh (h : Scanned p s) (hends : endsHigh s = true) :
    ∃ q ∈ codePoints s, 0xD800 ≤ q ∧ q ≤ 0xDBFF := by
  induction h with
  | nil => cases hends
  | @last c h => exact ⟨c.toNat, List.mem_singleton.mpr rfl, isHigh_iff.mp h⟩
  | @pair c d rest hc hd h ih =>
      cases rest with
      | nil =>
          have hhigh : isHigh d = true := hends
          rw [isHigh_iff] at hhigh
          rw [isLow_iff] at hd
          omega
      | cons e rest =>
          obtain ⟨q, hq, hrange⟩ := ih (by rwa [endsHigh_cons_cons, endsHigh_cons_cons] at hends)
          rw [codePoints_pair hc hd]
          exact ⟨q, List.mem_cons_of_mem _ hq, hrange⟩
  | @unit c rest hp hc hlow h ih =>
      cases rest with
      | nil =>
          have hhigh : isHigh c = true := hends
          rw [hc] at hhigh
          cases hhigh
      | cons e rest =>
          obtain ⟨q, hq, hrange⟩ := ih (by rwa [endsHigh_cons_cons] at hends)
          rw [codePoints_unit hc]
          exact ⟨q, List.mem_cons_of_mem _ hq, hrange⟩

/-- A code unit is a code point and satisfies `p`, or it is a surrogate, and then one of
the code points is high. -/
theorem Scanned.codePoint_of_mem (h : Scanned p s) {c : UInt16} (hmem : c ∈ s) :
    (c.toNat ∈ codePoints s ∧ p c) ∨
      ∃ q ∈ codePoints s, (0xD800 ≤ q ∧ q ≤ 0xDBFF) ∨ 0x10000 ≤ q := by
  induction h with
  | nil => cases hmem
  | @last d h => exact .inr ⟨d.toNat, List.mem_singleton.mpr rfl, .inl (isHigh_iff.mp h)⟩
  | @pair d e rest hd he h ih =>
      rw [codePoints_pair hd he]
      have hlarge := (pair_range hd he).1
      exact .inr ⟨JsString.pair d e, List.mem_cons_self, .inr hlarge⟩
  | @unit d rest hp hd hlow h ih =>
      rw [codePoints_unit hd]
      rcases List.mem_cons.mp hmem with rfl | hmem
      · exact .inl ⟨List.mem_cons_self, hp⟩
      · rcases ih hmem with ⟨hpoint, hpc⟩ | ⟨q, hq, hrange⟩
        · exact .inl ⟨List.mem_cons_of_mem _ hpoint, hpc⟩
        · exact .inr ⟨q, List.mem_cons_of_mem _ hq, hrange⟩

/-- The first code point is the first code unit, or it is high. -/
theorem Scanned.head_cases (h : Scanned p s) {q : Nat} (hq : (codePoints s).head? = some q) :
    (∃ c, s.head? = some c ∧ p c ∧ q = c.toNat) ∨ (0xD800 ≤ q ∧ q ≤ 0xDBFF) ∨ 0x10000 ≤ q := by
  cases h with
  | nil => cases hq
  | @last c h =>
      obtain rfl : c.toNat = q := Option.some.inj hq
      exact .inr (.inl (isHigh_iff.mp h))
  | pair hc hd h =>
      rw [codePoints_pair hc hd, List.head?_cons, Option.some.injEq] at hq
      rw [← hq]
      exact .inr (.inr (pair_range hc hd).1)
  | @unit c rest hp hc hlow h =>
      rw [codePoints_unit hc, List.head?_cons, Option.some.injEq] at hq
      exact .inl ⟨c, rfl, hp, hq.symm⟩

/-- The last code point is the last code unit, or it is high. -/
theorem Scanned.last_cases (h : Scanned p s) {q : Nat} (hq : (codePoints s).getLast? = some q) :
    (∃ c, s.getLast? = some c ∧ p c ∧ q = c.toNat) ∨ (0xD800 ≤ q ∧ q ≤ 0xDBFF) ∨
      0x10000 ≤ q := by
  induction h with
  | nil => cases hq
  | @last c h =>
      obtain rfl : c.toNat = q := Option.some.inj hq
      exact .inr (.inl (isHigh_iff.mp h))
  | @pair c d rest hc hd h ih =>
      rw [codePoints_pair hc hd, List.getLast?_cons, Option.some.injEq] at hq
      cases hlast : (codePoints rest).getLast? with
      | none =>
          rw [hlast, Option.getD_none] at hq
          rw [← hq]
          exact .inr (.inr (pair_range hc hd).1)
      | some q' =>
          rw [hlast, Option.getD_some] at hq
          rcases ih (hlast.trans (congrArg some hq)) with ⟨e, he, hunit⟩ | hhigh
          · refine .inl ⟨e, ?_, hunit⟩
            rw [List.getLast?_cons, List.getLast?_cons, he]
            rfl
          · exact .inr hhigh
  | @unit c rest hp hc hlow h ih =>
      rw [codePoints_unit hc, List.getLast?_cons, Option.some.injEq] at hq
      cases hlast : (codePoints rest).getLast? with
      | none =>
          rw [hlast, Option.getD_none] at hq
          obtain rfl := codePoints_eq_nil (List.getLast?_eq_none_iff.mp hlast)
          exact .inl ⟨c, rfl, hp, hq.symm⟩
      | some q' =>
          rw [hlast, Option.getD_some] at hq
          rcases ih (hlast.trans (congrArg some hq)) with ⟨e, he, hunit⟩ | hhigh
          · refine .inl ⟨e, ?_, hunit⟩
            rw [List.getLast?_cons, he]
            rfl
          · exact .inr hhigh

theorem not_isSpace_of_head_trim {c : UInt16} (h : (trim s).head? = some c) :
    isSpace c = false := by
  have hprefix : trim s <+: s.dropWhile isSpace := List.rdropWhile_prefix _ _
  obtain ⟨rest, hrest⟩ := List.head?_eq_some_iff.mp h
  rw [hrest] at hprefix
  obtain ⟨back, hback⟩ := hprefix
  have hne : s.dropWhile isSpace ≠ [] := by
    rw [← hback]
    exact List.cons_ne_nil _ _
  have hhead := List.head_dropWhile_not isSpace hne
  simp only [← hback, List.cons_append, List.head_cons] at hhead
  exact hhead

theorem not_isSpace_of_last_trim {c : UInt16} (h : (trim s).getLast? = some c) :
    isSpace c = false := by
  have hne : trim s ≠ [] := by
    intro hnil
    rw [hnil] at h
    cases h
  have hlast := List.rdropWhile_last_not isSpace (s.dropWhile isSpace) hne
  rw [List.getLast?_eq_some_getLast hne, Option.some.injEq] at h
  rw [← h]
  exact Bool.eq_false_iff.mpr hlast

/-- A string is trimmed to nothing when it consists of spaces. -/
theorem trim_eq_nil_iff : trim s = [] ↔ ∀ c ∈ s, isSpace c = true := by
  constructor
  · intro h
    have hleft : s.dropWhile isSpace = [] := by
      by_contra hne
      have hspace : isSpace ((s.dropWhile isSpace).head hne) = true :=
        List.rdropWhile_eq_nil_iff.mp h _ (List.head_mem hne)
      rw [List.head_dropWhile_not isSpace hne] at hspace
      cases hspace
    exact List.dropWhile_eq_nil_iff.mp hleft
  · intro h
    unfold trim
    rw [List.dropWhile_eq_nil_iff.mpr h]
    rfl

theorem trim_eq_nil (h : ∀ c ∈ s, isSpace c = true) : trim s = [] := trim_eq_nil_iff.mpr h

/-! ### Texts as strings -/

section ofText

variable {t : Text} {c : Nat}

theorem ofText_unit (hc : c < 0x10000) (t : Text) :
    ofText (c :: t) = UInt16.ofNat c :: ofText t := by
  rw [ofText, List.flatMap_cons, if_pos hc]
  rfl

theorem ofText_pair (hc : 0x10000 ≤ c) (t : Text) :
    ofText (c :: t) = UInt16.ofNat (0xD800 + (c - 0x10000) / 0x400) ::
      UInt16.ofNat (0xDC00 + (c - 0x10000) % 0x400) :: ofText t := by
  rw [ofText, List.flatMap_cons, if_neg (Nat.not_lt.mpr hc)]
  rfl

theorem toNat_ofNat_unit (hc : c < 0x10000) : (UInt16.ofNat c).toNat = c :=
  UInt16.toNat_ofNat_of_lt' hc

theorem toNat_ofNat_ascii (hc : c < 128) : (UInt16.ofNat c).toNat = c :=
  toNat_ofNat_unit (Nat.lt_trans hc (by decide))

/-- The code units of a code point of a supplementary plane. -/
theorem surrogates_of_point {high low : UInt16} (hc : 0x10000 ≤ c) (hlt : c < 0x110000)
    (hhigh : high.toNat = 0xD800 + (c - 0x10000) / 0x400)
    (hlow : low.toNat = 0xDC00 + (c - 0x10000) % 0x400) :
    isHigh high = true ∧ isLow low = true ∧ pair high low = c := by
  have hquotient : (c - 0x10000) / 0x400 < 0x400 := by omega
  have hpair : pair high low = c := by
    unfold pair
    omega
  refine ⟨isHigh_iff.mpr ⟨?_, ?_⟩, isLow_iff.mpr ⟨?_, ?_⟩, hpair⟩
  · omega
  · omega
  · omega
  · omega

/-- A code unit that stands for itself. -/
theorem unit_of_point (hc : c < 0x10000) (hpoint : Text.isSurrogate c = false) :
    isHigh (UInt16.ofNat c) = false ∧ isLow (UInt16.ofNat c) = false := by
  simp only [Text.isSurrogate, Bool.or_eq_false_iff, Bool.and_eq_false_iff,
    decide_eq_false_iff_not] at hpoint
  simp only [isHigh, isLow, toNat_ofNat_unit hc, Bool.and_eq_false_iff, decide_eq_false_iff_not]
  constructor <;> omega

theorem lt_of_isSurrogate (h : Text.isSurrogate c = false) : c < 0x110000 := by
  simp only [Text.isSurrogate, Bool.or_eq_false_iff, decide_eq_false_iff_not] at h
  omega

/-- A text without surrogates is read back from its string. -/
theorem codePoints_ofText (h : ∀ c ∈ t, Text.isSurrogate c = false) : codePoints (ofText t) = t := by
  induction t with
  | nil => rfl
  | cons c t ih =>
      have hpoint := h c List.mem_cons_self
      have hrest := ih fun d hd => h d (List.mem_cons_of_mem c hd)
      by_cases hc : c < 0x10000
      · rw [ofText_unit hc, codePoints_unit (unit_of_point hc hpoint).1, hrest,
          toNat_ofNat_unit hc]
      · have hlt := lt_of_isSurrogate hpoint
        obtain ⟨hhigh, hlow, hpair⟩ := surrogates_of_point (Nat.not_lt.mp hc) hlt
          (toNat_ofNat_unit (by omega)) (toNat_ofNat_unit (by omega))
        rw [ofText_pair (Nat.not_lt.mp hc), codePoints_pair hhigh hlow, hrest, hpair]

/-- The code units of an ASCII text are its characters. -/
theorem units_ofText (h : ∀ c ∈ t, c < 128) : units (ofText t) = t := by
  induction t with
  | nil => rfl
  | cons c t ih =>
      have hc := h c List.mem_cons_self
      rw [ofText_unit (Nat.lt_trans hc (by decide)), units, List.map_cons, toNat_ofNat_ascii hc]
      exact congrArg (c :: ·) (ih fun d hd => h d (List.mem_cons_of_mem c hd))

/-- An ASCII text and the string that it is. -/
theorem ofText_ascii (h : ∀ c ∈ t, c < 128) :
    ofText t = t.map UInt16.ofNat ∧ (ofText t).codePoints = t := by
  constructor
  · induction t with
    | nil => rfl
    | cons c t ih =>
        rw [ofText_unit (Nat.lt_trans (h c List.mem_cons_self) (by decide)),
          ih fun d hd => h d (List.mem_cons_of_mem c hd)]
        rfl
  · refine codePoints_ofText fun c hc => ?_
    have hlt := h c hc
    simp only [Text.isSurrogate, Bool.or_eq_false_iff, Bool.and_eq_false_iff,
      decide_eq_false_iff_not]
    omega

end ofText

end JsString

end SuperBoss.Core
