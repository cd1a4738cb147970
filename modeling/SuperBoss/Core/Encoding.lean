import SuperBoss.Core.Values
import Mathlib.Algebra.Order.Ring.Int

/-!
Encodings that lose nothing: UTF-8, decimal numbers, ISO dates, and texts joined
by a character that they do not contain.
-/

namespace SuperBoss.Core

/-! ### Joined texts -/

namespace Text

theorem append_cons_inj {sep : Nat} {a b s t : Text} (ha : sep ∉ a) (hb : sep ∉ b)
    (h : a ++ sep :: s = b ++ sep :: t) : a = b ∧ s = t := by
  induction a generalizing b with
  | nil =>
      cases b with
      | nil => exact ⟨rfl, List.tail_eq_of_cons_eq h⟩
      | cons c b => exact absurd (List.head_eq_of_cons_eq h ▸ List.mem_cons_self) hb
  | cons c a ih =>
      cases b with
      | nil => exact absurd (List.head_eq_of_cons_eq h ▸ List.mem_cons_self) ha
      | cons d b =>
          obtain ⟨hhead, htail⟩ := List.cons.inj h
          obtain ⟨hab, hst⟩ := ih (fun hm => ha (List.mem_cons_of_mem c hm))
            (fun hm => hb (List.mem_cons_of_mem d hm)) htail
          exact ⟨by rw [hhead, hab], hst⟩

/-- Texts without the separator are read back from their join. -/
theorem join_inj {sep : Nat} {l l' : List Text} (hlength : l.length = l'.length)
    (hl : ∀ t ∈ l, sep ∉ t) (hl' : ∀ t ∈ l', sep ∉ t) (h : join [sep] l = join [sep] l') :
    l = l' := by
  induction l generalizing l' with
  | nil => exact (List.length_eq_zero_iff.mp hlength.symm).symm
  | cons t ts ih =>
      obtain ⟨t', ts', rfl⟩ := List.exists_cons_of_length_eq_add_one hlength.symm
      have ht := hl t List.mem_cons_self
      have ht' := hl' t' List.mem_cons_self
      cases ts with
      | nil =>
          obtain rfl := List.length_eq_zero_iff.mp (Nat.succ.inj hlength.symm)
          exact congrArg (fun u => [u]) h
      | cons u us =>
          obtain ⟨u', us', rfl⟩ := List.exists_cons_of_length_eq_add_one (Nat.succ.inj hlength.symm)
          simp only [join, List.append_assoc, List.singleton_append] at h
          obtain ⟨rfl, hrest⟩ := append_cons_inj ht ht' h
          rw [ih (Nat.succ.inj hlength) (fun v hv => hl v (List.mem_cons_of_mem t hv))
            (fun v hv => hl' v (List.mem_cons_of_mem t hv)) hrest]

theorem mem_join {sep : Text} {l : List Text} {c : Nat} (h : c ∈ join sep l) :
    c ∈ sep ∨ ∃ t ∈ l, c ∈ t := by
  induction l with
  | nil => cases h
  | cons t ts ih =>
      cases ts with
      | nil => exact .inr ⟨t, List.mem_cons_self, h⟩
      | cons u us =>
          rcases List.mem_append.mp h with h | h
          · rcases List.mem_append.mp h with h | h
            · exact .inr ⟨t, List.mem_cons_self, h⟩
            · exact .inl h
          · rcases ih h with hsep | ⟨v, hv, hc⟩
            · exact .inl hsep
            · exact .inr ⟨v, List.mem_cons_of_mem t hv, hc⟩

/-! ### UTF-8 -/

/-- The code point at the head of some bytes; the first byte tells how many follow. -/
def readPoint : Bytes → Nat × Bytes
  | b :: s =>
      let lead := b.toNat
      if lead < 0x80 then (lead, s)
      else
        match s with
        | c :: s =>
            let first := (lead - 0xC0) * 0x40 + (c.toNat - 0x80)
            if lead < 0xE0 then (first, s)
            else
              match s with
              | d :: s =>
                  let second := (lead - 0xE0) * 0x1000 + (c.toNat - 0x80) * 0x40 + (d.toNat - 0x80)
                  if lead < 0xF0 then (second, s)
                  else
                    match s with
                    | e :: s => ((lead - 0xF0) * 0x40000 + (c.toNat - 0x80) * 0x1000 +
                        (d.toNat - 0x80) * 0x40 + (e.toNat - 0x80), s)
                    | [] => (0, [])
              | [] => (0, [])
        | [] => (0, [])
  | [] => (0, [])

theorem toNat_ofNat {n : Nat} (h : n < 256) : (UInt8.ofNat n).toNat = n := by
  rw [UInt8.toNat_ofNat']
  exact Nat.mod_eq_of_lt h

theorem readPoint_encodePoint {c : Nat} {x : Bytes} (h : encodePoint c = some x) (s : Bytes) :
    readPoint (x ++ s) = (c, s) := by
  unfold encodePoint at h
  split at h
  · cases h
  · rename_i hpoint
    have hlt : c < 0x110000 := by
      simp only [isSurrogate, Bool.or_eq_true, decide_eq_true_eq, not_or, Nat.not_le] at hpoint
      exact hpoint.2
    split at h
    · rename_i h1
      cases h
      have hlead := toNat_ofNat (n := c) (by omega)
      simp only [List.singleton_append, readPoint, hlead, if_pos h1]
    · split at h
      · cases h
        have hlead := toNat_ofNat (n := 0xC0 + c / 0x40) (by omega)
        have hc := toNat_ofNat (n := 0x80 + c % 0x40) (by omega)
        simp only [List.cons_append, List.nil_append, readPoint, hlead, hc]
        rw [if_neg (by omega), if_pos (by omega)]
        refine Prod.ext ?_ rfl
        show _ = c
        omega
      · split at h
        · cases h
          have hlead := toNat_ofNat (n := 0xE0 + c / 0x1000) (by omega)
          have hc := toNat_ofNat (n := 0x80 + c / 0x40 % 0x40) (by omega)
          have hd := toNat_ofNat (n := 0x80 + c % 0x40) (by omega)
          simp only [List.cons_append, List.nil_append, readPoint, hlead, hc, hd]
          rw [if_neg (by omega), if_neg (by omega), if_pos (by omega)]
          refine Prod.ext ?_ rfl
          show _ = c
          omega
        · cases h
          have hlead := toNat_ofNat (n := 0xF0 + c / 0x40000) (by omega)
          have hc := toNat_ofNat (n := 0x80 + c / 0x1000 % 0x40) (by omega)
          have hd := toNat_ofNat (n := 0x80 + c / 0x40 % 0x40) (by omega)
          have he := toNat_ofNat (n := 0x80 + c % 0x40) (by omega)
          simp only [List.cons_append, List.nil_append, readPoint, hlead, hc, hd, he]
          rw [if_neg (by omega), if_neg (by omega), if_neg (by omega)]
          refine Prod.ext ?_ rfl
          show _ = c
          omega

theorem utf8_cons {c : Nat} {t : Text} {b : Bytes} (h : utf8 (c :: t) = some b) :
    ∃ x y, encodePoint c = some x ∧ utf8 t = some y ∧ b = x ++ y := by
  obtain ⟨l, hl, rfl⟩ := Option.map_eq_some_iff.mp h
  rw [List.mapM_cons] at hl
  obtain ⟨x, hx, hl⟩ := Option.bind_eq_some_iff.mp hl
  obtain ⟨xs, hxs, hl⟩ := Option.bind_eq_some_iff.mp hl
  cases hl
  exact ⟨x, xs.flatten, hx, Option.map_eq_some_iff.mpr ⟨xs, hxs, rfl⟩, rfl⟩

theorem encodePoint_ne_nil {c : Nat} : encodePoint c ≠ some [] := by
  unfold encodePoint
  split_ifs <;> simp

/-- A text is read back from its UTF-8. -/
theorem utf8_inj {t u : Text} {b : Bytes} (ht : utf8 t = some b) (hu : utf8 u = some b) :
    t = u := by
  induction t generalizing u b with
  | nil =>
      cases ht
      cases u with
      | nil => rfl
      | cons d u =>
          obtain ⟨x, y, hx, -, hb⟩ := utf8_cons hu
          obtain ⟨rfl, -⟩ := List.append_eq_nil_iff.mp hb.symm
          exact absurd hx encodePoint_ne_nil
  | cons c t ih =>
      obtain ⟨x, y, hx, hy, rfl⟩ := utf8_cons ht
      cases u with
      | nil =>
          have hnil : [] = x ++ y := Option.some.inj hu
          obtain ⟨rfl, -⟩ := List.append_eq_nil_iff.mp hnil.symm
          exact absurd hx encodePoint_ne_nil
      | cons d u =>
          obtain ⟨x', y', hx', hy', hb⟩ := utf8_cons hu
          have hread := readPoint_encodePoint hx y
          rw [hb, readPoint_encodePoint hx' y'] at hread
          obtain ⟨rfl, rfl⟩ := Prod.mk.inj hread
          rw [ih hy hy']

/-! ### Numbers -/

theorem ofString_inj {a b : String} : ofString a = ofString b ↔ a = b := by
  constructor
  · intro h
    have hinj : Function.Injective Char.toNat := fun c d hcd => Char.ext (UInt32.toNat_inj.mp hcd)
    exact String.toList_inj.mp (List.map_injective_iff.mpr hinj h)
  · rintro rfl
    rfl

/-- A value is found by its string among values with different strings. -/
theorem find?_ofString {α : Type} {values : List α} {value : α → String}
    (hinj : ∀ a ∈ values, ∀ b ∈ values, value a = value b → a = b) {a : α} (ha : a ∈ values) :
    values.find? (fun v => decide (ofString (value a) = ofString (value v))) = some a := by
  cases hsearch : values.find? fun v => decide (ofString (value a) = ofString (value v)) with
  | none =>
      have hno := List.find?_eq_none.mp hsearch a ha
      simp at hno
  | some b =>
      have hb := List.mem_of_find?_eq_some hsearch
      have heq := List.find?_some (p := fun v =>
        decide (ofString (value a) = ofString (value v))) hsearch
      exact congrArg some (hinj b hb a ha (ofString_inj.mp (of_decide_eq_true heq)).symm)

theorem ofNat_inj {m n : Nat} (h : ofNat m = ofNat n) : m = n := by
  have hdigits : Nat.toDigits 10 m = Nat.toDigits 10 n := by
    rw [← Nat.toList_repr, ← Nat.toList_repr]
    exact congrArg String.toList (ofString_inj.mp h)
  rw [← Nat.ofDigitChars_ten_toDigits (n := m), hdigits, Nat.ofDigitChars_ten_toDigits]

theorem digits_ofNat {n c : Nat} (h : c ∈ ofNat n) : 48 ≤ c ∧ c ≤ 57 := by
  obtain ⟨d, hd, rfl⟩ := List.mem_map.mp h
  have hdigit : d.isDigit = true := Nat.isDigit_of_mem_toDigits (by omega) (by omega)
    (Nat.toList_repr ▸ hd)
  simp only [Char.isDigit, Bool.and_eq_true, decide_eq_true_eq] at hdigit
  exact hdigit

theorem ofNat_ne_nil (n : Nat) : ofNat n ≠ [] := by
  intro h
  have hdigits : Nat.toDigits 10 n = [] := by
    rw [← Nat.toList_repr]
    exact List.map_eq_nil_iff.mp h
  exact Nat.toDigits_ne_nil hdigits

/-- `int` of ASCII digits. -/
def toInt (t : Text) : Nat := t.foldl (fun n c => 10 * n + (c - 48)) 0

theorem toInt_snoc (t : Text) (c : Nat) : toInt (t ++ [c]) = 10 * toInt t + (c - 48) := by
  rw [toInt, List.foldl_append]
  rfl

theorem ofNat_digit {d : Nat} (h : d < 10) : ofNat d = [48 + d] := by
  revert d
  decide

theorem ofNat_snoc {n d : Nat} (hn : 0 < n) (hd : d < 10) :
    ofNat (10 * n + d) = ofNat n ++ [48 + d] := by
  have happend := Nat.toDigits_append_toDigits (b := 10) (by omega) hn hd
  have hlast := ofNat_digit hd
  simp only [ofNat, ofString] at hlast ⊢
  rw [← hlast, ← List.map_append]
  exact congrArg (List.map Char.toNat) (by
    simp only [toString, Nat.toList_repr]
    exact happend.symm)

theorem toInt_ofNat (n : Nat) : toInt (ofNat n) = n := by
  induction n using Nat.strongRecOn with
  | ind n ih =>
      by_cases hn : n < 10
      · rw [ofNat_digit hn]
        show 10 * 0 + (48 + n - 48) = n
        omega
      · have hsplit : n = 10 * (n / 10) + n % 10 := by omega
        rw [hsplit, ofNat_snoc (by omega) (by omega), toInt_snoc, ih (n / 10) (by omega)]
        omega

/-- A number without leading zeros is written as it was read. -/
theorem ofNat_toInt {t : Text} (hdigits : ∀ c ∈ t, 48 ≤ c ∧ c ≤ 57)
    (hhead : t = [48] ∨ ∃ c s, t = c :: s ∧ c ≠ 48) : ofNat (toInt t) = t := by
  rcases hhead with rfl | ⟨c, s, rfl, hc⟩
  · rfl
  · induction s using List.reverseRecOn with
    | nil =>
        have hd := hdigits c List.mem_cons_self
        show ofNat (10 * 0 + (c - 48)) = [c]
        rw [ofNat_digit (by omega)]
        congr 1
        omega
    | append_singleton s d ih =>
        have hd := hdigits d (by simp)
        have ih := ih fun x hx => hdigits x (by
          rcases List.mem_cons.mp hx with rfl | hx
          · exact List.mem_cons_self
          · simp [hx])
        have hpos : 0 < toInt (c :: s) := by
          by_contra hzero
          have hc' := hdigits c List.mem_cons_self
          rw [Nat.eq_zero_of_not_pos hzero] at ih
          exact hc (List.head_eq_of_cons_eq (ih : [48] = c :: s)).symm
        rw [← List.cons_append, toInt_snoc, ofNat_snoc hpos (by omega), ih]
        congr 2
        omega

end Text

/-! ### Dates -/

namespace Date

theorem length_pad (width : Nat) (n : Int) : (pad width n).length = width := by
  induction width generalizing n with
  | zero => rfl
  | succ width ih => rw [pad, List.length_append, ih, List.length_singleton]

theorem pad_inj {width : Nat} {m n : Int} (hm : 0 ≤ m ∧ m < 10 ^ width)
    (hn : 0 ≤ n ∧ n < 10 ^ width) (h : pad width m = pad width n) : m = n := by
  induction width generalizing m n with
  | zero =>
      rw [Int.pow_zero] at hm hn
      omega
  | succ width ih =>
      rw [Int.pow_succ] at hm hn
      obtain ⟨hfront, hlast⟩ := List.append_inj h (by rw [length_pad, length_pad])
      have hdiv := ih (m := m / 10) (n := n / 10) (by omega) (by omega) hfront
      have hmod := List.head_eq_of_cons_eq hlast
      omega

theorem digits_pad {width c : Nat} {n : Int} (h : c ∈ pad width n) : 48 ≤ c ∧ c ≤ 57 := by
  induction width generalizing n with
  | zero => cases h
  | succ width ih =>
      rcases List.mem_append.mp h with h | h
      · exact ih h
      · have hc := List.mem_singleton.mp h
        omega

/-- The quotients in the computation of the year of a day within 400 years. -/
theorem year_quotients {doe yoe : Int} (hdoe : 0 ≤ doe ∧ doe ≤ 146096)
    (hyoe : yoe = (doe - doe / 1460 + doe / 36524 - doe / 146096) / 365) :
    (0 ≤ yoe ∧ yoe ≤ 399) ∧ (yoe / 4 ≤ doe / 1460 ∧ doe / 1460 ≤ yoe / 4 + 1) ∧
      yoe / 100 = doe / 36524 - doe / 146096 := by
  obtain ⟨h0, h1⟩ := hdoe
  -- In each century all quotients but those of the year are fixed.
  have hcentury : doe / 36524 = 0 ∨ doe / 36524 = 1 ∨ doe / 36524 = 2 ∨ doe / 36524 = 3 ∨
      doe / 36524 = 4 := by
    omega
  refine ⟨⟨?_, ?_⟩, ⟨?_, ?_⟩, ?_⟩ <;> rcases hcentury with h | h | h | h | h <;> omega

/-- The year of a day within 400 years, and the day of that year. -/
theorem dayOfYear_range {doe yoe : Int} (hdoe : 0 ≤ doe ∧ doe ≤ 146096)
    (hyoe : yoe = (doe - doe / 1460 + doe / 36524 - doe / 146096) / 365) :
    (0 ≤ yoe ∧ yoe ≤ 399) ∧ 0 ≤ doe - (365 * yoe + yoe / 4 - yoe / 100) ∧
      doe - (365 * yoe + yoe / 4 - yoe / 100) ≤ 365 := by
  obtain ⟨hrange, hleap, hhundred⟩ := year_quotients hdoe hyoe
  refine ⟨hrange, ?_, ?_⟩ <;> omega

/-- What the computation of the calendar day goes through. -/
structure Reckoned (d year month day : Int) : Prop where
  steps : ∃ era yoe doy mp : Int,
    d = era * 146097 + (365 * yoe + yoe / 4 - yoe / 100) + doy - 719468 ∧
    (0 ≤ yoe ∧ yoe ≤ 399) ∧ (0 ≤ doy ∧ doy ≤ 365) ∧ mp = (5 * doy + 2) / 153 ∧
    day = doy - (153 * mp + 2) / 5 + 1 ∧ month = (if mp < 10 then mp + 3 else mp - 9) ∧
    year = yoe + era * 400 + (if month ≤ 2 then 1 else 0)

theorem reckoned (d : Int) : Reckoned d (civil d).1 (civil d).2.1 (civil d).2.2 := by
  obtain ⟨z, hz⟩ : ∃ z : Int, z = d + 719468 := ⟨_, rfl⟩
  have hdoe : 0 ≤ z % 146097 ∧ z % 146097 ≤ 146096 := by
    constructor <;> omega
  obtain ⟨hyoe, hdoy⟩ := dayOfYear_range hdoe rfl
  have hcivil : civil d = civil (z - 719468) := by
    rw [hz, Int.add_sub_cancel]
  refine ⟨z / 146097, _, _, _, ?_, hyoe, hdoy, rfl, ?_, ?_, ?_⟩
  · omega
  · rw [hcivil]
    unfold civil
    rw [Int.sub_add_cancel]
  · rw [hcivil]
    unfold civil
    rw [Int.sub_add_cancel]
  · rw [hcivil]
    unfold civil
    rw [Int.sub_add_cancel]

theorem civil_inj {d e : Int} (h : civil d = civil e) : d = e := by
  obtain ⟨era, yoe, doy, mp, hd, hyoe, hdoy, hmp, hday, hmonth, hyear⟩ := (reckoned d).steps
  obtain ⟨era', yoe', doy', mp', he, hyoe', hdoy', hmp', hday', hmonth', hyear'⟩ :=
    (reckoned e).steps
  rw [h] at hday hmonth hyear
  have hmps : mp = mp' := by
    split at hmonth <;> split at hmonth' <;> omega
  have hyears : era = era' ∧ yoe = yoe' := by
    constructor <;> split at hyear <;> omega
  obtain ⟨rfl, rfl⟩ := hyears
  omega

theorem civil_range {d : Int} (h : min ≤ d ∧ d ≤ max) :
    (0 ≤ (civil d).1 ∧ (civil d).1 < 10 ^ 4) ∧ (0 ≤ (civil d).2.1 ∧ (civil d).2.1 < 10 ^ 2) ∧
      0 ≤ (civil d).2.2 ∧ (civil d).2.2 < 10 ^ 2 := by
  obtain ⟨era, yoe, doy, mp, hd, hyoe, hdoy, hmp, hday, hmonth, hyear⟩ := (reckoned d).steps
  have hlow : (-719162 : Int) ≤ d := h.1
  have hhigh : d ≤ (2932896 : Int) := h.2
  refine ⟨?_, ?_, ?_⟩
  · constructor <;> split at hyear <;> split at hmonth <;> omega
  · constructor <;> split at hmonth <;> omega
  · constructor <;> omega

/-- A date of the calendar is read back from its ISO form. -/
theorem isoformat_inj {d e : Date} (hd : min ≤ d ∧ d ≤ max) (he : min ≤ e ∧ e ≤ max)
    (h : isoformat d = isoformat e) : d = e := by
  obtain ⟨hyear, hmonth, hday⟩ := civil_range hd
  obtain ⟨hyear', hmonth', hday'⟩ := civil_range he
  obtain ⟨hyears, hrest⟩ := List.append_inj h (by rw [length_pad, length_pad])
  obtain ⟨hmonths, hrest⟩ := List.append_inj (List.tail_eq_of_cons_eq hrest)
    (by rw [length_pad, length_pad])
  have hdays := List.tail_eq_of_cons_eq hrest
  exact civil_inj (Prod.ext (pad_inj hyear hyear' hyears)
    (Prod.ext (pad_inj hmonth hmonth' hmonths) (pad_inj hday hday' hdays)))

theorem mem_isoformat {d : Date} {c : Nat} (h : c ∈ isoformat d) :
    c = 45 ∨ (48 ≤ c ∧ c ≤ 57) := by
  rcases List.mem_append.mp h with h | h
  · exact .inr (digits_pad h)
  · rcases List.mem_cons.mp h with h | h
    · exact .inl h
    · rcases List.mem_append.mp h with h | h
      · exact .inr (digits_pad h)
      · rcases List.mem_cons.mp h with h | h
        · exact .inl h
        · exact .inr (digits_pad h)

end Date

end SuperBoss.Core
