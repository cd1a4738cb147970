import Mathlib.Tactic.NormNum
import SuperBoss.Core.Encoding

/-!
Reading a calendar day from its ISO form.
-/

namespace SuperBoss.Core

namespace Date

def isLeap (year : Int) : Bool := year % 4 == 0 && (year % 100 != 0 || year % 400 == 0)

def daysInMonth (year month : Int) : Int :=
  if month = 2 then if isLeap year then 29 else 28
  else if month = 4 ∨ month = 6 ∨ month = 9 ∨ month = 11 then 30
  else 31

/-- `date(year, month, day)`. -/
def ofCivil (year month day : Int) : Option Date :=
  if (1 ≤ year ∧ year ≤ 9999) ∧ (1 ≤ month ∧ month ≤ 12) ∧ 1 ≤ day ∧
      day ≤ daysInMonth year month then
    let y := if month ≤ 2 then year - 1 else year
    let mp := if month ≤ 2 then month + 9 else month - 3
    let doy := (153 * mp + 2) / 5 + day - 1
    some (y / 400 * 146097 + (365 * (y % 400) + y % 400 / 4 - y % 400 / 100) + doy - 719468)
  else none

def isDigit (c : Nat) : Bool := 48 ≤ c && c ≤ 57

/-- `\d{4}-\d{2}-\d{2}`. -/
def isDateText : Text → Bool
  | [a, b, c, d, 45, e, f, 45, g, h] => [a, b, c, d, e, f, g, h].all isDigit
  | _ => false

/-- The value of a sequence of digits. -/
def number (t : Text) : Int := t.foldl (fun (n : Int) (c : Nat) => n * 10 + ((c : Int) - 48)) 0

/-- The validator of `date` on a day in its ISO form. -/
def parse (t : Text) : Option Date :=
  if isDateText t then ofCivil (number (t.take 4)) (number ((t.drop 5).take 2)) (number (t.drop 8))
  else none

theorem number_pad {width : Nat} {n : Int} (h : 0 ≤ n ∧ n < 10 ^ width) :
    number (pad width n) = n := by
  induction width generalizing n with
  | zero =>
      rw [Int.pow_zero] at h
      have hn : n = 0 := by omega
      rw [hn]
      rfl
  | succ width ih =>
      rw [Int.pow_succ] at h
      have hfront := ih (n := n / 10) (by omega)
      unfold number at hfront ⊢
      rw [pad, List.foldl_append, hfront]
      change n / 10 * 10 + (((48 + (n % 10).toNat : Nat) : Int) - 48) = n
      omega

/-- Numbers of one width are in the order of their digits. -/
theorem pad_append_le {width : Nat} {m n : Int} {s t : Text} (hm : 0 ≤ m ∧ m < 10 ^ width)
    (hn : 0 ≤ n ∧ n < 10 ^ width) (h : m < n ∨ m = n ∧ s ≤ t) :
    pad width m ++ s ≤ pad width n ++ t := by
  induction width generalizing m n s t with
  | zero =>
      rw [Int.pow_zero] at hm hn
      rcases h with h | ⟨-, h⟩
      · omega
      · exact h
  | succ width ih =>
      rw [Int.pow_succ] at hm hn
      rw [pad, pad, List.append_assoc, List.append_assoc]
      refine ih (by omega) (by omega) ?_
      have hcases : m / 10 < n / 10 ∨ m / 10 = n / 10 ∧
          (m % 10 < n % 10 ∨ m % 10 = n % 10 ∧ s ≤ t) := by
        rcases h with h | ⟨h, hst⟩
        · omega
        · exact .inr ⟨by rw [h], .inr ⟨by rw [h], hst⟩⟩
      rcases hcases with hlt | ⟨heq, hlt | ⟨heq', hst⟩⟩
      · exact .inl hlt
      · have hdigit : 48 + (m % 10).toNat < 48 + (n % 10).toNat := by omega
        exact .inr ⟨heq, le_of_lt (List.Lex.rel hdigit)⟩
      · refine .inr ⟨heq, ?_⟩
        rw [heq']
        exact List.cons_le_cons _ hst

/-- The leap days of the years before grow with the year. -/
theorem leapDays_mono {a b : Int} (h : a ≤ b) : a / 4 - a / 100 ≤ b / 4 - b / 100 := by
  have hquarters : a / 4 ≤ b / 4 := by omega
  have ha : a / 100 = a / 4 / 25 := by omega
  have hb : b / 100 = b / 4 / 25 := by omega
  rw [ha, hb]
  generalize a / 4 = p at hquarters
  generalize b / 4 = q at hquarters
  omega

/-- Days in order are days of years in order that begin in March, or of one such year. -/
theorem march_lt {era yoe doy era' yoe' doy' : Int} (hyoe : 0 ≤ yoe ∧ yoe ≤ 399)
    (hyoe' : 0 ≤ yoe' ∧ yoe' ≤ 399) (hdoy : 0 ≤ doy ∧ doy ≤ 365) (hdoy' : 0 ≤ doy' ∧ doy' ≤ 365)
    (h : era * 146097 + (365 * yoe + yoe / 4 - yoe / 100) + doy <
      era' * 146097 + (365 * yoe' + yoe' / 4 - yoe' / 100) + doy') :
    yoe + era * 400 < yoe' + era' * 400 ∨ (era = era' ∧ yoe = yoe') ∧ doy < doy' := by
  have hfirst := leapDays_mono hyoe.1
  have hlast := leapDays_mono hyoe.2
  have hfirst' := leapDays_mono hyoe'.1
  have hlast' := leapDays_mono hyoe'.2
  norm_num at hfirst hlast hfirst' hlast'
  rcases Int.lt_trichotomy era era' with hera | rfl | hera
  · left
    omega
  · rcases Int.lt_trichotomy yoe yoe' with hlt | rfl | hlt
    · left
      omega
    · right
      exact ⟨⟨rfl, rfl⟩, by omega⟩
    · have hmono := leapDays_mono hlt.le
      omega
  · omega

/-- The calendar days of two dates are in the order of the dates. -/
theorem civil_lt {d e : Int} (h : d < e) : (civil d).1 < (civil e).1 ∨
    (civil d).1 = (civil e).1 ∧ ((civil d).2.1 < (civil e).2.1 ∨
      (civil d).2.1 = (civil e).2.1 ∧ (civil d).2.2 < (civil e).2.2) := by
  obtain ⟨era, yoe, doy, mp, hd, hyoe, hdoy, hmp, hday, hmonth, hyear⟩ := (reckoned d).steps
  obtain ⟨era', yoe', doy', mp', he, hyoe', hdoy', hmp', hday', hmonth', hyear'⟩ :=
    (reckoned e).steps
  have hdays : era * 146097 + (365 * yoe + yoe / 4 - yoe / 100) + doy <
      era' * 146097 + (365 * yoe' + yoe' / 4 - yoe' / 100) + doy' := by
    omega
  have horder := march_lt hyoe hyoe' hdoy hdoy' hdays
  generalize civil d = c at hd hday hmonth hyear ⊢
  generalize civil e = c' at he hday' hmonth' hyear' ⊢
  clear hd he h hdays hyoe hyoe'
  rcases horder with hlt | ⟨⟨rfl, rfl⟩, hlt⟩
  · clear hday hday'
    split at hmonth <;> split at hmonth' <;> omega
  · split at hmonth <;> split at hmonth' <;> omega

theorem isDateText_isoformat (d : Date) : isDateText (isoformat d) = true := by
  have hdigit : ∀ n : Int, isDigit (48 + (n % 10).toNat) = true := by
    intro n
    simp only [isDigit, Bool.and_eq_true, decide_eq_true_eq]
    omega
  simp only [isoformat, pad, List.nil_append, List.cons_append, isDateText, List.all_cons,
    List.all_nil, hdigit, Bool.and_true]

theorem isDigit_of_isDateText {c : Nat} {t : Text} (h : isDateText (c :: t) = true) :
    isDigit c = true := by
  unfold isDateText at h
  split at h
  · rename_i heq
    obtain ⟨rfl, -⟩ := List.cons.inj heq
    rw [List.all_cons, Bool.and_eq_true] at h
    exact h.1
  · cases h

theorem parse_isoformat {d : Date} (hyear : 0 ≤ (civil d).1 ∧ (civil d).1 < 10 ^ 4)
    (hmonth : 0 ≤ (civil d).2.1 ∧ (civil d).2.1 < 10 ^ 2)
    (hday : 0 ≤ (civil d).2.2 ∧ (civil d).2.2 < 10 ^ 2) :
    parse (isoformat d) = ofCivil (civil d).1 (civil d).2.1 (civil d).2.2 := by
  have hfront : (isoformat d).take 4 = pad 4 (civil d).1 := by
    exact List.take_left' (length_pad 4 _)
  have hmiddle : ((isoformat d).drop 5).take 2 = pad 2 (civil d).2.1 := by
    have hdrop : (isoformat d).drop 5 = pad 2 (civil d).2.1 ++ 45 :: pad 2 (civil d).2.2 := by
      change (pad 4 (civil d).1 ++ ([45] ++ _)).drop 5 = _
      rw [← List.append_assoc]
      exact List.drop_left' (by simp [length_pad])
    rw [hdrop]
    exact List.take_left' (length_pad 2 _)
  have hback : (isoformat d).drop 8 = pad 2 (civil d).2.2 := by
    have hassoc : isoformat d =
        (pad 4 (civil d).1 ++ [45] ++ pad 2 (civil d).2.1 ++ [45]) ++ pad 2 (civil d).2.2 := by
      simp [isoformat]
    rw [hassoc]
    exact List.drop_left' (by simp [length_pad])
  rw [parse, if_pos (isDateText_isoformat d), hfront, hmiddle, hback, number_pad hyear,
    number_pad hmonth, number_pad hday]

/-- The last day of a year that begins in March is there in leap years only. -/
theorem leap_of_last {doe yoe : Int} (hdoe : 0 ≤ doe ∧ doe ≤ 146096)
    (hyoe : yoe = (doe - doe / 1460 + doe / 36524 - doe / 146096) / 365)
    (hlast : doe - (365 * yoe + yoe / 4 - yoe / 100) = 365) : isLeap (yoe + 1) = true := by
  obtain ⟨hrange, hleap, hhundred⟩ := year_quotients hdoe hyoe
  have hquarter : doe / 1460 = yoe / 4 + 1 := by omega
  have hmod : yoe % 4 = 0 ∨ yoe % 4 = 1 ∨ yoe % 4 = 2 ∨ yoe % 4 = 3 := by omega
  have hfourth : (yoe + 1) % 4 = 0 := by
    rcases hmod with h | h | h | h <;> omega
  have hcentury : (yoe + 1) % 100 ≠ 0 ∨ (yoe + 1) % 400 = 0 := by omega
  simp only [isLeap, Bool.and_eq_true, Bool.or_eq_true, bne_iff_ne, beq_iff_eq]
  exact ⟨hfourth, hcentury⟩

theorem daysInMonth_february {year day : Int} (h : day ≤ 29)
    (hleap : day = 29 → isLeap year = true) : day ≤ daysInMonth year 2 := by
  unfold daysInMonth
  rw [if_pos rfl]
  split
  · exact h
  · rename_i hyear
    have hne : day ≠ 29 := fun he => hyear (hleap he)
    omega

/-- The month and its day from the day of a year that begins in March. -/
theorem month_valid {doy mp year : Int} (hdoy : 0 ≤ doy ∧ doy ≤ 365)
    (hmp : mp = (5 * doy + 2) / 153) (hleap : doy = 365 → isLeap year = true) :
    (1 ≤ (if mp < 10 then mp + 3 else mp - 9) ∧ (if mp < 10 then mp + 3 else mp - 9) ≤ 12) ∧
      1 ≤ doy - (153 * mp + 2) / 5 + 1 ∧
      doy - (153 * mp + 2) / 5 + 1 ≤ daysInMonth year (if mp < 10 then mp + 3 else mp - 9) := by
  have hmonths : mp = 0 ∨ mp = 1 ∨ mp = 2 ∨ mp = 3 ∨ mp = 4 ∨ mp = 5 ∨ mp = 6 ∨ mp = 7 ∨ mp = 8 ∨
      mp = 9 ∨ mp = 10 ∨ mp = 11 := by
    omega
  rcases hmonths with rfl | rfl | rfl | rfl | rfl | rfl | rfl | rfl | rfl | rfl | rfl | rfl
  case inr.inr.inr.inr.inr.inr.inr.inr.inr.inr.inr =>
    refine ⟨by decide, by omega, daysInMonth_february (by omega) fun hday => hleap (by omega)⟩
  all_goals
    refine ⟨by decide, by omega, ?_⟩
    simp only [daysInMonth]
    norm_num
    omega

/-- The calendar day of a date is one of its month. -/
theorem civil_valid (d : Date) : (1 ≤ (civil d).2.1 ∧ (civil d).2.1 ≤ 12) ∧
    1 ≤ (civil d).2.2 ∧ (civil d).2.2 ≤ daysInMonth (civil d).1 (civil d).2.1 := by
  obtain ⟨doe, hdoe⟩ : ∃ doe : Int, doe = (d + 719468) % 146097 := ⟨_, rfl⟩
  obtain ⟨era, hera⟩ : ∃ era : Int, era = (d + 719468) / 146097 := ⟨_, rfl⟩
  obtain ⟨yoe, hyoe⟩ : ∃ yoe : Int,
      yoe = (doe - doe / 1460 + doe / 36524 - doe / 146096) / 365 := ⟨_, rfl⟩
  obtain ⟨doy, hdoy⟩ : ∃ doy : Int, doy = doe - (365 * yoe + yoe / 4 - yoe / 100) := ⟨_, rfl⟩
  obtain ⟨mp, hmp⟩ : ∃ mp : Int, mp = (5 * doy + 2) / 153 := ⟨_, rfl⟩
  have hcivil : civil d = (yoe + era * 400 + (if (if mp < 10 then mp + 3 else mp - 9) ≤ 2 then 1
      else 0), if mp < 10 then mp + 3 else mp - 9, doy - (153 * mp + 2) / 5 + 1) := by
    rw [hmp, hdoy, hyoe, hdoe, hera]
    rfl
  have hrange : 0 ≤ doe ∧ doe ≤ 146096 := by
    constructor <;> omega
  have hyear := dayOfYear_range hrange hyoe
  have hlast := leap_of_last hrange hyoe
  rw [← hdoy] at hyear hlast
  clear hyoe hdoy
  rw [hcivil]
  refine month_valid hyear.2 hmp fun hdays => ?_
  have hleap := hlast hdays
  have hfebruary : mp = 11 := by omega
  rw [hfebruary]
  simp only [isLeap, Bool.and_eq_true, Bool.or_eq_true, bne_iff_ne, beq_iff_eq] at hleap ⊢
  norm_num
  omega

theorem daysInMonth_le (year month : Int) : daysInMonth year month ≤ 31 := by
  unfold daysInMonth
  split
  · split
    · decide
    · decide
  · split
    · decide
    · decide

/-- The days of the years 1 to 9999 are those of the calendar. -/
theorem ofCivil_range {year month day : Int} {d : Date} (h : ofCivil year month day = some d) :
    min ≤ d ∧ d ≤ max := by
  unfold ofCivil at h
  split at h
  · rename_i hvalid
    obtain ⟨hyear, hmonth, hday, hlast⟩ := hvalid
    have hmax := daysInMonth_le year month
    dsimp only at h
    obtain rfl := Option.some.inj h
    change (-719162 : Int) ≤ _ ∧ _ ≤ (2932896 : Int)
    split
    · constructor <;> omega
    · constructor <;> omega
  · cases h

end Date

end SuperBoss.Core
