import Mathlib.Data.List.DropRight
import Mathlib.Data.List.Infix
import Mathlib.Tactic.Common

/-!
Python strings and bytes. A string is the list of its code points, lone
surrogates included, so that it can hold whatever `json.loads` returns.
-/

namespace SuperBoss.Core

abbrev Text := List Nat

instance Text.instLawfulBEq : LawfulBEq Text := List.instLawfulBEq

abbrev Bytes := List UInt8

namespace Text

def ofString (s : String) : Text := s.toList.map Char.toNat

/-- `str.join`. -/
def join (sep : Text) : List Text → Text
  | [] => []
  | [t] => t
  | t :: ts => t ++ sep ++ join sep ts

/-- Decimal digits of `str(int)` for a natural number. -/
def ofNat (n : Nat) : Text := ofString (toString n)

/-- A surrogate, or a number that is no code point. -/
def isSurrogate (c : Nat) : Bool := (0xD800 ≤ c && c ≤ 0xDFFF) || 0x110000 ≤ c

/-- UTF-8 of one code point; `none` where `str.encode` raises. -/
def encodePoint (c : Nat) : Option Bytes :=
  if isSurrogate c then none
  else if c < 0x80 then some [UInt8.ofNat c]
  else if c < 0x800 then
    some [UInt8.ofNat (0xC0 + c / 0x40), UInt8.ofNat (0x80 + c % 0x40)]
  else if c < 0x10000 then
    some [UInt8.ofNat (0xE0 + c / 0x1000), UInt8.ofNat (0x80 + c / 0x40 % 0x40),
      UInt8.ofNat (0x80 + c % 0x40)]
  else
    some [UInt8.ofNat (0xF0 + c / 0x40000), UInt8.ofNat (0x80 + c / 0x1000 % 0x40),
      UInt8.ofNat (0x80 + c / 0x40 % 0x40), UInt8.ofNat (0x80 + c % 0x40)]

/-- `str.encode("utf-8")`. -/
def utf8 (t : Text) : Option Bytes := (t.mapM encodePoint).map List.flatten

/-- The Unicode `White_Space` property, which `str_strip_whitespace` trims. -/
def isWhitespace (c : Nat) : Bool :=
  (9 ≤ c && c ≤ 13) || c == 0x20 || c == 0x85 || c == 0xA0 || c == 0x1680 ||
    (0x2000 ≤ c && c ≤ 0x200A) || c == 0x2028 || c == 0x2029 || c == 0x202F ||
    c == 0x205F || c == 0x3000

def strip (t : Text) : Text := (t.dropWhile isWhitespace).rdropWhile isWhitespace

/-- `value.replace("\r\n", "\n")`. -/
def replaceCrLf : Text → Text
  | 13 :: 10 :: t => 10 :: replaceCrLf t
  | c :: t => c :: replaceCrLf t
  | [] => []

/-- `value.replace("\r", "\n")`. -/
def replaceCr (t : Text) : Text := t.map fun c => if c = 13 then 10 else c

def foldNewlines (t : Text) : Text := replaceCr (replaceCrLf t)

/-- No DEL and no C0 control, a line feed of a document apart. -/
def noControls (document : Bool) (t : Text) : Bool :=
  t.all fun c => !(c == 127 || (c < 32 && !(document && c == 10)))

def isLowerHex (c : Nat) : Bool := (48 ≤ c && c ≤ 57) || (97 ≤ c && c ≤ 102)

/-- `[0-9a-f]{64}`. -/
def isDigest (t : Text) : Bool := t.length == 64 && t.all isLowerHex

def isAlnumAscii (c : Nat) : Bool :=
  (48 ≤ c && c ≤ 57) || (65 ≤ c && c ≤ 90) || (97 ≤ c && c ≤ 122)

/-- `[A-Za-z0-9!#$&^_.+-]`. -/
def isMimeChar (c : Nat) : Bool :=
  isAlnumAscii c || [33, 35, 36, 38, 94, 95, 46, 43, 45].contains c

/-- `[A-Za-z0-9!#$&^_.+-]+/[A-Za-z0-9!#$&^_.+-]+`. -/
def isMimeType (t : Text) : Bool :=
  match t.span isMimeChar with
  | (a, 47 :: b) => a != [] && b != [] && b.all isMimeChar
  | _ => false

/-- `[!-~]{1,255}`. -/
def isIdempotencyKey (t : Text) : Bool :=
  1 ≤ t.length && t.length ≤ 255 && t.all fun c => 33 ≤ c && c ≤ 126

theorem trim_isInfix (p : Nat → Bool) (t : Text) : (t.dropWhile p).rdropWhile p <:+: t :=
  (List.rdropWhile_prefix _ _).isInfix.trans (List.dropWhile_suffix _).isInfix

theorem dropWhile_trim (p : Nat → Bool) (t : Text) :
    ((t.dropWhile p).rdropWhile p).dropWhile p = (t.dropWhile p).rdropWhile p := by
  rw [List.dropWhile_eq_self_iff]
  intro hpos
  have hprefix : (t.dropWhile p).rdropWhile p <+: t.dropWhile p := List.rdropWhile_prefix _ _
  have hpos' : 0 < (t.dropWhile p).length := hpos.trans_le hprefix.length_le
  have hhead : ((t.dropWhile p).rdropWhile p)[0] = (t.dropWhile p)[0] := hprefix.getElem hpos
  rw [hhead]
  exact List.dropWhile_get_zero_not _ _ hpos'

/-- Removing what `p` holds of at both ends is done after once. -/
theorem trim_trim (p : Nat → Bool) (t : Text) :
    (((t.dropWhile p).rdropWhile p).dropWhile p).rdropWhile p = (t.dropWhile p).rdropWhile p := by
  rw [dropWhile_trim]
  exact List.rdropWhile_idempotent _ _

theorem strip_isInfix (t : Text) : strip t <:+: t := trim_isInfix isWhitespace t

theorem strip_strip (t : Text) : strip (strip t) = strip t := trim_trim isWhitespace t

theorem replaceCr_of_notMem {t : Text} (h : 13 ∉ t) : replaceCr t = t := by
  refine (List.map_congr_left fun c hc => ?_).trans (List.map_id t)
  rw [if_neg (fun he : c = 13 => h (he ▸ hc))]
  rfl

theorem replaceCrLf_of_notMem {t : Text} (h : 13 ∉ t) : replaceCrLf t = t := by
  induction t using replaceCrLf.induct with
  | case1 t ih => simp at h
  | case2 c t _ ih =>
      rw [replaceCrLf, ih (fun hm => h (List.mem_cons_of_mem c hm))]
      assumption
  | case3 => rfl

theorem foldNewlines_of_notMem {t : Text} (h : 13 ∉ t) : foldNewlines t = t := by
  rw [foldNewlines, replaceCrLf_of_notMem h, replaceCr_of_notMem h]

theorem notMem_foldNewlines (t : Text) : 13 ∉ foldNewlines t := by
  simp only [foldNewlines, replaceCr, List.mem_map, not_exists, not_and]
  intro c _
  split <;> omega

end Text

/-- `unicodedata.normalize("NFC", ·)` with what the Unicode standard says of it:
it is idempotent, a piece of normalized text is normalized, and a line feed
neither composes nor reorders. -/
structure Nfc where
  nfc : Text → Text
  nfc_nfc : ∀ t, nfc (nfc t) = nfc t
  nfc_isInfix : ∀ {s t : Text}, s <:+: t → nfc t = t → nfc s = s
  nfc_newline : ∀ s t : Text, nfc (s ++ 10 :: t) = nfc s ++ 10 :: nfc t

namespace Nfc

variable (U : Nfc)

def Normal (t : Text) : Prop := U.nfc t = t

variable {U}

theorem Normal.of_isInfix {s t : Text} (ht : U.Normal t) (h : s <:+: t) : U.Normal s :=
  U.nfc_isInfix h ht

theorem Normal.newline {s t : Text} (hs : U.Normal s) (ht : U.Normal t) :
    U.Normal (s ++ 10 :: t) := by
  unfold Normal at *
  rw [U.nfc_newline, hs, ht]

/-- Replacing line terminators by line feeds keeps a text normalized. The
induction carries the piece `a` since the last terminator, which together with
the rest is a piece of the original text. -/
theorem Normal.replaceCr_append {a t : Text} (h : U.Normal (a ++ t)) :
    U.Normal (a ++ Text.replaceCr t) := by
  induction t generalizing a with
  | nil => exact h
  | cons c t ih =>
      by_cases hc : c = 13
      · subst c
        have hpre : U.Normal a := h.of_isInfix (List.prefix_append a _).isInfix
        have hrest : U.Normal ([] ++ t) :=
          h.of_isInfix ((List.suffix_cons 13 t).trans (List.suffix_append a _)).isInfix
        exact hpre.newline (ih hrest)
      · have hstep := ih (a := a ++ [c]) (by simpa using h)
        simpa [Text.replaceCr, hc] using hstep

theorem Normal.replaceCrLf_append {a t : Text} (h : U.Normal (a ++ t)) :
    U.Normal (a ++ Text.replaceCrLf t) := by
  induction t using Text.replaceCrLf.induct generalizing a with
  | case1 t ih =>
      have hpre : U.Normal a := h.of_isInfix (List.prefix_append a _).isInfix
      have hrest : U.Normal ([] ++ t) :=
        h.of_isInfix (((List.suffix_cons 10 t).trans (List.suffix_cons 13 _)).trans
          (List.suffix_append a _)).isInfix
      exact hpre.newline (ih hrest)
  | case2 c t hne ih =>
      have hstep := ih (a := a ++ [c]) (by simpa using h)
      rw [Text.replaceCrLf]
      · simpa using hstep
      · exact hne
  | case3 => exact h

theorem Normal.foldNewlines {t : Text} (h : U.Normal t) : U.Normal (Text.foldNewlines t) :=
  Normal.replaceCr_append (a := []) (Normal.replaceCrLf_append (a := []) h)

end Nfc

end SuperBoss.Core
