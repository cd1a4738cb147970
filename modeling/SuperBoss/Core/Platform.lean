import Mathlib.Logic.Equiv.Nat
import SuperBoss.Core.Values

/-!
Reading a UUID back from its text, and a platform for texts in ASCII.
-/

namespace SuperBoss.Core

namespace UUID

def hexValue (c : Nat) : Nat := if c < 58 then c - 48 else c - 87

/-- `UUID(str)`, for 32 lower-case hexadecimal digits with or without hyphens. -/
def parse (t : Text) : Option UUID :=
  let digits := t.filter fun c => c ≠ 45
  if digits.length = 32 ∧ digits.all Text.isLowerHex then
    some (BitVec.ofNat 128 (digits.foldl (fun n c => n * 16 + hexValue c) 0))
  else none

theorem hexValue_hexDigit {n : Nat} (h : n < 16) : hexValue (Json.hexDigit n) = n := by
  unfold hexValue Json.hexDigit
  split <;> split <;> omega

theorem isLowerHex_hexDigit {n : Nat} (h : n < 16) : Text.isLowerHex (Json.hexDigit n) = true := by
  unfold Json.hexDigit
  split
  · have hlow : 48 ≤ 48 + n ∧ 48 + n ≤ 57 := by omega
    simp [Text.isLowerHex, hlow]
  · have hlow : 97 ≤ 87 + n ∧ 87 + n ≤ 102 := by omega
    simp [Text.isLowerHex, hlow]

theorem digit_ne_hyphen (u : UUID) (i : Nat) : digit u i ≠ 45 := by
  unfold digit Json.hexDigit
  split <;> omega

theorem filter_text (u : UUID) :
    (text u).filter (fun c => decide (c ≠ 45)) = (List.range 32).map (digit u) := by
  have hgroup : ∀ l : List Nat, (l.map (digit u)).filter (fun c => decide (c ≠ 45)) =
      l.map (digit u) := by
    intro l
    rw [List.filter_eq_self]
    intro c hc
    obtain ⟨i, -, rfl⟩ := List.mem_map.mp hc
    exact decide_eq_true (digit_ne_hyphen u i)
  have hshift : ∀ start count, (List.range count).map (fun i => digit u (start + i)) =
      ((List.range count).map (start + ·)).map (digit u) := by
    intro start count
    rw [List.map_map]
    rfl
  have hyphen : List.filter (fun c => decide (c ≠ 45)) [45] = [] := rfl
  simp only [text, Text.join, List.filter_append, hshift, hgroup, hyphen]
  rfl

/-- The digits before position `k` spell the high part of the number. -/
theorem foldl_digits (u : UUID) {k : Nat} (hk : k ≤ 32) :
    ((List.range k).map (digit u)).foldl (fun n c => n * 16 + hexValue c) 0 =
      u.toNat / 16 ^ (32 - k) := by
  induction k with
  | zero =>
      have hlt : u.toNat < 16 ^ 32 := u.isLt
      exact (Nat.div_eq_of_lt hlt).symm
  | succ k ih =>
      rw [List.range_succ, List.map_append, List.foldl_append, ih (by omega)]
      have hexp : 32 - k = (31 - k) + 1 := by omega
      have hlast : 32 - (k + 1) = 31 - k := by omega
      simp only [List.map_cons, List.map_nil, List.foldl_cons, List.foldl_nil, digit,
        hexValue_hexDigit (Nat.mod_lt _ (by decide : 0 < 16))]
      rw [hexp, Nat.pow_succ, ← Nat.div_div_eq_div_mul, hlast]
      exact Nat.div_add_mod' _ 16

theorem parse_text (u : UUID) : parse u.text = some u := by
  have hdigits := filter_text u
  have hlength : ((List.range 32).map (digit u)).length = 32 := by simp
  have hall : ((List.range 32).map (digit u)).all Text.isLowerHex = true := by
    rw [List.all_eq_true]
    intro c hc
    obtain ⟨i, -, rfl⟩ := List.mem_map.mp hc
    exact isLowerHex_hexDigit (Nat.mod_lt _ (by decide))
  simp only [parse, hdigits, hlength, hall, and_self, if_true, foldl_digits u (Nat.le_refl 32)]
  rw [Nat.sub_self, Nat.pow_zero, Nat.div_one, BitVec.ofNat_toNat, BitVec.setWidth_eq]

end UUID

/-- NFC on text in ASCII. -/
def asciiNfc : Nfc where
  nfc t := t
  nfc_nfc _ := rfl
  nfc_isInfix _ _ := rfl
  nfc_newline _ _ := rfl

/-- A platform as it behaves on ASCII text, with given hashes and with one
moment in its usual spelling; other moments are coded by one character. -/
def asciiPlatform (sha256 : Bytes → Text) (uuid5 : Text → UUID) (moment : Instant)
    (spelling : Text) (h : 1 < spelling.length) : Platform where
  unicode := asciiNfc
  isAlnum := Text.isAlnumAscii
  sha256
  uuid5
  parseUuid := UUID.parse
  parseDatetime
    | .str t =>
        if t = spelling then some ⟨moment, some 0⟩
        else
          match t with
          | [n] => some ⟨Equiv.intEquivNat.symm n, some 0⟩
          | _ => none
    | _ => none
  dumpDatetime t := if t = moment then spelling else [Equiv.intEquivNat t]
  parseInt
    | .int n => some n
    | _ => none
  parseUuid_text := UUID.parse_text
  parseDatetime_dump t _ _ := by
    by_cases ht : t = moment
    · simp [ht]
    · have hne : [Equiv.intEquivNat t] ≠ spelling := by
        rintro rfl
        simp at h
      simp [ht, hne]
  parseInt_int _ := rfl

end SuperBoss.Core
