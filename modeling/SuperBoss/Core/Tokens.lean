import Mathlib.Logic.Equiv.Nat
import SuperBoss.Core.Security

/-!
A token format in which the signature is the secret itself: the claims are
written with a prefix code and read back.
-/

namespace SuperBoss.Core

namespace Json

def codeText (t : Text) : Text := t.length :: t

mutual

/-- A prefix code of JSON values. -/
def code : Json → Text
  | .null => [0]
  | .bool b => [1, b.toNat]
  | .int n => [2, Equiv.intEquivNat n]
  | .float literal => 3 :: codeText literal
  | .str t => 4 :: codeText t
  | .arr items => 5 :: items.length :: codeItems items
  | .obj fields => 6 :: fields.length :: codeFields fields

def codeItems : List Json → Text
  | [] => []
  | x :: xs => code x ++ codeItems xs

def codeFields : List (Text × Json) → Text
  | [] => []
  | (k, x) :: xs => codeText k ++ code x ++ codeFields xs

end

def readText : Text → Option (Text × Text)
  | [] => none
  | n :: rest => if n ≤ rest.length then some (rest.take n, rest.drop n) else none

mutual

def read : Nat → Text → Option (Json × Text)
  | _ + 1, 0 :: rest => some (.null, rest)
  | _ + 1, 1 :: b :: rest => some (.bool (b == 1), rest)
  | _ + 1, 2 :: n :: rest => some (.int (Equiv.intEquivNat.symm n), rest)
  | _ + 1, 3 :: rest => (readText rest).map fun r => (.float r.1, r.2)
  | _ + 1, 4 :: rest => (readText rest).map fun r => (.str r.1, r.2)
  | fuel + 1, 5 :: n :: rest => (readItems fuel n rest).map fun r => (.arr r.1, r.2)
  | fuel + 1, 6 :: n :: rest => (readFields fuel n rest).map fun r => (.obj r.1, r.2)
  | _, _ => none

def readItems : Nat → Nat → Text → Option (List Json × Text)
  | _, 0, rest => some ([], rest)
  | 0, _ + 1, _ => none
  | fuel + 1, n + 1, rest => do
      let (x, rest) ← read fuel rest
      let (xs, rest) ← readItems fuel n rest
      some (x :: xs, rest)

def readFields : Nat → Nat → Text → Option (List (Text × Json) × Text)
  | _, 0, rest => some ([], rest)
  | 0, _ + 1, _ => none
  | fuel + 1, n + 1, rest => do
      let (k, rest) ← readText rest
      let (x, rest) ← read fuel rest
      let (xs, rest) ← readFields fuel n rest
      some ((k, x) :: xs, rest)

end

theorem readText_codeText (t rest : Text) : readText (codeText t ++ rest) = some (t, rest) := by
  simp [readText, codeText]

theorem code_length_pos (x : Json) : 0 < (code x).length := by
  cases x <;> simp [code]

mutual

theorem read_code : ∀ (x : Json) (fuel : Nat) (rest : Text), (code x).length ≤ fuel →
    read fuel (code x ++ rest) = some (x, rest)
  | x, 0, rest, h => absurd h (Nat.not_le.mpr (code_length_pos x))
  | .null, fuel + 1, rest, _ => rfl
  | .bool b, fuel + 1, rest, _ => by cases b <;> rfl
  | .int n, fuel + 1, rest, _ => by simp [code, read]
  | .float t, fuel + 1, rest, _ => by
      simp only [code, List.cons_append, read, readText_codeText]
      rfl
  | .str t, fuel + 1, rest, _ => by
      simp only [code, List.cons_append, read, readText_codeText]
      rfl
  | .arr items, fuel + 1, rest, h => by
      have hfuel : (codeItems items).length + 1 ≤ fuel := by
        simp only [code, List.length_cons] at h
        omega
      simp only [code, List.cons_append, read, readItems_codeItems items fuel rest hfuel]
      rfl
  | .obj fields, fuel + 1, rest, h => by
      have hfuel : (codeFields fields).length + 1 ≤ fuel := by
        simp only [code, List.length_cons] at h
        omega
      simp only [code, List.cons_append, read, readFields_codeFields fields fuel rest hfuel]
      rfl

theorem readItems_codeItems : ∀ (xs : List Json) (fuel : Nat) (rest : Text),
    (codeItems xs).length + 1 ≤ fuel →
      readItems fuel xs.length (codeItems xs ++ rest) = some (xs, rest)
  | [], _, _, _ => by simp [codeItems, readItems]
  | x :: xs, 0, _, h => absurd h (Nat.not_succ_le_zero _)
  | x :: xs, fuel + 1, rest, h => by
      have hpos := code_length_pos x
      simp only [codeItems, List.length_append] at h
      simp only [codeItems, List.append_assoc, List.length_cons, readItems,
        Option.bind_eq_bind, Option.bind_some, read_code x fuel _ (by omega),
        readItems_codeItems xs fuel rest (by omega)]

theorem readFields_codeFields : ∀ (xs : List (Text × Json)) (fuel : Nat) (rest : Text),
    (codeFields xs).length + 1 ≤ fuel →
      readFields fuel xs.length (codeFields xs ++ rest) = some (xs, rest)
  | [], _, _, _ => by simp [codeFields, readFields]
  | (k, x) :: xs, 0, _, h => absurd h (Nat.not_succ_le_zero _)
  | (k, x) :: xs, fuel + 1, rest, h => by
      have hpos := code_length_pos x
      simp only [codeFields, List.length_append] at h
      simp only [codeFields, List.append_assoc, List.length_cons, readFields, readText_codeText,
        Option.bind_eq_bind, Option.bind_some, read_code x fuel _ (by omega),
        readFields_codeFields xs fuel rest (by omega)]

end

end Json

/-- A token is the secret followed by the claims. -/
def plainJwt : Jwt where
  encode secret claims := Json.codeText secret ++ Json.code (.obj claims)
  decode secret token :=
    match Json.readText token with
    | none => none
    | some (signature, payload) =>
        if signature = secret then
          match Json.read payload.length payload with
          | some (.obj claims, []) => some claims
          | _ => none
        else none
  decode_encode secret claims := by
    have hread := Json.read_code (.obj claims) _ [] (Nat.le_refl _)
    rw [List.append_nil] at hread
    simp only [Json.readText_codeText, if_true, hread]

end SuperBoss.Core
