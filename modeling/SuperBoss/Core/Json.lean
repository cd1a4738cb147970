import Mathlib.Data.List.Sort
import Mathlib.Data.List.Lex
import SuperBoss.Core.Text

/-!
JSON values as Python holds them between `json.loads` and `json.dumps`. The
fields of an object keep their insertion order; `sort_keys` orders them when
they are written.
-/

namespace SuperBoss.Core

inductive Json
  | null
  | bool (b : Bool)
  | int (n : Int)
  | float (literal : Text)
  | str (t : Text)
  | arr (items : List Json)
  | obj (fields : List (Text × Json))

namespace Json

mutual

def decEq : (a b : Json) → Decidable (a = b)
  | .null, .null => isTrue rfl
  | .bool a, .bool b =>
      if h : a = b then isTrue (by rw [h]) else isFalse (by simpa using h)
  | .int a, .int b =>
      if h : a = b then isTrue (by rw [h]) else isFalse (by simpa using h)
  | .float a, .float b =>
      if h : a = b then isTrue (by rw [h]) else isFalse (by simpa using h)
  | .str a, .str b =>
      if h : a = b then isTrue (by rw [h]) else isFalse (by simpa using h)
  | .arr a, .arr b =>
      match decEqItems a b with
      | isTrue h => isTrue (by rw [h])
      | isFalse h => isFalse (by simpa using h)
  | .obj a, .obj b =>
      match decEqFields a b with
      | isTrue h => isTrue (by rw [h])
      | isFalse h => isFalse (by simpa using h)
  | .null, .bool _ | .null, .int _ | .null, .float _ | .null, .str _ | .null, .arr _
  | .null, .obj _ => isFalse (by simp)
  | .bool _, .null | .bool _, .int _ | .bool _, .float _ | .bool _, .str _ | .bool _, .arr _
  | .bool _, .obj _ => isFalse (by simp)
  | .int _, .null | .int _, .bool _ | .int _, .float _ | .int _, .str _ | .int _, .arr _
  | .int _, .obj _ => isFalse (by simp)
  | .float _, .null | .float _, .bool _ | .float _, .int _ | .float _, .str _
  | .float _, .arr _ | .float _, .obj _ => isFalse (by simp)
  | .str _, .null | .str _, .bool _ | .str _, .int _ | .str _, .float _ | .str _, .arr _
  | .str _, .obj _ => isFalse (by simp)
  | .arr _, .null | .arr _, .bool _ | .arr _, .int _ | .arr _, .float _ | .arr _, .str _
  | .arr _, .obj _ => isFalse (by simp)
  | .obj _, .null | .obj _, .bool _ | .obj _, .int _ | .obj _, .float _ | .obj _, .str _
  | .obj _, .arr _ => isFalse (by simp)

def decEqItems : (a b : List Json) → Decidable (a = b)
  | [], [] => isTrue rfl
  | [], _ :: _ | _ :: _, [] => isFalse (by simp)
  | x :: xs, y :: ys =>
      match decEq x y, decEqItems xs ys with
      | isTrue h, isTrue h' => isTrue (by rw [h, h'])
      | isFalse h, _ => isFalse (by simp [h])
      | _, isFalse h => isFalse (by simp [h])

def decEqFields : (a b : List (Text × Json)) → Decidable (a = b)
  | [], [] => isTrue rfl
  | [], _ :: _ | _ :: _, [] => isFalse (by simp)
  | (k, x) :: xs, (l, y) :: ys =>
      if hk : k = l then
        match decEq x y, decEqFields xs ys with
        | isTrue h, isTrue h' => isTrue (by rw [hk, h, h'])
        | isFalse h, _ => isFalse (by simp [h])
        | _, isFalse h => isFalse (by simp [h])
      else isFalse (by simp [hk])

end

instance : DecidableEq Json := decEq

/-- `dict.get` on the fields of an object. -/
def field? (fields : List (Text × Json)) (name : String) : Option Json :=
  (fields.find? fun f => decide (f.1 = Text.ofString name)).map Prod.snd

/-- `extra="forbid"`: every key is a declared field. -/
def onlyKeys (names : List String) (fields : List (Text × Json)) : Bool :=
  fields.all fun f => names.any fun n => decide (f.1 = Text.ofString n)

def field (name : String) (value : Json) : Text × Json := (Text.ofString name, value)

/-- An optional value in a dump. -/
def ofOption {α : Type} (f : α → Json) : Option α → Json
  | none => .null
  | some a => f a

def hexDigit (n : Nat) : Nat := if n < 10 then 48 + n else 87 + n

/-- One character of a string literal with `ensure_ascii=False`. -/
def escape (c : Nat) : Text :=
  if c = 34 then [92, 34]
  else if c = 92 then [92, 92]
  else if c = 8 then [92, 98]
  else if c = 12 then [92, 102]
  else if c = 10 then [92, 110]
  else if c = 13 then [92, 114]
  else if c = 9 then [92, 116]
  else if c < 32 then [92, 117, 48, 48, hexDigit (c / 16), hexDigit (c % 16)]
  else [c]

def quote (t : Text) : Text := 34 :: (t.flatMap escape ++ [34])

structure Separators where
  item : Text
  key : Text

/-- `separators=(",", ":")`. -/
def compact : Separators := ⟨Text.ofString ",", Text.ofString ":"⟩

/-- `separators=(", ", ": ")`, the spacing of `jsonb::text`. -/
def spaced : Separators := ⟨Text.ofString ", ", Text.ofString ": "⟩

def renderInt (n : Int) : Text :=
  if 0 ≤ n then Text.ofNat n.toNat else 45 :: Text.ofNat (-n).toNat

mutual

/-- `json.dumps(·, ensure_ascii=False, sort_keys=True, separators=·)`. -/
def render (sep : Separators) : Json → Text
  | .null => Text.ofString "null"
  | .bool true => Text.ofString "true"
  | .bool false => Text.ofString "false"
  | .int n => renderInt n
  | .float literal => literal
  | .str t => quote t
  | .arr items => 91 :: (Text.join sep.item (renderItems sep items) ++ [93])
  | .obj fields =>
      let sorted := (renderFields sep fields).insertionSort fun f g => f.1 ≤ g.1
      123 :: (Text.join sep.item (sorted.map fun f => quote f.1 ++ sep.key ++ f.2) ++ [125])

def renderItems (sep : Separators) : List Json → List Text
  | [] => []
  | x :: xs => render sep x :: renderItems sep xs

def renderFields (sep : Separators) : List (Text × Json) → List (Text × Text)
  | [] => []
  | (k, x) :: xs => (k, render sep x) :: renderFields sep xs

end

/-- `_json_bytes`; `none` where the text has no UTF-8 encoding. -/
def jsonBytes (payload : Json) (sep : Separators) : Option Bytes :=
  Text.utf8 (payload.render sep)

end Json

end SuperBoss.Core
