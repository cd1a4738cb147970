import SuperBoss.Core.Json
import Mathlib.Algebra.Order.Ring.Int
import Mathlib.Logic.Relation

/-!
`sanitize_metadata`: the metadata of an audit event arrives as Python objects,
whose containers have identities and may be shared or cyclic.
-/

namespace SuperBoss.Audit

open SuperBoss.Core

/-! ### Objects -/

/-- What a variable holds: a value, or the identity of a container. -/
inductive PyValue
  | none
  | bool (b : Bool)
  | int (n : Int)
  | float (literal : Text)
  /-- `nan` and the infinities. -/
  | nonFinite
  | str (t : Text)
  | ref (id : Nat)
  /-- An object of any other type. -/
  | other
  deriving DecidableEq

inductive PyKey
  | str (t : Text)
  | other
  deriving DecidableEq

inductive PyContainer
  | list (items : List PyValue)
  | dict (items : List (PyKey × PyValue))
  deriving DecidableEq

def PyContainer.values : PyContainer → List PyValue
  | .list items => items
  | .dict items => items.map Prod.snd

/-- The containers by their identities. -/
abbrev Heap := Nat → PyContainer

inductive MetadataError
  | type (message : String)
  | value (message : String)
  /-- `UnicodeEncodeError`. -/
  | encode
  deriving DecidableEq

def maxDepth : Nat := 32
def maxNodes : Nat := 1000
def maxTextBytes : Nat := 64 * 1024
def maxJsonInteger : Int := 2 ^ 53 - 1

/-! ### Validation -/

/-- `_Budget`. -/
@[ext]
structure Budget where
  nodes : Nat
  textBytes : Nat
  deriving DecidableEq

namespace Budget

def node (b : Budget) : Except MetadataError Budget :=
  if b.nodes + 1 > maxNodes then .error (.value "metadata exceeds node budget")
  else .ok { b with nodes := b.nodes + 1 }

def text (b : Budget) (value : Text) : Except MetadataError Budget :=
  match value.utf8 with
  | none => .error .encode
  | some bytes =>
      if b.textBytes + bytes.length > maxTextBytes then
        .error (.value "metadata exceeds text budget")
      else .ok { b with textBytes := b.textBytes + bytes.length }

end Budget

/-- One item of a dictionary, its key first. -/
def validateItem (validate : PyValue → Budget → Except MetadataError Budget) (budget : Budget)
    (item : PyKey × PyValue) : Except MetadataError Budget :=
  match item.1 with
  | .other => .error (.type "metadata keys must be strings")
  | .str key => do
      let budget ← budget.text key
      validate item.2 budget

/-- `_validate_value` with `room` levels left: the depth is `maxDepth + 1 - room`. -/
def validateValue (heap : Heap) : Nat → List Nat → PyValue → Budget → Except MetadataError Budget
  | 0, _, _, budget => do
      let _ ← budget.node
      .error (.value "metadata exceeds maximum depth")
  | room + 1, ancestors, value, budget => do
      let budget ← budget.node
      match value with
      | .none | .bool _ | .float _ => .ok budget
      | .str t => budget.text t
      | .int n =>
          if n < -maxJsonInteger ∨ maxJsonInteger < n then
            .error (.value "metadata integer is outside JSON interoperability range")
          else .ok budget
      | .nonFinite => .error (.value "metadata numbers must be finite")
      | .ref id =>
          if id ∈ ancestors then .error (.value "metadata must not contain cycles")
          else
            match heap id with
            | .list items =>
                items.foldlM (fun budget item =>
                  validateValue heap room (id :: ancestors) item budget) budget
            | .dict items =>
                items.foldlM (validateItem (validateValue heap room (id :: ancestors))) budget
      | .other => .error (.value "metadata must contain JSON values only")

/-! ### The copy -/

structure KeyFolding where
  /-- `unicodedata.normalize("NFKC", ·)`. -/
  nfkc : Text → Text
  /-- `str.casefold`. -/
  casefold : Text → Text

namespace KeyFolding

variable (U : KeyFolding)

def fold (key : Text) : Text := U.casefold (U.nfkc key)

/-- `_FORBIDDEN_METADATA_KEYS`. -/
def forbiddenMetadataKeys : List Text :=
  (["access_token", "refresh_token", "authorization", "cookie", "file_content",
    "model_input"].map Text.ofString).map U.fold

def isForbidden (key : Text) : Bool := U.forbiddenMetadataKeys.contains (U.fold key)

end KeyFolding

def redacted : Json := .str (Text.ofString "[REDACTED]")

variable (U : KeyFolding)

/-- One item of the dictionary that `_copy_sanitized` builds. -/
def copyItem (copy : PyValue → Option Json) (item : PyKey × PyValue) : Option (Text × Json) :=
  match item.1 with
  | .other => none
  | .str key =>
      if U.isForbidden key then some (key, redacted) else (copy item.2).map fun x => (key, x)

/-- `_copy_sanitized` within `n` levels; it is called on validated values, which
are JSON and no deeper than the validator allows. -/
def copySanitized (heap : Heap) : Nat → PyValue → Option Json
  | 0, _ => none
  | n + 1, value =>
      match value with
      | .none => some .null
      | .bool b => some (.bool b)
      | .int n => some (.int n)
      | .float literal => some (.float literal)
      | .str t => some (.str t)
      | .nonFinite | .other => none
      | .ref id =>
          match heap id with
          | .list items => (items.mapM (copySanitized heap n)).map .arr
          | .dict items => (items.mapM (copyItem U (copySanitized heap n))).map .obj

/-- `sanitize_metadata`; the order of the keys makes no difference to the length
of the encoded text. -/
def sanitizeMetadata (heap : Heap) (value : PyValue) : Except MetadataError Json :=
  match value with
  | .ref id =>
      match heap id with
      | .list _ => .error (.type "metadata must be an object")
      | .dict _ => do
          let _ ← validateValue heap (maxDepth + 1) [] value ⟨0, 0⟩
          match copySanitized U heap (maxDepth + 1) value with
          | none => .error (.type "metadata must be an object")
          | some result =>
              match result.jsonBytes Json.compact with
              | none => .error .encode
              | some encoded =>
                  if encoded.length > maxTextBytes then
                    .error (.value "metadata exceeds JSON size budget")
                  else .ok result
  | _ => .error (.type "metadata must be an object")

end SuperBoss.Audit
