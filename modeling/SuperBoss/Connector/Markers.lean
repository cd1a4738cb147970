import SuperBoss.Connector.OutboxStore

/-!
The two marker files of a pairing: their models, what is written into them and
what is read back.
-/

namespace SuperBoss.Connector

open SuperBoss.Core
open SuperBoss.Imports

inductive CredentialState
  | present
  | missing
  deriving DecidableEq

def CredentialState.value : CredentialState → String
  | .present => "PRESENT"
  | .missing => "MISSING"

def credentialStates : List CredentialState := [.present, .missing]

/-- `"PRESENT" if old_refresh_sha256 is not None else "MISSING"`. -/
def CredentialState.of (oldRefreshSha256 : Option Text) : CredentialState :=
  if oldRefreshSha256.isSome then .present else .missing

structure PairCompletionMarker where
  normalizedOrigin : Text
  oldCredentialState : CredentialState
  oldRefreshSha256 : Option Text
  deriving DecidableEq

structure ReplacementMarker extends PairCompletionMarker where
  oldOutboxFilename : Text
  deriving DecidableEq

/-! ### Validators -/

/-- `Literal[1]`. -/
def versionField (j : Json) : Except PyError Unit := check (decide (j = .int 1))

/-- `^[0-9a-f]{64}\.json$`. -/
def isOutboxFilename (t : Text) : Bool :=
  Text.isDigest (t.take 64) && decide (t.drop 64 = Text.ofString ".json")

/-- `consistent_credential_state`. -/
def PairCompletionMarker.Consistent (m : PairCompletionMarker) : Prop :=
  m.oldCredentialState = .present ↔ m.oldRefreshSha256 ≠ none

instance (m : PairCompletionMarker) : Decidable m.Consistent :=
  inferInstanceAs (Decidable (_ ↔ _))

/-- The fields that both markers have, before the others. -/
def credentialFields {α : Type} (fields : List (Text × Json)) (others : Except PyError α) :
    Except PyError (PairCompletionMarker × α) :=
  (collect (defaultField fields "version" () versionField)
  (collect (requiredField fields "normalized_origin" (strictStr 1 4096))
  (collect (requiredField fields "old_credential_state"
    (literalField credentialStates CredentialState.value))
  (collect (requiredField fields "old_refresh_sha256" (nullable (patternStr Text.isDigest)))
    others)))).map fun (_, origin, state, sha256, rest) => (⟨origin, state, sha256⟩, rest)

namespace PairCompletionMarker

def fieldNames : List String :=
  ["version", "normalized_origin", "old_credential_state", "old_refresh_sha256"]

def validateFields : Json → Except PyError PairCompletionMarker
  | .obj fields => (credentialFields fields (check (Json.onlyKeys fieldNames fields))).map Prod.fst
  | _ => .error .validation

/-- `PairCompletionMarker.model_validate`. -/
def validate (j : Json) : Except PyError PairCompletionMarker := do
  let m ← validateFields j
  if m.Consistent then .ok m else .error .validation

def fields (m : PairCompletionMarker) : List (Text × Json) :=
  [Json.field "version" (.int 1),
    Json.field "normalized_origin" (.str m.normalizedOrigin),
    Json.field "old_credential_state" (.str (Text.ofString m.oldCredentialState.value)),
    Json.field "old_refresh_sha256" (Json.ofOption .str m.oldRefreshSha256)]

end PairCompletionMarker

namespace ReplacementMarker

def fieldNames : List String :=
  ["version", "normalized_origin", "old_credential_state", "old_refresh_sha256",
    "old_outbox_filename"]

def validateFields : Json → Except PyError ReplacementMarker
  | .obj fields =>
      (credentialFields fields
        (collect (requiredField fields "old_outbox_filename" (patternStr isOutboxFilename))
        (check (Json.onlyKeys fieldNames fields)))).map fun (m, name, _) => ⟨m, name⟩
  | _ => .error .validation

/-- `ReplacementMarker.model_validate`. -/
def validate (j : Json) : Except PyError ReplacementMarker := do
  let m ← validateFields j
  if m.Consistent then .ok m else .error .validation

def fields (m : ReplacementMarker) : List (Text × Json) :=
  m.toPairCompletionMarker.fields ++ [Json.field "old_outbox_filename" (.str m.oldOutboxFilename)]

end ReplacementMarker

/-! ### Files -/

section files

variable {α : Type} (fields : α → List (Text × Json)) (validate : Json → Except PyError α)

/-- The bytes of a marker that its constructor accepts. The texts of a marker are
ASCII, so `ensure_ascii` changes nothing; none is a `ConnectorError`. -/
def serializeMarker (m : α) : Option Bytes :=
  match validate (.obj (fields m)) with
  | .ok m => (Json.obj (fields m)).jsonBytes Json.compact
  | .error _ => none

/-- `_read_json` and `model_validate` of a regular file. -/
def readMarker (serialized : Bytes) : Option α :=
  if serialized = [] ∨ localStateMaxBytes < serialized.length then none
  else (Json.loads serialized).bind fun raw => (validate raw).toOption

/-- A value that is neither a list nor an object. -/
def IsLeaf : Json → Prop
  | .null | .bool _ | .int _ | .str _ => True
  | .float _ | .arr _ | .obj _ => False

theorem IsLeaf.plain {j : Json} (h : IsLeaf j) : j.Plain := by
  cases j with
  | null | bool | int | str => trivial
  | float | arr | obj => exact h.elim

theorem IsLeaf.reordered {κ : Json → Json} (hκ : Json.Reorders κ) {j : Json} (h : IsLeaf j) :
    κ j = j := by
  cases j with
  | null => exact hκ.null
  | bool b => exact hκ.bool b
  | int n => exact hκ.int n
  | str t => exact hκ.str t
  | float | arr | obj => exact h.elim

theorem isLeaf_ofOption (o : Option Text) : IsLeaf (Json.ofOption .str o) := by
  cases o <;> trivial

theorem plainFields_of_leaves {fields : List (Text × Json)} (h : ∀ f ∈ fields, IsLeaf f.2) :
    Json.PlainFields fields := by
  induction fields with
  | nil => trivial
  | cons f fields ih =>
      exact ⟨(h f List.mem_cons_self).plain, ih fun g hg => h g (List.mem_cons_of_mem f hg)⟩

/-- A model whose dump has leaves alone, and whose validator looks its fields up by name. -/
structure MarkerModel (names : List String) : Prop where
  nodup : names.Nodup
  keys : ∀ m, (fields m).map Prod.fst = names.map Text.ofString
  leaves : ∀ m, ∀ f ∈ fields m, IsLeaf f.2
  same : ∀ m m', validate (.obj (fields m)) = .ok m' → m' = m
  congr : ∀ l l', (∀ name, Json.field? l' name = Json.field? l name) →
    (∀ names, Json.onlyKeys names l' = Json.onlyKeys names l) →
      validate (.obj l') = validate (.obj l)

variable {fields validate} {names : List String}

/-- A marker is read back as it was written, unless it is longer than the reader's limit. -/
theorem MarkerModel.read_serialize (h : MarkerModel fields validate names) {m : α} {b : Bytes}
    (hb : serializeMarker fields validate m = some b) :
    readMarker validate b = if b.length ≤ localStateMaxBytes then some m else none := by
  have hkeys : ((fields m).map Prod.fst).Nodup := Json.nodup_keys h.nodup (h.keys m)
  obtain ⟨fields', hobj, hfield, honly⟩ := Json.reorders_canon.obj (fields m) hkeys
  have hagain : validate (Json.canon (.obj (fields m))) = validate (.obj (fields m)) := by
    rw [hobj]
    refine h.congr _ _ (fun name => ?_) honly
    rw [hfield]
    refine (Option.map_congr fun j hj => ?_).trans Option.map_id_apply
    obtain ⟨f, hf, rfl⟩ := Option.map_eq_some_iff.mp hj
    exact (h.leaves m f (List.mem_of_find?_eq_some hf)).reordered Json.reorders_canon
  unfold serializeMarker at hb
  split at hb
  · rename_i m' hvalid
    obtain rfl := h.same m m' hvalid
    have hplain : (Json.obj (fields m')).Plain := ⟨hkeys, plainFields_of_leaves (h.leaves m')⟩
    have hloads := Json.loads_jsonBytes hplain hb
    have hne : b ≠ [] := by
      rintro rfl
      rw [Json.loads_nil] at hloads
      cases hloads
    unfold readMarker
    by_cases hlength : b.length ≤ localStateMaxBytes
    · rw [if_neg (not_or.mpr ⟨hne, Nat.not_lt.mpr hlength⟩), if_pos hlength, hloads,
        Option.bind_some, hagain, hvalid]
      rfl
    · rw [if_pos (.inr (Nat.lt_of_not_le hlength)), if_neg hlength]
  · cases hb

end files

/-! ### The two markers -/

theorem strictStr_str {minLength maxLength : Nat} {t u : Text}
    (h : strictStr minLength maxLength (.str t) = .ok u) : u = t := by
  rw [strictStr] at h
  split at h
  · exact (Except.ok.inj h).symm
  · cases h

theorem credentialState_str {s s' : CredentialState}
    (h : literalField credentialStates CredentialState.value (.str (Text.ofString s.value)) =
      .ok s') : s' = s := by
  revert h
  cases s <;> cases s' <;> decide

theorem credentialFields_congr {α : Type} {l l' : List (Text × Json)}
    (h : ∀ name, Json.field? l' name = Json.field? l name) (others : Except PyError α) :
    credentialFields l' others = credentialFields l others := by
  simp only [credentialFields, defaultField, requiredField, h]

/-- The fields that both markers have are read as they are dumped. -/
theorem credentialFields_same {α : Type} {l : List (Text × Json)} {m m' : PairCompletionMarker}
    {others : Except PyError α} {rest : α}
    (h : credentialFields (m.fields ++ l) others = .ok (m', rest)) :
    m' = m ∧ others = .ok rest := by
  obtain ⟨⟨_, origin, state, sha256, rest'⟩, hparts, heq⟩ := map_eq_ok.mp h
  cases heq
  simp only [collect_eq_ok, defaultField, requiredField, PairCompletionMarker.fields,
    List.cons_append, field?_cons, if_true, String.reduceEq, if_false] at hparts
  obtain ⟨-, horigin, hstate, hsha256, hrest⟩ := hparts
  obtain ⟨rfl, -⟩ := nullable_of_option Json.str (f := id) (fun _ => Json.noConfusion)
    (fun _ _ hd => patternStr_str hd) hsha256
  refine ⟨?_, hrest⟩
  rw [strictStr_str horigin, credentialState_str hstate, Option.map_id_apply]

theorem PairCompletionMarker.leaves (m : PairCompletionMarker) : ∀ f ∈ m.fields, IsLeaf f.2 := by
  simp only [fields, Json.field, List.forall_mem_cons]
  exact ⟨trivial, trivial, trivial, isLeaf_ofOption _, List.forall_mem_nil _⟩

theorem PairCompletionMarker.model : MarkerModel fields validate fieldNames where
  nodup := by decide
  keys _ := rfl
  leaves := leaves
  same m m' h := by
    obtain ⟨m'', hfields, h⟩ := bind_eq_ok.mp h
    split at h
    · cases h
      obtain ⟨⟨m'', _⟩, hcredential, rfl⟩ := map_eq_ok.mp hfields
      rw [← List.append_nil m.fields] at hcredential
      exact (credentialFields_same hcredential).1
    · cases h
  congr l l' hfield honly := by
    simp only [validate, validateFields, credentialFields_congr hfield, honly]

theorem ReplacementMarker.model : MarkerModel fields validate fieldNames where
  nodup := by decide
  keys _ := rfl
  leaves m := by
    rw [fields, List.forall_mem_append]
    exact ⟨m.leaves, List.forall_mem_singleton.mpr trivial⟩
  same m m' h := by
    obtain ⟨m'', hfields, h⟩ := bind_eq_ok.mp h
    split at h
    · cases h
      obtain ⟨⟨m'', name, _⟩, hcredential, rfl⟩ := map_eq_ok.mp hfields
      obtain ⟨rfl, hothers⟩ := credentialFields_same hcredential
      obtain ⟨hname, -⟩ := collect_eq_ok.mp hothers
      simp only [requiredField, fields, PairCompletionMarker.fields, List.cons_append,
        List.nil_append, field?_cons, if_true, String.reduceEq, if_false] at hname
      rw [(patternStr_str hname).1]
    · cases h
  congr l l' hfield honly := by
    simp only [validate, validateFields, credentialFields_congr hfield, requiredField, hfield,
      honly]

end SuperBoss.Connector
