import SuperBoss.Audit.Trees

/-!
Redaction of metadata: what `sanitize_metadata` returns is the tree of its
argument with the values of forbidden keys redacted, at every depth.
-/

namespace SuperBoss.Audit

open SuperBoss.Core
open Relation

variable (U : KeyFolding)

mutual

/-- A tree with the value of every forbidden key redacted. -/
def redact : Json → Json
  | .arr items => .arr (redactItems items)
  | .obj fields => .obj (redactFields fields)
  | .null => .null
  | .bool b => .bool b
  | .int n => .int n
  | .float literal => .float literal
  | .str t => .str t

def redactItems : List Json → List Json
  | [] => []
  | x :: xs => redact x :: redactItems xs

def redactFields : List (Text × Json) → List (Text × Json)
  | [] => []
  | (k, x) :: fs => (k, if U.isForbidden k then redacted else redact x) :: redactFields fs

end

theorem redactItems_eq (xs : List Json) : redactItems U xs = xs.map (redact U) := by
  induction xs with
  | nil => rfl
  | cons x xs ih => rw [redactItems, ih, List.map_cons]

def redactField (f : Text × Json) : Text × Json :=
  (f.1, if U.isForbidden f.1 then redacted else redact U f.2)

theorem redactFields_eq (fs : List (Text × Json)) : redactFields U fs = fs.map (redactField U) := by
  induction fs with
  | nil => rfl
  | cons f fs ih => rw [redactFields, ih, List.map_cons, redactField]

variable {heap : Heap}

/-- The copy of a value that stands for a tree is the redacted tree. -/
theorem copySanitized_eq {n : Nat} {value : PyValue} {tree : Json}
    (h : unfold heap n value = some tree) :
    copySanitized U heap n value = some (redact U tree) := by
  induction n generalizing value tree with
  | zero => cases h
  | succ n ih =>
      cases value with
      | none | bool _ | float _ | str _ | int _ =>
          cases h
          rfl
      | nonFinite | other => cases h
      | ref id =>
          simp only [unfold] at h
          simp only [copySanitized]
          cases hheap : heap id with
          | list items =>
              simp only [hheap, Option.map_eq_some_iff] at h ⊢
              obtain ⟨ys, hys, rfl⟩ := h
              refine ⟨ys.map (redact U), ?_, by rw [redact, redactItems_eq]⟩
              exact mapM_map_of hys fun a y hy => ih hy
          | dict items =>
              simp only [hheap, Option.map_eq_some_iff] at h ⊢
              obtain ⟨ys, hys, rfl⟩ := h
              refine ⟨ys.map (redactField U), ?_, by rw [redact, redactFields_eq]⟩
              refine mapM_map_of hys fun a f hf => ?_
              obtain ⟨hkey, hx⟩ := unfoldItem_eq_some.mp hf
              simp only [copyItem, hkey, redactField, ih hx, Option.map_some]
              split <;> rfl

theorem isForbidden_iff {key : Text} : U.isForbidden key = true ↔
    U.fold key ∈ U.forbiddenMetadataKeys := List.contains_iff_mem

mutual

theorem redact_redact : ∀ tree : Json, redact U (redact U tree) = redact U tree
  | .arr items => by rw [redact, redact, redactItems_redactItems items]
  | .obj fields => by rw [redact, redact, redactFields_redactFields fields]
  | .null | .bool _ | .int _ | .float _ | .str _ => rfl

theorem redactItems_redactItems : ∀ items : List Json,
    redactItems U (redactItems U items) = redactItems U items
  | [] => rfl
  | x :: xs => by rw [redactItems, redactItems, redact_redact x, redactItems_redactItems xs]

theorem redactFields_redactFields : ∀ fields : List (Text × Json),
    redactFields U (redactFields U fields) = redactFields U fields
  | [] => rfl
  | (k, x) :: fs => by
      rw [redactFields, redactFields, redactFields_redactFields fs]
      split
      · rfl
      · rw [redact_redact x]

end

/-! ### What is accepted -/

/-- The limits of `sanitize_metadata` on the tree of its argument. -/
structure WithinLimits (tree : Json) : Prop where
  portable : portable tree = true
  nodes : (weight tree).nodes ≤ maxNodes
  depth : height tree ≤ maxDepth
  textBytes : (weight tree).textBytes ≤ maxTextBytes
  encoded : ∃ encoded, (redact U tree).jsonBytes Json.compact = some encoded ∧
    encoded.length ≤ maxTextBytes

/-- The call returns a tree exactly if its argument is a dictionary that stands
for one within the limits, and then it returns that tree redacted. -/
theorem sanitizeMetadata_eq_ok {value : PyValue} {result : Json} :
    sanitizeMetadata U heap value = .ok result ↔
      ∃ fields, Represents heap value (.obj fields) ∧ WithinLimits U (.obj fields) ∧
        result = redact U (.obj fields) := by
  constructor
  · intro h
    cases value with
    | none | bool _ | int _ | float _ | nonFinite | str _ | other => cases h
    | ref id =>
        simp only [sanitizeMetadata] at h
        cases hheap : heap id with
        | list items =>
            rw [hheap] at h
            cases h
        | dict items =>
            rw [hheap] at h
            obtain ⟨budget, hvalid, h⟩ := bind_eq_ok.mp h
            obtain ⟨tree, htree, hportable, hbudget, hwithin⟩ :=
              validateValue_ok (b := ⟨0, 0⟩) ⟨Nat.zero_le _, Nat.zero_le _⟩ hvalid
            have hweight : budget = weight tree := by
              rw [hbudget]
              ext <;> simp
            have hfields : ∃ fields, tree = .obj fields := by
              simp only [unfold, hheap, Option.map_eq_some_iff] at htree
              obtain ⟨fields, -, rfl⟩ := htree
              exact ⟨fields, rfl⟩
            obtain ⟨fields, rfl⟩ := hfields
            rw [copySanitized_eq U htree] at h
            dsimp only at h
            split at h
            · cases h
            · rename_i encoded hencoded
              split at h
              · cases h
              · rename_i hsize
                refine ⟨fields, ⟨_, htree⟩, ⟨hportable, ?_, ?_, ?_, encoded, hencoded,
                  Nat.not_lt.mp hsize⟩, (Except.ok.inj h).symm⟩
                · exact hweight ▸ hwithin.1
                · exact Nat.le_of_lt_succ (height_lt_of_unfold htree)
                · exact hweight ▸ hwithin.2
  · rintro ⟨fields, ⟨n, hn⟩, hlimits, rfl⟩
    obtain ⟨encoded, hencoded, hsize⟩ := hlimits.encoded
    have htree : unfold heap (maxDepth + 1) value = some (.obj fields) :=
      unfold_mono (Nat.succ_le_succ hlimits.depth) (unfold_height hn)
    have hfits : (0 + weight (.obj fields)).Within :=
      ⟨by simpa using hlimits.nodes, by simpa using hlimits.textBytes⟩
    have hvalid : validateValue heap (maxDepth + 1) [] value 0 =
        .ok (0 + weight (.obj fields)) := validateValue_fits htree hlimits.portable hfits (by simp)
    cases value with
    | none | bool _ | int _ | float _ | nonFinite | str _ | other => cases htree
    | ref id =>
        simp only [sanitizeMetadata]
        cases hheap : heap id with
        | list items => simp [unfold, hheap] at htree
        | dict items =>
            refine bind_eq_ok.mpr ⟨_, hvalid, ?_⟩
            rw [copySanitized_eq U htree]
            dsimp only
            rw [hencoded]
            exact if_neg (Nat.not_lt.mpr hsize)

/-! ### Paths -/

inductive Step
  | index (i : Nat)
  | key (k : Text)
  deriving DecidableEq

/-- The part of a tree that a path leads to. -/
def part : Json → List Step → Option Json
  | tree, [] => some tree
  | .arr items, .index i :: path => items[i]?.bind fun x => part x path
  | .obj fields, .key k :: path => (fields.lookup k).bind fun x => part x path
  | _, _ :: _ => none

/-- A leaf as it is, a container without what it holds. -/
inductive Shape
  | leaf (value : Json)
  | list (length : Nat)
  | object (keys : List Text)

def shape : Json → Shape
  | .arr items => .list items.length
  | .obj fields => .object (fields.map Prod.fst)
  | leaf => .leaf leaf

/-- No key on the path is forbidden. -/
def Clean (path : List Step) : Prop := ∀ k, Step.key k ∈ path → U.isForbidden k = false

/-- The same structure and the same leaves, except that the value of each
forbidden key is the marker, with nothing below it. -/
structure Redacts (tree result : Json) : Prop where
  same : ∀ path, Clean U path → (part result path).map shape = (part tree path).map shape
  marked : ∀ path k x, Clean U path → U.isForbidden k = true →
    part tree (path ++ [.key k]) = some x → part result (path ++ [.key k]) = some redacted
  nothing : ∀ path k rest, Clean U path → U.isForbidden k = true → rest ≠ [] →
    part result (path ++ .key k :: rest) = none

theorem part_append (tree : Json) (path rest : List Step) :
    part tree (path ++ rest) = (part tree path).bind fun x => part x rest := by
  induction path generalizing tree with
  | nil => rfl
  | cons step path ih =>
      cases tree with
      | null | bool _ | int _ | float _ | str _ => cases step <;> rfl
      | arr items =>
          cases step with
          | key k => rfl
          | index i =>
              simp only [List.cons_append, part, Option.bind_assoc, ih]
      | obj fields =>
          cases step with
          | index i => rfl
          | key k =>
              simp only [List.cons_append, part, Option.bind_assoc, ih]

theorem shape_redact (tree : Json) : shape (redact U tree) = shape tree := by
  cases tree with
  | null | bool _ | int _ | float _ | str _ => rfl
  | arr items => rw [redact, shape, shape, redactItems_eq, List.length_map]
  | obj fields =>
      rw [redact, shape, shape, redactFields_eq, List.map_map]
      rfl

theorem lookup_redactFields (fields : List (Text × Json)) (k : Text) :
    (redactFields U fields).lookup k =
      (fields.lookup k).map fun x => if U.isForbidden k then redacted else redact U x := by
  induction fields with
  | nil => rfl
  | cons f fields ih =>
      obtain ⟨k', x⟩ := f
      rw [redactFields, List.lookup_cons, List.lookup_cons]
      by_cases hk : k = k'
      · subst hk
        simp
      · have hne : (k == k') = false := beq_eq_false_iff_ne.mpr hk
        rw [hne]
        exact ih

theorem Clean.tail {step : Step} {path : List Step} (h : Clean U (step :: path)) :
    Clean U path :=
  fun k hk => h k (List.mem_cons_of_mem step hk)

/-- Along a path without forbidden keys redaction changes nothing but what is
found at its end. -/
theorem part_redact {tree : Json} {path : List Step} (hclean : Clean U path) :
    part (redact U tree) path = (part tree path).map (redact U) := by
  induction path generalizing tree with
  | nil => rfl
  | cons step path ih =>
      cases tree with
      | null | bool _ | int _ | float _ | str _ => cases step <;> rfl
      | arr items =>
          cases step with
          | key k => rfl
          | index i =>
              rw [redact, part, part, redactItems_eq, List.getElem?_map]
              cases items[i]? with
              | none => rfl
              | some x => exact ih (hclean.tail U)
      | obj fields =>
          cases step with
          | index i => rfl
          | key k =>
              rw [redact, part, part, lookup_redactFields, hclean k List.mem_cons_self]
              cases fields.lookup k with
              | none => rfl
              | some x => exact ih (hclean.tail U)

theorem redact_redacts (tree : Json) : Redacts U tree (redact U tree) where
  same path hclean := by
    rw [part_redact U hclean, Option.map_map]
    exact congrArg (fun f => (part tree path).map f) (funext (shape_redact U))
  marked path k x hclean hk hx := by
    rw [part_append] at hx ⊢
    rw [part_redact U hclean]
    cases hpart : part tree path with
    | none =>
        rw [hpart] at hx
        cases hx
    | some y =>
        rw [hpart] at hx
        cases y with
        | null | bool _ | int _ | float _ | str _ | arr _ => cases hx
        | obj fields =>
            simp only [Option.bind_some, part] at hx
            obtain ⟨z, hz, -⟩ := Option.bind_eq_some_iff.mp hx
            simp only [Option.map_some, Option.bind_some, redact, part, lookup_redactFields, hz, hk,
              if_true]
  nothing path k rest hclean hk hrest := by
    rw [part_append, part_redact U hclean]
    cases part tree path with
    | none => rfl
    | some y =>
        cases y with
        | null | bool _ | int _ | float _ | str _ | arr _ => rfl
        | obj fields =>
            obtain ⟨step, rest, rfl⟩ := List.exists_cons_of_ne_nil hrest
            simp only [Option.map_some, Option.bind_some, redact, part, lookup_redactFields, hk,
              if_true]
            cases fields.lookup k with
            | none => rfl
            | some x => cases step <;> rfl

/-- Redaction of metadata. What is accepted is within the limits and comes back
with the forbidden keys redacted, once and for all; a cyclic value is refused,
and an acyclic one within the limits is accepted, whatever it shares. -/
theorem sanitizeMetadata_redacts (heap : Heap) (value : PyValue) :
    (∀ result, sanitizeMetadata U heap value = .ok result →
      ∃ tree, Represents heap value tree ∧ Redacts U tree result ∧
        (weight tree).nodes ≤ maxNodes ∧ height tree ≤ maxDepth ∧
        (weight tree).textBytes ≤ maxTextBytes ∧
        ∀ heap' value' result', Represents heap' value' result →
          sanitizeMetadata U heap' value' = .ok result' → result' = result) ∧
    (Cyclic heap value → ∃ e, sanitizeMetadata U heap value = .error e) ∧
    (¬ Cyclic heap value → JsonOnly heap value → Bounded heap value →
      ∃ tree, Represents heap value tree ∧
        ((∃ fields, tree = .obj fields) → WithinLimits U tree →
          ∃ result, sanitizeMetadata U heap value = .ok result)) := by
  refine ⟨fun result h => ?_, fun hcyclic => ?_, fun hacyclic hjson hbounded => ?_⟩
  · obtain ⟨fields, htree, hlimits, rfl⟩ := (sanitizeMetadata_eq_ok U).mp h
    refine ⟨.obj fields, htree, redact_redacts U _, hlimits.nodes, hlimits.depth,
      hlimits.textBytes, fun heap' value' result' hresult h' => ?_⟩
    obtain ⟨fields', htree', -, rfl⟩ := (sanitizeMetadata_eq_ok U).mp h'
    rw [htree'.unique hresult]
    exact redact_redact U (.obj fields)
  · cases h : sanitizeMetadata U heap value with
    | error e => exact ⟨e, rfl⟩
    | ok result =>
        obtain ⟨fields, htree, -⟩ := (sanitizeMetadata_eq_ok U).mp h
        exact absurd hcyclic htree.not_cyclic
  · obtain ⟨tree, htree⟩ := represents_of_acyclic hacyclic hjson hbounded
    refine ⟨tree, htree, ?_⟩
    rintro ⟨fields, rfl⟩ hlimits
    exact ⟨_, (sanitizeMetadata_eq_ok U).mpr ⟨fields, htree, hlimits, rfl⟩⟩

/-- One list under two keys, and a third key that is forbidden. -/
example : sanitizeMetadata ⟨id, id⟩
    (fun id => if id = 0 then .dict [(.str (Text.ofString "a"), .ref 1),
      (.str (Text.ofString "b"), .ref 1), (.str (Text.ofString "cookie"), .ref 1)]
      else .list [.int 7]) (.ref 0) =
    .ok (.obj [Json.field "a" (.arr [.int 7]), Json.field "b" (.arr [.int 7]),
      Json.field "cookie" redacted]) := by decide +kernel

end SuperBoss.Audit
