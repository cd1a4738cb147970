import Mathlib.Data.Fintype.EquivFin
import SuperBoss.Audit.Metadata
import SuperBoss.Core.Values

/-!
The trees that metadata stands for. Containers are unfolded, shared ones more
than once and cyclic ones never; the validator accepts exactly the values whose
tree is within its limits.
-/

namespace SuperBoss.Audit

open SuperBoss.Core
open Relation

/-! ### Trees -/

namespace Budget

instance : Add Budget := ⟨fun a b => ⟨a.nodes + b.nodes, a.textBytes + b.textBytes⟩⟩
instance : Zero Budget := ⟨⟨0, 0⟩⟩

@[simp] theorem nodes_add (a b : Budget) : (a + b).nodes = a.nodes + b.nodes := rfl
@[simp] theorem textBytes_add (a b : Budget) : (a + b).textBytes = a.textBytes + b.textBytes := rfl
@[simp] theorem nodes_zero : (0 : Budget).nodes = 0 := rfl
@[simp] theorem textBytes_zero : (0 : Budget).textBytes = 0 := rfl

theorem add_assoc (a b c : Budget) : a + b + c = a + (b + c) := by
  ext <;> simp [Nat.add_assoc]

theorem add_zero (a : Budget) : a + 0 = a := by
  ext <;> simp

/-- No more than the limits. -/
def Within (b : Budget) : Prop := b.nodes ≤ maxNodes ∧ b.textBytes ≤ maxTextBytes

theorem Within.of_add {a b : Budget} (h : (a + b).Within) : a.Within :=
  ⟨(Nat.le_add_right _ _).trans h.1, (Nat.le_add_right _ _).trans h.2⟩

theorem node_eq_ok {a b : Budget} :
    a.node = .ok b ↔ b = a + ⟨1, 0⟩ ∧ a.nodes + 1 ≤ maxNodes := by
  unfold node
  split
  · rename_i hover
    exact ⟨nofun, fun h => absurd h.2 (Nat.not_le.mpr hover)⟩
  · rename_i hfits
    rw [Except.ok.injEq, eq_comm]
    exact ⟨fun h => ⟨h, Nat.not_lt.mp hfits⟩, And.left⟩

/-- The bytes of a text, as the budget counts them. -/
def ofText (t : Text) : Budget := ⟨0, (t.utf8.getD []).length⟩

theorem text_eq_ok {a b : Budget} {t : Text} :
    a.text t = .ok b ↔
      t.utf8 ≠ none ∧ b = a + ofText t ∧ (a + ofText t).textBytes ≤ maxTextBytes := by
  unfold text ofText
  cases hutf8 : t.utf8 with
  | none => simp
  | some bytes =>
      simp only [Option.getD_some, textBytes_add]
      split
      · rename_i hover
        exact ⟨nofun, fun h => absurd h.2.2 (Nat.not_le.mpr hover)⟩
      · rename_i hfits
        rw [Except.ok.injEq, eq_comm]
        exact ⟨fun h => ⟨nofun, h, Nat.not_lt.mp hfits⟩, fun h => h.2.1⟩

end Budget

mutual

/-- The nodes of a tree and the bytes of its keys and texts. -/
def weight : Json → Budget
  | .str t => ⟨1, 0⟩ + Budget.ofText t
  | .arr items => ⟨1, 0⟩ + weightItems items
  | .obj fields => ⟨1, 0⟩ + weightFields fields
  | .null | .bool _ | .int _ | .float _ => ⟨1, 0⟩

def weightItems : List Json → Budget
  | [] => 0
  | x :: xs => weight x + weightItems xs

def weightFields : List (Text × Json) → Budget
  | [] => 0
  | (k, x) :: fs => Budget.ofText k + weight x + weightFields fs

end

mutual

/-- The depth of the deepest node below the root. -/
def height : Json → Nat
  | .arr items => heightItems items
  | .obj fields => heightFields fields
  | .null | .bool _ | .int _ | .float _ | .str _ => 0

def heightItems : List Json → Nat
  | [] => 0
  | x :: xs => max (height x + 1) (heightItems xs)

def heightFields : List (Text × Json) → Nat
  | [] => 0
  | (_, x) :: fs => max (height x + 1) (heightFields fs)

end

mutual

/-- Every text can be encoded, and every integer is within range. -/
def portable : Json → Bool
  | .str t => t.utf8 != none
  | .int n => -maxJsonInteger ≤ n && n ≤ maxJsonInteger
  | .arr items => portableItems items
  | .obj fields => portableFields fields
  | .null | .bool _ | .float _ => true

def portableItems : List Json → Bool
  | [] => true
  | x :: xs => portable x && portableItems xs

def portableFields : List (Text × Json) → Bool
  | [] => true
  | (k, x) :: fs => k.utf8 != none && portable x && portableFields fs

end

/-! ### Unfolding -/

def unfoldItem (unfold : PyValue → Option Json) (item : PyKey × PyValue) :
    Option (Text × Json) :=
  match item.1 with
  | .other => none
  | .str key => (unfold item.2).map fun x => (key, x)

/-- The tree that a value stands for, if it is JSON of at most `n` levels. -/
def unfold (heap : Heap) : Nat → PyValue → Option Json
  | 0, _ => none
  | n + 1, value =>
      match value with
      | .none => some .null
      | .bool b => some (.bool b)
      | .int n => some (.int n)
      | .float literal => some (.float literal)
      | .str t => some (.str t)
      | .nonFinite | .other => none
      | .ref id =>
          match heap id with
          | .list items => (items.mapM (unfold heap n)).map .arr
          | .dict items => (items.mapM (unfoldItem (unfold heap n))).map .obj

/-- A value stands for a tree. -/
def Represents (heap : Heap) (value : PyValue) (tree : Json) : Prop :=
  ∃ n, unfold heap n value = some tree

/-- A value is in the container that another value refers to. -/
def Child (heap : Heap) (value item : PyValue) : Prop :=
  ∃ id, value = .ref id ∧ item ∈ (heap id).values

/-- A container that can be reached contains itself. -/
def Cyclic (heap : Heap) (value : PyValue) : Prop :=
  ∃ inner, ReflTransGen (Child heap) value inner ∧ TransGen (Child heap) inner inner

/-! ### Lists of items -/

/-- What the items of a container weigh together. -/
def total {β : Type} (cost : β → Budget) : List β → Budget
  | [] => 0
  | y :: ys => cost y + total cost ys

def fieldWeight (f : Text × Json) : Budget := Budget.ofText f.1 + weight f.2

theorem weightItems_eq (xs : List Json) : weightItems xs = total weight xs := by
  induction xs with
  | nil => rfl
  | cons x xs ih => rw [weightItems, total, ih]

theorem weightFields_eq (fs : List (Text × Json)) : weightFields fs = total fieldWeight fs := by
  induction fs with
  | nil => rfl
  | cons f fs ih => rw [weightFields, total, ih, fieldWeight]

theorem portableItems_iff {xs : List Json} :
    portableItems xs = true ↔ ∀ x ∈ xs, portable x = true := by
  induction xs with
  | nil => simp [portableItems]
  | cons x xs ih => simp [portableItems, ih]

theorem portableFields_iff {fs : List (Text × Json)} :
    portableFields fs = true ↔ ∀ f ∈ fs, f.1.utf8 ≠ none ∧ portable f.2 = true := by
  induction fs with
  | nil => simp [portableFields]
  | cons f fs ih => simp [portableFields, ih, and_assoc]

theorem mapM_cons_eq_some {α β : Type} {f : α → Option β} {a : α} {l : List α} {ys : List β} :
    (a :: l).mapM f = some ys ↔ ∃ y ys', f a = some y ∧ l.mapM f = some ys' ∧ ys = y :: ys' := by
  rw [List.mapM_cons]
  constructor
  · intro h
    obtain ⟨y, hy, h⟩ := Option.bind_eq_some_iff.mp h
    obtain ⟨ys', hys, h⟩ := Option.bind_eq_some_iff.mp h
    exact ⟨y, ys', hy, hys, (Option.some.inj h).symm⟩
  · rintro ⟨y, ys', hy, hys, rfl⟩
    rw [hy, hys]
    rfl

/-- A pass over the items that weighs each of them. -/
theorem foldlM_ok {α β : Type} {f : Budget → α → Except MetadataError Budget} {g : α → Option β}
    (cost : β → Budget) (P : β → Prop) {items : List α}
    (h : ∀ a ∈ items, ∀ b b' : Budget, b.Within → f b a = .ok b' →
      ∃ y, g a = some y ∧ P y ∧ b' = b + cost y ∧ b'.Within)
    {b b' : Budget} (hb : b.Within) (hok : items.foldlM f b = .ok b') :
    ∃ ys, items.mapM g = some ys ∧ (∀ y ∈ ys, P y) ∧ b' = b + total cost ys ∧ b'.Within := by
  induction items generalizing b with
  | nil =>
      obtain rfl := Except.ok.inj hok
      exact ⟨[], rfl, nofun, (Budget.add_zero b).symm, hb⟩
  | cons a items ih =>
      rw [List.foldlM_cons] at hok
      obtain ⟨c, hc, hok⟩ := bind_eq_ok.mp hok
      obtain ⟨y, hy, hP, rfl, hwithin⟩ := h a List.mem_cons_self b c hb hc
      obtain ⟨ys, hys, hPs, rfl, hwithin'⟩ :=
        ih (fun x hx => h x (List.mem_cons_of_mem a hx)) hwithin hok
      refine ⟨y :: ys, mapM_cons_eq_some.mpr ⟨y, ys, hy, hys, rfl⟩, ?_, ?_, hwithin'⟩
      · intro z hz
        rcases List.mem_cons.mp hz with rfl | hz
        · exact hP
        · exact hPs z hz
      · rw [total, Budget.add_assoc]

/-- Items that fit are all weighed. -/
theorem foldlM_fits {α β : Type} {f : Budget → α → Except MetadataError Budget} {g : α → Option β}
    {cost : β → Budget} {items : List α} {ys : List β} (hys : items.mapM g = some ys)
    (h : ∀ a ∈ items, ∀ y ∈ ys, g a = some y → ∀ b : Budget, (b + cost y).Within →
      f b a = .ok (b + cost y))
    {b : Budget} (hfits : (b + total cost ys).Within) :
    items.foldlM f b = .ok (b + total cost ys) := by
  induction items generalizing b ys with
  | nil =>
      cases hys
      exact congrArg Except.ok (Budget.add_zero b).symm
  | cons a items ih =>
      obtain ⟨y, ys, hy, hrest, rfl⟩ := mapM_cons_eq_some.mp hys
      rw [total, ← Budget.add_assoc] at hfits ⊢
      rw [List.foldlM_cons, h a List.mem_cons_self y List.mem_cons_self hy b hfits.of_add]
      exact ih hrest (fun x hx z hz => h x (List.mem_cons_of_mem a hx) z (List.mem_cons_of_mem y hz))
        hfits

/-! ### What the validator accepts -/

variable {heap : Heap}

/-- A validated value stands for a tree within the limits, and the budget has
grown by its weight. -/
theorem validateValue_ok {room : Nat} {ancestors : List Nat} {value : PyValue} {b b' : Budget}
    (hb : b.Within) (h : validateValue heap room ancestors value b = .ok b') :
    ∃ tree, unfold heap room value = some tree ∧ portable tree = true ∧ b' = b + weight tree ∧
      b'.Within := by
  induction room generalizing ancestors value b b' with
  | zero =>
      obtain ⟨c, -, h⟩ := bind_eq_ok.mp h
      cases h
  | succ room ih =>
      obtain ⟨c, hnode, h⟩ := bind_eq_ok.mp h
      obtain ⟨rfl, hnodes⟩ := Budget.node_eq_ok.mp hnode
      have hc : (b + ⟨1, 0⟩ : Budget).Within := ⟨hnodes, hb.2⟩
      cases value with
      | none | bool _ | float _ =>
          cases h
          exact ⟨_, rfl, rfl, rfl, hc⟩
      | nonFinite | other => cases h
      | str t =>
          obtain ⟨hutf8, rfl, htext⟩ := Budget.text_eq_ok.mp h
          refine ⟨.str t, rfl, bne_iff_ne.mpr hutf8, ?_, ⟨?_, htext⟩⟩
          · rw [weight, Budget.add_assoc]
          · exact hc.1
      | int n =>
          dsimp only at h
          split at h
          · cases h
          · rename_i hrange
            cases h
            refine ⟨.int n, rfl, ?_, rfl, hc⟩
            simp only [portable, Bool.and_eq_true, decide_eq_true_eq]
            omega
      | ref id =>
          dsimp only at h
          split at h
          · cases h
          · split at h
            · rename_i items hheap
              obtain ⟨ys, hys, hportable, rfl, hwithin⟩ :=
                foldlM_ok weight (fun y => portable y = true)
                  (fun a _ b b' hb h => ih hb h) hc h
              refine ⟨.arr ys, ?_, portableItems_iff.mpr hportable, ?_, hwithin⟩
              · simp only [unfold, hheap, hys, Option.map_some]
              · rw [weight, weightItems_eq, Budget.add_assoc]
            · rename_i items hheap
              obtain ⟨ys, hys, hportable, rfl, hwithin⟩ :=
                foldlM_ok (g := unfoldItem (unfold heap room)) fieldWeight
                  (fun f => f.1.utf8 ≠ none ∧ portable f.2 = true) (fun a _ b b' hb h => by
                    obtain ⟨key, item⟩ := a
                    cases key with
                    | other => cases h
                    | str key =>
                        obtain ⟨c, htext, h⟩ := bind_eq_ok.mp h
                        obtain ⟨hutf8, rfl, hle⟩ := Budget.text_eq_ok.mp htext
                        have hkey : (b + Budget.ofText key).Within := ⟨hb.1, hle⟩
                        obtain ⟨tree, htree, hp, rfl, hw⟩ := ih hkey h
                        refine ⟨(key, tree), ?_, ⟨hutf8, hp⟩, ?_, hw⟩
                        · simp only [unfoldItem, htree, Option.map_some]
                        · rw [fieldWeight, Budget.add_assoc]) hc h
              refine ⟨.obj ys, ?_, portableFields_iff.mpr hportable, ?_, hwithin⟩
              · simp only [unfold, hheap, hys, Option.map_some]
              · rw [weight, weightFields_eq, Budget.add_assoc]

/-! ### Trees and their values -/

theorem mem_of_mapM_item {α β : Type} {f : α → Option β} {l : List α} {ys : List β}
    (h : l.mapM f = some ys) {a : α} (ha : a ∈ l) : ∃ y ∈ ys, f a = some y := by
  induction l generalizing ys with
  | nil => cases ha
  | cons b l ih =>
      obtain ⟨y, ys', hy, hys, rfl⟩ := mapM_cons_eq_some.mp h
      rcases List.mem_cons.mp ha with rfl | ha
      · exact ⟨y, List.mem_cons_self, hy⟩
      · obtain ⟨z, hz, hf⟩ := ih hys ha
        exact ⟨z, List.mem_cons_of_mem y hz, hf⟩

theorem mapM_mono {α β : Type} {f g : α → Option β} {l : List α} {ys : List β}
    (h : l.mapM f = some ys) (hfg : ∀ a, ∀ y ∈ ys, f a = some y → g a = some y) :
    l.mapM g = some ys := by
  induction l generalizing ys with
  | nil => exact h
  | cons a l ih =>
      obtain ⟨y, ys', hy, hys, rfl⟩ := mapM_cons_eq_some.mp h
      exact mapM_cons_eq_some.mpr ⟨y, ys', hfg a y List.mem_cons_self hy,
        ih hys (fun b z hz => hfg b z (List.mem_cons_of_mem y hz)), rfl⟩

theorem mapM_map_of {α β γ : Type} {f : α → Option β} {g : α → Option γ} {k : β → γ}
    {l : List α} {ys : List β} (h : l.mapM f = some ys)
    (hfg : ∀ a y, f a = some y → g a = some (k y)) : l.mapM g = some (ys.map k) := by
  induction l generalizing ys with
  | nil =>
      cases h
      rfl
  | cons a l ih =>
      obtain ⟨y, ys', hy, hys, rfl⟩ := mapM_cons_eq_some.mp h
      exact mapM_cons_eq_some.mpr ⟨k y, ys'.map k, hfg a y hy, ih hys, rfl⟩

theorem lt_heightItems {xs : List Json} {x : Json} (h : x ∈ xs) : height x < heightItems xs := by
  induction xs with
  | nil => cases h
  | cons y xs ih =>
      rw [heightItems]
      rcases List.mem_cons.mp h with rfl | h
      · omega
      · have := ih h
        omega

theorem lt_heightFields {fs : List (Text × Json)} {f : Text × Json} (h : f ∈ fs) :
    height f.2 < heightFields fs := by
  induction fs with
  | nil => cases h
  | cons g fs ih =>
      rw [heightFields]
      rcases List.mem_cons.mp h with rfl | h
      · omega
      · have := ih h
        omega

theorem unfoldItem_eq_some {u : PyValue → Option Json} {item : PyKey × PyValue}
    {f : Text × Json} :
    unfoldItem u item = some f ↔ item.1 = .str f.1 ∧ u item.2 = some f.2 := by
  obtain ⟨key, item⟩ := item
  obtain ⟨k, x⟩ := f
  cases key with
  | other => exact ⟨nofun, fun h => by cases h.1⟩
  | str key =>
      simp only [unfoldItem, Option.map_eq_some_iff, Prod.mk.injEq, PyKey.str.injEq]
      constructor
      · rintro ⟨y, hy, rfl, rfl⟩
        exact ⟨rfl, hy⟩
      · rintro ⟨rfl, hx⟩
        exact ⟨x, hx, rfl, rfl⟩

theorem unfold_mono {n m : Nat} (hnm : n ≤ m) {value : PyValue} {tree : Json}
    (h : unfold heap n value = some tree) : unfold heap m value = some tree := by
  induction n generalizing m value tree with
  | zero => cases h
  | succ n ih =>
      obtain ⟨m, rfl⟩ := Nat.exists_eq_add_of_lt hnm
      have hle : n ≤ n + m := Nat.le_add_right n m
      cases value with
      | none | bool _ | float _ | str _ | int _ => exact h
      | nonFinite | other => cases h
      | ref id =>
          simp only [unfold] at h ⊢
          cases hheap : heap id with
          | list items =>
              simp only [hheap, Option.map_eq_some_iff] at h ⊢
              obtain ⟨ys, hys, rfl⟩ := h
              exact ⟨ys, mapM_mono hys fun a y _ hy => ih hle hy, rfl⟩
          | dict items =>
              simp only [hheap, Option.map_eq_some_iff] at h ⊢
              obtain ⟨ys, hys, rfl⟩ := h
              refine ⟨ys, mapM_mono hys fun a f _ hf => ?_, rfl⟩
              obtain ⟨hkey, hx⟩ := unfoldItem_eq_some.mp hf
              exact unfoldItem_eq_some.mpr ⟨hkey, ih hle hx⟩

theorem Represents.unique {value : PyValue} {tree tree' : Json}
    (h : Represents heap value tree) (h' : Represents heap value tree') : tree = tree' := by
  obtain ⟨n, hn⟩ := h
  obtain ⟨m, hm⟩ := h'
  exact Option.some.inj ((unfold_mono (Nat.le_add_right n m) hn).symm.trans
    (unfold_mono (Nat.le_add_left m n) hm))

/-- What is in a container stands for a tree below that of the container. -/
theorem unfold_child {n : Nat} {value item : PyValue} {tree : Json}
    (h : unfold heap (n + 1) value = some tree) (hchild : Child heap value item) :
    ∃ tree', unfold heap n item = some tree' ∧ height tree' < height tree := by
  obtain ⟨id, rfl, hitem⟩ := hchild
  simp only [unfold] at h
  cases hheap : heap id with
  | list items =>
      simp only [hheap, Option.map_eq_some_iff] at h
      obtain ⟨ys, hys, rfl⟩ := h
      rw [hheap] at hitem
      obtain ⟨y, hy, hx⟩ := mem_of_mapM_item hys hitem
      exact ⟨y, hx, lt_heightItems hy⟩
  | dict items =>
      simp only [hheap, Option.map_eq_some_iff] at h
      obtain ⟨ys, hys, rfl⟩ := h
      rw [hheap] at hitem
      obtain ⟨entry, hentry, rfl⟩ := List.mem_map.mp hitem
      obtain ⟨f, hf, hx⟩ := mem_of_mapM_item hys hentry
      exact ⟨f.2, (unfoldItem_eq_some.mp hx).2, lt_heightFields hf⟩

theorem Represents.child {value item : PyValue} {tree : Json} (h : Represents heap value tree)
    (hchild : Child heap value item) :
    ∃ tree', Represents heap item tree' ∧ height tree' < height tree := by
  obtain ⟨n, hn⟩ := h
  obtain ⟨tree', htree, hlt⟩ := unfold_child (unfold_mono (Nat.le_succ n) hn) hchild
  exact ⟨tree', ⟨n, htree⟩, hlt⟩

theorem Represents.below {value item : PyValue} {tree : Json} (h : Represents heap value tree)
    (hreach : TransGen (Child heap) value item) :
    ∃ tree', Represents heap item tree' ∧ height tree' < height tree := by
  induction hreach with
  | single hchild => exact h.child hchild
  | tail _ hchild ih =>
      obtain ⟨inner, hinner, hlt⟩ := ih
      obtain ⟨tree', htree, hlt'⟩ := hinner.child hchild
      exact ⟨tree', htree, hlt'.trans hlt⟩

/-- A value that stands for a tree is not cyclic: a container that contained
itself would stand for a tree below its own. -/
theorem Represents.not_cyclic {value : PyValue} {tree : Json} (h : Represents heap value tree) :
    ¬ Cyclic heap value := by
  rintro ⟨inner, hreach, hcycle⟩
  have hinner : ∃ tree', Represents heap inner tree' := by
    rcases reflTransGen_iff_eq_or_transGen.mp hreach with rfl | hreach
    · exact ⟨tree, h⟩
    · obtain ⟨tree', htree, -⟩ := h.below hreach
      exact ⟨tree', htree⟩
  obtain ⟨tree', htree⟩ := hinner
  obtain ⟨tree'', hagain, hlt⟩ := htree.below hcycle
  rw [htree.unique hagain] at hlt
  exact Nat.lt_irrefl _ hlt

/-- A value of a portable tree that fits the budget passes the validator,
whatever it shares: on the way down no container is met below itself. -/
theorem validateValue_fits {room : Nat} {ancestors : List Nat} {value : PyValue} {tree : Json}
    {b : Budget} (h : unfold heap room value = some tree) (hportable : portable tree = true)
    (hfits : (b + weight tree).Within)
    (hancestors : ∀ id ∈ ancestors, ¬ ReflTransGen (Child heap) value (.ref id)) :
    validateValue heap room ancestors value b = .ok (b + weight tree) := by
  induction room generalizing ancestors value tree b with
  | zero => cases h
  | succ room ih =>
      have hroot : ∃ w, weight tree = ⟨1, 0⟩ + w := by
        cases tree with
        | null | bool _ | int _ | float _ => exact ⟨0, rfl⟩
        | str _ | arr _ | obj _ => exact ⟨_, rfl⟩
      have hnode : b.node = .ok (b + ⟨1, 0⟩) := by
        obtain ⟨w, hw⟩ := hroot
        rw [hw, ← Budget.add_assoc] at hfits
        exact Budget.node_eq_ok.mpr ⟨rfl, hfits.of_add.1⟩
      refine bind_eq_ok.mpr ⟨_, hnode, ?_⟩
      have hdown : ∀ id, value = .ref id → ∀ item ∈ (heap id).values,
          ∀ a ∈ id :: ancestors, ¬ ReflTransGen (Child heap) item (.ref a) := by
        rintro id rfl item hitem a ha hreach
        have hchild : Child heap (.ref id) item := ⟨id, rfl, hitem⟩
        rcases List.mem_cons.mp ha with rfl | ha
        · exact Represents.not_cyclic ⟨_, h⟩ ⟨_, .refl, TransGen.head' hchild hreach⟩
        · exact hancestors a ha (ReflTransGen.head hchild hreach)
      cases value with
      | none | bool _ | float _ =>
          cases h
          rfl
      | nonFinite | other => cases h
      | str t =>
          cases h
          rw [weight, ← Budget.add_assoc] at hfits ⊢
          exact Budget.text_eq_ok.mpr ⟨bne_iff_ne.mp hportable, rfl, hfits.2⟩
      | int n =>
          cases h
          simp only [portable, Bool.and_eq_true, decide_eq_true_eq] at hportable
          exact if_neg (by omega)
      | ref id =>
          have hfresh : id ∉ ancestors := fun hm => hancestors id hm .refl
          simp only [unfold] at h
          dsimp only
          rw [if_neg hfresh]
          cases hheap : heap id with
          | list items =>
              simp only [hheap, Option.map_eq_some_iff] at h
              obtain ⟨ys, hys, rfl⟩ := h
              rw [weight, weightItems_eq, ← Budget.add_assoc] at hfits ⊢
              refine foldlM_fits hys (fun a ha y hy hay b hb => ?_) hfits
              exact ih hay (portableItems_iff.mp hportable y hy) hb
                (hdown id rfl a (by rw [hheap]; exact ha))
          | dict items =>
              simp only [hheap, Option.map_eq_some_iff] at h
              obtain ⟨ys, hys, rfl⟩ := h
              rw [weight, weightFields_eq, ← Budget.add_assoc] at hfits ⊢
              refine foldlM_fits hys (fun a ha f hf haf b hb => ?_) hfits
              obtain ⟨hkey, hx⟩ := unfoldItem_eq_some.mp haf
              obtain ⟨hutf8, hp⟩ := portableFields_iff.mp hportable f hf
              rw [fieldWeight, ← Budget.add_assoc] at hb ⊢
              have htext : b.text f.1 = .ok (b + Budget.ofText f.1) :=
                Budget.text_eq_ok.mpr ⟨hutf8, rfl, hb.of_add.2⟩
              have hmem : a.2 ∈ (heap id).values := by
                rw [hheap]
                exact List.mem_map_of_mem ha
              simp only [validateItem, hkey]
              exact bind_eq_ok.mpr ⟨_, htext, ih hx hp hb (hdown id rfl a.2 hmem)⟩

theorem height_lt_of_unfold {n : Nat} {value : PyValue} {tree : Json}
    (h : unfold heap n value = some tree) : height tree < n := by
  induction n generalizing value tree with
  | zero => cases h
  | succ n ih =>
      have hitems : ∀ {items : List PyValue} {ys : List Json},
          items.mapM (unfold heap n) = some ys → heightItems ys ≤ n := by
        intro items ys hys
        induction items generalizing ys with
        | nil =>
            cases hys
            exact Nat.zero_le n
        | cons a items iha =>
            obtain ⟨y, ys', hy, hrest, rfl⟩ := mapM_cons_eq_some.mp hys
            exact Nat.max_le.mpr ⟨ih hy, iha hrest⟩
      have hfields : ∀ {items : List (PyKey × PyValue)} {fs : List (Text × Json)},
          items.mapM (unfoldItem (unfold heap n)) = some fs → heightFields fs ≤ n := by
        intro items fs hfs
        induction items generalizing fs with
        | nil =>
            cases hfs
            exact Nat.zero_le n
        | cons a items iha =>
            obtain ⟨f, fs', hf, hrest, rfl⟩ := mapM_cons_eq_some.mp hfs
            exact Nat.max_le.mpr ⟨ih (unfoldItem_eq_some.mp hf).2, iha hrest⟩
      cases value with
      | none | bool _ | float _ | str _ | int _ =>
          cases h
          exact Nat.succ_pos n
      | nonFinite | other => cases h
      | ref id =>
          simp only [unfold] at h
          cases hheap : heap id with
          | list items =>
              simp only [hheap, Option.map_eq_some_iff] at h
              obtain ⟨ys, hys, rfl⟩ := h
              exact Nat.lt_succ_of_le (hitems hys)
          | dict items =>
              simp only [hheap, Option.map_eq_some_iff] at h
              obtain ⟨fs, hfs, rfl⟩ := h
              exact Nat.lt_succ_of_le (hfields hfs)

/-- A tree is unfolded within as many levels as it has. -/
theorem unfold_height {n : Nat} {value : PyValue} {tree : Json}
    (h : unfold heap n value = some tree) : unfold heap (height tree + 1) value = some tree := by
  induction n generalizing value tree with
  | zero => cases h
  | succ n ih =>
      cases value with
      | none | bool _ | float _ | str _ | int _ =>
          cases h
          rfl
      | nonFinite | other => cases h
      | ref id =>
          simp only [unfold] at h ⊢
          cases hheap : heap id with
          | list items =>
              simp only [hheap, Option.map_eq_some_iff] at h ⊢
              obtain ⟨ys, hys, rfl⟩ := h
              refine ⟨ys, mapM_mono hys fun a y hy hay => ?_, rfl⟩
              exact unfold_mono (lt_heightItems hy) (ih hay)
          | dict items =>
              simp only [hheap, Option.map_eq_some_iff] at h ⊢
              obtain ⟨fs, hfs, rfl⟩ := h
              refine ⟨fs, mapM_mono hfs fun a f hf haf => ?_, rfl⟩
              obtain ⟨hkey, hx⟩ := unfoldItem_eq_some.mp haf
              exact unfoldItem_eq_some.mpr ⟨hkey, unfold_mono (lt_heightFields hf) (ih hx)⟩

/-! ### Acyclic values -/

def PyContainer.keys : PyContainer → List PyKey
  | .list _ => []
  | .dict items => items.map Prod.fst

/-- Whatever can be reached is JSON. -/
def JsonOnly (heap : Heap) (value : PyValue) : Prop :=
  ∀ item, ReflTransGen (Child heap) value item → item ≠ .nonFinite ∧ item ≠ .other ∧
    ∀ id, item = .ref id → .other ∉ (heap id).keys

/-- Finitely many containers can be reached. -/
def Bounded (heap : Heap) (value : PyValue) : Prop :=
  ∃ bound, ∀ id, ReflTransGen (Child heap) value (.ref id) → id < bound

theorem JsonOnly.child {value item : PyValue} (h : JsonOnly heap value)
    (hchild : Child heap value item) : JsonOnly heap item :=
  fun inner hreach => h inner (ReflTransGen.head hchild hreach)

theorem exists_mapM {α β : Type} {f : Nat → α → Option β} {l : List α}
    (hmono : ∀ {n m a y}, n ≤ m → f n a = some y → f m a = some y)
    (h : ∀ a ∈ l, ∃ n y, f n a = some y) : ∃ n ys, l.mapM (f n) = some ys := by
  induction l with
  | nil => exact ⟨0, [], rfl⟩
  | cons a l ih =>
      obtain ⟨n, y, hy⟩ := h a List.mem_cons_self
      obtain ⟨m, ys, hys⟩ := ih fun b hb => h b (List.mem_cons_of_mem a hb)
      exact ⟨n + m, y :: ys, mapM_cons_eq_some.mpr ⟨y, ys, hmono (Nat.le_add_right n m) hy,
        mapM_mono hys fun b z _ hz => hmono (Nat.le_add_left m n) hz, rfl⟩⟩

/-- A container of values that stand for trees stands for a tree. -/
theorem represents_of_children {id : Nat} (hkeys : .other ∉ (heap id).keys)
    (h : ∀ item ∈ (heap id).values, ∃ tree, Represents heap item tree) :
    ∃ tree, Represents heap (.ref id) tree := by
  cases hheap : heap id with
  | list items =>
      rw [hheap] at h
      obtain ⟨n, ys, hys⟩ := exists_mapM (f := unfold heap) (l := items)
        (fun hnm hy => unfold_mono hnm hy) fun a ha => by
          obtain ⟨tree, n, hn⟩ := h a ha
          exact ⟨n, tree, hn⟩
      exact ⟨.arr ys, n + 1, by simp only [unfold, hheap, hys, Option.map_some]⟩
  | dict items =>
      rw [hheap] at h hkeys
      obtain ⟨n, fs, hfs⟩ := exists_mapM (f := fun n => unfoldItem (unfold heap n)) (l := items)
        (fun hnm hf => by
          obtain ⟨hkey, hx⟩ := unfoldItem_eq_some.mp hf
          exact unfoldItem_eq_some.mpr ⟨hkey, unfold_mono hnm hx⟩)
        fun a ha => by
          obtain ⟨tree, n, hn⟩ := h a.2 (List.mem_map_of_mem ha)
          have hkey : a.1 ≠ .other := fun he => hkeys (he ▸ List.mem_map_of_mem ha)
          obtain ⟨key, item⟩ := a
          cases key with
          | other => exact absurd rfl hkey
          | str key => exact ⟨n, (key, tree), unfoldItem_eq_some.mpr ⟨rfl, hn⟩⟩
      exact ⟨.obj fs, n + 1, by simp only [unfold, hheap, hfs, Option.map_some]⟩

/-- Every acyclic JSON value stands for a tree, shared containers or not. The
induction is on the containers, each below those that hold it. -/
theorem represents_of_acyclic {value : PyValue} (hacyclic : ¬ Cyclic heap value)
    (hjson : JsonOnly heap value) (hbounded : Bounded heap value) :
    ∃ tree, Represents heap value tree := by
  obtain ⟨bound, hbound⟩ := hbounded
  let Reached := { id : Nat // ReflTransGen (Child heap) value (.ref id) }
  let below : Reached → Reached → Prop := fun a b => TransGen (Child heap) (.ref b.1) (.ref a.1)
  have : Finite Reached := Finite.of_injective 
    (fun a => (⟨a.1, hbound a.1 a.2⟩ : Fin bound)) fun a b h => Subtype.ext (Fin.mk.inj h)
  have : IsTrans Reached below := ⟨fun a b c hab hbc => TransGen.trans hbc hab⟩
  have : Std.Irrefl below := ⟨fun a h => hacyclic ⟨.ref a.1, a.2, h⟩⟩
  have hwf : WellFounded below := Finite.wellFounded_of_trans_of_irrefl below
  have hreached : ∀ a : Reached, ∃ tree, Represents heap (.ref a.1) tree := by
    intro a
    induction a using hwf.induction with
    | _ a ih =>
        refine represents_of_children ((hjson _ a.2).2.2 a.1 rfl) fun item hitem => ?_
        have hchild : Child heap (.ref a.1) item := ⟨a.1, rfl, hitem⟩
        obtain ⟨hfinite, hother, -⟩ := hjson item (a.2.tail hchild)
        cases item with
        | none | bool _ | float _ | str _ | int _ => exact ⟨_, 1, rfl⟩
        | nonFinite => exact absurd rfl hfinite
        | other => exact absurd rfl hother
        | ref id => exact ih ⟨id, a.2.tail hchild⟩ (.single hchild)
  obtain ⟨hfinite, hother, -⟩ := hjson value .refl
  cases value with
  | none | bool _ | float _ | str _ | int _ => exact ⟨_, 1, rfl⟩
  | nonFinite => exact absurd rfl hfinite
  | other => exact absurd rfl hother
  | ref id => exact hreached ⟨id, .refl⟩

end SuperBoss.Audit
