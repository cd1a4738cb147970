import Mathlib.Data.List.Nodup
import Mathlib.Data.List.Pairwise
import Mathlib.Data.List.Perm.Basic
import Mathlib.Tactic.Common

/-!
Tables with a primary key and further unique indexes: lists of rows in
insertion order whose keys are pairwise distinct and which are pairwise
`distinct`. Rows are inserted when no index objects and then updated in place
by functions that keep the indexed columns.
-/

namespace SuperBoss.Library

universe u v

structure Table {κ : Type u} {ρ : Type v} (key : ρ → κ) (distinct : ρ → ρ → Prop) where
  rows : List ρ
  nodup : (rows.map key).Nodup
  unique : rows.Pairwise distinct

namespace Table

variable {κ : Type u} {ρ : Type v} {key : ρ → κ} {distinct : ρ → ρ → Prop}

instance : EmptyCollection (Table key distinct) := ⟨⟨[], List.nodup_nil, .nil⟩⟩

@[simp] theorem rows_empty : (∅ : Table key distinct).rows = [] := rfl

/-- An update that leaves the indexed columns alone. -/
structure Keeps (key : ρ → κ) (distinct : ρ → ρ → Prop) (f : ρ → ρ) : Prop where
  key : ∀ r, key (f r) = key r
  distinct : ∀ {r x}, distinct r x → distinct (f r) x ∧ distinct r (f x)

variable [DecidableEq κ]

def get? (t : Table key distinct) (k : κ) : Option ρ :=
  t.rows.find? fun r => decide (key r = k)

/-- Insert a row; `none` when an index objects. -/
def insert? [DecidableRel distinct] (t : Table key distinct) (r : ρ) :
    Option (Table key distinct) :=
  if h : key r ∉ t.rows.map key ∧ ∀ x ∈ t.rows, distinct x r then
    some ⟨t.rows ++ [r], by
      rw [List.map_append, List.map_singleton]
      exact List.Nodup.append t.nodup (List.nodup_singleton _)
        (by simpa [List.disjoint_singleton] using h.1), by
      rw [List.pairwise_append]
      refine ⟨t.unique, List.pairwise_singleton _ _, fun x hx y hy => ?_⟩
      rw [List.mem_singleton.mp hy]
      exact h.2 x hx⟩
  else none

/-- Update the row with key `k`, if there is one. -/
def modify (t : Table key distinct) (k : κ) (f : ρ → ρ) (hf : Keeps key distinct f) :
    Table key distinct :=
  ⟨t.rows.map fun x => if key x = k then f x else x, by
    rw [List.map_map]
    refine (List.map_congr_left fun x _ => ?_ : _ = t.rows.map key) ▸ t.nodup
    by_cases h : key x = k <;> simp [h, hf.key], by
    rw [List.pairwise_map]
    refine t.unique.imp fun {x y} hxy => ?_
    by_cases hx : key x = k <;> by_cases hy : key y = k <;> simp only [hx, hy, if_true, if_false]
    · exact (hf.distinct (hf.distinct hxy).2).1
    · exact (hf.distinct hxy).1
    · exact (hf.distinct hxy).2
    · exact hxy⟩

@[simp] theorem get?_empty (k : κ) : (∅ : Table key distinct).get? k = none := rfl

theorem get?_eq_some_iff {t : Table key distinct} {k : κ} {r : ρ} :
    t.get? k = some r ↔ r ∈ t.rows ∧ key r = k := by
  constructor
  · intro h
    have hkey := List.find?_some (p := fun r => decide (key r = k)) h
    exact ⟨List.mem_of_find?_eq_some h, of_decide_eq_true hkey⟩
  · rintro ⟨hmem, rfl⟩
    cases hfind : t.get? (key r) with
    | none =>
        have := List.find?_eq_none.mp hfind r hmem
        simp at this
    | some x =>
        have hx : x ∈ t.rows := List.mem_of_find?_eq_some hfind
        have hkey := List.find?_some (p := fun x => decide (key x = key r)) hfind
        rw [List.inj_on_of_nodup_map t.nodup hx hmem (of_decide_eq_true hkey)]

theorem get?_eq_none_iff {t : Table key distinct} {k : κ} :
    t.get? k = none ↔ ∀ r ∈ t.rows, key r ≠ k := by
  simp [get?]

theorem key_of_get? {t : Table key distinct} {k : κ} {r : ρ} (h : t.get? k = some r) :
    key r = k :=
  (get?_eq_some_iff.mp h).2

theorem mem_of_get? {t : Table key distinct} {k : κ} {r : ρ} (h : t.get? k = some r) :
    r ∈ t.rows :=
  (get?_eq_some_iff.mp h).1

theorem get?_of_mem {t : Table key distinct} {r : ρ} (h : r ∈ t.rows) :
    t.get? (key r) = some r :=
  get?_eq_some_iff.mpr ⟨h, rfl⟩

omit [DecidableEq κ] in
/-- Rows that no index tells apart are one row. -/
theorem eq_of_not_distinct {t : Table key distinct} {r x : ρ} (hr : r ∈ t.rows)
    (hx : x ∈ t.rows) (h : ¬ distinct r x) (h' : ¬ distinct x r) : r = x := by
  by_contra hne
  have heither : t.rows.Pairwise fun a b => distinct a b ∨ distinct b a :=
    t.unique.imp Or.inl
  have : Std.Symm fun a b => distinct a b ∨ distinct b a := ⟨fun _ _ => Or.symm⟩
  exact (heither.forall hr hx hne).elim h h'

omit [DecidableEq κ] in
/-- A condition that an index admits for one row at most. -/
theorem length_filter_le_one {t : Table key distinct} {p : ρ → Bool}
    (h : ∀ {r x}, distinct r x → p r = true → p x = false) : (t.rows.filter p).length ≤ 1 := by
  have hpair := t.unique.filter p
  have hall : ∀ r ∈ t.rows.filter p, p r = true := fun r hr => (List.mem_filter.mp hr).2
  match hrows : t.rows.filter p with
  | [] => simp
  | [_] => simp
  | r :: x :: rest =>
      rw [hrows] at hpair hall
      have hrx := (List.pairwise_cons.mp hpair).1 x List.mem_cons_self
      have hx := hall x (List.mem_cons_of_mem r List.mem_cons_self)
      rw [h hrx (hall r List.mem_cons_self)] at hx
      cases hx

/-- Rows picked by a list of keys are no more than the keys. -/
theorem length_filter_mem_le {t : Table key distinct} {keys : List κ} :
    (t.rows.filter fun r => decide (key r ∈ keys)).length ≤ keys.length := by
  have hnodup : ((t.rows.filter fun r => decide (key r ∈ keys)).map key).Nodup :=
    t.nodup.sublist (List.filter_sublist.map key)
  have hsub : (t.rows.filter fun r => decide (key r ∈ keys)).map key ⊆ keys := by
    intro k hk
    obtain ⟨r, hr, rfl⟩ := List.mem_map.mp hk
    exact of_decide_eq_true (List.mem_filter.mp hr).2
  simpa using (List.subperm_of_subset hnodup hsub).length_le

section insertion

variable [DecidableRel distinct]

theorem insert?_eq_some_iff {t t' : Table key distinct} {r : ρ} :
    t.insert? r = some t' ↔
      key r ∉ t.rows.map key ∧ (∀ x ∈ t.rows, distinct x r) ∧ t'.rows = t.rows ++ [r] := by
  unfold insert?
  constructor
  · intro h
    split at h
    · rename_i hok
      cases h
      exact ⟨hok.1, hok.2, rfl⟩
    · cases h
  · rintro ⟨hkey, hdist, hrows⟩
    rw [dif_pos ⟨hkey, hdist⟩]
    cases t'
    simp only at hrows
    subst hrows
    rfl

theorem rows_insert? {t t' : Table key distinct} {r : ρ} (h : t.insert? r = some t') :
    t'.rows = t.rows ++ [r] :=
  (insert?_eq_some_iff.mp h).2.2

theorem get?_insert? {t t' : Table key distinct} {r : ρ} (h : t.insert? r = some t') (k : κ) :
    t'.get? k = if k = key r then some r else t.get? k := by
  have hrows := rows_insert? h
  by_cases hk : k = key r
  · subst hk
    rw [if_pos rfl]
    exact get?_of_mem (by simp [hrows])
  · rw [if_neg hk]
    ext x
    rw [get?_eq_some_iff, get?_eq_some_iff, hrows, List.mem_append, List.mem_singleton]
    constructor
    · rintro ⟨hmem | rfl, hkey⟩
      · exact ⟨hmem, hkey⟩
      · exact absurd hkey.symm hk
    · rintro ⟨hmem, hkey⟩
      exact ⟨.inl hmem, hkey⟩

/-- Rows that are there stay there under an insertion. -/
theorem get?_insert?_of_some {t t' : Table key distinct} {r x : ρ} {k : κ}
    (h : t.insert? r = some t') (hx : t.get? k = some x) : t'.get? k = some x := by
  rw [get?_insert? h]
  have hk : k ≠ key r := by
    rintro rfl
    exact (insert?_eq_some_iff.mp h).1 (List.mem_map.mpr ⟨x, mem_of_get? hx, key_of_get? hx⟩)
  rw [if_neg hk, hx]

end insertion

section update

variable {f : ρ → ρ} {hf : Keeps key distinct f}

@[simp] theorem rows_modify (t : Table key distinct) (k : κ) :
    (t.modify k f hf).rows = t.rows.map fun x => if key x = k then f x else x := rfl

theorem get?_modify (t : Table key distinct) (k l : κ) :
    (t.modify k f hf).get? l = if l = k then (t.get? l).map f else t.get? l := by
  ext y
  rw [get?_eq_some_iff, rows_modify, List.mem_map]
  constructor
  · rintro ⟨⟨x, hx, rfl⟩, hkey⟩
    by_cases hxk : key x = k
    · rw [if_pos hxk] at hkey ⊢
      rw [hf.key] at hkey
      rw [if_pos (hkey.symm.trans hxk), get?_eq_some_iff.mpr ⟨hx, hkey⟩]
      rfl
    · rw [if_neg hxk] at hkey ⊢
      rw [if_neg (fun h => hxk (hkey.trans h)), get?_eq_some_iff]
      exact ⟨hx, hkey⟩
  · intro h
    by_cases hl : l = k
    · rw [if_pos hl] at h
      obtain ⟨x, hx, rfl⟩ := Option.map_eq_some_iff.mp h
      have hkey : key x = l := key_of_get? hx
      exact ⟨⟨x, mem_of_get? hx, if_pos (hkey.trans hl)⟩, (hf.key x).trans hkey⟩
    · rw [if_neg hl] at h
      have hkey : key y = l := key_of_get? h
      exact ⟨⟨y, mem_of_get? h, if_neg (fun hy => hl (hkey.symm.trans hy))⟩, hkey⟩

theorem get?_modify_self {t : Table key distinct} {k : κ} {x : ρ} (h : t.get? k = some x) :
    (t.modify k f hf).get? k = some (f x) := by
  rw [get?_modify, if_pos rfl, h]
  rfl

theorem get?_modify_of_ne {t : Table key distinct} {k l : κ} (h : l ≠ k) :
    (t.modify k f hf).get? l = t.get? l := by
  rw [get?_modify, if_neg h]

theorem keys_modify (hf : Keeps key distinct f) (t : Table key distinct) (k : κ) :
    (t.modify k f hf).rows.map key = t.rows.map key := by
  rw [rows_modify, List.map_map]
  refine List.map_congr_left fun x _ => ?_
  by_cases hx : key x = k
  · simp [hx, hf.key]
  · simp [hx]

theorem get?_modify_of_none (hf : Keeps key distinct f) {t : Table key distinct} {k l : κ}
    (h : t.get? l = none) : (t.modify k f hf).get? l = none := by
  rw [get?_modify, h]
  split <;> rfl

end update

end Table

end SuperBoss.Library
