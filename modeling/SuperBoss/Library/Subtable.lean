import SuperBoss.Library.Table

/-!
Tables with some rows hidden. Lookups, insertions and updates of rows that are
shown are the same on the table and on what is shown of it, where no hidden row
objects.
-/

namespace SuperBoss.Library

universe u v

namespace Table

variable {κ : Type u} {ρ : Type v} {key : ρ → κ} {distinct : ρ → ρ → Prop}

theorem eq_of_rows {t t' : Table key distinct} (h : t.rows = t'.rows) : t = t' := by
  cases t
  cases t'
  cases h
  rfl

/-- The rows that `p` shows. -/
def filter (t : Table key distinct) (p : ρ → Bool) : Table key distinct :=
  ⟨t.rows.filter p, t.nodup.sublist (List.filter_sublist.map key), t.unique.filter p⟩

variable {t : Table key distinct} {p q : ρ → Bool}

@[simp] theorem rows_filter : (t.filter p).rows = t.rows.filter p := rfl

theorem filter_congr (h : ∀ r ∈ t.rows, p r = q r) : t.filter p = t.filter q :=
  eq_of_rows (List.filter_congr h)

variable [DecidableEq κ]

theorem get?_filter (k : κ) : (t.filter p).get? k = (t.get? k).filter p := by
  ext r
  rw [get?_eq_some_iff, Option.filter_eq_some_iff, get?_eq_some_iff, rows_filter, List.mem_filter]
  constructor
  · rintro ⟨⟨hmem, hp⟩, hkey⟩
    exact ⟨⟨hmem, hkey⟩, hp⟩
  · rintro ⟨⟨hmem, hkey⟩, hp⟩
    exact ⟨⟨hmem, hp⟩, hkey⟩

/-- A row that is shown is looked up. -/
theorem get?_filter_of_shown {k : κ} {r : ρ} (h : t.get? k = some r) (hp : p r = true) :
    (t.filter p).get? k = some r := by
  rw [get?_filter, h]
  exact Option.filter_eq_some_iff.mpr ⟨rfl, hp⟩

omit [DecidableEq κ] in
/-- A lookup by other columns that only finds rows that are shown. -/
theorem find?_filter {c : ρ → Bool} (h : ∀ r ∈ t.rows, c r = true → p r = true) :
    (t.filter p).rows.find? c = t.rows.find? c := by
  rw [rows_filter]
  generalize t.rows = l at h
  induction l with
  | nil => rfl
  | cons r l ih =>
      have hrest := ih fun x hx => h x (List.mem_cons_of_mem r hx)
      cases hc : c r with
      | true => rw [List.filter_cons_of_pos (h r List.mem_cons_self hc), List.find?_cons_of_pos hc,
          List.find?_cons_of_pos hc]
      | false =>
          rw [List.find?_cons_of_neg (Bool.eq_false_iff.mp hc)]
          cases hp : p r with
          | true => rw [List.filter_cons_of_pos hp, List.find?_cons_of_neg (Bool.eq_false_iff.mp hc),
              hrest]
          | false => rw [List.filter_cons_of_neg (Bool.eq_false_iff.mp hp), hrest]

theorem insert?_filter [DecidableRel distinct] {r : ρ} (hp : p r = true)
    (hhidden : ∀ x ∈ t.rows, p x = false → key x ≠ key r ∧ distinct x r) :
    (t.filter p).insert? r = (t.insert? r).map fun t => t.filter p := by
  cases h : t.insert? r with
  | some t' =>
      obtain ⟨hkey, hdistinct, hrows⟩ := insert?_eq_some_iff.mp h
      refine insert?_eq_some_iff.mpr ⟨fun hmem => hkey ?_, fun x hx => ?_, ?_⟩
      · obtain ⟨x, hx, hxr⟩ := List.mem_map.mp hmem
        exact List.mem_map.mpr ⟨x, (List.mem_filter.mp hx).1, hxr⟩
      · exact hdistinct x (List.mem_filter.mp hx).1
      · rw [rows_filter, hrows, List.filter_append, rows_filter]
        simp [hp]
  | none =>
      rw [Option.map_none]
      by_contra hsome
      obtain ⟨t', ht'⟩ := Option.ne_none_iff_exists'.mp hsome
      obtain ⟨hkey, hdistinct, -⟩ := insert?_eq_some_iff.mp ht'
      have hok : t.insert? r ≠ none := by
        unfold insert?
        rw [dif_pos]
        · exact Option.some_ne_none _
        · refine ⟨fun hmem => ?_, fun x hx => ?_⟩
          · obtain ⟨x, hx, hxr⟩ := List.mem_map.mp hmem
            cases hpx : p x with
            | true => exact hkey (List.mem_map.mpr ⟨x, List.mem_filter.mpr ⟨hx, hpx⟩, hxr⟩)
            | false => exact (hhidden x hx hpx).1 hxr
          · cases hpx : p x with
            | true => exact hdistinct x (List.mem_filter.mpr ⟨hx, hpx⟩)
            | false => exact (hhidden x hx hpx).2
      exact hok h

theorem modify_filter {k : κ} {f : ρ → ρ} {hf : Keeps key distinct f}
    (hp : ∀ r, p (f r) = p r) :
    (t.filter p).modify k f hf = (t.modify k f hf).filter p := by
  refine eq_of_rows ?_
  rw [rows_modify, rows_filter, rows_filter, rows_modify, List.filter_map]
  congr 1
  refine List.filter_congr fun r _ => ?_
  simp only [Function.comp]
  split
  · exact (hp r).symm
  · rfl

end Table

end SuperBoss.Library
