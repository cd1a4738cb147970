import Mathlib.Data.List.Induction

/-!
Executable labelled transition systems. A step is a partial function of the
state and the event, so a run is the partial fold of its events, and every
property of the reachable states is a property of the lists of events that
do not get stuck.
-/

namespace SuperBoss.Library.Transition

universe u v

variable {State : Type u} {Event : Type v}

/-- Fold a list of events over a state; `none` once an event is not enabled. -/
def run (next : State → Event → Option State) : State → List Event → Option State
  | s, [] => some s
  | s, e :: es => (next s e).bind fun t => run next t es

variable {next : State → Event → Option State}

@[simp] theorem run_nil (s : State) : run next s [] = some s := rfl

theorem run_cons (s : State) (e : Event) (es : List Event) :
    run next s (e :: es) = (next s e).bind fun t => run next t es := rfl

theorem run_cons_of {s t : State} {e : Event} (h : next s e = some t) (es : List Event) :
    run next s (e :: es) = run next t es := by
  rw [run_cons, h]
  rfl

theorem run_append (s : State) (es fs : List Event) :
    run next s (es ++ fs) = (run next s es).bind fun t => run next t fs := by
  induction es generalizing s with
  | nil => rfl
  | cons e es ih =>
      rw [List.cons_append, run_cons, run_cons]
      cases hstep : next s e with
      | none => rfl
      | some t => exact ih t

theorem run_append_of {s t u : State} {es fs : List Event}
    (h : run next s es = some t) (h' : run next t fs = some u) :
    run next s (es ++ fs) = some u := by
  rw [run_append, h]
  exact h'

theorem run_singleton (s : State) (e : Event) : run next s [e] = next s e := by
  rw [run_cons]
  cases next s e <;> rfl

theorem run_concat_of {s t u : State} {es : List Event} {e : Event}
    (h : run next s es = some t) (h' : next t e = some u) :
    run next s (es ++ [e]) = some u :=
  run_append_of h ((run_singleton t e).trans h')

/-- The states that some list of events leads to. -/
def Reachable (next : State → Event → Option State) (s t : State) : Prop :=
  ∃ es, run next s es = some t

theorem Reachable.refl (s : State) : Reachable next s s := ⟨[], rfl⟩

theorem Reachable.trans {s t u : State} :
    Reachable next s t → Reachable next t u → Reachable next s u := by
  rintro ⟨es, h⟩ ⟨fs, h'⟩
  exact ⟨es ++ fs, run_append_of h h'⟩

theorem Reachable.step {s t u : State} {e : Event}
    (h : Reachable next s t) (h' : next t e = some u) : Reachable next s u :=
  h.trans ⟨[e], (run_singleton t e).trans h'⟩

/-- What holds at the start and is preserved by every step holds after every
run. The invariant may mention the events seen so far. -/
theorem run_induction {I : List Event → State → Prop} {s₀ : State}
    (hinit : I [] s₀)
    (hstep : ∀ es s e t, run next s₀ es = some s → I es s → next s e = some t →
      I (es ++ [e]) t)
    {es : List Event} {s : State} (h : run next s₀ es = some s) : I es s := by
  induction es using List.reverseRecOn generalizing s with
  | nil =>
      cases h
      exact hinit
  | append_singleton es e ih =>
      rw [run_append] at h
      obtain ⟨t, ht, hlast⟩ := Option.bind_eq_some_iff.mp h
      exact hstep es t e s ht (ih ht) ((run_singleton t e).symm.trans hlast)

/-- The invariant rule for reachable states. -/
theorem Reachable.induction {I : State → Prop} {s₀ s : State}
    (h : Reachable next s₀ s) (hinit : I s₀)
    (hstep : ∀ s e t, Reachable next s₀ s → I s → next s e = some t → I t) :
    I s := by
  obtain ⟨es, hes⟩ := h
  exact run_induction (I := fun _ => I) hinit
    (fun es s e t hs => hstep s e t ⟨es, hs⟩) hes

/-- A property of states that every step of a run preserves is carried from
the start of the run to its end. -/
theorem Reachable.preserves {I : State → Prop} {s t : State}
    (h : Reachable next s t) (hstep : ∀ s e t, I s → next s e = some t → I t)
    (hs : I s) : I t :=
  h.induction hs fun s e t _ => hstep s e t

/-! ### The states and steps of one run -/

section visits

variable {s₀ : State} {es : List Event}

variable (next s₀) in
/-- The run of `es` goes through `t`. -/
def Visits (es : List Event) (t : State) : Prop := ∃ pre, pre <+: es ∧ run next s₀ pre = some t

variable (next s₀) in
/-- The run of `es` takes the event `e` in the state `t`. -/
def Takes (es : List Event) (t : State) (e : Event) : Prop :=
  ∃ pre, pre ++ [e] <+: es ∧ run next s₀ pre = some t

theorem Visits.reachable {t : State} (h : Visits next s₀ es t) : Reachable next s₀ t := by
  rcases h with ⟨pre, -, hrun⟩
  exact ⟨pre, hrun⟩

theorem visits_last {s : State} (h : run next s₀ es = some s) : Visits next s₀ es s :=
  ⟨es, List.prefix_refl es, h⟩

/-- A run that reaches its end does not get stuck on the way. -/
theorem exists_of_prefix {s : State} {pre : List Event} (h : run next s₀ es = some s)
    (hpre : pre <+: es) : ∃ t, run next s₀ pre = some t := by
  rcases hpre with ⟨post, rfl⟩
  rw [run_append] at h
  obtain ⟨t, ht, -⟩ := Option.bind_eq_some_iff.mp h
  exact ⟨t, ht⟩

/-- Where every step from a good state leads to a good state exactly when the step is
fine, the states of a run are good exactly when its steps are fine. -/
theorem visits_iff_takes {I : State → Prop} {Fine : State → Event → Prop} (hinit : I s₀)
    (hstep : ∀ s e t, Reachable next s₀ s → I s → next s e = some t → (I t ↔ Fine s e))
    {s : State} (h : run next s₀ es = some s) :
    (∀ t, Visits next s₀ es t → I t) ↔ ∀ t e, Takes next s₀ es t e → Fine t e := by
  constructor
  · rintro hgood t e ⟨pre, hpre, hrun⟩
    obtain ⟨u, hu⟩ := exists_of_prefix h hpre
    have hnext : next t e = some u := by
      rw [run_append, hrun] at hu
      exact (run_singleton t e).symm.trans hu
    have ht : I t := hgood t ⟨pre, (List.prefix_append pre [e]).trans hpre, hrun⟩
    exact (hstep t e u ⟨pre, hrun⟩ ht hnext).mp (hgood u ⟨pre ++ [e], hpre, hu⟩)
  · rintro hfine t ⟨pre, hpre, hrun⟩
    revert hpre
    refine run_induction (I := fun pre t => pre <+: es → I t) (fun _ => hinit) ?_ hrun
    intro pre u e v hu ih hnext hpre
    have hprev : pre <+: es := (List.prefix_append pre [e]).trans hpre
    exact (hstep u e v ⟨pre, hu⟩ (ih hprev) hnext).mpr (hfine u e ⟨pre, hpre, hu⟩)

end visits

end SuperBoss.Library.Transition
