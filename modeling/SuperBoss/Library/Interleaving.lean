import Mathlib.Data.List.Basic
import Mathlib.Tactic.Common
import SuperBoss.Library.Transition

/-!
Interleaved threads over one store with exclusive row locks. A thread is its
local state. Between two actions it holds the locks that its local state says
it holds, an action waits until nobody else holds a row it needs, and a crash
drops every lock. Assertions about the threads are proved in the style of
Owicki and Gries: each action establishes its own next assertion and does not
interfere with the assertions of the others.
-/

namespace SuperBoss.Library.Interleaving

open SuperBoss.Library.Transition

universe u v w x

/-- Thread code over a shared store. An answer is what the environment
contributes to one action: clock readings, outcomes of external calls. -/
structure Program (Store : Type u) (Thread : Type v) (Answer : Type w) (Row : Type x) where
  initial : Thread → Bool
  next : Answer → Thread → Store → Option (Thread × Store)
  crash : Thread → Thread
  /-- Rows locked by the thread from its last action on. -/
  holds : Thread → List Row
  /-- Rows that the next action has to lock. -/
  needs : Thread → List Row
  holds_initial : ∀ t, initial t = true → holds t = []
  holds_crash : ∀ t, holds (crash t) = []
  holds_next : ∀ {a t s t' s'}, next a t s = some (t', s') →
    ∀ r ∈ holds t', r ∈ holds t ∨ r ∈ needs t

structure State (Store : Type u) (Thread : Type v) where
  store : Store
  threads : List Thread

inductive Event (Thread : Type v) (Answer : Type w)
  | spawn (t : Thread)
  | act (i : Nat) (a : Answer)
  | crash (i : Nat)

variable {Store : Type u} {Thread : Type v} {Answer : Type w} {Row : Type x}

def State.start (st : Store) : State Store Thread := ⟨st, []⟩

namespace Program

variable (P : Program Store Thread Answer Row)

/-- No other thread holds a row that thread `i` in local state `t` needs. -/
def Free (threads : List Thread) (i : Nat) (t : Thread) : Prop :=
  ∀ u ∈ threads.eraseIdx i, ∀ r ∈ P.needs t, r ∉ P.holds u

instance [DecidableEq Row] (threads : List Thread) (i : Nat) (t : Thread) :
    Decidable (P.Free threads i t) :=
  inferInstanceAs (Decidable (∀ u ∈ threads.eraseIdx i, ∀ r ∈ P.needs t, r ∉ P.holds u))

def apply [DecidableEq Row] (s : State Store Thread) :
    Event Thread Answer → Option (State Store Thread)
  | .spawn t => if P.initial t then some ⟨s.store, s.threads ++ [t]⟩ else none
  | .act i a =>
      match s.threads[i]? with
      | none => none
      | some t =>
          if P.Free s.threads i t then
            (P.next a t s.store).map fun p => ⟨p.2, s.threads.set i p.1⟩
          else none
  | .crash i => s.threads[i]?.map fun t => ⟨s.store, s.threads.set i (P.crash t)⟩

/-- The steps that `apply` takes, one constructor for each kind of event. -/
inductive Step : State Store Thread → Event Thread Answer → State Store Thread → Prop
  | spawn {s : State Store Thread} {t : Thread} (h : P.initial t = true) :
      Step s (.spawn t) ⟨s.store, s.threads ++ [t]⟩
  | act {s : State Store Thread} {i : Nat} {a : Answer} {t t' : Thread} {st : Store}
      (hget : s.threads[i]? = some t) (hfree : P.Free s.threads i t)
      (hnext : P.next a t s.store = some (t', st)) :
      Step s (.act i a) ⟨st, s.threads.set i t'⟩
  | crash {s : State Store Thread} {i : Nat} {t : Thread} (hget : s.threads[i]? = some t) :
      Step s (.crash i) ⟨s.store, s.threads.set i (P.crash t)⟩

variable [DecidableEq Row]

theorem step_of_apply {s t : State Store Thread} {e : Event Thread Answer}
    (h : P.apply s e = some t) : P.Step s e t := by
  cases e with
  | spawn u =>
      simp only [apply] at h
      split at h
      · cases h
        exact .spawn ‹_›
      · cases h
  | act i a =>
      simp only [apply] at h
      split at h
      · cases h
      · rename_i u hget
        split at h
        · rename_i hfree
          obtain ⟨p, hnext, rfl⟩ := Option.map_eq_some_iff.mp h
          exact .act hget hfree hnext
        · cases h
  | crash i =>
      obtain ⟨u, hget, rfl⟩ := Option.map_eq_some_iff.mp h
      exact .crash hget

theorem apply_of_step {s t : State Store Thread} {e : Event Thread Answer}
    (h : P.Step s e t) : P.apply s e = some t := by
  cases h with
  | spawn h => simp [apply, h]
  | act hget hfree hnext => simp [apply, hget, hfree, hnext]
  | crash hget => simp [apply, hget]

theorem apply_eq_some_iff {s t : State Store Thread} {e : Event Thread Answer} :
    P.apply s e = some t ↔ P.Step s e t :=
  ⟨P.step_of_apply, P.apply_of_step⟩

end Program

/-- Reading a list after one entry was replaced. -/
theorem getElem?_set_cases {α : Type*} {l : List α} {i j : Nat} {x y : α}
    (h : (l.set i x)[j]? = some y) : (j = i ∧ y = x) ∨ (j ≠ i ∧ l[j]? = some y) := by
  by_cases hij : i = j
  · subst j
    have hlt : i < l.length := by
      have := (List.getElem?_eq_some_iff.mp h).1
      simpa using this
    rw [List.getElem?_set_self hlt] at h
    exact .inl ⟨rfl, (Option.some.inj h).symm⟩
  · rw [List.getElem?_set_ne hij] at h
    exact .inr ⟨fun e => hij e.symm, h⟩

/-- Reading a list after one entry was appended. -/
theorem getElem?_append_cases {α : Type*} {l : List α} {j : Nat} {x y : α}
    (h : (l ++ [x])[j]? = some y) : (j = l.length ∧ y = x) ∨ l[j]? = some y := by
  rcases Nat.lt_trichotomy j l.length with hlt | heq | hgt
  · rw [List.getElem?_append_left hlt] at h
    exact .inr h
  · subst j
    rw [List.getElem?_concat_length] at h
    exact .inl ⟨rfl, (Option.some.inj h).symm⟩
  · rw [List.getElem?_eq_none (by simp only [List.length_append, List.length_singleton]; omega)] at h
    cases h

namespace Program

variable (P : Program Store Thread Answer Row)

theorem Free.not_holds {P : Program Store Thread Answer Row} {threads : List Thread}
    {i j : Nat} {t u : Thread} (h : P.Free threads i t) (hj : threads[j]? = some u)
    (hne : j ≠ i) {r : Row} (hr : r ∈ P.needs t) : r ∉ P.holds u :=
  h u (List.mem_eraseIdx_iff_getElem?.mpr ⟨j, hne, hj⟩) r hr

/-- Two threads of a state never hold the same row. -/
def Exclusive (threads : List Thread) : Prop :=
  ∀ (i j : Nat) t u, threads[i]? = some t → threads[j]? = some u → i ≠ j →
    ∀ r ∈ P.holds t, r ∉ P.holds u

variable {P}

theorem Exclusive.step {s t : State Store Thread} {e : Event Thread Answer}
    (hs : P.Exclusive s.threads) (h : P.Step s e t) : P.Exclusive t.threads := by
  intro i j u v hu hv hij r hru hrv
  cases h with
  | spawn hinit =>
      rcases getElem?_append_cases hu with ⟨-, rfl⟩ | hu'
      · simp [P.holds_initial _ hinit] at hru
      · rcases getElem?_append_cases hv with ⟨-, rfl⟩ | hv'
        · simp [P.holds_initial _ hinit] at hrv
        · exact hs i j u v hu' hv' hij r hru hrv
  | @act k a w w' st hget hfree hnext =>
      rcases getElem?_set_cases hu with ⟨rfl, rfl⟩ | ⟨hik, hu'⟩
      · rcases getElem?_set_cases hv with ⟨rfl, rfl⟩ | ⟨hjk, hv'⟩
        · exact hij rfl
        · rcases P.holds_next hnext r hru with hold | hneed
          · exact hs i j w v hget hv' hij r hold hrv
          · exact hfree.not_holds hv' hjk hneed hrv
      · rcases getElem?_set_cases hv with ⟨rfl, rfl⟩ | ⟨hjk, hv'⟩
        · rcases P.holds_next hnext r hrv with hold | hneed
          · exact hs i j u w hu' hget hij r hru hold
          · exact hfree.not_holds hu' hik hneed hru
        · exact hs i j u v hu' hv' hij r hru hrv
  | crash hget =>
      rcases getElem?_set_cases hu with ⟨rfl, rfl⟩ | ⟨-, hu'⟩
      · simp [P.holds_crash] at hru
      · rcases getElem?_set_cases hv with ⟨rfl, rfl⟩ | ⟨-, hv'⟩
        · simp [P.holds_crash] at hrv
        · exact hs i j u v hu' hv' hij r hru hrv

/-- A proof outline: an invariant of the store and an assertion for every local
state, with the obligations of Owicki and Gries. Non-interference may use that
the interfering action neither holds nor locks a row the other thread holds. -/
structure Outline (P : Program Store Thread Answer Row) (I : Store → Prop)
    (A : Thread → Store → Prop) : Prop where
  spawn : ∀ {t s}, I s → P.initial t = true → A t s
  crash : ∀ {t s}, I s → A t s → A (P.crash t) s
  own : ∀ {a t s t' s'}, I s → A t s → P.next a t s = some (t', s') → I s' ∧ A t' s'
  other : ∀ {a t s t' s' u}, I s → A t s → A u s → P.next a t s = some (t', s') →
    (∀ r ∈ P.holds u, r ∉ P.holds t ∧ r ∉ P.needs t) → A u s'

/-- What an outline says of a whole state. -/
def Annotated (I : Store → Prop) (A : Thread → Store → Prop) (s : State Store Thread) : Prop :=
  I s.store ∧ ∀ (i : Nat) t, s.threads[i]? = some t → A t s.store

theorem Outline.step {I : Store → Prop} {A : Thread → Store → Prop} (O : Outline P I A)
    {s t : State Store Thread} {e : Event Thread Answer} (hex : P.Exclusive s.threads)
    (hs : Annotated I A s) (h : P.Step s e t) : Annotated I A t := by
  obtain ⟨hI, hA⟩ := hs
  cases h with
  | spawn hinit =>
      refine ⟨hI, fun j u hu => ?_⟩
      rcases getElem?_append_cases hu with ⟨-, rfl⟩ | hu'
      · exact O.spawn hI hinit
      · exact hA j u hu'
  | @act i a w w' st hget hfree hnext =>
      have hown := O.own hI (hA i w hget) hnext
      refine ⟨hown.1, fun j u hu => ?_⟩
      rcases getElem?_set_cases hu with ⟨rfl, rfl⟩ | ⟨hji, hu'⟩
      · exact hown.2
      · refine O.other hI (hA i w hget) (hA j u hu') hnext fun r hr => ⟨?_, ?_⟩
        · exact hex j i u w hu' hget hji r hr
        · intro hneed
          exact hfree.not_holds hu' hji hneed hr
  | crash hget =>
      refine ⟨hI, fun j u hu => ?_⟩
      rcases getElem?_set_cases hu with ⟨rfl, rfl⟩ | ⟨-, hu'⟩
      · exact O.crash hI (hA _ _ hget)
      · exact hA j u hu'

variable [DecidableEq Row]

theorem exclusive_of_reachable {st : Store} {s : State Store Thread}
    (h : Reachable P.apply (State.start st) s) : P.Exclusive s.threads :=
  h.preserves (I := fun s => P.Exclusive s.threads)
    (fun _ _ _ hs hstep => hs.step (P.step_of_apply hstep))
    (by intro i j t u hi; simp [State.start] at hi)

/-- Every reachable state satisfies a proof outline that the initial store
satisfies. -/
theorem Outline.reachable {I : Store → Prop} {A : Thread → Store → Prop} (O : Outline P I A)
    {st : Store} {s : State Store Thread} (h : Reachable P.apply (State.start st) s)
    (hst : I st) : Annotated I A s := by
  refine h.induction ⟨hst, by intro i t hi; simp [State.start] at hi⟩ ?_
  intro u e v hu hinv hstep
  exact O.step (exclusive_of_reachable hu) hinv (P.step_of_apply hstep)

end Program

end SuperBoss.Library.Interleaving
