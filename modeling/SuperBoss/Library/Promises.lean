import SuperBoss.Library.Interleaving

/-!
Asynchronous functions that wait for each other's promises. Every call is an
activation with a promise of its own: it is suspended at a point of its code
until the promise that it awaits there is settled. What a call does is fixed
when it is made, so the awaited promise is always one of the expected kind.
-/

namespace SuperBoss.Library.Promises

open SuperBoss.Library.Interleaving

universe u v w

/-- An activation: the point where it is suspended, and how it has settled. -/
structure Activation (Task : Type u) (Result : Type v) where
  task : Task
  result : Option Result
  deriving DecidableEq

abbrev Heap (Task : Type u) (Result : Type v) := List (Activation Task Result)

/-- What the points of suspension say about the code. -/
structure Code (Task : Type u) (Kind : Type w) where
  kind : Task → Kind
  awaits : Task → Option Nat
  expects : Task → Kind → Prop

variable {Task : Type u} {Result : Type v} {Kind : Type w}

namespace Heap

def advance (h : Heap Task Result) (i : Nat) (task : Task) : Heap Task Result :=
  h.modify i fun x => { x with task }

def settle (h : Heap Task Result) (i : Nat) (r : Result) : Heap Task Result :=
  h.modify i fun x => { x with result := some r }

def spawn (h : Heap Task Result) (task : Task) : Heap Task Result := h ++ [⟨task, none⟩]

/-- Activation `i` is suspended at `task`. -/
def At (h : Heap Task Result) (i : Nat) (task : Task) : Prop := h[i]? = some ⟨task, none⟩

def Pending (h : Heap Task Result) (i : Nat) : Prop := ∃ task, h.At i task

/-- Nothing can go on: everyone who is suspended awaits a promise that is not settled. -/
def Blocked (C : Code Task Kind) (h : Heap Task Result) : Prop :=
  ∀ i task, h.At i task → ∃ p, C.awaits task = some p ∧ h.Pending p

/-- The call behind promise `i` is of kind `k`. -/
def Is (C : Code Task Kind) (h : Heap Task Result) (i : Nat) (k : Kind) : Prop :=
  ∃ x, h[i]? = some x ∧ C.kind x.task = k

/-- The promise at a point of suspension is of the kind that is expected there. -/
def Suits (C : Code Task Kind) (h : Heap Task Result) (task : Task) : Prop :=
  ∀ p, C.awaits task = some p → ∃ k, h.Is C p k ∧ C.expects task k

def Typed (C : Code Task Kind) (h : Heap Task Result) : Prop :=
  ∀ (i : Nat) x, h[i]? = some x → h.Suits C x.task

/-- Calls are never forgotten, and stay what they are. -/
def Grows (C : Code Task Kind) (h h' : Heap Task Result) : Prop := ∀ i k, h.Is C i k → h'.Is C i k

section heap

variable {C : Code Task Kind} {h h' : Heap Task Result} {i j : Nat} {task : Task} {k : Kind}

theorem Is.unique {k' : Kind} (hk : h.Is C i k) (hk' : h.Is C i k') : k = k' := by
  obtain ⟨x, hx, rfl⟩ := hk
  obtain ⟨y, hy, rfl⟩ := hk'
  rw [Option.some.inj (hx.symm.trans hy)]

theorem At.is (hat : h.At i task) : h.Is C i (C.kind task) := ⟨_, hat, rfl⟩

theorem At.pending (hat : h.At i task) : h.Pending i := ⟨task, hat⟩

theorem At.unique {task' : Task} (hat : h.At i task) (hat' : h.At i task') : task = task' :=
  congrArg Activation.task (Option.some.inj (hat.symm.trans hat'))

theorem Grows.refl (h : Heap Task Result) : Grows C h h := fun _ _ hk => hk

theorem Grows.trans {h'' : Heap Task Result} (hg : Grows C h h') (hg' : Grows C h' h'') :
    Grows C h h'' := fun i k hk => hg' i k (hg i k hk)

theorem Suits.mono (hs : h.Suits C task) (hg : Grows C h h') : h'.Suits C task := by
  intro p hp
  obtain ⟨k, hk, hexpects⟩ := hs p hp
  exact ⟨k, hg p k hk, hexpects⟩

theorem suits_of_none (hnone : C.awaits task = none) : h.Suits C task := by
  intro p hp
  rw [hnone] at hp
  cases hp

/-! ### A new activation -/

theorem grows_spawn (h : Heap Task Result) (task : Task) : Grows C h (h.spawn task) := by
  rintro i k ⟨x, hx, hk⟩
  refine ⟨x, ?_, hk⟩
  unfold spawn
  rw [List.getElem?_append_left (List.getElem?_eq_some_iff.mp hx).1]
  exact hx

theorem at_spawn (h : Heap Task Result) (task : Task) : (h.spawn task).At h.length task :=
  List.getElem?_concat_length

theorem spawn_cases {x : Activation Task Result} (hx : (h.spawn task)[j]? = some x) :
    (j = h.length ∧ x = ⟨task, none⟩) ∨ h[j]? = some x :=
  getElem?_append_cases hx

theorem is_spawn_iff : (h.spawn task).Is C j k ↔ h.Is C j k ∨ (j = h.length ∧ k = C.kind task) := by
  constructor
  · rintro ⟨x, hx, rfl⟩
    rcases spawn_cases hx with ⟨hj, rfl⟩ | hx
    · exact .inr ⟨hj, rfl⟩
    · exact .inl ⟨x, hx, rfl⟩
  · rintro (hk | ⟨rfl, rfl⟩)
    · exact grows_spawn h task j k hk
    · exact (at_spawn h task).is

theorem at_spawn_iff {task' : Task} :
    (h.spawn task).At j task' ↔ h.At j task' ∨ (j = h.length ∧ task' = task) := by
  constructor
  · intro hat
    rcases spawn_cases hat with ⟨hj, heq⟩ | hat
    · cases heq
      exact .inr ⟨hj, rfl⟩
    · exact .inl hat
  · rintro (hat | ⟨rfl, rfl⟩)
    · unfold At spawn
      rw [List.getElem?_append_left (List.getElem?_eq_some_iff.mp hat).1]
      exact hat
    · exact at_spawn h _

theorem Is.lt_length (hk : h.Is C i k) : i < h.length := by
  obtain ⟨x, hx, -⟩ := hk
  exact (List.getElem?_eq_some_iff.mp hx).1

theorem Typed.spawn (hty : Typed C h) (hs : h.Suits C task) : Typed C (h.spawn task) := by
  intro j x hx
  rcases spawn_cases hx with ⟨-, rfl⟩ | hx
  · exact hs.mono (grows_spawn h task)
  · exact (hty j x hx).mono (grows_spawn h task)

/-! ### One step of an activation -/

theorem modify_cases {f : Activation Task Result → Activation Task Result}
    {x : Activation Task Result} (hx : (List.modify h i f)[j]? = some x) :
    (j = i ∧ ∃ y, h[i]? = some y ∧ x = f y) ∨ (j ≠ i ∧ h[j]? = some x) := by
  rw [List.getElem?_modify] at hx
  obtain ⟨y, hy, rfl⟩ := Option.map_eq_some_iff.mp hx
  by_cases hij : i = j
  · subst hij
    exact .inl ⟨rfl, y, hy, if_pos rfl⟩
  · refine .inr ⟨fun hji => hij hji.symm, ?_⟩
    rw [if_neg hij]
    exact hy

theorem grows_modify {f : Activation Task Result → Activation Task Result}
    (hf : ∀ x, h[i]? = some x → C.kind (f x).task = C.kind x.task) :
    Grows C h (List.modify h i f) := by
  rintro j k ⟨x, hx, rfl⟩
  unfold Is
  rw [List.getElem?_modify, hx]
  refine ⟨_, rfl, ?_⟩
  show C.kind (if i = j then f x else x).task = C.kind x.task
  split
  · rename_i hij
    exact hf x (hij ▸ hx)
  · rfl

theorem grows_settle (h : Heap Task Result) (i : Nat) (r : Result) : Grows C h (h.settle i r) :=
  grows_modify fun _ _ => rfl

theorem grows_advance (hk : h.Is C i (C.kind task)) : Grows C h (h.advance i task) := by
  obtain ⟨x, hx, hkind⟩ := hk
  refine grows_modify fun y hy => ?_
  obtain rfl := Option.some.inj (hx.symm.trans hy)
  exact hkind.symm

theorem is_settle_iff {r : Result} : (h.settle i r).Is C j k ↔ h.Is C j k := by
  refine ⟨?_, grows_settle h i r j k⟩
  rintro ⟨x, hx, rfl⟩
  rcases modify_cases hx with ⟨rfl, y, hy, rfl⟩ | ⟨-, hx⟩
  · exact ⟨y, hy, rfl⟩
  · exact ⟨x, hx, rfl⟩

theorem is_advance_iff (hk : h.Is C i (C.kind task)) :
    (h.advance i task).Is C j k ↔ h.Is C j k := by
  refine ⟨?_, grows_advance hk j k⟩
  rintro ⟨x, hx, rfl⟩
  rcases modify_cases hx with ⟨rfl, y, -, rfl⟩ | ⟨-, hx⟩
  · exact hk
  · exact ⟨x, hx, rfl⟩

theorem at_settle_iff {r : Result} {task' : Task} :
    (h.settle i r).At j task' ↔ j ≠ i ∧ h.At j task' := by
  constructor
  · intro hx
    rcases modify_cases hx with ⟨-, y, -, heq⟩ | ⟨hji, hx⟩
    · cases heq
    · exact ⟨hji, hx⟩
  · rintro ⟨hji, hx⟩
    unfold At settle
    rw [List.getElem?_modify, hx]
    exact congrArg some (if_neg fun hij => hji hij.symm)

theorem at_advance {task' : Task} (hat : (h.advance i task).At j task') :
    (j = i ∧ task' = task ∧ h.Pending i) ∨ (j ≠ i ∧ h.At j task') := by
  rcases modify_cases hat with ⟨rfl, ⟨task₀, result⟩, hy, heq⟩ | ⟨hji, hx⟩
  · cases heq
    exact .inl ⟨rfl, rfl, task₀, hy⟩
  · exact .inr ⟨hji, hx⟩

theorem At.advance_of_ne {task' : Task} (hat : h.At j task') (hne : j ≠ i) :
    (h.advance i task).At j task' := by
  unfold At Heap.advance
  rw [List.getElem?_modify, hat]
  exact congrArg some (if_neg fun hij => hne hij.symm)

theorem Typed.settle (hty : Typed C h) (i : Nat) (r : Result) : Typed C (h.settle i r) := by
  intro j x hx
  have hgrows := grows_settle (C := C) h i r
  rcases modify_cases hx with ⟨-, y, hy, rfl⟩ | ⟨-, hx⟩
  · exact (hty i y hy).mono hgrows
  · exact (hty j x hx).mono hgrows

theorem Typed.advance (hty : Typed C h) (hk : h.Is C i (C.kind task)) (hs : h.Suits C task) :
    Typed C (h.advance i task) := by
  intro j x hx
  have hgrows := grows_advance hk
  rcases modify_cases hx with ⟨-, y, -, rfl⟩ | ⟨-, hx⟩
  · exact hs.mono hgrows
  · exact (hty j x hx).mono hgrows

/-! ### Waiting -/

/-- In a blocked heap, a suspended activation awaits a suspended one of the expected kind. -/
theorem Blocked.next (hb : h.Blocked C) (hty : Typed C h) (hat : h.At i task) :
    ∃ p task', C.awaits task = some p ∧ h.At p task' ∧ C.expects task (C.kind task') := by
  obtain ⟨p, hp, task', hat'⟩ := hb i task hat
  obtain ⟨k, hk, hexpects⟩ := hty i _ hat p hp
  obtain rfl := hk.unique hat'.is
  exact ⟨p, task', hp, hat', hexpects⟩

end heap

end Heap

end SuperBoss.Library.Promises
