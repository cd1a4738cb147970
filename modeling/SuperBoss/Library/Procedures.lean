import Mathlib.Data.List.Basic
import Mathlib.Tactic.Common

/-!
Procedures that call their environment, which answers as it likes and can stop
them before any call. Preconditions are computed backwards over a procedure, with
a guarantee that each of its calls keeps; a session is a list of procedures run
one after another on one world. A procedure succeeds under an assumption on its
environment when every run that keeps to it returns.
-/

namespace SuperBoss.Library

/-- A procedure that returns a value or raises an exception. -/
inductive Procedure (Call : Type) (Answer : Call → Type) (ε α : Type)
  | ret (a : α)
  | raise (e : ε)
  | call (c : Call) (next : Answer c → Procedure Call Answer ε α)

namespace Procedure

variable {Call : Type} {Answer : Call → Type} {ε α β σ ι : Type}

def bind (p : Procedure Call Answer ε α) (f : α → Procedure Call Answer ε β) :
    Procedure Call Answer ε β :=
  match p with
  | .ret a => f a
  | .raise e => .raise e
  | .call c next => .call c fun a => (next a).bind f

/-- `try`, with a handler that sees every exception. -/
def handle (p : Procedure Call Answer ε α) (f : ε → Procedure Call Answer ε α) :
    Procedure Call Answer ε α :=
  match p with
  | .ret a => .ret a
  | .raise e => f e
  | .call c next => .call c fun a => (next a).handle f

instance : Monad (Procedure Call Answer ε) where
  pure := ret
  bind := bind

/-- One call. -/
def perform (c : Call) : Procedure Call Answer ε (Answer c) := .call c .ret

def ofExcept : Except ε α → Procedure Call Answer ε α
  | .ok a => .ret a
  | .error e => .raise e

/-- A procedure for each item of a list. -/
def each (f : σ → ι → Procedure Call Answer ε σ) (s : σ) : List ι → Procedure Call Answer ε σ
  | [] => .ret s
  | x :: l => (f s x).bind fun s' => each f s' l

/-! ### Runs -/

variable {World Chance : Type} (answer : (c : Call) → Chance → World → Answer c × World)

/-- What is left of a procedure, and the world, after one call for each chance; a
procedure that has ended ignores the rest. -/
def after (p : Procedure Call Answer ε α) : List Chance → World → Procedure Call Answer ε α × World
  | [], w => (p, w)
  | i :: is, w =>
      match p with
      | .ret a => (.ret a, w)
      | .raise e => (.raise e, w)
      | .call c next => (next (answer c i w).1).after is (answer c i w).2

@[simp] theorem after_nil (p : Procedure Call Answer ε α) (w : World) :
    p.after answer [] w = (p, w) := by
  cases p <;> rfl

@[simp] theorem after_ret (a : α) (is : List Chance) (w : World) :
    (ret a : Procedure Call Answer ε α).after answer is w = (.ret a, w) := by
  cases is <;> rfl

@[simp] theorem after_raise (e : ε) (is : List Chance) (w : World) :
    (raise e : Procedure Call Answer ε α).after answer is w = (.raise e, w) := by
  cases is <;> rfl

@[simp] theorem after_call (c : Call) (next : Answer c → Procedure Call Answer ε α) (i : Chance)
    (is : List Chance) (w : World) :
    (call c next).after answer (i :: is) w =
      (next (answer c i w).1).after answer is (answer c i w).2 := rfl

theorem after_append (p : Procedure Call Answer ε α) (is js : List Chance) (w : World) :
    p.after answer (is ++ js) w =
      (p.after answer is w).1.after answer js (p.after answer is w).2 := by
  induction is generalizing p w with
  | nil => rw [List.nil_append, after_nil]
  | cons i is ih =>
      match p with
      | .ret a => simp
      | .raise e => simp
      | .call c next => exact ih (next (answer c i w).1) (answer c i w).2

/-! ### Preconditions -/

/-- What is guaranteed of a call: the world before, its answer and the world after. -/
abbrev Guarantee (Answer : Call → Type) (World : Type) :=
  World → (c : Call) → Answer c → World → Prop

variable (G : Guarantee Answer World)

/-- Every call keeps to the guarantee, a returned value meets `Q` and an
exception meets `R`. -/
def Pre (Q : α → World → Prop) (R : ε → World → Prop) :
    Procedure Call Answer ε α → World → Prop
  | .ret a, w => Q a w
  | .raise e, w => R e w
  | .call c next, w => ∀ i, G w c (answer c i w).1 (answer c i w).2 ∧
      (next (answer c i w).1).Pre Q R (answer c i w).2

variable {answer G} {Q Q' : α → World → Prop} {R R' : ε → World → Prop} {w : World}

@[simp] theorem pre_ret {a : α} : Pre answer G Q R (ret a : Procedure Call Answer ε α) w ↔ Q a w :=
  Iff.rfl

@[simp] theorem pre_pure {a : α} :
    Pre answer G Q R (pure a : Procedure Call Answer ε α) w ↔ Q a w :=
  Iff.rfl

@[simp] theorem pre_raise {e : ε} :
    Pre answer G Q R (raise e : Procedure Call Answer ε α) w ↔ R e w :=
  Iff.rfl

@[simp] theorem pre_perform {c : Call} {Q : Answer c → World → Prop} :
    Pre answer G Q R (perform c) w ↔
      ∀ i, G w c (answer c i w).1 (answer c i w).2 ∧ Q (answer c i w).1 (answer c i w).2 :=
  Iff.rfl

@[simp] theorem pre_bind {p : Procedure Call Answer ε α} {f : α → Procedure Call Answer ε β}
    {Q : β → World → Prop} :
    Pre answer G Q R (p >>= f) w ↔ Pre answer G (fun a => Pre answer G Q R (f a)) R p w := by
  change Pre answer G Q R (p.bind f) w ↔ _
  induction p generalizing w with
  | ret a => exact Iff.rfl
  | raise e => exact Iff.rfl
  | call c next ih => exact forall_congr' fun i => and_congr_right' (ih _)

@[simp] theorem pre_handle {p : Procedure Call Answer ε α} {f : ε → Procedure Call Answer ε α} :
    Pre answer G Q R (p.handle f) w ↔ Pre answer G Q (fun e => Pre answer G Q R (f e)) p w := by
  induction p generalizing w with
  | ret a => exact Iff.rfl
  | raise e => exact Iff.rfl
  | call c next ih => exact forall_congr' fun i => and_congr_right' (ih _)

theorem pre_ofExcept {x : Except ε α} : Pre answer G Q R (ofExcept x) w ↔
    (∀ a, x = .ok a → Q a w) ∧ ∀ e, x = .error e → R e w := by
  cases x with
  | ok a =>
      refine ⟨fun h => ⟨?_, ?_⟩, fun h => h.1 a rfl⟩
      · rintro b ⟨rfl⟩
        exact h
      · intro e he
        cases he
  | error e =>
      refine ⟨fun h => ⟨?_, ?_⟩, fun h => h.2 e rfl⟩
      · intro a ha
        cases ha
      · rintro b ⟨rfl⟩
        exact h

theorem Pre.mono {p : Procedure Call Answer ε α} (h : Pre answer G Q R p w)
    (hQ : ∀ a w, Q a w → Q' a w) (hR : ∀ e w, R e w → R' e w) : Pre answer G Q' R' p w := by
  induction p generalizing w with
  | ret a => exact hQ a w h
  | raise e => exact hR e w h
  | call c next ih => exact fun i => ⟨(h i).1, ih _ (h i).2⟩

/-- A loop keeps an invariant over the items that it has passed. -/
theorem pre_each {f : σ → ι → Procedure Call Answer ε σ} {I : List ι → σ → World → Prop}
    {passed l : List ι} {s : σ}
    (hstep : ∀ before x rest, passed ++ l = before ++ x :: rest → ∀ s w, I before s w →
      Pre answer G (I (before ++ [x])) R (f s x) w)
    (h : I passed s w) : Pre answer G (I (passed ++ l)) R (each f s l) w := by
  induction l generalizing passed s w with
  | nil =>
      rw [List.append_nil]
      exact h
  | cons x l ih =>
      refine pre_bind.mpr ((hstep passed x l rfl s w h).mono (fun s' w' h' => ?_) fun _ _ he => he)
      have hsplit : passed ++ x :: l = (passed ++ [x]) ++ l := by
        rw [List.append_assoc, List.singleton_append]
      rw [hsplit] at hstep ⊢
      exact ih hstep h'

theorem pre_loop {f : σ → ι → Procedure Call Answer ε σ} {I : List ι → σ → World → Prop}
    {l : List ι} {s : σ}
    (hstep : ∀ before x rest, l = before ++ x :: rest → ∀ s w, I before s w →
      Pre answer G (I (before ++ [x])) R (f s x) w)
    (h : I [] s w) : Pre answer G (I l) R (each f s l) w :=
  pre_each hstep h

/-! ### Soundness -/

/-- What is left of a procedure keeps its precondition. -/
theorem Pre.after {p : Procedure Call Answer ε α} (h : Pre answer G Q R p w) (is : List Chance) :
    Pre answer G Q R (p.after answer is w).1 (p.after answer is w).2 := by
  induction is generalizing p w with
  | nil => rwa [after_nil]
  | cons i is ih =>
      match p with
      | .ret a => exact h
      | .raise e => exact h
      | .call c next => exact ih (h i).2

/-- An invariant that the guarantee establishes holds wherever the procedure is stopped. -/
theorem Pre.invariant {p : Procedure Call Answer ε α} {I : World → Prop}
    (h : Pre answer G Q R p w) (hw : I w) (hG : ∀ w c a w', G w c a w' → I w')
    (is : List Chance) : I (p.after answer is w).2 := by
  induction is generalizing p w with
  | nil => rwa [after_nil]
  | cons i is ih =>
      match p with
      | .ret a => exact hw
      | .raise e => exact hw
      | .call c next => exact ih (h i).2 (hG _ _ _ _ (h i).1)

/-- The next call of a stopped procedure keeps to the guarantee. -/
theorem Pre.next_call {p : Procedure Call Answer ε α} (h : Pre answer G Q R p w) {is : List Chance}
    {c : Call} {next : Answer c → Procedure Call Answer ε α} {w' : World}
    (hafter : p.after answer is w = (.call c next, w')) (i : Chance) :
    G w' c (answer c i w').1 (answer c i w').2 := by
  have hrest := h.after is
  rw [hafter] at hrest
  exact (hrest i).1

theorem Pre.returned {p : Procedure Call Answer ε α} (h : Pre answer G Q R p w) {is : List Chance}
    {a : α} {w' : World} (hafter : p.after answer is w = (.ret a, w')) : Q a w' := by
  have hrest := h.after is
  rwa [hafter] at hrest

theorem Pre.raised {p : Procedure Call Answer ε α} (h : Pre answer G Q R p w) {is : List Chance}
    {e : ε} {w' : World} (hafter : p.after answer is w = (.raise e, w')) : R e w' := by
  have hrest := h.after is
  rwa [hafter] at hrest

/-! ### Sessions -/

variable (answer) in
/-- Procedures one after another, each as far as its chances go. -/
def session : List (Procedure Call Answer ε α × List Chance) → World → World
  | [], w => w
  | (p, is) :: rest, w => session rest (p.after answer is w).2

theorem session_append (ps qs : List (Procedure Call Answer ε α × List Chance)) (w : World) :
    session answer (ps ++ qs) w = session answer qs (session answer ps w) := by
  induction ps generalizing w with
  | nil => rfl
  | cons p ps ih => exact ih _

/-- The invariant of the procedures holds after every session of them. -/
theorem session_invariant {I : World → Prop} (hG : ∀ w c a w', G w c a w' → I w')
    {ps : List (Procedure Call Answer ε α × List Chance)}
    (hps : ∀ p ∈ ps, ∀ w, I w → ∃ Q R, Pre answer G Q R p.1 w) (hw : I w) :
    I (session answer ps w) := by
  induction ps generalizing w with
  | nil => exact hw
  | cons p ps ih =>
      obtain ⟨Q, R, hp⟩ := hps p List.mem_cons_self w hw
      exact ih (fun q hq => hps q (List.mem_cons_of_mem p hq)) (hp.invariant hw hG p.2)

/-! ### Assisted runs -/

variable (answer) (A : World → Call → Chance → Prop) (env : (c : Call) → World → Chance)

/-- What the environment takes for each call of a run to its end. -/
def transcript : Procedure Call Answer ε α → World → List Chance
  | .ret _, _ | .raise _, _ => []
  | .call c next, w =>
      env c w :: (next (answer c (env c w) w).1).transcript (answer c (env c w) w).2

/-- The environment keeps to what is assumed of it at each call of the run. -/
def Assisted : Procedure Call Answer ε α → World → Prop
  | .ret _, _ | .raise _, _ => True
  | .call c next, w =>
      A w c (env c w) ∧ (next (answer c (env c w) w).1).Assisted (answer c (env c w) w).2

/-- However the calls are answered under the assumption, nothing is raised and the value that
is returned meets `Q`. -/
def Succeeds (Q : α → World → Prop) : Procedure Call Answer ε α → World → Prop
  | .ret a, w => Q a w
  | .raise _, _ => False
  | .call c next, w =>
      ∀ i, A w c i → (next (answer c i w).1).Succeeds Q (answer c i w).2

instance Assisted.decidable [∀ w c i, Decidable (A w c i)] :
    (p : Procedure Call Answer ε α) → (w : World) → Decidable (p.Assisted answer A env w)
  | .ret _, _ | .raise _, _ => isTrue trivial
  | .call c next, w =>
      haveI := Assisted.decidable (next (answer c (env c w) w).1) (answer c (env c w) w).2
      inferInstanceAs (Decidable (_ ∧ _))

variable {answer A env}

theorem Assisted.mono {A' : World → Call → Chance → Prop} {p : Procedure Call Answer ε α}
    (h : p.Assisted answer A env w) (hA : ∀ w c, A w c (env c w) → A' w c (env c w)) :
    p.Assisted answer A' env w := by
  induction p generalizing w with
  | ret a => exact trivial
  | raise e => exact trivial
  | call c next ih => exact ⟨hA _ _ h.1, ih _ h.2⟩

@[simp] theorem succeeds_ret {a : α} :
    Succeeds answer A Q (ret a : Procedure Call Answer ε α) w ↔ Q a w :=
  Iff.rfl

@[simp] theorem succeeds_pure {a : α} :
    Succeeds answer A Q (pure a : Procedure Call Answer ε α) w ↔ Q a w :=
  Iff.rfl

@[simp] theorem succeeds_perform {c : Call} {Q : Answer c → World → Prop} :
    Succeeds answer A Q (perform c : Procedure Call Answer ε (Answer c)) w ↔
      ∀ i, A w c i → Q (answer c i w).1 (answer c i w).2 :=
  Iff.rfl

@[simp] theorem succeeds_bind {p : Procedure Call Answer ε α}
    {f : α → Procedure Call Answer ε β} {Q : β → World → Prop} :
    Succeeds answer A Q (p >>= f) w ↔
      Succeeds answer A (fun a => Succeeds answer A Q (f a)) p w := by
  change Succeeds answer A Q (p.bind f) w ↔ _
  induction p generalizing w with
  | ret a => exact Iff.rfl
  | raise e => exact Iff.rfl
  | call c next ih => exact forall_congr' fun i => imp_congr_right fun _ => ih _

theorem Succeeds.handle {p : Procedure Call Answer ε α} {f : ε → Procedure Call Answer ε α}
    (h : Succeeds answer A Q p w) : Succeeds answer A Q (p.handle f) w := by
  induction p generalizing w with
  | ret a => exact h
  | raise e => exact h.elim
  | call c next ih => exact fun i hi => ih _ (h i hi)

theorem succeeds_ofExcept {x : Except ε α} :
    Succeeds answer A Q (ofExcept x : Procedure Call Answer ε α) w ↔ ∃ a, x = .ok a ∧ Q a w := by
  cases x with
  | ok a =>
      constructor
      · intro h
        exact ⟨a, rfl, h⟩
      · rintro ⟨b, ⟨rfl⟩, h⟩
        exact h
  | error e =>
      constructor
      · intro h
        exact h.elim
      · rintro ⟨b, hb, -⟩
        cases hb

theorem Succeeds.mono {p : Procedure Call Answer ε α} (h : Succeeds answer A Q p w)
    (hQ : ∀ a w, Q a w → Q' a w) : Succeeds answer A Q' p w := by
  induction p generalizing w with
  | ret a => exact hQ a w h
  | raise e => exact h
  | call c next ih => exact fun i hi => ih _ (h i hi)

/-- What holds of every return holds of an assisted one. -/
theorem Succeeds.and {p : Procedure Call Answer ε α} (h : Succeeds answer A Q p w)
    (hpre : Pre answer G Q' R p w) : Succeeds answer A (fun a w => Q a w ∧ Q' a w) p w := by
  induction p generalizing w with
  | ret a => exact ⟨h, hpre⟩
  | raise e => exact h
  | call c next ih => exact fun i hi => ih _ (h i hi) (hpre i).2

/-- A loop succeeds when each of its turns does, from an invariant to the next. -/
theorem succeeds_each {f : σ → ι → Procedure Call Answer ε σ} {I : List ι → σ → World → Prop}
    {passed l : List ι} {s : σ}
    (hstep : ∀ before x rest, passed ++ l = before ++ x :: rest → ∀ s w, I before s w →
      Succeeds answer A (I (before ++ [x])) (f s x) w)
    (h : I passed s w) : Succeeds answer A (I (passed ++ l)) (each f s l) w := by
  induction l generalizing passed s w with
  | nil =>
      rw [List.append_nil]
      exact h
  | cons x l ih =>
      refine succeeds_bind.mpr ((hstep passed x l rfl s w h).mono fun s' w' h' => ?_)
      have hsplit : passed ++ x :: l = (passed ++ [x]) ++ l := by
        rw [List.append_assoc, List.singleton_append]
      rw [hsplit] at hstep ⊢
      exact ih hstep h'

theorem succeeds_loop {f : σ → ι → Procedure Call Answer ε σ} {I : List ι → σ → World → Prop}
    {l : List ι} {s : σ}
    (hstep : ∀ before x rest, l = before ++ x :: rest → ∀ s w, I before s w →
      Succeeds answer A (I (before ++ [x])) (f s x) w)
    (h : I [] s w) : Succeeds answer A (I l) (each f s l) w :=
  succeeds_each hstep h

/-- An assisted run returns. -/
theorem Succeeds.returns {p : Procedure Call Answer ε α} (h : Succeeds answer A Q p w)
    (hassisted : p.Assisted answer A env w) :
    ∃ a w', p.after answer (p.transcript answer env w) w = (.ret a, w') ∧ Q a w' := by
  induction p generalizing w with
  | ret a => exact ⟨a, w, rfl, h⟩
  | raise e => exact h.elim
  | call c next ih => exact ih _ (h _ hassisted.1) hassisted.2

end Procedure

end SuperBoss.Library
