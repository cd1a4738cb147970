import Mathlib.Tactic.Common

/-!
Programs over a state that survives them, a disk: an operation may fail, and the
process may stop before or after it. A handler sees what was raised, but nothing
runs after a stop.
-/

namespace SuperBoss.Library.Faults

universe u v w x

/-- How an operation goes. -/
inductive OpFate
  | done
  | failed
  | stopped (applied : Bool)
  deriving DecidableEq

/-- Whether an operation has had its effect. -/
def OpFate.applied : OpFate → Bool
  | .done => true
  | .failed => false
  | .stopped applied => applied

inductive Exit (ε : Type v) (α : Type w)
  | returned (a : α)
  | raised (e : ε)
  | stopped
  deriving DecidableEq

/-- A program that leaves the state it has reached. -/
def Fallible (σ : Type u) (ε : Type v) (α : Type w) := σ → Exit ε α × σ

namespace Fallible

variable {σ : Type u} {ε : Type v} {α : Type w} {β : Type x}

def pure (a : α) : Fallible σ ε α := fun s => (.returned a, s)

def raise (e : ε) : Fallible σ ε α := fun s => (.raised e, s)

def bind (p : Fallible σ ε α) (f : α → Fallible σ ε β) : Fallible σ ε β := fun s =>
  match p s with
  | (.returned a, t) => f a t
  | (.raised e, t) => (.raised e, t)
  | (.stopped, t) => (.stopped, t)

/-- `try … except`. -/
def handle (p : Fallible σ ε α) (f : ε → Fallible σ ε α) : Fallible σ ε α := fun s =>
  match p s with
  | (.returned a, t) => (.returned a, t)
  | (.raised e, t) => f e t
  | (.stopped, t) => (.stopped, t)

def get : Fallible σ ε σ := fun s => (.returned s, s)

/-- An operation with an effect on the state. -/
def perform (fate : OpFate) (e : ε) (effect : σ → σ) : Fallible σ ε Unit := fun s =>
  match fate with
  | .done => (.returned (), effect s)
  | .failed => (.raised e, s)
  | .stopped applied => (.stopped, if applied then effect s else s)

def ofExcept : Except ε α → Fallible σ ε α
  | .ok a => pure a
  | .error e => raise e

instance : Monad (Fallible σ ε) where
  pure := pure
  bind := bind

variable {p : Fallible σ ε α} {f : α → Fallible σ ε β} {s t : σ}

theorem bind_of_returned {a : α} (h : p s = (.returned a, t)) : bind p f s = f a t := by
  simp only [bind, h]

theorem bind_of_raised {e : ε} (h : p s = (.raised e, t)) : bind p f s = (.raised e, t) := by
  simp only [bind, h]

theorem bind_of_stopped (h : p s = (.stopped, t)) : bind p f s = (.stopped, t) := by
  simp only [bind, h]

/-! ### Operations in a row -/

structure Op (σ : Type u) where
  fate : OpFate
  effect : σ → σ

/-- Operations one after the other, until one of them is not done. -/
def script (e : ε) : List (Op σ) → Fallible σ ε Unit
  | [] => pure ()
  | op :: rest => bind (perform op.fate e op.effect) fun _ => script e rest

/-- The way out that the first operation that is not done decides. -/
def exitOf (e : ε) (fates : List OpFate) : Exit ε Unit :=
  match fates.find? fun fate => decide (fate ≠ .done) with
  | none => .returned ()
  | some .failed => .raised e
  | some .done | some (.stopped _) => .stopped

variable {e : ε} {ops rest : List (Op σ)}

theorem perform_done (effect : σ → σ) : perform .done e effect s = (.returned (), effect s) := rfl

theorem script_exit : (script e ops s).1 = exitOf e (ops.map Op.fate) := by
  induction ops generalizing s with
  | nil => rfl
  | cons op rest ih =>
      obtain ⟨fate, effect⟩ := op
      cases fate with
      | done => exact ih
      | failed | stopped => rfl

/-- What every operation keeps, whether it is done or not, the script keeps. -/
theorem script_keeps {I : σ → Prop} (h : ∀ op ∈ ops, ∀ s, I s → I (op.effect s)) (hs : I s) :
    I (script e ops s).2 := by
  induction ops generalizing s with
  | nil => exact hs
  | cons op rest ih =>
      have hop : I (op.effect s) := h op List.mem_cons_self s hs
      have hrest : ∀ op ∈ rest, ∀ s, I s → I (op.effect s) := fun op' hop' =>
        h op' (List.mem_cons_of_mem op hop')
      obtain ⟨fate, effect⟩ := op
      cases fate with
      | done => exact ih hrest hop
      | failed => exact hs
      | stopped applied =>
          cases applied with
          | false => exact hs
          | true => exact hop

/-- A script goes on after operations that are all done. -/
theorem script_append_of_done (h : ∀ op ∈ ops, op.fate = .done) :
    script e (ops ++ rest) s = script e rest (script e ops s).2 := by
  induction ops generalizing s with
  | nil => rfl
  | cons op ops ih =>
      obtain ⟨fate, effect⟩ := op
      obtain rfl : fate = .done := h _ List.mem_cons_self
      exact ih fun op' hop' => h op' (List.mem_cons_of_mem _ hop')

/-- A script ends with the first operation that is not done. -/
theorem script_append_of_fault (h : ¬∀ op ∈ ops, op.fate = .done) :
    script e (ops ++ rest) s = script e ops s := by
  induction ops generalizing s with
  | nil => exact absurd (fun op hop => by cases hop) h
  | cons op ops ih =>
      obtain ⟨fate, effect⟩ := op
      cases fate with
      | done =>
          refine ih fun hall => h fun op' hop' => ?_
          rcases List.mem_cons.mp hop' with rfl | hop'
          · rfl
          · exact hall op' hop'
      | failed | stopped => rfl

end Fallible

end SuperBoss.Library.Faults
