import SuperBoss.Library.Transactions

/-!
Programs put together: a program over one part of a larger database, and two
programs over one database.
-/

namespace SuperBoss.Library.Transactions

universe u u' v v' w w' x x'

variable {Db : Type u} {Big : Type u'} {Pc : Type v} {Pc' : Type v'} {Answer : Type w}
  {Answer' : Type w'} {Row : Type x} {Row' : Type x'}

namespace Effect

def map (f : Db → Big) : Effect Db → Effect Big
  | .proceed => .proceed
  | .release => .release
  | .commit db => .commit (f db)

@[simp] theorem locks_map (f : Db → Big) (e : Effect Db) (taken : List (Lock Row)) :
    (e.map f).locks taken = e.locks taken := by
  cases e <;> rfl

end Effect

def Lock.map (f : Row → Row') (l : Lock Row) : Lock Row' := ⟨f l.row, l.mode⟩

namespace Program

/-- A program that knows only a part of the database. -/
def within (P : Program Db Pc Answer Row) (get : Big → Db) (put : Big → Db → Big)
    (row : Row → Row') : Program Big Pc Answer Row' where
  initial := P.initial
  needs pc := (P.needs pc).map (Lock.map row)
  step a big pc := (P.step a (get big) pc).map fun r => (r.1, r.2.map (put big))
  abort := P.abort

/-- Clients of two programs. -/
def sum (P : Program Db Pc Answer Row) (Q : Program Db Pc' Answer' Row) :
    Program Db (Pc ⊕ Pc') (Answer ⊕ Answer') Row where
  initial := Sum.elim P.initial Q.initial
  needs := Sum.elim P.needs Q.needs
  step
    | .inl a, db, .inl pc => (P.step a db pc).map fun r => (.inl r.1, r.2)
    | .inr a, db, .inr pc => (Q.step a db pc).map fun r => (.inr r.1, r.2)
    | _, _, _ => none
  abort := Sum.map P.abort Q.abort

variable {P : Program Db Pc Answer Row} {Q : Program Db Pc' Answer' Row}

theorem within_step {get : Big → Db} {put : Big → Db → Big} {row : Row → Row'} {a : Answer}
    {big : Big} {pc pc' : Pc} {e' : Effect Big}
    (h : (P.within get put row).step a big pc = some (pc', e')) :
    ∃ e, P.step a (get big) pc = some (pc', e) ∧ e' = e.map (put big) := by
  obtain ⟨⟨pc₁, e⟩, hstep, heq⟩ := Option.map_eq_some_iff.mp h
  cases heq
  exact ⟨e, hstep, rfl⟩

/-- A step of either program. -/
theorem sum_step {a : Answer ⊕ Answer'} {db : Db} {pc pc' : Pc ⊕ Pc'} {e : Effect Db}
    (h : (P.sum Q).step a db pc = some (pc', e)) :
    (∃ b p p', a = .inl b ∧ pc = .inl p ∧ pc' = .inl p' ∧ P.step b db p = some (p', e)) ∨
      ∃ b q q', a = .inr b ∧ pc = .inr q ∧ pc' = .inr q' ∧ Q.step b db q = some (q', e) := by
  cases a with
  | inl b =>
      cases pc with
      | inl p =>
          obtain ⟨⟨p', e'⟩, hstep, heq⟩ := Option.map_eq_some_iff.mp h
          cases heq
          exact .inl ⟨b, p, p', rfl, rfl, rfl, hstep⟩
      | inr q => cases h
  | inr b =>
      cases pc with
      | inl p => cases h
      | inr q =>
          obtain ⟨⟨q', e'⟩, hstep, heq⟩ := Option.map_eq_some_iff.mp h
          cases heq
          exact .inr ⟨b, q, q', rfl, rfl, rfl, hstep⟩

end Program

end SuperBoss.Library.Transactions
