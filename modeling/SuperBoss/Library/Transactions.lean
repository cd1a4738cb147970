import SuperBoss.Library.Interleaving

/-!
Transactions over one database under strict two-phase locking. A transaction
reads committed rows, keeps its writes to itself and makes them visible in one
commit. Row locks are shared or exclusive; a statement waits until it can take
the locks it needs, and they are kept until the transaction ends.
-/

namespace SuperBoss.Library.Transactions

open SuperBoss.Library.Transition
open SuperBoss.Library.Interleaving

universe u v w x

inductive Mode
  | shared
  | exclusive
  deriving DecidableEq

structure Lock (Row : Type x) where
  row : Row
  mode : Mode
  deriving DecidableEq

namespace Lock

variable {Row : Type x}

def shared (r : Row) : Lock Row := ⟨r, .shared⟩

def exclusive (r : Row) : Lock Row := ⟨r, .exclusive⟩

/-- Two locks of one row go together only when both are shared. -/
def Conflicts (l m : Lock Row) : Prop :=
  l.row = m.row ∧ (l.mode = .exclusive ∨ m.mode = .exclusive)

instance [DecidableEq Row] (l m : Lock Row) : Decidable (l.Conflicts m) :=
  inferInstanceAs (Decidable (_ ∧ _))

theorem Conflicts.symm {l m : Lock Row} (h : l.Conflicts m) : m.Conflicts l :=
  ⟨h.1.symm, h.2.symm⟩

theorem exclusive_conflicts (r : Row) (m : Mode) : (exclusive r).Conflicts ⟨r, m⟩ :=
  ⟨rfl, .inl rfl⟩

end Lock

/-- What a statement means for its transaction. -/
inductive Effect (Db : Type u)
  | proceed
  | release
  | commit (db : Db)

/-- Statements over a database. An answer is what the environment contributes
to one statement: clock readings, random values, outcomes of commits. -/
structure Program (Db : Type u) (Pc : Type v) (Answer : Type w) (Row : Type x) where
  initial : Pc → Bool
  needs : Pc → List (Lock Row)
  step : Answer → Db → Pc → Option (Pc × Effect Db)
  abort : Pc → Pc

structure Client (Pc : Type v) (Row : Type x) where
  pc : Pc
  locks : List (Lock Row)

structure State (Db : Type u) (Pc : Type v) (Row : Type x) where
  db : Db
  clients : List (Client Pc Row)

inductive Event (Pc : Type v) (Answer : Type w)
  | start (pc : Pc)
  | act (i : Nat) (a : Answer)
  | abort (i : Nat)

variable {Db : Type u} {Pc : Type v} {Answer : Type w} {Row : Type x}

def State.init (db : Db) : State Db Pc Row := ⟨db, []⟩

namespace Effect

def db (e : Effect Db) (old : Db) : Db :=
  match e with
  | .commit new => new
  | .proceed | .release => old

def locks (e : Effect Db) (taken : List (Lock Row)) : List (Lock Row) :=
  match e with
  | .proceed => taken
  | .release | .commit _ => []

theorem mem_locks {e : Effect Db} {taken : List (Lock Row)} {l : Lock Row}
    (h : l ∈ e.locks taken) : l ∈ taken := by
  cases e with
  | proceed => exact h
  | release | commit db => cases h

end Effect

namespace Program

variable (P : Program Db Pc Answer Row)

/-- Nobody else holds a lock that stands against one that client `i` needs. -/
def Free (clients : List (Client Pc Row)) (i : Nat) (pc : Pc) : Prop :=
  ∀ c ∈ clients.eraseIdx i, ∀ l ∈ P.needs pc, ∀ m ∈ c.locks, ¬l.Conflicts m

instance [DecidableEq Row] (clients : List (Client Pc Row)) (i : Nat) (pc : Pc) :
    Decidable (P.Free clients i pc) :=
  inferInstanceAs (Decidable (∀ c ∈ clients.eraseIdx i, ∀ l ∈ P.needs pc, ∀ m ∈ c.locks, _))

def apply [DecidableEq Row] (s : State Db Pc Row) : Event Pc Answer → Option (State Db Pc Row)
  | .start pc => if P.initial pc then some ⟨s.db, s.clients ++ [⟨pc, []⟩]⟩ else none
  | .act i a =>
      match s.clients[i]? with
      | none => none
      | some c =>
          if P.Free s.clients i c.pc then
            (P.step a s.db c.pc).map fun r =>
              ⟨r.2.db s.db, s.clients.set i ⟨r.1, r.2.locks (c.locks ++ P.needs c.pc)⟩⟩
          else none
  | .abort i => s.clients[i]?.map fun c => ⟨s.db, s.clients.set i ⟨P.abort c.pc, []⟩⟩

/-- The steps that `apply` takes, one constructor for each kind of event. -/
inductive Step : State Db Pc Row → Event Pc Answer → State Db Pc Row → Prop
  | start {s : State Db Pc Row} {pc : Pc} (h : P.initial pc = true) :
      Step s (.start pc) ⟨s.db, s.clients ++ [⟨pc, []⟩]⟩
  | act {s : State Db Pc Row} {i : Nat} {a : Answer} {c : Client Pc Row} {pc : Pc}
      {e : Effect Db} (hget : s.clients[i]? = some c) (hfree : P.Free s.clients i c.pc)
      (hstep : P.step a s.db c.pc = some (pc, e)) :
      Step s (.act i a)
        ⟨e.db s.db, s.clients.set i ⟨pc, e.locks (c.locks ++ P.needs c.pc)⟩⟩
  | abort {s : State Db Pc Row} {i : Nat} {c : Client Pc Row} (hget : s.clients[i]? = some c) :
      Step s (.abort i) ⟨s.db, s.clients.set i ⟨P.abort c.pc, []⟩⟩

variable {P}

theorem step_of_apply [DecidableEq Row] {s t : State Db Pc Row} {e : Event Pc Answer} (h : P.apply s e = some t) :
    P.Step s e t := by
  cases e with
  | start pc =>
      simp only [apply] at h
      split at h
      · cases h
        exact .start ‹_›
      · cases h
  | act i a =>
      simp only [apply] at h
      split at h
      · cases h
      · rename_i c hget
        split at h
        · rename_i hfree
          obtain ⟨⟨pc, e⟩, hstep, rfl⟩ := Option.map_eq_some_iff.mp h
          exact .act hget hfree hstep
        · cases h
  | abort i =>
      obtain ⟨c, hget, rfl⟩ := Option.map_eq_some_iff.mp h
      exact .abort hget

/-- Locks of different clients never conflict. -/
def Compatible (clients : List (Client Pc Row)) : Prop :=
  ∀ (i j : Nat) c d, clients[i]? = some c → clients[j]? = some d → i ≠ j →
    ∀ l ∈ c.locks, ∀ m ∈ d.locks, ¬l.Conflicts m

theorem Free.not_conflicts {clients : List (Client Pc Row)} {i j : Nat} {pc : Pc}
    {d : Client Pc Row} (h : P.Free clients i pc) (hj : clients[j]? = some d) (hne : j ≠ i)
    {l m : Lock Row} (hl : l ∈ P.needs pc) (hm : m ∈ d.locks) : ¬l.Conflicts m :=
  h d (List.mem_eraseIdx_iff_getElem?.mpr ⟨j, hne, hj⟩) l hl m hm

/-- The locks a statement has afterwards go together with those of the others. -/
theorem Compatible.taken {clients : List (Client Pc Row)} (h : Compatible clients)
    {i j : Nat} {c d : Client Pc Row} (hi : clients[i]? = some c) (hj : clients[j]? = some d)
    (hne : j ≠ i) (hfree : P.Free clients i c.pc) {l m : Lock Row}
    (hl : l ∈ c.locks ++ P.needs c.pc) (hm : m ∈ d.locks) : ¬l.Conflicts m := by
  rcases List.mem_append.mp hl with hheld | hneeded
  · exact h i j c d hi hj hne.symm l hheld m hm
  · exact hfree.not_conflicts hj hne hneeded hm

theorem Compatible.step {s t : State Db Pc Row} {e : Event Pc Answer}
    (hs : Compatible s.clients) (h : P.Step s e t) : Compatible t.clients := by
  intro i j c d hc hd hij l hl m hm
  cases h with
  | start hinit =>
      rcases getElem?_append_cases hc with ⟨-, rfl⟩ | hc
      · cases hl
      · rcases getElem?_append_cases hd with ⟨-, rfl⟩ | hd
        · cases hm
        · exact hs i j c d hc hd hij l hl m hm
  | act hget hfree hstep =>
      rcases getElem?_set_cases hc with ⟨rfl, rfl⟩ | ⟨hi, hc'⟩
      · rcases getElem?_set_cases hd with ⟨rfl, rfl⟩ | ⟨hj, hd'⟩
        · exact absurd rfl hij
        · exact hs.taken hget hd' hj hfree (Effect.mem_locks hl) hm
      · rcases getElem?_set_cases hd with ⟨rfl, rfl⟩ | ⟨hj, hd'⟩
        · intro hconflict
          exact hs.taken hget hc' hi hfree (Effect.mem_locks hm) hl hconflict.symm
        · exact hs i j c d hc' hd' hij l hl m hm
  | abort hget =>
      rcases getElem?_set_cases hc with ⟨rfl, rfl⟩ | ⟨-, hc'⟩
      · cases hl
      · rcases getElem?_set_cases hd with ⟨rfl, rfl⟩ | ⟨-, hd'⟩
        · cases hm
        · exact hs i j c d hc' hd' hij l hl m hm

/-- A proof outline: an invariant of the database and an assertion about every
client, which may speak of its locks. A statement keeps the assertions of the
others, whose locks its own do not conflict with. -/
structure Outline (P : Program Db Pc Answer Row) (I : Db → Prop)
    (A : Client Pc Row → Db → Prop) : Prop where
  start : ∀ {pc db}, I db → P.initial pc = true → A ⟨pc, []⟩ db
  abort : ∀ {c db}, A c db → A ⟨P.abort c.pc, []⟩ db
  own : ∀ {a c db pc e}, I db → A c db → P.step a db c.pc = some (pc, e) →
    I (e.db db) ∧ A ⟨pc, e.locks (c.locks ++ P.needs c.pc)⟩ (e.db db)
  other : ∀ {a c d db pc e}, I db → A c db → A d db → P.step a db c.pc = some (pc, e) →
    (∀ l ∈ c.locks ++ P.needs c.pc, ∀ m ∈ d.locks, ¬l.Conflicts m) → A d (e.db db)

def Annotated (I : Db → Prop) (A : Client Pc Row → Db → Prop) (s : State Db Pc Row) : Prop :=
  I s.db ∧ ∀ (i : Nat) c, s.clients[i]? = some c → A c s.db

theorem Outline.step {I : Db → Prop} {A : Client Pc Row → Db → Prop} (O : Outline P I A)
    {s t : State Db Pc Row} {e : Event Pc Answer} (hcompat : Compatible s.clients)
    (hs : Annotated I A s) (h : P.Step s e t) : Annotated I A t := by
  obtain ⟨hI, hA⟩ := hs
  cases h with
  | start hinit =>
      refine ⟨hI, fun j d hd => ?_⟩
      rcases getElem?_append_cases hd with ⟨-, rfl⟩ | hd
      · exact O.start hI hinit
      · exact hA j d hd
  | act hget hfree hstep =>
      have hown := O.own hI (hA _ _ hget) hstep
      refine ⟨hown.1, fun j d hd => ?_⟩
      rcases getElem?_set_cases hd with ⟨rfl, rfl⟩ | ⟨hj, hd⟩
      · exact hown.2
      · exact O.other hI (hA _ _ hget) (hA j d hd) hstep fun l hl m hm =>
          hcompat.taken hget hd hj hfree hl hm
  | abort hget =>
      refine ⟨hI, fun j d hd => ?_⟩
      rcases getElem?_set_cases hd with ⟨rfl, rfl⟩ | ⟨-, hd⟩
      · exact O.abort (hA _ _ hget)
      · exact hA j d hd

/-! ### Runs whose statements meet a condition -/

section restrict

variable (P) (G : Db → Pc → Prop) [∀ db pc, Decidable (G db pc)]

/-- The program that gets stuck where a statement does not meet the condition. -/
def restrict : Program Db Pc Answer Row :=
  { P with step := fun a db pc => if G db pc then P.step a db pc else none }

variable {P G}

theorem restrict_step {a : Answer} {db : Db} {pc : Pc} {r : Pc × Effect Db} :
    (P.restrict G).step a db pc = some r ↔ G db pc ∧ P.step a db pc = some r := by
  show (if G db pc then P.step a db pc else none) = some r ↔ _
  split
  · rename_i h
    rw [and_iff_right h]
  · rename_i h
    refine ⟨fun hnone => ?_, fun hstep => absurd hstep.1 h⟩
    cases hnone

end restrict

variable [DecidableEq Row]

variable (P) in
/-- Every statement of the run meets a condition on the database and its request. -/
def Observes (G : Db → Pc → Prop) (s₀ : State Db Pc Row) (es : List (Event Pc Answer)) : Prop :=
  ∀ es₁ i a es₂ s c, es = es₁ ++ .act i a :: es₂ → run P.apply s₀ es₁ = some s →
    s.clients[i]? = some c → G s.db c.pc

theorem Observes.init {G : Db → Pc → Prop} {s₀ : State Db Pc Row} {es : List (Event Pc Answer)}
    {e : Event Pc Answer} (h : P.Observes G s₀ (es ++ [e])) : P.Observes G s₀ es := by
  intro es₁ i a es₂ s c heq
  refine h es₁ i a (es₂ ++ [e]) s c ?_
  rw [heq]
  simp

theorem run_restrict {G : Db → Pc → Prop} [∀ db pc, Decidable (G db pc)] {s₀ s : State Db Pc Row}
    {es : List (Event Pc Answer)} (h : run P.apply s₀ es = some s)
    (hes : P.Observes G s₀ es) : run (P.restrict G).apply s₀ es = some s := by
  refine run_induction (I := fun es s => P.Observes G s₀ es →
    run (P.restrict G).apply s₀ es = some s) (fun _ => rfl) ?_ h hes
  intro es u e t hu ih hstep hes
  refine run_concat_of (ih hes.init) ?_
  cases e with
  | start pc => exact hstep
  | abort i => exact hstep
  | act i a =>
      simp only [apply] at hstep ⊢
      split at hstep
      · cases hstep
      · rename_i c hc
        have hG : G u.db c.pc := hes es i a [] u c rfl hu hc
        split at hstep
        · rename_i hfree
          have hfree' : (P.restrict G).Free u.clients i c.pc := hfree
          rw [if_pos hfree']
          simp only [restrict, if_pos hG]
          exact hstep
        · cases hstep

theorem apply_of_restrict {G : Db → Pc → Prop} [∀ db pc, Decidable (G db pc)]
    {s t : State Db Pc Row} {e : Event Pc Answer} (h : (P.restrict G).apply s e = some t) :
    P.apply s e = some t ∧
      ∀ i a c, e = .act i a → s.clients[i]? = some c → G s.db c.pc := by
  cases e with
  | start pc => exact ⟨h, fun i a c heq => by cases heq⟩
  | abort i => exact ⟨h, fun i a c heq => by cases heq⟩
  | act i a =>
      simp only [apply] at h ⊢
      split at h
      · cases h
      · rename_i c hc
        split at h
        · rename_i hfree
          have hfree' : P.Free s.clients i c.pc := hfree
          obtain ⟨r, hr, rfl⟩ := Option.map_eq_some_iff.mp h
          obtain ⟨hG, hstep⟩ := restrict_step.mp hr
          rw [if_pos hfree', hstep]
          refine ⟨rfl, fun j b d heq hd => ?_⟩
          cases heq
          obtain rfl := Option.some.inj (hc.symm.trans hd)
          exact hG
        · cases h

theorem run_of_restrict {G : Db → Pc → Prop} [∀ db pc, Decidable (G db pc)] {s₀ s : State Db Pc Row}
    {es : List (Event Pc Answer)} (h : run (P.restrict G).apply s₀ es = some s) :
    run P.apply s₀ es = some s :=
  run_induction (I := fun es s => run P.apply s₀ es = some s) rfl
    (fun _ _ _ _ _ ih hstep => run_concat_of ih (apply_of_restrict hstep).1) h

/-- A run that the condition never stops meets it. -/
theorem observes_of_restrict {G : Db → Pc → Prop} [∀ db pc, Decidable (G db pc)]
    {s₀ s : State Db Pc Row} {es : List (Event Pc Answer)}
    (h : run (P.restrict G).apply s₀ es = some s) : P.Observes G s₀ es := by
  intro es₁ i a es₂ u c heq hu hc
  rw [heq, run_append] at h
  obtain ⟨v, hv, h⟩ := Option.bind_eq_some_iff.mp h
  obtain rfl := Option.some.inj (hu.symm.trans (run_of_restrict hv))
  rw [run_cons] at h
  obtain ⟨t, ht, -⟩ := Option.bind_eq_some_iff.mp h
  exact (apply_of_restrict ht).2 i a c rfl hc

theorem compatible_of_reachable {db : Db} {s : State Db Pc Row}
    (h : Reachable P.apply (State.init db) s) : Compatible s.clients := by
  refine h.preserves (I := fun s => Compatible s.clients)
    (fun s e t hs hstep => hs.step (step_of_apply hstep)) ?_
  intro i j c d hc
  cases hc

/-- Every reachable state satisfies a proof outline that the initial database satisfies. -/
theorem Outline.reachable {I : Db → Prop} {A : Client Pc Row → Db → Prop} (O : Outline P I A)
    {db : Db} {s : State Db Pc Row} (h : Reachable P.apply (State.init db) s) (hdb : I db) :
    Annotated I A s := by
  refine h.induction ⟨hdb, by intro i c hc; cases hc⟩ ?_
  intro u e v hu hinv hstep
  exact O.step (compatible_of_reachable hu) hinv (step_of_apply hstep)

/-- A proof outline may use a condition that every statement of the run meets. -/
theorem Outline.of_run {G : Db → Pc → Prop} [∀ db pc, Decidable (G db pc)] {I : Db → Prop}
    {A : Client Pc Row → Db → Prop} (O : Outline (P.restrict G) I A) {db : Db}
    {s : State Db Pc Row} {es : List (Event Pc Answer)}
    (h : run P.apply (State.init db) es = some s) (hes : P.Observes G (State.init db) es)
    (hdb : I db) : Annotated I A s :=
  O.reachable ⟨es, run_restrict h hes⟩ hdb

end Program

end SuperBoss.Library.Transactions
