import SuperBoss.Audit.Service

/-!
What an id returned by `record` stands for. A retry whose insert goes through
returns without a commit, so its row is gone with the session.
-/

namespace SuperBoss.Audit

open SuperBoss.Core
open SuperBoss.Library
open SuperBoss.Library.Transactions
open SuperBoss.Library.Transition
open SuperBoss.Imports (AuditLog)

variable (C : Context)

/-- The row is one of the event: it holds the event's columns, and metadata that
are the event's as the column stores them, or equal to them. -/
structure Records (row : AuditLog) (event : AuditEventInput) : Prop where
  columns : sameColumns row event = true
  eventKey : row.eventKey = event.eventKey
  metadata : row.metadata = C.jsonb event.payload ∨ same C row.metadata event.payload = true

instance (row : AuditLog) (event : AuditEventInput) : Decidable (Records C row event) :=
  decidable_of_iff (sameColumns row event = true ∧ row.eventKey = event.eventKey ∧
      (row.metadata = C.jsonb event.payload ∨ same C row.metadata event.payload = true))
    ⟨fun ⟨hcolumns, hkey, hmetadata⟩ => ⟨hcolumns, hkey, hmetadata⟩,
      fun h => ⟨h.columns, h.eventKey, h.metadata⟩⟩

/-- A row of the event with this id is committed. -/
def Recorded (db : Db) (event : AuditEventInput) (id : UUID) : Prop :=
  ∃ row, db.logs.get? id = some row ∧ Records C row event

/-- A retry whose insert goes through: its key is still free, and its project is
there by now. -/
def insertsLate (db : Db) (r : Request) : Bool :=
  match r.stage with
  | .insert true row => (db.insert? row).isSome
  | _ => false

/-- What a call of `record` knows about the log. -/
def StageOk (C : Context) (event : AuditEventInput) (db : Db) : Stage → Prop
  | .insert _ row => Records C row event
  | .commit (some row) id => row.id = id ∧ Records C row event
  | .commit none id | .done id => Recorded C db event id
  | _ => True

def Ok (c : Client Request Row) (db : Db) : Prop :=
  match c.pc.call with
  | .record event => StageOk C event db c.pc.stage
  | .createProject _ => True

section log

variable {C} {db db' : Db} {event : AuditEventInput}

theorem records_newRow (event : AuditEventInput) (id : UUID) :
    Records C (newRow C event id) event :=
  ⟨by simp [sameColumns, newRow], rfl, .inl rfl⟩

theorem byKey_spec {row : AuditLog}
    (h : event.eventKey.bind db.byKey = some row) :
    db.logs.get? row.id = some row ∧ row.eventKey = event.eventKey := by
  obtain ⟨key, hkey, hfind⟩ := Option.bind_eq_some_iff.mp h
  have hfound := List.find?_some hfind
  refine ⟨Table.get?_of_mem (List.mem_of_find?_eq_some hfind), ?_⟩
  rw [hkey]
  exact of_decide_eq_true hfound

theorem records_existing {row : AuditLog} (hkey : row.eventKey = event.eventKey)
    (h : sameEvent C row event = true) : Records C row event := by
  obtain ⟨hcolumns, hmetadata⟩ := Bool.and_eq_true_iff.mp h
  exact ⟨hcolumns, hkey, .inr hmetadata⟩

theorem logs_insert? {row : AuditLog} (h : db.insert? row = some db') :
    db.logs.insert? row = some db'.logs := by
  unfold Db.insert? at h
  split at h
  · obtain ⟨logs, hinsert, rfl⟩ := Option.map_eq_some_iff.mp h
    exact hinsert
  · cases h

/-! ### Steps -/

/-- The log after a step: the same, or one row more. -/
def Appends (c : Request) (db db' : Db) : Prop :=
  db'.logs = db.logs ∨ ∃ event row id, c = ⟨.record event, .commit (some row) id⟩ ∧
    db.logs.insert? row = some db'.logs

theorem Recorded.appends {c : Request} (h : Appends c db db') {id : UUID}
    (hid : Recorded C db event id) : Recorded C db' event id := by
  obtain ⟨row, hrow, hrecords⟩ := hid
  rcases h with hsame | ⟨_, _, _, -, hinsert⟩
  · exact ⟨row, by rw [hsame]; exact hrow, hrecords⟩
  · exact ⟨row, Table.get?_insert?_of_some hinsert hrow, hrecords⟩

theorem StageOk.appends {c : Request} {stage : Stage} (h : Appends c db db')
    (hok : StageOk C event db stage) : StageOk C event db' stage := by
  cases stage with
  | insert retry row => exact hok
  | commit row id =>
      cases row with
      | none => exact Recorded.appends h hok
      | some row => exact hok
  | done id => exact Recorded.appends h hok
  | start | select | commitProject | created | failed | aborted => trivial

theorem Ok.appends {c : Request} {d : Client Request Row} (h : Appends c db db')
    (hok : Ok C d db) : Ok C d db' := by
  obtain ⟨⟨call, stage⟩, locks⟩ := d
  cases call with
  | record event => exact StageOk.appends h hok
  | createProject project => trivial

/-- A statement that leaves the database as it is. -/
def Quiet (n : Next) : Prop := ∀ new, n.2 ≠ .commit new

theorem Quiet.raise {failure : RecordFailure} : Quiet (raise failure) := nofun

theorem Quiet.goto {stage : Stage} : Quiet (goto stage) := nofun

theorem Quiet.release {stage : Stage} : Quiet (stage, .release) := nofun

theorem Quiet.statement {fate : Files.Fate} {n : Next} (h : Quiet n) :
    Quiet (statement fate n) := by
  unfold Audit.statement
  split
  · exact h
  · exact .raise

theorem quiet_integrityError {retry : Bool} : Quiet (Request.integrityError retry event) := by
  unfold Request.integrityError
  split
  · exact .raise
  · exact .release

theorem quiet_persisted {retry : Bool} {row : Option AuditLog} {id : UUID} :
    Quiet (Request.persisted retry row id) := by
  unfold Request.persisted
  split
  · exact .release
  · exact .goto

theorem quiet_select {a : Answer} {retry : Bool} :
    Quiet (Request.selectStep C a db retry event) := by
  unfold Request.selectStep
  split
  · split
    · exact quiet_persisted
    · exact .raise
  · exact .goto

/-- What a step may commit. -/
theorem commit_cases {a : Answer} {r : Request} {stage : Stage} {new : Db}
    (h : r.step C a db = some (stage, .commit new)) :
    (∃ event row id, r = ⟨.record event, .commit (some row) id⟩ ∧ db.insert? row = some new) ∨
      ∃ project, r.call = .createProject project ∧ new.logs = db.logs := by
  have hquiet : ∀ n, Quiet n → some n ≠ some (stage, .commit new) := fun n hn heq =>
    hn new (congrArg Prod.snd (Option.some.inj heq))
  obtain ⟨call, stage₀⟩ := r
  cases call with
  | createProject project =>
      refine .inr ⟨project, rfl, ?_⟩
      cases stage₀ with
      | commitProject project =>
          simp only [Request.step, Option.some.injEq] at h
          split at h <;> cases h <;> rfl
      | commit row id => cases row <;> cases h
      | start | select | insert | created | done | failed | aborted => cases h
  | record event =>
      left
      cases stage₀ with
      | start =>
          refine absurd h (hquiet _ ?_)
          split <;> exact .goto
      | select retry => exact absurd h (hquiet _ quiet_select.statement)
      | insert retry row =>
          refine absurd h (hquiet _ (.statement ?_))
          split
          · exact quiet_integrityError
          · exact quiet_persisted
      | commit row id =>
          cases row with
          | none =>
              refine absurd h (hquiet _ ?_)
              split
              · exact .release
              · exact .raise
          | some row =>
              refine ⟨event, row, id, rfl, ?_⟩
              simp only [Request.step, Option.some.injEq] at h
              split at h
              · cases h
                assumption
              · cases h
                assumption
              · exact absurd (congrArg some h) (hquiet _ quiet_integrityError)
              · cases h
      | commitProject project => cases h
      | created | done | failed | aborted => cases h

/-- The log only grows, by the row that a commit of `record` inserts. -/
theorem appends_step {a : Answer} {r : Request} {stage : Stage} {e : Effect Db}
    (h : r.step C a db = some (stage, e)) : Appends r db (e.db db) := by
  cases e with
  | proceed | release => exact .inl rfl
  | commit new =>
      rcases commit_cases h with ⟨event, row, id, hr, hinsert⟩ | ⟨project, -, hlogs⟩
      · exact .inr ⟨event, row, id, hr, logs_insert? hinsert⟩
      · exact .inl hlogs

/-! ### What a call of `record` establishes -/

theorem stageOk_statement {fate : Files.Fate} {n : Next} (h : StageOk C event db n.1) :
    StageOk C event db (statement fate n).1 := by
  unfold statement
  split
  · exact h
  · trivial

theorem stageOk_integrityError {retry : Bool} :
    StageOk C event db (Request.integrityError retry event).1 := by
  unfold Request.integrityError
  split <;> trivial

/-- The end of `persist` with a row that is there. -/
theorem stageOk_existing {retry : Bool} {id : UUID} (h : Recorded C db event id) :
    StageOk C event db (Request.persisted retry none id).1 := by
  unfold Request.persisted
  split
  · exact h
  · exact h

theorem stageOk_select {a : Answer} {retry : Bool} :
    StageOk C event db (Request.selectStep C a db retry event).1 := by
  unfold Request.selectStep
  split
  · rename_i existing hfound
    obtain ⟨hrow, hkey⟩ := byKey_spec hfound
    split
    · rename_i hsame
      exact stageOk_existing ⟨existing, hrow, records_existing hkey hsame⟩
    · trivial
  · exact records_newRow event a.id

/-- A statement of `record`, unless it is a retry that inserts. -/
theorem ok_step {a : Answer} {r : Request} {stage : Stage} {e : Effect Db}
    (hok : StageOk C event db r.stage) (hcall : r.call = .record event)
    (hclear : insertsLate db r = false) (h : r.step C a db = some (stage, e)) :
    StageOk C event (e.db db) stage := by
  have hquiet : ∀ n, Quiet n → StageOk C event db n.1 → some n = some (stage, e) →
      StageOk C event (e.db db) stage := by
    intro n hne hnext heq
    cases heq
    cases e with
    | proceed | release => exact hnext
    | commit new => exact absurd rfl (hne new)
  obtain ⟨call, stage₀⟩ := r
  subst hcall
  cases stage₀ with
  | start =>
      by_cases hkey : event.eventKey = none
      · refine hquiet (goto (.insert false (newRow C event a.id))) .goto (records_newRow event a.id) ?_
        rw [← h]
        exact congrArg some (if_pos hkey).symm
      · refine hquiet (goto (.select false)) .goto trivial ?_
        rw [← h]
        exact congrArg some (if_neg hkey).symm
  | select retry => exact hquiet _ quiet_select.statement (stageOk_statement stageOk_select) h
  | insert retry row =>
      have hrecords : Records C row event := hok
      cases hinsert : db.insert? row with
      | none =>
          refine hquiet (statement a.fate (Request.integrityError retry event))
            quiet_integrityError.statement (stageOk_statement stageOk_integrityError) ?_
          rw [← h]
          simp only [Request.step, hinsert]
      | some new =>
          cases retry with
          | true =>
              simp only [insertsLate, hinsert] at hclear
              cases hclear
          | false =>
              refine hquiet (statement a.fate (goto (.commit (some row) row.id))) Quiet.goto.statement
                (stageOk_statement ⟨rfl, hrecords⟩) ?_
              rw [← h]
              simp only [Request.step, hinsert]
              rfl
  | commit row id =>
      cases row with
      | none =>
          have hrecorded : Recorded C db event id := hok
          simp only [Request.step, Option.some.injEq] at h
          split at h
          · cases h
            exact hrecorded
          · cases h
            trivial
      | some row =>
          obtain ⟨rfl, hrecords⟩ := hok
          simp only [Request.step, Option.some.injEq] at h
          split at h
          · rename_i db' hinsert _
            cases h
            refine ⟨row, ?_, hrecords⟩
            show db'.logs.get? row.id = some row
            rw [Table.get?_insert? (logs_insert? hinsert), if_pos rfl]
          · cases h
            trivial
          · exact hquiet _ quiet_integrityError stageOk_integrityError (congrArg some h)
          · cases h
            trivial
  | commitProject project => cases h
  | created | done | failed | aborted => cases h

theorem program_step {a : Answer} {r r' : Request} {e : Effect Db}
    (h : (program C).step a db r = some (r', e)) :
    r' = { r with stage := r'.stage } ∧ r.step C a db = some (r'.stage, e) := by
  obtain ⟨n, hn, heq⟩ := Option.map_eq_some_iff.mp h
  cases heq
  exact ⟨rfl, hn⟩

theorem outline : Program.Outline ((program C).restrict fun db r => insertsLate db r = false)
    (fun _ => True) (Ok C) where
  start hI hinit := by
    rename_i r db
    obtain ⟨call, stage⟩ := r
    obtain rfl : stage = .start := of_decide_eq_true hinit
    cases call <;> trivial
  abort hok := by
    rename_i c db
    obtain ⟨⟨call, stage⟩, locks⟩ := c
    cases call with
    | createProject project => cases stage <;> trivial
    | record event =>
        cases stage with
        | done id => exact hok
        | start | select | insert | commit | commitProject | created | failed | aborted => trivial
  own hI hok hstep := by
    rename_i a c db r e
    obtain ⟨hclear, hstep⟩ := Program.restrict_step.mp hstep
    obtain ⟨hr, hstep⟩ := program_step hstep
    rw [hr]
    refine ⟨trivial, ?_⟩
    obtain ⟨⟨call, stage⟩, held⟩ := c
    cases call with
    | record event => exact ok_step hok rfl hclear hstep
    | createProject project => trivial
  other hI hown hok hstep hfree := by
    rename_i a c d db r e
    obtain ⟨-, hstep⟩ := Program.restrict_step.mp hstep
    exact hok.appends (appends_step (program_step hstep).2)

/-! ### Every run -/

/-- The log of a run from `db`, and what the calls that returned stand for. -/
structure Durable (C : Context) (db : Db) (s : AuditState) : Prop where
  /-- An id that was returned is the id of a committed row of its event. -/
  recorded : ∀ (i : Nat) c event id, s.clients[i]? = some c → c.pc = ⟨.record event, .done id⟩ →
    Recorded C s.db event id
  single : ∀ x ∈ s.db.logs.rows, ∀ y ∈ s.db.logs.rows, x.eventKey ≠ none →
    x.eventKey = y.eventKey → x = y
  appendOnly : db.logs.rows <+: s.db.logs.rows
  /-- While its key stands for another event, a call returns no id and writes nothing. -/
  conflict : ∀ (i : Nat) c event row, s.clients[i]? = some c → c.pc.call = .record event →
    row ∈ s.db.logs.rows → event.eventKey ≠ none → row.eventKey = event.eventKey →
    ¬Records C row event →
    (∀ id, c.pc.stage ≠ .done id) ∧ ∀ a t, next C s (.act i a) = some t → t.db = s.db

theorem eq_of_eventKey {logs : Imports.AuditTable} {x y : AuditLog} (hx : x ∈ logs.rows)
    (hy : y ∈ logs.rows) (hkey : x.eventKey ≠ none) (h : x.eventKey = y.eventKey) : x = y := by
  refine Table.eq_of_not_distinct hx hy ?_ ?_
  · rintro (hnone | hne)
    · exact hkey hnone
    · exact hne h
  · rintro (hnone | hne)
    · exact hkey (h.trans hnone)
    · exact hne h.symm

/-- No row of an event goes in next to another one under its key. -/
theorem insert?_of_taken {x row : AuditLog} (hx : x ∈ db.logs.rows) (hkey : x.eventKey ≠ none)
    (h : x.eventKey = row.eventKey) : db.insert? row = none := by
  cases hinsert : db.insert? row with
  | none => rfl
  | some new =>
      have hdistinct := (Table.insert?_eq_some_iff.mp (logs_insert? hinsert)).2.1 x hx
      exact (hdistinct.elim hkey fun hne => hne h).elim

section runs

variable {es : List AuditCallEvent} {s t : AuditState}

theorem ok_of_run (h : run (next C) (State.init db) es = some s)
    (hclear : (program C).Observes (fun db r => insertsLate db r = false) (State.init db) es)
    {i : Nat} {c : Client Request Row} (hc : s.clients[i]? = some c) : Ok C c s.db :=
  (outline.of_run h hclear trivial).2 i c hc

theorem logs_prefix (h : run (next C) (State.init db) es = some s) :
    db.logs.rows <+: s.db.logs.rows := by
  refine run_induction (I := fun _ s => db.logs.rows <+: s.db.logs.rows) List.prefix_rfl ?_ h
  intro es s e t hs ih hstep
  refine ih.trans ?_
  cases Program.step_of_apply hstep with
  | start hinit => exact List.prefix_rfl
  | abort hget => exact List.prefix_rfl
  | act hget hfree hin =>
      rename_i i a c r e
      show s.db.logs.rows <+: (e.db s.db).logs.rows
      rcases appends_step (program_step hin).2 with hsame | ⟨_, _, _, -, hinsert⟩
      · rw [hsame]
      · rw [Table.rows_insert? hinsert]
        exact List.prefix_append _ _

/-- A call whose key stands for another event writes nothing. -/
theorem unchanged_of_conflict {a : Answer} {i : Nat} {c : Client Request Row} {row : AuditLog}
    (hc : s.clients[i]? = some c) (hok : Ok C c s.db) (hcall : c.pc.call = .record event)
    (hrow : row ∈ s.db.logs.rows) (hkey : event.eventKey ≠ none)
    (hsame : row.eventKey = event.eventKey) (h : next C s (.act i a) = some t) : t.db = s.db := by
  cases Program.step_of_apply h with
  | act hget hfree hin =>
      rename_i d r e
      obtain rfl := Option.some.inj (hc.symm.trans hget)
      show e.db s.db = s.db
      cases e with
      | proceed | release => rfl
      | commit new =>
          rcases commit_cases (program_step hin).2 with
            ⟨event', row', id, hpc, hinsert⟩ | ⟨project, hproject, -⟩
          · obtain ⟨⟨call, stage⟩, locks⟩ := c
            cases hpc
            cases hcall
            obtain ⟨rfl, hrecords⟩ := hok
            have htaken : s.db.insert? row' = none :=
              insert?_of_taken hrow (by rwa [hsame]) (hsame.trans hrecords.eventKey.symm)
            rw [htaken] at hinsert
            cases hinsert
          · cases hcall.symm.trans hproject

end runs

end log

/-- Where no retry inserts late, a returned id is durable. -/
theorem durable_of_clear (C : Context) {db : Db} {es : List AuditCallEvent} {s : AuditState}
    (h : run (next C) (State.init db) es = some s)
    (hclear : (program C).Observes (fun db r => insertsLate db r = false) (State.init db) es) :
    Durable C db s where
  recorded i c event id hc hpc := by
    have hok : Ok C c s.db := ok_of_run h hclear hc
    unfold Ok at hok
    rw [hpc] at hok
    exact hok
  single x hx y hy hkey hsame := eq_of_eventKey hx hy hkey hsame
  appendOnly := logs_prefix h
  conflict i c event row hc hcall hrow hkey hsame hother := by
    have hok : Ok C c s.db := ok_of_run h hclear hc
    refine ⟨fun id hdone => hother ?_, fun a t hstep =>
      unchanged_of_conflict hc hok hcall hrow hkey hsame hstep⟩
    unfold Ok at hok
    rw [hcall] at hok
    simp only [hdone] at hok
    obtain ⟨existing, hexisting, hrecords⟩ := hok
    have hone : row = existing := eq_of_eventKey hrow (Table.mem_of_get? hexisting)
      (by rwa [hsame]) (hsame.trans hrecords.eventKey.symm)
    rw [hone]
    exact hrecords

namespace Sample

/-- A `JSONB` column on values that it gives back as they are. -/
def context : Context := ⟨fun _ => 0, id⟩

def event : AuditEventInput where
  actor := ⟨.user, 1, some .owner, [], []⟩
  action := "project.read"
  objectType := "project"
  objectId := some 5
  projectId := some 5
  outcome := "SUCCESS"
  requestId := 2
  eventKey := some 9
  metadata := []

def project : Devices.Project := ⟨5, .active⟩

def db : Db := ⟨∅, (Table.insert? ∅ project).getD ∅⟩

def acts (i : Nat) (id : UUID) (n : Nat) : List AuditCallEvent :=
  List.replicate n (.act i ⟨.ok, id⟩)

/-- Two calls of one event. The second finds no row, and its insert fails on the
row that the first has committed. -/
def race : List AuditCallEvent :=
  .start ⟨.record event, .start⟩ :: .start ⟨.record event, .start⟩ ::
    acts 1 11 2 ++ acts 0 10 4 ++ acts 1 11 2

/-- The project of the event is created between the two inserts of a call. -/
def lateProject : List AuditCallEvent :=
  .start ⟨.record event, .start⟩ :: acts 0 10 3 ++
    .start ⟨.createProject project, .start⟩ :: acts 1 0 2 ++ acts 0 10 2

end Sample

/-- Both calls of the race return the id of the one row. -/
theorem durable_of_clear_race : ∃ s c d,
    run (next Sample.context) (State.init Sample.db) Sample.race = some s ∧
      s.clients[0]? = some c ∧ c.pc = ⟨.record Sample.event, .done 10⟩ ∧
      s.clients[1]? = some d ∧ d.pc = ⟨.record Sample.event, .done 10⟩ ∧
      Durable Sample.context Sample.db s := by
  have hrun : ((run ((program Sample.context).restrict
      fun db r => insertsLate db r = false).apply (State.init Sample.db) Sample.race).bind
      fun s => (s.clients[0]?).bind fun c => (s.clients[1]?).map fun d =>
        decide (c.pc = ⟨.record Sample.event, .done 10⟩ ∧
          d.pc = ⟨.record Sample.event, .done 10⟩)) = some true := by
    decide +kernel
  obtain ⟨s, hs, hrun⟩ := Option.bind_eq_some_iff.mp hrun
  obtain ⟨c, hc, hrun⟩ := Option.bind_eq_some_iff.mp hrun
  obtain ⟨d, hd, hdone⟩ := Option.map_eq_some_iff.mp hrun
  obtain ⟨hfirst, hsecond⟩ := of_decide_eq_true hdone
  exact ⟨s, c, d, Program.run_of_restrict hs, hc, hfirst, hd, hsecond,
    durable_of_clear _ (Program.run_of_restrict hs) (Program.observes_of_restrict hs)⟩

/-- A call whose project is created after its first insert returns the id of a
row that is not there. -/
theorem late_insert_lost : ∃ s c,
    run (next Sample.context) (State.init ⟨∅, ∅⟩) Sample.lateProject = some s ∧
      s.clients[0]? = some c ∧ c.pc = ⟨.record Sample.event, .done 10⟩ ∧
      s.db.logs.get? 10 = none ∧ ¬Durable Sample.context ⟨∅, ∅⟩ s := by
  have hrun : ((run (next Sample.context) (State.init ⟨∅, ∅⟩) Sample.lateProject).bind
      fun s => (s.clients[0]?).map fun c =>
        decide (c.pc = ⟨.record Sample.event, .done 10⟩ ∧ s.db.logs.get? 10 = none)) =
      some true := by
    decide +kernel
  obtain ⟨s, hs, hrun⟩ := Option.bind_eq_some_iff.mp hrun
  obtain ⟨c, hc, hdone⟩ := Option.map_eq_some_iff.mp hrun
  obtain ⟨hpc, hnone⟩ := of_decide_eq_true hdone
  refine ⟨s, c, hs, hc, hpc, hnone, fun h => ?_⟩
  obtain ⟨row, hrow, -⟩ := h.recorded 0 c Sample.event 10 hc hpc
  rw [hnone] at hrow
  cases hrow

end SuperBoss.Audit
