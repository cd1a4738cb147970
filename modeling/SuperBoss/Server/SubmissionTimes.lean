import SuperBoss.Server.Creations

/-!
The clocks of an import job: the database sets `created_at`, and each transition
takes its times from the clock of the host that runs it. Transitions wait between
the reading of that clock and their commit.
-/

namespace SuperBoss.Imports

open SuperBoss.Core

/-- The times of the row that a transition keeps are not after the reading. -/
def ImportJob.Past (j : ImportJob) (now : Instant) : Prop :=
  j.createdAt ≤ now ∧ ∀ t ∈ j.submittedAt, t ≤ now

instance (j : ImportJob) (now : Instant) : Decidable (j.Past now) :=
  inferInstanceAs (Decidable (_ ∧ ∀ t ∈ j.submittedAt, _))

theorem JobUpdate.timeOrder_apply_iff {u : JobUpdate} {j : ImportJob} (h : j.TimeOrder) :
    (u.apply j).TimeOrder ↔ j.Past u.now := by
  constructor
  · rintro ⟨hcreated, hsubmitted⟩
    refine ⟨hcreated, fun t ht => ?_⟩
    have hsame : (u.apply j).submittedAt = some t := by
      rw [apply_submittedAt, ht]
      rfl
    exact (hsubmitted t hsame).2
  · rintro ⟨hcreated, hsubmitted⟩
    refine ⟨hcreated, fun t ht => ?_⟩
    cases hj : j.submittedAt with
    | none =>
        rw [apply_submittedAt, hj] at ht
        cases ht
        exact ⟨hcreated, le_rfl⟩
    | some t' =>
        rw [apply_submittedAt, hj] at ht
        cases ht
        exact ⟨(h.2 t' hj).1, hsubmitted t' hj⟩

end SuperBoss.Imports

namespace SuperBoss.Server

open SuperBoss.Core
open SuperBoss.Library
open SuperBoss.Library.Interleaving
open SuperBoss.Library.Transition
open SuperBoss.Files
open SuperBoss.Imports
open SuperBoss.Infrastructure.Clamav

/-! ### Transitions between the reading of the clock and their commit -/

namespace ReconcilePc

def staged : ReconcilePc → List Transition
  | observe _ _ staged | commit _ staged => staged
  | _ => []

/-- The job whose transition the next statement stages. -/
def moves (s : Store) : ReconcilePc → Option ImportJob
  | observe _ (job :: _) _ =>
      if job.status ≠ .scanning then none
      else if (evaluateFiles job.baseSha256 (s.fileObservations job.id)).status = .scanning then none
      else some job
  | _ => none

end ReconcilePc

namespace SubmitPc

def staged : SubmitPc → List Transition
  | commit _ t => [t]
  | _ => []

def moves (s : Store) : SubmitPc → Option ImportJob
  | observe job =>
      let observations := s.fileObservations job.id
      if job.status = .uploading ∧ ∃ o ∈ observations, o.state = .uploading then none
      else if job.status = .scanning ∧ (evaluateFiles job.baseSha256 observations).status = .scanning
        then none
      else some job
  | _ => none

end SubmitPc

namespace Thread

variable {P : Platform}

def staged : Thread P → List Transition
  | scanFile _ (.running (.reconcile pc)) => pc.staged
  | submitImport _ (.running pc) => pc.staged
  | readImport _ (.running (.reconcile _ _ _ pc)) => pc.staged
  | _ => []

def moves (s : Store) : Thread P → Option ImportJob
  | scanFile _ (.running (.reconcile pc)) => pc.moves s
  | submitImport _ (.running pc) => pc.moves s
  | readImport _ (.running (.reconcile _ _ _ pc)) => pc.moves s
  | _ => none

end Thread

/-- What an action does to the staged transitions of its thread: it drops them, it
keeps them, or it adds one for the job it moves, at the reading of the clock. -/
inductive Stages (now : Instant) :
    Option ImportJob → List Transition → List Transition → Write → Prop
  | dropped {old : List Transition} {w : Write} : Stages now none old [] w
  | kept {old : List Transition} : Stages now none old old .nothing
  | added {job : ImportJob} {old : List Transition} {t : Transition} (hjob : t.jobId = job.id)
      (hnow : t.update.now = now) : Stages now (some job) old (old ++ [t]) .nothing

/-- The staged transitions of a request that goes on at a program counter. -/
def Progress.staged {Pc Result : Type} (f : Pc → List Transition) :
    Progress Pc Result → List Transition
  | running pc => f pc
  | _ => []

/-- What a statement that succeeds moves. -/
def moved (fate : Fate) (job : Option ImportJob) : Option ImportJob :=
  if fate = .ok then job else none

section staging

variable {P : Platform} {cfg : ScannerConfig} {a : Answer} {s : Store}

theorem moved_none (fate : Fate) : moved fate none = none := by
  unfold moved
  split <;> rfl

theorem Stages.none {now : Instant} {fate : Fate} {old : List Transition} {w : Write} :
    Stages now (moved fate none) old [] w := by
  rw [moved_none]
  exact .dropped

/-- A statement that only reads drops what is staged when it fails. -/
theorem Stages.read {Pc Result : Type} {f : Pc → List Transition} {job : Option ImportJob}
    {old : List Transition} {o : Outcome Pc Result}
    (h : Stages a.now job old (o.progress.staged f) o.write) :
    Stages a.now (moved a.fate job) old ((Outcome.read a.fate o).progress.staged f)
      (Outcome.read a.fate o).write := by
  unfold moved Outcome.read
  split
  · exact h
  · exact .dropped

theorem ReconcilePc.stages_step {fileId : UUID} {pc : ReconcilePc} {o : Outcome ReconcilePc Unit}
    (h : pc.step P fileId a s = some o) :
    Stages a.now (moved a.fate (pc.moves s)) pc.staged (o.progress.staged staged) o.write := by
  cases pc with
  | lookup =>
      cases h
      refine .read ?_
      dsimp only
      split <;> exact .dropped
  | lock jobIds =>
      cases h
      exact .read .dropped
  | observe locked todo old =>
      cases h
      cases todo with
      | nil =>
          rw [show (observe locked [] old).moves s = none from rfl, moved_none]
          exact .kept
      | cons job todo =>
          dsimp only [moves]
          split
          · rw [moved_none]
            exact .kept
          · refine .read ?_
            split
            · exact .kept
            · exact .added rfl rfl
  | commit locked old =>
      cases h
      rw [show (commit locked old).moves s = none from rfl, moved_none]
      rcases Outcome.commit_cases s a.fate (.transitions old) (.returned ()) with
        ⟨-, heq | heq⟩ | heq <;> rw [heq] <;> exact .dropped

theorem SubmitCall.stages_step {c : SubmitCall} {pc : SubmitPc}
    {o : Outcome SubmitPc ImportJobResult} (h : c.step P a s pc = some o) :
    Stages a.now (moved a.fate (pc.moves s)) pc.staged (o.progress.staged SubmitPc.staged)
      o.write := by
  cases pc with
  | preflight =>
      cases h
      split
      · exact .none
      · refine .read ?_
        split
        · exact .dropped
        · split
          · exact .dropped
          · split <;> exact .dropped
  | deny error projectId =>
      cases h
      unfold denyWith
      rcases @Outcome.commit_cases SubmitPc ImportJobResult s a.fate
        (.record _) (.raised (.domain error)) with ⟨-, heq | heq⟩ | heq <;> rw [heq] <;> exact .none
  | lock projectId =>
      cases h
      refine .read ?_
      split
      · exact .dropped
      · split
        · exact .dropped
        · split
          · exact .dropped
          · split <;> exact .dropped
  | observe job =>
      cases h
      refine .read ?_
      dsimp only [SubmitPc.moves]
      split
      · exact .dropped
      · split
        · exact .dropped
        · exact .added rfl rfl
  | commit job t =>
      cases h
      rcases @Outcome.commit_cases SubmitPc _ s a.fate (.transitions [t])
        (.returned (s.jobResult (t.update.apply job))) with ⟨-, heq | heq⟩ | heq <;>
        rw [heq] <;> exact .none

theorem ReadCall.stages_step {c : ReadCall} {projectId fileId : UUID} {rest : List UUID}
    {pc : ReconcilePc} {o : Outcome ReadPc (ImportJobView P)}
    (h : c.step P a s (.reconcile projectId fileId rest pc) = some o) :
    Stages a.now (moved a.fate (pc.moves s)) pc.staged
      (Thread.staged (.readImport c o.progress : Thread P)) o.write := by
  obtain ⟨o', hstep, rfl⟩ := Option.map_eq_some_iff.mp h
  have hstages := ReconcilePc.stages_step hstep
  cases hp : o'.progress with
  | running pc' =>
      rw [hp] at hstages
      dsimp only
      exact hstages
  | returned _ =>
      rw [hp] at hstages
      cases rest <;> exact hstages
  | raised e =>
      rw [hp] at hstages
      dsimp only
      exact hstages
  | crashed =>
      rw [hp] at hstages
      dsimp only
      exact hstages

theorem ScanPc.stages_step {fileId : UUID} {pc : ReconcilePc} {o : Outcome ScanPc Unit}
    (h : ScanPc.step P cfg fileId a s (.reconcile pc) = some o) :
    Stages a.now (moved a.fate (pc.moves s)) pc.staged
      (Thread.staged (.scanFile fileId o.progress : Thread P)) o.write := by
  obtain ⟨o', hstep, rfl⟩ := Option.map_eq_some_iff.mp h
  have hstages := ReconcilePc.stages_step hstep
  cases hp : o'.progress <;> rw [hp] at hstages <;> simp only [Outcome.map, Progress.map, hp] <;>
    exact hstages

/-- The job of a staged transition is the row that the thread has locked. -/
theorem Thread.Ok.staged {v : Thread P} (h : v.Ok s) : ∀ t ∈ v.staged, ∃ job,
    s.jobs.get? job.id = some job ∧ Staged P s job t ∧ .job job.id ∈ v.holds := by
  have hreconcile : ∀ pc : ReconcilePc, pc.Ok P s → ∀ t ∈ pc.staged, ∃ job,
      s.jobs.get? job.id = some job ∧ Staged P s job t ∧ .job job.id ∈ pc.holds := by
    intro pc hok t ht
    cases pc with
    | lookup | lock => cases ht
    | observe locked todo old =>
        obtain ⟨job, hlocked, hget, hstaged⟩ := hok.transitions t ht
        exact ⟨job, hget, hstaged, List.mem_map_of_mem hlocked⟩
    | commit locked old =>
        obtain ⟨job, hlocked, hget, hstaged⟩ := hok.transitions t ht
        exact ⟨job, hget, hstaged, List.mem_map_of_mem hlocked⟩
  intro t ht
  cases v with
  | startUpload | presignPart | completeUpload | download | recoverStaleUploads | createImport =>
      cases ht
  | scanFile fileId p =>
      cases p with
      | running pc =>
          cases pc with
          | receive | claim | stream | verdict | discard => cases ht
          | reconcile pc => exact hreconcile pc h t ht
      | returned | raised | crashed => cases ht
  | submitImport c p =>
      cases p with
      | running pc =>
          cases pc with
          | preflight | deny | lock | observe => cases ht
          | commit job t' =>
              obtain rfl := List.mem_singleton.mp ht
              exact ⟨job, h.1, h.2, List.mem_singleton.mpr rfl⟩
      | returned | raised | crashed => cases ht
  | readImport c p =>
      cases p with
      | running pc =>
          cases pc with
          | load | deny | view => cases ht
          | reconcile projectId fileId rest pc => exact hreconcile pc h t ht
      | returned | raised | crashed => cases ht

/-- An action that locks no job leaves nothing staged. -/
theorem ActSound.staged_nil {v v' : Thread P} {w : Write} {s' : Store}
    (h : ActSound s v v' w) (hact : v.act cfg a s = some (v', w)) (hwrite : s.write? w = some s')
    (hrows : ∀ id, .job id ∉ v.holds ∧ .job id ∉ v.needs) : v'.staged = [] := by
  rw [List.eq_nil_iff_forall_not_mem]
  intro t ht
  obtain ⟨job, -, -, hrow⟩ := (h.after s' hwrite).staged t ht
  rcases Thread.holds_act hact hrow with hheld | hneeded
  · exact (hrows job.id).1 hheld
  · exact (hrows job.id).2 hneeded

theorem Thread.stages_act {v v' : Thread P} {w : Write} {s' : Store} (h : ActSound s v v' w)
    (hact : v.act cfg a s = some (v', w)) (hwrite : s.write? w = some s') :
    Stages a.now (moved a.fate (v.moves s)) v.staged v'.staged w := by
  have hact' := hact
  cases v with
  | startUpload | presignPart | completeUpload | download | recoverStaleUploads | createImport =>
      obtain ⟨o, hp, heq⟩ := Option.map_eq_some_iff.mp hact
      cases heq
      exact .none
  | scanFile fileId p =>
      obtain ⟨o, hp, heq⟩ := Option.map_eq_some_iff.mp hact
      obtain ⟨pc, rfl, hstep⟩ := Progress.step_eq_some hp
      obtain ⟨rfl, rfl⟩ := Prod.mk.inj heq
      cases pc with
      | receive | claim | stream | verdict | discard =>
          rw [h.staged_nil hact' hwrite fun id => by simp [holds, needs, ScanPc.holds, ScanPc.needs]]
          exact .none
      | reconcile pc => exact ScanPc.stages_step hstep
  | submitImport c p =>
      obtain ⟨o, hp, heq⟩ := Option.map_eq_some_iff.mp hact
      obtain ⟨pc, rfl, hstep⟩ := Progress.step_eq_some hp
      obtain ⟨rfl, rfl⟩ := Prod.mk.inj heq
      have hstages := SubmitCall.stages_step hstep
      cases hp : o.progress <;> rw [hp] at hstages <;> exact hstages
  | readImport c p =>
      obtain ⟨o, hp, heq⟩ := Option.map_eq_some_iff.mp hact
      obtain ⟨pc, rfl, hstep⟩ := Progress.step_eq_some hp
      obtain ⟨rfl, rfl⟩ := Prod.mk.inj heq
      cases pc with
      | load | deny | view =>
          rw [h.staged_nil hact' hwrite fun id => by simp [holds, needs, ReadPc.holds, ReadPc.needs]]
          exact .none
      | reconcile projectId fileId rest pc => exact ReadCall.stages_step hstep

end staging

/-! ### Runs -/

section runs

variable {P : Platform} {cfg : ScannerConfig} {s t : SystemState P} {e : SystemEvent P}

/-- No transition that the thread has staged violates the time order of its job's row. -/
def Thread.TimesKept (st : Store) (v : Thread P) : Prop :=
  ∀ t ∈ v.staged, ∀ job, st.jobs.get? t.jobId = some job → (t.update.apply job).TimeOrder

/-- No staged transition violates the time order of its job's row. -/
def TimesKept (s : SystemState P) : Prop :=
  ∀ (i : Nat) (v : Thread P), s.threads[i]? = some v → v.TimesKept s.store

/-- A statement that stages a transition reads a clock which is not behind the times
that the row keeps. -/
def ClockAhead (s : SystemState P) : SystemEvent P → Prop
  | .act i a => ∀ v, s.threads[i]? = some v → ∀ job ∈ moved a.fate (v.moves s.store), job.Past a.now
  | _ => True

/-- The job that an action moves is the row it has locked. -/
theorem Thread.Ok.moves {v : Thread P} {st : Store} (h : v.Ok st) {job : ImportJob}
    (hjob : job ∈ v.moves st) : st.jobs.get? job.id = some job := by
  have hreconcile : ∀ pc : ReconcilePc, pc.Ok P st → job ∈ pc.moves st →
      st.jobs.get? job.id = some job := by
    intro pc hok hjob
    cases pc with
    | lookup | lock | commit => cases hjob
    | observe locked todo old =>
        cases todo with
        | nil => cases hjob
        | cons j todo =>
            dsimp only [ReconcilePc.moves] at hjob
            split at hjob
            · cases hjob
            · split at hjob
              · cases hjob
              · cases hjob
                exact (hok.snapshots job List.mem_cons_self).2
  cases v with
  | startUpload | presignPart | completeUpload | download | recoverStaleUploads | createImport =>
      cases hjob
  | scanFile fileId p =>
      cases p with
      | running pc =>
          cases pc with
          | receive | claim | stream | verdict | discard => cases hjob
          | reconcile pc => exact hreconcile pc h hjob
      | returned | raised | crashed => cases hjob
  | submitImport c p =>
      cases p with
      | running pc =>
          cases pc with
          | preflight | deny | lock | commit => cases hjob
          | observe j =>
              simp only [Thread.moves, SubmitPc.moves] at hjob
              split at hjob
              · cases hjob
              · split at hjob
                · cases hjob
                · cases hjob
                  exact h.1
      | returned | raised | crashed => cases hjob
  | readImport c p =>
      cases p with
      | running pc =>
          cases pc with
          | load | deny | view => cases hjob
          | reconcile projectId fileId rest pc => exact hreconcile pc h hjob
      | returned | raised | crashed => cases hjob

theorem mem_of_mem_moved {fate : Fate} {job : ImportJob} {x : Option ImportJob}
    (h : job ∈ moved fate x) : job ∈ x := by
  unfold moved at h
  split at h
  · exact h
  · cases h

theorem Thread.staged_of_initial {v : Thread P} (h : v.initial = true) : v.staged = [] := by
  cases v with
  | startUpload | presignPart | completeUpload | download | recoverStaleUploads | createImport =>
      rfl
  | scanFile | submitImport | readImport =>
      cases of_decide_eq_true h
      rfl

theorem Thread.staged_crash (v : Thread P) : v.crash.staged = [] := by
  cases v with
  | startUpload | presignPart | completeUpload | download | recoverStaleUploads | createImport =>
      rfl
  | scanFile fileId p => cases p <;> rfl
  | submitImport c p => cases p <;> rfl
  | readImport c p => cases p <;> rfl

theorem Thread.TimesKept.of_nil {st : Store} {v : Thread P} (h : v.staged = []) :
    v.TimesKept st := by
  intro t ht
  rw [h] at ht
  cases ht

/-- Staged transitions are about locked rows, which other threads leave alone. -/
theorem Consistent.timesKept_other (hs : Consistent cfg s) {i j : Nat}
    {u u' v : Thread P} {w : Write} {store : Store} (hj : s.threads[j]? = some v) (hne : j ≠ i)
    (hi : s.threads[i]? = some u) (hfree : (program P cfg).Free s.threads i u)
    (hsound : ActSound s.store u u' w) (hwrite : s.store.write? w = some store)
    (hkept : v.TimesKept s.store) : v.TimesKept store := by
  intro x hx job hget
  obtain ⟨old, hold, hstaged, hheld⟩ := (hs.ok hj).staged x hx
  have huntouched : .job old.id ∉ w.touches := by
    intro htouch
    rcases List.mem_append.mp (hsound.touches _ htouch) with hmine | hneeded
    · exact hs.exclusive j i v u hj hi hne _ hheld hmine
    · exact hfree.not_holds hj hne hneeded hheld
  have hsame := hsound.effect.job_unchanged hwrite huntouched hold
  rw [hstaged.jobId_eq, hsame] at hget
  cases hget
  exact hkept x hx job (by rw [hstaged.jobId_eq, hold])

theorem Consistent.timesKept_own {projects : List UUID}
    (hreach : Reachable (next P cfg) (initialState P projects) s) {a : Answer} {v v' : Thread P}
    {w : Write} {store : Store} {i : Nat} (hget : s.threads[i]? = some v)
    (hact : v.act cfg a s.store = some (v', w)) (hsound : ActSound s.store v v' w)
    (hwrite : s.store.write? w = some store) (hkept : v.TimesKept s.store) :
    v'.TimesKept store ↔ ∀ job ∈ moved a.fate (v.moves s.store), job.Past a.now := by
  have hstages := Thread.stages_act hsound hact hwrite
  generalize hmoved : moved a.fate (v.moves s.store) = m at hstages
  generalize holds' : v'.staged = new at hstages
  cases hstages with
  | dropped => exact iff_of_true (.of_nil holds') nofun
  | kept =>
      cases hwrite
      refine iff_of_true (fun t ht => ?_) nofun
      rw [holds'] at ht
      exact hkept t ht
  | @added job old t hjob hnow =>
      cases hwrite
      have hrow : s.store.jobs.get? job.id = some job :=
        ((consistent_of_reachable hreach).ok hget).moves
          (mem_of_mem_moved (hmoved.symm ▸ rfl : job ∈ moved a.fate (v.moves s.store)))
      have horder : job.TimeOrder := timeOrder_of_reachable hreach job.id job hrow
      constructor
      · rintro h _ ⟨rfl⟩
        have hmem : t ∈ v'.staged := by
          rw [holds']
          exact List.mem_append_right _ (List.mem_singleton.mpr rfl)
        rw [← hnow, ← JobUpdate.timeOrder_apply_iff horder]
        exact h t hmem job (hjob ▸ hrow)
      · intro h x hx j hj
        rw [holds'] at hx
        rcases List.mem_append.mp hx with hold | hnew
        · exact hkept x hold j hj
        · obtain rfl := List.mem_singleton.mp hnew
          rw [hjob, hrow] at hj
          cases hj
          rw [JobUpdate.timeOrder_apply_iff horder, hnow]
          exact h job rfl

theorem timesKept_iff {projects : List UUID}
    (hreach : Reachable (next P cfg) (initialState P projects) s) (hs : TimesKept s)
    (h : next P cfg s e = some t) : TimesKept t ↔ ClockAhead s e := by
  have hconsistent := consistent_of_reachable hreach
  cases hconsistent.happens h with
  | spawn hinitial =>
      refine iff_of_true (fun i v hget => ?_) trivial
      rcases getElem?_append_cases hget with ⟨-, rfl⟩ | hget
      · exact .of_nil (Thread.staged_of_initial hinitial)
      · exact hs i v hget
  | crash hthread =>
      refine iff_of_true (fun i v hget => ?_) trivial
      rcases getElem?_set_cases hget with ⟨rfl, rfl⟩ | ⟨-, hget⟩
      · exact .of_nil (Thread.staged_crash _)
      · exact hs i v hget
  | @act i a v v' w store hthread hfree hact hwrite hsound =>
      have hown := Consistent.timesKept_own hreach hthread hact hsound hwrite (hs i v hthread)
      constructor
      · rintro hkept u hu
        rw [hthread] at hu
        cases hu
        have hlt : i < s.threads.length := (List.getElem?_eq_some_iff.mp hthread).1
        exact hown.mp (hkept i v' (List.getElem?_set_self hlt))
      · intro hclock j u hget
        rcases getElem?_set_cases hget with ⟨rfl, rfl⟩ | ⟨hne, hget⟩
        · exact hown.mpr (hclock v hthread)
        · exact hconsistent.timesKept_other hget hne hthread hfree hsound hwrite (hs j u hget)

/-- The time order is all that the row of a job can object to. -/
theorem Store.transition_isSome_iff {st : Store} {x : Transition}
    (h : ∀ job, st.jobs.get? x.jobId = some job → (x.update.apply job).TimeOrder)
    (hjob : st.jobs.get? x.jobId ≠ none) :
    (st.transition x).isSome ↔ (st.recordAudit x.row).isSome := by
  obtain ⟨job, hget⟩ := Option.ne_none_iff_exists'.mp hjob
  simp only [Store.transition, hget, h job hget, if_true, Store.recordAudit, Store.modifyJob,
    Option.isSome_map]

theorem Consistent.commits_iff (hs : Consistent cfg s) (hkept : TimesKept s) {i : Nat}
    {v : Thread P} (hget : s.threads[i]? = some v) {x : Transition} (hx : x ∈ v.staged) :
    (s.store.transition x).isSome ↔ (s.store.recordAudit x.row).isSome := by
  obtain ⟨job, hjob, hstaged, -⟩ := (hs.ok hget).staged x hx
  refine Store.transition_isSome_iff (hkept i v hget x hx) ?_
  rw [hstaged.jobId_eq, hjob]
  nofun

end runs

namespace Sample

/-- The job of the sample, created when the database reads 10. -/
def createdAtTen : List (SystemEvent platform) :=
  .spawn (.createImport creation (.running .begin)) :: List.replicate 8 (.act 0 answer) ++
    List.replicate 2 (.act 0 { answer with uuid := 20, attachmentIds := [30], now := 10 })

/-- Its submission on a host that reads 5, up to the commit. -/
def submitting : List (SystemEvent platform) :=
  .spawn (.submitImport ⟨device, 20, 42⟩ (.running .preflight)) ::
    List.replicate 3 (.act 2 { answer with auditId := 2, now := 5 })

def committing : SystemEvent platform := .act 2 { answer with auditId := 2, now := 5 }

end Sample

end SuperBoss.Server
