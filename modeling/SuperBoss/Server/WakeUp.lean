import SuperBoss.Server.JobLifecycle
import SuperBoss.Server.Updates

/-!
No lost wake-up between submitting and scanning: while a job is `SCANNING`, one
of its files is still open, or a scan task of one of its files has still to
reconcile the job.
-/

namespace SuperBoss.Server

open SuperBoss.Core
open SuperBoss.Library
open SuperBoss.Library.Interleaving
open SuperBoss.Library.Transition
open SuperBoss.Files
open SuperBoss.Imports
open SuperBoss.Infrastructure.Clamav

/-! ### What a job waits for -/

/-- The reconciliation has still to look at the job, or to commit its result. -/
def ReconcilePc.Awaits (id : UUID) : ReconcilePc → Prop
  | lookup => True
  | lock jobIds => id ∈ jobIds
  | observe _ todo staged => id ∈ todo.map (·.id) ∨ id ∈ staged.map (·.jobId)
  | commit _ staged => id ∈ staged.map (·.jobId)

/-- The scan is past its verdict and has still to reconcile the job. -/
def ScanPc.Awaits (id : UUID) : ScanPc → Prop
  | discard _ => True
  | reconcile pc => pc.Awaits id
  | receive | claim | stream _ | verdict _ _ _ => False

/-- A task that raised or crashed never gets there. -/
def Progress.Awaits {Pc Result : Type} (awaits : Pc → Prop) : Progress Pc Result → Prop
  | running pc => awaits pc
  | returned _ => False
  | raised _ | crashed => True

/-- Some file of the job has no verdict yet. -/
def Open (s : Store) (id : UUID) : Prop :=
  ∃ a ∈ s.attachmentsOf id, ∃ f, s.files.get? a.fileId = some f ∧ f.state.terminal = false

/-- A scan task of one of the job's files that has still to reconcile the job. -/
def Thread.Awaits {P : Platform} (s : Store) (id : UUID) (v : Thread P) : Prop :=
  ∃ a ∈ s.attachmentsOf id, ∃ p, v = .scanFile a.fileId p ∧ p.Awaits (ScanPc.Awaits id)

def Awaited {P : Platform} (s : SystemState P) (id : UUID) : Prop :=
  Open s.store id ∨ ∃ v ∈ s.threads, v.Awaits s.store id

section steps

variable {P : Platform} {cfg : ScannerConfig} {s : Store} {a : Answer} {id : UUID}

/-- An evaluation that leaves the job `SCANNING` saw an open file. -/
theorem open_of_evaluation (hs : WellFormed s) {job : ImportJob}
    (hget : s.jobs.get? job.id = some job)
    (h : (evaluateFiles job.baseSha256 (s.fileObservations job.id)).status = .scanning) :
    Open s job.id := by
  have hobserve : ∀ x ∈ s.attachmentsOf job.id, ∃ f, s.files.get? x.fileId = some f ∧
      s.observe x = some ⟨x.kind, f.state, f.sha256⟩ :=
    fun x hx => (hs.attached x (Store.mem_attachmentsOf.mp hx).1).observe
  rcases evaluateFiles_eq_scanning h with hnil | ⟨o, ho, hopen⟩
  · obtain ⟨x, hx⟩ := List.exists_mem_of_ne_nil _ (hs.attachments hget)
    obtain ⟨f, -, hf⟩ := hobserve x hx
    have hmem : _ ∈ s.fileObservations job.id := List.mem_filterMap.mpr ⟨x, hx, hf⟩
    rw [hnil] at hmem
    cases hmem
  · obtain ⟨x, hx, hxo⟩ := List.mem_filterMap.mp ho
    obtain ⟨f, hf, hf'⟩ := hobserve x hx
    obtain rfl := Option.some.inj (hf'.symm.trans hxo)
    exact ⟨x, hx, f, hf, hopen⟩

theorem Progress.awaits_read {Pc Result : Type} {awaits : Pc → Prop} {fate : Fate}
    {o : Outcome Pc Result} (h : o.progress.Awaits awaits) :
    (Outcome.read fate o).progress.Awaits awaits := by
  rcases Outcome.read_cases fate o with heq | heq
  · rwa [heq]
  · rw [heq]
    trivial

/-- What a reconciliation does for a job that waits for it: it still has to
reconcile it, or it found an open file, or the job is not `SCANNING`. -/
theorem ReconcilePc.awaits_step {pc : ReconcilePc} {o : Outcome ReconcilePc Unit}
    {x : ImportAttachment} {j : ImportJob} (hs : WellFormed s) (hok : pc.Ok P s)
    (hx : x ∈ s.attachmentsOf id) (hj : s.jobs.get? id = some j)
    (h : pc.step P x.fileId a s = some o) (hawaits : pc.Awaits id) :
    o.progress.Awaits (Awaits id) ∨ Open s id ∨ .job id ∈ pc.holds ∧
      ∀ s', s.write? o.write = some s' → ∀ j', s'.jobs.get? id = some j' →
        j'.status ≠ .scanning := by
  cases pc with
  | lookup =>
      cases h
      obtain ⟨hrow, hjob⟩ := Store.mem_attachmentsOf.mp hx
      have hmem : id ∈ (((s.attachments.rows.filter fun t => decide (t.fileId = x.fileId)).map
          (·.jobId)).dedup.insertionSort fun i j : UUID => i.text ≤ j.text) := by
        rw [List.mem_insertionSort, List.mem_dedup]
        exact List.mem_map.mpr ⟨x, List.mem_filter.mpr ⟨hrow, decide_eq_true rfl⟩, hjob⟩
      refine .inl (Progress.awaits_read ?_)
      simp only
      split
      · rename_i hnil
        rw [hnil] at hmem
        cases hmem
      · exact hmem
  | lock jobIds =>
      cases h
      refine .inl (Progress.awaits_read (.inl (List.mem_map.mpr ⟨j, ?_, Table.key_of_get? hj⟩)))
      rw [List.mem_insertionSort]
      refine List.mem_filter.mpr ⟨Table.mem_of_get? hj, decide_eq_true ?_⟩
      rwa [Table.key_of_get? hj]
  | observe locked todo staged =>
      cases h
      cases todo with
      | nil =>
          refine .inl ?_
          rcases hawaits with hawaits | hawaits
          · cases hawaits
          · exact hawaits
      | cons job todo =>
          obtain ⟨hlocked, hget⟩ := hok.snapshots job List.mem_cons_self
          simp only
          split
          · rename_i hstatus
            rcases hawaits with hawaits | hawaits
            · rcases List.mem_cons.mp hawaits with rfl | hawaits
              · refine .inr (.inr ⟨List.mem_map_of_mem hlocked, fun s' hs' j' hj' => ?_⟩)
                cases hs'
                obtain rfl := Option.some.inj (hget.symm.trans hj')
                exact hstatus
              · exact .inl (.inl hawaits)
            · exact .inl (.inr hawaits)
          · by_cases hopen :
              (evaluateFiles job.baseSha256 (s.fileObservations job.id)).status = .scanning
            · rw [if_pos hopen]
              rcases hawaits with hawaits | hawaits
              · rcases List.mem_cons.mp hawaits with rfl | hawaits
                · exact .inr (.inl (open_of_evaluation hs hget hopen))
                · exact .inl (Progress.awaits_read (.inl hawaits))
              · exact .inl (Progress.awaits_read (.inr hawaits))
            · rw [if_neg hopen]
              refine .inl (Progress.awaits_read ?_)
              show id ∈ _ ∨ id ∈ List.map _ (staged ++ [_])
              rw [List.map_append, List.mem_append]
              rcases hawaits with hawaits | hawaits
              · rcases List.mem_cons.mp hawaits with rfl | hawaits
                · exact .inr (.inr (List.mem_singleton_self _))
                · exact .inl hawaits
              · exact .inr (.inl hawaits)
  | commit locked staged =>
      cases h
      rcases Outcome.commit_cases s a.fate (.transitions staged)
        (.returned () : Progress ReconcilePc Unit) with ⟨-, heq⟩ | heq
      · obtain ⟨t, ht, rfl⟩ := List.mem_map.mp hawaits
        obtain ⟨job, hlocked, hget, hstaged⟩ := hok.transitions t ht
        have hsingle : staged = [t] := by
          obtain ⟨u, rfl⟩ := List.length_eq_one_iff.mp
            (le_antisymm (by simpa using hok.single) (List.length_pos_of_mem ht))
          rw [List.mem_singleton.mp ht]
        subst hsingle
        refine .inr (.inr ⟨List.mem_map_of_mem (hstaged.jobId_eq ▸ hlocked), fun s' hs' j' hj' => ?_⟩)
        have hwrite : s.write? (.transitions [t]) = some s' := by
          rcases heq with heq | heq <;> rwa [heq] at hs'
        obtain ⟨-, hjobs, -⟩ := Store.write?_transition (hstaged.jobId_eq.symm ▸ hget) hwrite
        rw [hjobs, Table.get?_modify_self hj] at hj'
        cases hj'
        exact hok.settled t ht
      · rw [heq]
        exact .inl trivial

theorem ScanPc.awaits_step {pc : ScanPc} {o : Outcome ScanPc Unit} {x : ImportAttachment}
    {j : ImportJob} (hs : WellFormed s) (hok : pc.Ok P s x.fileId) (hx : x ∈ s.attachmentsOf id)
    (hj : s.jobs.get? id = some j) (h : ScanPc.step P cfg x.fileId a s pc = some o)
    (hawaits : pc.Awaits id) :
    o.progress.Awaits (Awaits id) ∨ Open s id ∨ .job id ∈ pc.holds ∧
      ∀ s', s.write? o.write = some s' → ∀ j', s'.jobs.get? id = some j' →
        j'.status ≠ .scanning := by
  cases pc with
  | receive | claim | stream | verdict => cases hawaits
  | discard key =>
      cases h
      exact .inl trivial
  | reconcile pc =>
      obtain ⟨o', hstep, rfl⟩ := Option.map_eq_some_iff.mp h
      rcases ReconcilePc.awaits_step hs hok hx hj hstep hawaits with hnext | hrest
      · left
        rw [Outcome.map]
        cases hp : o'.progress with
        | running pc' =>
            rw [hp] at hnext
            exact hnext
        | returned r =>
            rw [hp] at hnext
            cases hnext
        | raised e => trivial
        | crashed => trivial
      · exact .inr hrest

theorem Thread.awaits_act {v v' : Thread P} {w : Write} {j : ImportJob} (hs : WellFormed s)
    (hok : v.Ok s) (hj : s.jobs.get? id = some j) (h : v.act cfg a s = some (v', w))
    (hv : v.Awaits s id) :
    v'.Awaits s id ∨ Open s id ∨ .job id ∈ v.holds ∧
      ∀ s', s.write? w = some s' → ∀ j', s'.jobs.get? id = some j' → j'.status ≠ .scanning := by
  obtain ⟨x, hx, p, rfl, hp⟩ := hv
  obtain ⟨o, hstep, heq⟩ := Option.map_eq_some_iff.mp h
  obtain ⟨pc, rfl, hstep⟩ := Progress.step_eq_some hstep
  obtain ⟨rfl, rfl⟩ := Prod.mk.inj heq
  rcases ScanPc.awaits_step hs hok hx hj hstep hp with hnext | hrest
  · exact .inl ⟨x, hx, _, rfl, hnext⟩
  · exact .inr hrest

/-- The attempt that ends a scan has still to reconcile. -/
theorem Thread.awaits_verdict {x : ImportAttachment} {f file : File} {st : FileState}
    {result : Text} {v' : Thread P} {w : Write} (hx : x ∈ s.attachmentsOf id)
    (hget : s.files.get? x.fileId = some f) (hstate : f.state = .scanning)
    (h : Thread.act cfg a s (.scanFile x.fileId (.running (.verdict file st result))) =
      some (v', w)) : v'.Awaits s id := by
  rw [act_verdict hget hstate] at h
  obtain ⟨o, ho, heq⟩ := Option.map_eq_some_iff.mp h
  obtain ⟨rfl, -⟩ := Prod.mk.inj heq
  refine ⟨x, hx, _, rfl, ?_⟩
  rw [← Option.some.inj ho]
  rcases Outcome.commit_cases s a.fate _ _ with ⟨-, heq | heq⟩ | heq
  · rw [heq]
    simp only
    split <;> trivial
  · rw [heq]
    trivial
  · rw [heq]
    trivial

end steps

/-! ### Waiting in a run -/

section runs

variable {P : Platform} {cfg : ScannerConfig} {s t : SystemState P} {e : SystemEvent P} {id : UUID}

theorem Thread.Awaits.evolve {st st' : Store} {v : Thread P} {j : ImportJob}
    (h : v.Awaits st id) (he : Evolves st st') (hj : st.jobs.get? id = some j) :
    v.Awaits st' id := by
  obtain ⟨x, hx, hrest⟩ := h
  exact ⟨x, by rwa [he.attachments hj], hrest⟩

theorem Thread.Awaits.crash {st : Store} {v : Thread P} (h : v.Awaits st id) :
    v.crash.Awaits st id := by
  obtain ⟨x, hx, p, rfl, hp⟩ := h
  refine ⟨x, hx, p.crash, rfl, ?_⟩
  cases p with
  | returned r => cases hp
  | running | raised | crashed => trivial

/-- A file that an action closes leaves a task behind that reconciles its job. -/
theorem Open.act (hs : Consistent cfg s) {i : Nat} {a : Answer} {v v' : Thread P} {w : Write}
    {store : Store} (hthread : s.threads[i]? = some v)
    (hact : v.act cfg a s.store = some (v', w)) (hwrite : s.store.write? w = some store)
    {j : ImportJob} (hj : s.store.jobs.get? id = some j)
    (huploaded : ∀ x ∈ s.store.attachmentsOf id, ∀ f, s.store.files.get? x.fileId = some f →
      f.state ≠ .uploading)
    (hopen : Open s.store id) : Open store id ∨ v'.Awaits s.store id := by
  obtain ⟨x, hx, f, hf, hstate⟩ := hopen
  have he := (Thread.sound hs.wellFormed (hs.ok hthread) hact).effect.evolves hwrite
  obtain ⟨f', hf', -⟩ := he.files hf
  cases hterminal : f'.state.terminal with
  | false => exact .inl ⟨x, by rwa [he.attachments hj], f', hf', hterminal⟩
  | true =>
      rcases hs.file_before hthread hact hwrite hf' with
        hsame | ⟨hnone, -⟩ | ⟨g, u, hg, hmove, hu, rfl⟩
      · obtain rfl := Option.some.inj (hf.symm.trans hsame)
        rw [hstate] at hterminal
        cases hterminal
      · rw [hf] at hnone
        cases hnone
      · obtain rfl := Option.some.inj (hf.symm.trans hg)
        have hleft := huploaded x hx f hf
        generalize hid : x.fileId = fileId at hf hu
        cases hu with
        | start | create =>
            cases hmove with
            | provision huploading => exact absurd huploading hleft
        | complete | claim =>
            cases hmove with
            | settle => cases hterminal
        | mismatch =>
            obtain ⟨f₀, hf₀, huploading⟩ := (hs.ok hthread).uploading (List.mem_singleton_self _)
            obtain rfl := Option.some.inj (hf.symm.trans hf₀)
            exact absurd huploading hleft
        | expire hget huploading =>
            obtain rfl := Option.some.inj (hf.symm.trans hget)
            exact absurd huploading hleft
        | verdict hget hscanning =>
            subst hid
            exact .inr (Thread.awaits_verdict hx hget hscanning hact)

/-- A job that is waited for stays so, up to an action that holds its row and
leaves it in another status. -/
theorem Awaited.act (hs : Consistent cfg s) {i : Nat} {a : Answer} {v v' : Thread P} {w : Write}
    {store : Store} (hthread : s.threads[i]? = some v)
    (hact : v.act cfg a s.store = some (v', w)) (hwrite : s.store.write? w = some store)
    {j : ImportJob} (hj : s.store.jobs.get? id = some j)
    (huploaded : ∀ x ∈ s.store.attachmentsOf id, ∀ f, s.store.files.get? x.fileId = some f →
      f.state ≠ .uploading)
    (h : Awaited s id) :
    Awaited ⟨store, s.threads.set i v'⟩ id ∨ .job id ∈ v.holds ∧
      ∀ j', store.jobs.get? id = some j' → j'.status ≠ .scanning := by
  have he := (Thread.sound hs.wellFormed (hs.ok hthread) hact).effect.evolves hwrite
  have hself : v' ∈ s.threads.set i v' :=
    List.mem_of_getElem? (List.getElem?_set_self (List.getElem?_eq_some_iff.mp hthread).1)
  have hof : Open s.store id → Awaited ⟨store, s.threads.set i v'⟩ id := fun hopen =>
    (hopen.act hs hthread hact hwrite hj huploaded).imp_right fun hv => ⟨v', hself, hv.evolve he hj⟩
  rcases h with hopen | ⟨u, hu, hawaits⟩
  · exact .inl (hof hopen)
  · obtain ⟨k, hk⟩ := List.mem_iff_getElem?.mp hu
    by_cases hik : i = k
    · subst hik
      obtain rfl := Option.some.inj (hthread.symm.trans hk)
      rcases Thread.awaits_act hs.wellFormed (hs.ok hthread) hj hact hawaits with
        hnext | hopen | ⟨hheld, hstatus⟩
      · exact .inl (.inr ⟨v', hself, hnext.evolve he hj⟩)
      · exact .inl (hof hopen)
      · exact .inr ⟨hheld, hstatus store hwrite⟩
    · refine .inl (.inr ⟨u, List.mem_iff_getElem?.mpr ⟨k, ?_⟩, hawaits.evolve he hj⟩)
      rw [List.getElem?_set_ne hik, hk]

theorem ReconcilePc.step_transition {pc : ReconcilePc} {fileId : UUID} {st : Store} {a : Answer}
    {o : Outcome ReconcilePc Unit} {u : Transition} (hok : pc.Ok P st)
    (h : pc.step P fileId a st = some o) (hw : o.write = .transitions [u]) :
    u.update.status ≠ .scanning := by
  have hne : Write.transitions [u] ≠ .nothing := Write.noConfusion
  cases pc with
  | lookup =>
      cases h
      have hw := Outcome.write_read hne hw
      simp only at hw
      split at hw <;> cases hw
  | lock jobIds =>
      cases h
      cases Outcome.write_read hne hw
  | observe locked todo staged =>
      cases h
      cases todo with
      | nil => cases hw
      | cons job todo =>
          simp only at hw
          split at hw
          · cases hw
          · have hw := Outcome.write_read hne hw
            split at hw <;> cases hw
  | commit locked staged =>
      cases h
      cases Outcome.write_commit hne hw
      exact hok.settled u (List.mem_singleton_self u)

/-- Only a submission leaves a job in `SCANNING`. -/
theorem Thread.act_transition {v v' : Thread P} {st : Store} {a : Answer} {u : Transition}
    (hs : WellFormed st) (hok : v.Ok st) (h : v.act cfg a st = some (v', .transitions [u]))
    (hscanning : u.update.status = .scanning) :
    ∃ c job, v = .submitImport c (.running (.commit job u)) := by
  have hne : Write.transitions [u] ≠ .nothing := Write.noConfusion
  have hrow : .job u.jobId ∈ v.holds ++ v.needs :=
    (Thread.sound hs hok h).touches _ (List.mem_singleton.mpr rfl)
  cases v with
  | download => cases hrow
  | startUpload c p =>
      cases p with
      | running pc => cases pc <;> simp [holds, needs, Progress.rows, StartPc.holds, StartPc.needs] at hrow
      | returned | raised | crashed => cases hrow
  | presignPart c p =>
      cases p with
      | running pc => cases pc <;> simp [holds, needs, Progress.rows, PresignPc.needs] at hrow
      | returned | raised | crashed => cases hrow
  | completeUpload c p =>
      cases p with
      | running pc =>
          cases pc <;> simp [holds, needs, Progress.rows, CompletePc.holds, CompletePc.needs] at hrow
      | returned | raised | crashed => cases hrow
  | recoverStaleUploads c p =>
      cases p with
      | running pc => cases pc <;> simp [holds, needs, Progress.rows, RecoverPc.needs] at hrow
      | returned | raised | crashed => cases hrow
  | createImport c p =>
      cases p with
      | running pc =>
          cases pc with
          | upload d rest uploads pc =>
              cases pc <;> simp [holds, needs, Progress.rows, CreatePc.holds, CreatePc.needs,
                StartPc.holds, StartPc.needs] at hrow
          | begin | deny | existing | persist | insert => cases hrow
      | returned | raised | crashed => cases hrow
  | scanFile fileId p =>
      obtain ⟨o, hp, heq⟩ := Option.map_eq_some_iff.mp h
      obtain ⟨pc, rfl, hstep⟩ := Progress.step_eq_some hp
      cases pc with
      | receive | stream | discard => cases hrow
      | claim | verdict =>
          simp [holds, needs, Progress.rows, ScanPc.holds, ScanPc.needs] at hrow
      | reconcile pc =>
          obtain ⟨o', hreconcile, rfl⟩ := Option.map_eq_some_iff.mp hstep
          exact absurd hscanning
            (ReconcilePc.step_transition (P := P) hok hreconcile (Prod.mk.inj heq).2)
  | readImport c p =>
      obtain ⟨o, hp, heq⟩ := Option.map_eq_some_iff.mp h
      obtain ⟨pc, rfl, hstep⟩ := Progress.step_eq_some hp
      cases pc with
      | load | deny | view => cases hrow
      | reconcile projectId fileId rest pc =>
          obtain ⟨o', hreconcile, rfl⟩ := Option.map_eq_some_iff.mp hstep
          refine absurd hscanning (ReconcilePc.step_transition (P := P) hok hreconcile ?_)
          have hw := (Prod.mk.inj heq).2
          split at hw <;> exact hw
  | submitImport c p =>
      obtain ⟨o, hp, heq⟩ := Option.map_eq_some_iff.mp h
      obtain ⟨pc, rfl, hstep⟩ := Progress.step_eq_some hp
      have hw := (Prod.mk.inj heq).2
      cases pc with
      | preflight | deny => cases hrow
      | lock projectId =>
          cases hstep
          have hw := Outcome.write_read hne hw
          split at hw
          · cases hw
          · split at hw
            · cases hw
            · split at hw
              · cases hw
              · split at hw <;> cases hw
      | observe job =>
          cases hstep
          have hw := Outcome.write_read hne hw
          simp only at hw
          split at hw
          · cases hw
          · split at hw <;> cases hw
      | commit job t =>
          cases hstep
          cases Outcome.write_commit hne hw
          exact ⟨c, job, rfl⟩

/-- A submission stages what it has just evaluated. -/
theorem SubmitCall.commit_of_step {c : SubmitCall} {st : Store} {a : Answer} {pc : SubmitPc}
    {o : Outcome SubmitPc ImportJobResult} {job : ImportJob} {u : Transition}
    (h : c.step P a st pc = some o) (ho : o.progress = .running (.commit job u)) :
    pc = .observe job ∧ o.write = .nothing ∧
      u.update.status = (evaluateFiles job.baseSha256 (st.fileObservations job.id)).status := by
  cases pc with
  | preflight =>
      cases h
      split at ho
      · cases ho
      · have ho := Outcome.running_read ho
        split at ho
        · cases ho
        · split at ho
          · cases ho
          · split at ho <;> cases ho
  | deny error projectId =>
      cases h
      cases (Outcome.running_commit ho).1
  | lock projectId =>
      cases h
      have ho := Outcome.running_read ho
      split at ho
      · cases ho
      · split at ho
        · cases ho
        · split at ho
          · cases ho
          · split at ho <;> cases ho
  | observe job' =>
      cases h
      have hprogress := Outcome.running_read ho
      rcases Outcome.read_cases a.fate _ with heq | heq
      · rw [heq]
        simp only at hprogress ⊢
        split at hprogress
        · cases hprogress
        · split at hprogress
          · cases hprogress
          · rename_i hcomplete hmoved
            cases hprogress
            rw [if_neg hcomplete, if_neg hmoved]
            exact ⟨rfl, rfl, rfl⟩
      · rw [heq] at ho
        cases ho
  | commit job' t =>
      cases h
      cases (Outcome.running_commit ho).1

theorem Thread.submitImport_of_act {v : Thread P} {st : Store} {a : Answer} {c : SubmitCall}
    {job : ImportJob} {u : Transition} {w : Write}
    (h : v.act cfg a st = some (.submitImport c (.running (.commit job u)), w)) :
    v = .submitImport c (.running (.observe job)) ∧ w = .nothing ∧
      u.update.status = (evaluateFiles job.baseSha256 (st.fileObservations job.id)).status := by
  cases v with
  | submitImport c' p =>
      obtain ⟨o, hp, heq⟩ := Option.map_eq_some_iff.mp h
      obtain ⟨pc, rfl, hstep⟩ := Progress.step_eq_some hp
      obtain ⟨hthread, rfl⟩ := Prod.mk.inj heq
      obtain ⟨rfl, ho⟩ := Thread.submitImport.inj hthread
      obtain ⟨rfl, hw, hstatus⟩ := SubmitCall.commit_of_step hstep ho
      exact ⟨rfl, hw, hstatus⟩
  | startUpload | presignPart | completeUpload | scanFile | download | recoverStaleUploads
  | createImport | readImport =>
      obtain ⟨o, -, heq⟩ := Option.map_eq_some_iff.mp h
      cases heq

theorem Thread.crash_ne_submitImport {v : Thread P} {c : SubmitCall} {pc : SubmitPc} :
    v.crash ≠ .submitImport c (.running pc) := by
  intro h
  cases v with
  | submitImport c' p => exact Progress.crash_ne_running (Thread.submitImport.inj h).2
  | startUpload | presignPart | completeUpload | scanFile | download | recoverStaleUploads
  | createImport | readImport => cases h

/-- The invariant: `SCANNING` jobs are waited for, and so are the jobs that a
submission is about to leave in `SCANNING`. -/
structure Wakes (s : SystemState P) : Prop where
  jobs : ∀ {id j}, s.store.jobs.get? id = some j → j.status = .scanning → Awaited s id
  submits : ∀ {i : Nat} {c job u},
    s.threads[i]? = some (.submitImport c (.running (.commit job u))) →
      u.update.status = .scanning → Awaited s job.id

theorem Awaited.spawn (h : Awaited s id) (v : Thread P) :
    Awaited ⟨s.store, s.threads ++ [v]⟩ id :=
  h.imp_right fun ⟨u, hu, hawaits⟩ => ⟨u, List.mem_append_left _ hu, hawaits⟩

theorem Awaited.crash (h : Awaited s id) {i : Nat} {v : Thread P}
    (hthread : s.threads[i]? = some v) : Awaited ⟨s.store, s.threads.set i v.crash⟩ id := by
  rcases h with hopen | ⟨u, hu, hawaits⟩
  · exact .inl hopen
  · obtain ⟨k, hk⟩ := List.mem_iff_getElem?.mp hu
    by_cases hik : i = k
    · subst hik
      obtain rfl := Option.some.inj (hthread.symm.trans hk)
      exact .inr ⟨v.crash, List.mem_of_getElem?
        (List.getElem?_set_self (List.getElem?_eq_some_iff.mp hthread).1), hawaits.crash⟩
    · refine .inr ⟨u, List.mem_iff_getElem?.mpr ⟨k, ?_⟩, hawaits⟩
      rw [List.getElem?_set_ne hik, hk]

/-- The files of a job that a request is about to move have left `UPLOADING`. -/
theorem Staged.uploaded {st : Store} (hs : WellFormed st) {job : ImportJob} {u : Transition}
    (h : Staged P st job u) : ∀ x ∈ st.attachmentsOf job.id, ∀ f,
      st.files.get? x.fileId = some f → f.state ≠ .uploading := by
  obtain ⟨observations, -, -, -, -, -, -, -, -, hobserved, hstates⟩ := h.stage
  exact fun x hx f hf => hobserved.uploaded hs hstates hx hf

theorem Wakes.jobs_step (hs : Consistent cfg s) (hw : Wakes s) (h : Happens cfg s e t)
    {j : ImportJob} (hj : t.store.jobs.get? id = some j) (hscanning : j.status = .scanning) :
    Awaited t id := by
  cases h with
  | spawn hinitial => exact (hw.jobs hj hscanning).spawn _
  | crash hthread => exact (hw.jobs hj hscanning).crash hthread
  | @act i a v v' w store hthread hfree hact hwrite hsound =>
      have hstays : ∀ {j₀}, s.store.jobs.get? id = some j₀ →
          (∀ x ∈ s.store.attachmentsOf id, ∀ f, s.store.files.get? x.fileId = some f →
            f.state ≠ .uploading) → Awaited s id → Awaited ⟨store, s.threads.set i v'⟩ id := by
        intro j₀ hj₀ huploaded hawaited
        rcases hawaited.act hs hthread hact hwrite hj₀ huploaded with hnext | ⟨-, hleft⟩
        · exact hnext
        · exact absurd hscanning (hleft j hj)
      rcases hsound.effect.job_cases hwrite id with
        ⟨hsame, -⟩ | ⟨j', -, hj', hstatus, -⟩ | ⟨j', u, rfl, hj', hstaged, hnext, -⟩
      · have hj₀ := hsame.symm.trans hj
        refine hstays hj₀ (fun x hx f hf => ?_) (hw.jobs hj₀ hscanning)
        exact hs.wellFormed.attachments_uploaded hj₀ (by rw [hscanning]; decide) hx hf
      · obtain rfl := Option.some.inj (hj'.symm.trans hj)
        rw [hstatus] at hscanning
        cases hscanning
      · obtain rfl := Option.some.inj (hnext.symm.trans hj)
        obtain ⟨c, job, rfl⟩ :=
          Thread.act_transition hs.wellFormed (hs.ok hthread) hact hscanning
        obtain ⟨hjob, hstaged'⟩ : SubmitPc.Ok P s.store (.commit job u) := hs.ok hthread
        have hid : job.id = id := by
          rw [← hstaged'.jobId_eq, hstaged.jobId_eq]
          exact Table.key_of_get? hj'
        subst hid
        exact hstays hj' (hstaged'.uploaded hs.wellFormed) (hw.submits hthread hscanning)

theorem Wakes.submits_step (hs : Consistent cfg s) (hw : Wakes s) (h : Happens cfg s e t)
    {k : Nat} {c : SubmitCall} {job : ImportJob} {u : Transition}
    (hget : t.threads[k]? = some (.submitImport c (.running (.commit job u))))
    (hscanning : u.update.status = .scanning) : Awaited t job.id := by
  cases h with
  | spawn hinitial =>
      rcases getElem?_append_cases hget with ⟨-, rfl⟩ | hget
      · cases hinitial
      · exact (hw.submits hget hscanning).spawn _
  | crash hthread =>
      rcases getElem?_set_cases hget with ⟨-, hcrash⟩ | ⟨-, hget⟩
      · exact absurd hcrash.symm Thread.crash_ne_submitImport
      · exact (hw.submits hget hscanning).crash hthread
  | act hthread hfree hact hwrite hsound =>
      rcases getElem?_set_cases hget with ⟨rfl, rfl⟩ | ⟨hne, hget⟩
      · obtain ⟨rfl, rfl, hstatus⟩ := Thread.submitImport_of_act hact
        obtain ⟨hjob, -⟩ : SubmitPc.Ok P s.store (.observe job) := hs.ok hthread
        cases hwrite
        exact .inl (open_of_evaluation hs.wellFormed hjob (hstatus ▸ hscanning))
      · obtain ⟨hjob, hstaged⟩ : SubmitPc.Ok P s.store (.commit job u) := hs.ok hget
        rcases (hw.submits hget hscanning).act hs hthread hact hwrite hjob
            (hstaged.uploaded hs.wellFormed) with hnext | ⟨hheld, -⟩
        · exact hnext
        · exact absurd (List.mem_singleton_self _)
            (hs.exclusive _ _ _ _ hthread hget (Ne.symm hne) _ hheld)

theorem Wakes.step (hs : Consistent cfg s) (hw : Wakes s) (h : next P cfg s e = some t) :
    Wakes t :=
  ⟨hw.jobs_step hs (hs.happens h), hw.submits_step hs (hs.happens h)⟩

theorem Wakes.not_scanning (hw : Wakes s) {id : UUID} {j : ImportJob}
    (hj : s.store.jobs.get? id = some j)
    (hfinished : ∀ x ∈ s.store.attachmentsOf id, ∀ p, .scanFile x.fileId p ∈ s.threads →
      p = .returned ())
    (hverdicts : ∀ x ∈ s.store.attachmentsOf id, ∀ f, s.store.files.get? x.fileId = some f →
      f.state.terminal = true) : j.status ≠ .scanning := by
  intro hscanning
  rcases hw.jobs hj hscanning with ⟨x, hx, f, hf, hopen⟩ | ⟨v, hv, x, hx, p, rfl, hawaits⟩
  · rw [hverdicts x hx f hf] at hopen
    cases hopen
  · rw [hfinished x hx p hv] at hawaits
    exact hawaits

theorem wakes_of_reachable {projects : List UUID}
    (h : Reachable (next P cfg) (initialState P projects) s) : Wakes s := by
  refine h.induction ⟨fun hj => ?_, fun hget => ?_⟩
    fun s e t hs hw hstep => hw.step (consistent_of_reachable hs) hstep
  · cases hj
  · cases hget

end runs

/-- In every reachable state: when all files of a job have their verdict and
all scan tasks of these files have returned, the job is not `SCANNING`. -/
theorem no_lost_wake_up (P : Platform) (cfg : ScannerConfig) (projects : List UUID)
    {s : SystemState P} (hs : Reachable (next P cfg) (initialState P projects) s) {id : UUID}
    {j : ImportJob} (hj : s.store.jobs.get? id = some j)
    (hfinished : ∀ x ∈ s.store.attachmentsOf id, ∀ p, .scanFile x.fileId p ∈ s.threads →
      p = .returned ())
    (hverdicts : ∀ x ∈ s.store.attachmentsOf id, ∀ f, s.store.files.get? x.fileId = some f →
      f.state.terminal = true) : j.status ≠ .scanning :=
  (wakes_of_reachable hs).not_scanning hj hfinished hverdicts

/-- The sample job is not left in `SCANNING`. -/
theorem no_lost_wake_up_reconciled :
    ∃ s j, run (next Sample.platform Sample.scanner) (initialState Sample.platform [1])
        (Sample.created ++ Sample.completed ++ Sample.submitted ++ Sample.reconciled) = some s ∧
      s.store.jobs.get? 20 = some j ∧ j.status ≠ .scanning := by
  have hrun : ((run (next Sample.platform Sample.scanner) (initialState Sample.platform [1])
      (Sample.created ++ Sample.completed ++ Sample.submitted ++ Sample.reconciled)).bind fun s =>
        (s.store.jobs.get? 20).map fun _ =>
          decide ((∀ v ∈ s.threads, v.succeeded = true) ∧
            ∀ f ∈ s.store.files.rows, f.state.terminal = true)) = some true := by decide +kernel
  obtain ⟨s, hs, hjob⟩ := Option.bind_eq_some_iff.mp hrun
  obtain ⟨j, hj, hjob⟩ := Option.map_eq_some_iff.mp hjob
  obtain ⟨hfinished, hverdicts⟩ := of_decide_eq_true hjob
  refine ⟨s, j, hs, hj, no_lost_wake_up _ _ [1] ⟨_, hs⟩ hj (fun x _ p hp => ?_) fun x _ f hf =>
    hverdicts f (Table.mem_of_get? hf)⟩
  cases p with
  | returned r => rfl
  | running | raised | crashed => cases hfinished _ hp

end SuperBoss.Server
