import SuperBoss.Server.DeviceSteps

/-!
The operations of a device do not depend on the jobs, attachments and files of
other devices: a run on the store is the run on what the device sees of it.
-/

namespace SuperBoss.Server

open SuperBoss.Core
open SuperBoss.Library
open SuperBoss.Library.Interleaving
open SuperBoss.Library.Transition
open SuperBoss.Files
open SuperBoss.Imports
open SuperBoss.Infrastructure.Clamav

def Actor.isDevice (actor : Actor) (d : UUID) : Prop := actor.kind = .device ∧ actor.subjectId = d

/-- The device operations: create, read, submit, and the part URLs and the
completion of an attachment. -/
def Thread.Device {P : Platform} (d : UUID) : Thread P → Prop
  | createImport c _ => Actor.isDevice c.actor d
  | readImport c _ => Actor.isDevice c.actor d
  | submitImport c _ => Actor.isDevice c.actor d
  | presignPart c _ => Actor.isDevice c.actor d ∧ c.target.importing = true
  | completeUpload c _ => Actor.isDevice c.actor d ∧ c.target.importing = true
  | startUpload _ _ | download _ _ | scanFile _ _ | recoverStaleUploads _ _ => False

/-- What the operation has found so far belongs to the device. -/
def Thread.Own {P : Platform} (d : UUID) (s : Store) : Thread P → Prop
  | presignPart _ p => p.Holds (PresignPc.Own d s) fun _ => True
  | completeUpload _ p => p.Holds (CompletePc.Own d s) fun _ => True
  | submitImport _ p => p.Holds (SubmitPc.Own d) fun _ => True
  | readImport _ p => p.Holds (ReadPc.Own d s) fun _ => True
  | createImport _ _ | startUpload _ _ | download _ _ | scanFile _ _ | recoverStaleUploads _ _ =>
      True

/-- An operation of the device and what is known of it. -/
structure Thread.Sealed {P : Platform} (d : UUID) (s : Store) (t : Thread P) : Prop where
  device : t.Device d
  ok : t.Ok s
  work : t.Matches s
  own : t.Own d s

section steps

variable {P : Platform} {cfg : ScannerConfig} {d : UUID} {s s' : Store} {a : Answer}
  {t t' : Thread P} {w : Write}

theorem Thread.sealed_initial (hinitial : t.initial = true) (h : t.Device d) : t.Sealed d s := by
  refine ⟨h, ok_of_initial hinitial, matches_initial hinitial, ?_⟩
  cases t with
  | createImport | startUpload | download | scanFile | recoverStaleUploads => trivial
  | submitImport c p =>
      cases of_decide_eq_true hinitial
      trivial
  | readImport c p =>
      cases of_decide_eq_true hinitial
      trivial
  | presignPart c p =>
      cases of_decide_eq_true hinitial
      have htarget := h.2
      cases hc : c.target with
      | upload id =>
          rw [hc] at htarget
          cases htarget
      | attachment jobId attachmentId =>
          simp only [Own, PresignCall.begin, hc]
          trivial
  | completeUpload c p =>
      cases of_decide_eq_true hinitial
      have htarget := h.2
      cases hc : c.target with
      | upload id =>
          rw [hc] at htarget
          cases htarget
      | attachment jobId attachmentId =>
          simp only [Own, CompleteCall.begin, hc]
          trivial

theorem SameStep.lift {Pc Result : Type} {step : Store → Pc → Option (Outcome Pc Result)}
    {f : Progress Pc Result → Thread P} {p : Progress Pc Result}
    (h : ∀ pc, p = .running pc → SameStep d s fun s => step s pc) :
    (p.step (step (s.view d))).map (fun o => (f o.progress, o.write)) =
        (p.step (step s)).map (fun o => (f o.progress, o.write)) ∧
      ∀ t' w, (p.step (step s)).map (fun o => (f o.progress, o.write)) = some (t', w) →
        Seen d s w := by
  cases p with
  | returned | raised | crashed => exact ⟨rfl, fun t' w hact => (by cases hact)⟩
  | running pc =>
      have hstep := h pc rfl
      refine ⟨congrArg (Option.map _) hstep.same, fun t' w hact => ?_⟩
      obtain ⟨o, ho, heq⟩ := Option.map_eq_some_iff.mp hact
      cases heq
      exact hstep.seen o ho

theorem Progress.Holds.running {Pc Result : Type} {ok : Pc → Prop} {post : Result → Prop}
    {p : Progress Pc Result} (h : p.Holds ok post) {pc : Pc} (hp : p = .running pc) : ok pc := by
  subst hp
  exact h

variable (cfg) in
/-- One action of the device, on the store and on what it sees. -/
theorem Thread.Sealed.act_view (h : t.Sealed d s) (hs : WellFormed s) (howned : Owned P s)
    (hfresh : Fresh d s a) :
    t.act cfg a (s.view d) = t.act cfg a s ∧
      ∀ t' w, t.act cfg a s = some (t', w) → Seen d s w := by
  obtain ⟨hdevice, hok, hwork, hown⟩ := h
  cases t with
  | startUpload | download | scanFile | recoverStaleUploads => exact hdevice.elim
  | createImport c p =>
      exact SameStep.lift fun pc hp => CreateCall.view_step hs howned hdevice.2 hfresh
        (hok.running hp) (hwork.running hp)
  | submitImport c p =>
      exact SameStep.lift fun pc hp => SubmitCall.view_step howned hdevice.2 (hok.running hp)
        (hown.running hp)
  | readImport c p =>
      exact SameStep.lift fun pc hp => ReadCall.view_step howned hdevice.2 (hok.running hp)
        (hown.running hp)
  | presignPart c p =>
      exact SameStep.lift fun pc hp => PresignCall.view_step howned hdevice.1.2 (hown.running hp)
  | completeUpload c p =>
      exact SameStep.lift fun pc hp => CompleteCall.view_step howned hdevice.1.2 (hown.running hp)

theorem ShownFile.evolve {id : UUID} (h : ShownFile d s id) (he : Evolves s s') :
    ShownFile d s' id := by
  obtain ⟨f, hf, hshows⟩ := h
  obtain ⟨f', hf', hle⟩ := he.files hf
  obtain ⟨hkind, huploader⟩ := uploader_of_le hle
  exact ⟨f', hf', by rw [showsFile, hkind, huploader]; exact hshows⟩

theorem ShownJob.evolve {id : UUID} (h : ShownJob d s id) (he : Evolves s s') :
    ShownJob d s' id := by
  obtain ⟨j, hj, hshows⟩ := h
  obtain ⟨j', hj', hle⟩ := he.jobs hj
  exact ⟨j', hj', by rw [showsJob, hle.deviceId_eq]; exact hshows⟩

theorem Uploads.evolve {id : UUID} (h : Uploads d s id) (he : Evolves s s') : Uploads d s' id := by
  obtain ⟨f, hf, huploader⟩ := h
  obtain ⟨f', hf', hle⟩ := he.files hf
  exact ⟨f', hf', (uploader_of_le hle).2.trans huploader⟩

theorem ReconcilePc.Own.evolve {pc : ReconcilePc} (h : pc.Own d s) (he : Evolves s s') :
    pc.Own d s' := by
  cases pc with
  | lookup => trivial
  | lock jobIds => exact fun id hid => (h id hid).evolve he
  | observe locked todo staged => exact ⟨h.1, fun t ht => (h.2 t ht).evolve he⟩
  | commit locked staged => exact fun t ht => (h t ht).evolve he

theorem PresignPc.Own.evolve {pc : PresignPc} (h : pc.Own d s) (he : Evolves s s') :
    pc.Own d s' := by
  cases pc with
  | lock uploadId => exact ShownFile.evolve h he
  | resolve | deny => trivial

theorem CompletePc.Own.evolve {pc : CompletePc} (h : pc.Own d s) (he : Evolves s s') :
    pc.Own d s' := by
  cases pc with
  | lock uploadId => exact ShownFile.evolve h he
  | resolve | deny | finalize | settle | discard | enqueue => trivial

theorem ReadPc.Own.evolve {pc : ReadPc} (h : pc.Own d s) (he : Evolves s s') : pc.Own d s' := by
  cases pc with
  | reconcile projectId fileId rest pc =>
      exact ⟨fun id hid => (h.1 id hid).evolve he, h.2.evolve he⟩
  | load | deny | view => trivial

theorem Thread.Sealed.own_act (h : t.Sealed d s) (howned : Owned P s)
    (hact : t.act cfg a s = some (t', w)) : t'.Device d ∧ t'.Own d s := by
  obtain ⟨hdevice, hok, hwork, hown⟩ := h
  cases t with
  | startUpload | download | scanFile | recoverStaleUploads => exact hdevice.elim
  | createImport c p =>
      obtain ⟨o, -, heq⟩ := Option.map_eq_some_iff.mp hact
      cases heq
      exact ⟨hdevice, trivial⟩
  | submitImport c p =>
      obtain ⟨o, hp, heq⟩ := Option.map_eq_some_iff.mp hact
      obtain ⟨pc, rfl, hstep⟩ := Progress.step_eq_some hp
      cases heq
      exact ⟨hdevice, SubmitCall.own_step hdevice.2 hown hstep⟩
  | readImport c p =>
      obtain ⟨o, hp, heq⟩ := Option.map_eq_some_iff.mp hact
      obtain ⟨pc, rfl, hstep⟩ := Progress.step_eq_some hp
      cases heq
      exact ⟨hdevice, ReadCall.own_step howned hdevice.2 hok hown hstep⟩
  | presignPart c p =>
      obtain ⟨o, hp, heq⟩ := Option.map_eq_some_iff.mp hact
      obtain ⟨pc, rfl, hstep⟩ := Progress.step_eq_some hp
      cases heq
      exact ⟨hdevice, PresignCall.own_step howned hdevice.1.2 hstep⟩
  | completeUpload c p =>
      obtain ⟨o, hp, heq⟩ := Option.map_eq_some_iff.mp hact
      obtain ⟨pc, rfl, hstep⟩ := Progress.step_eq_some hp
      cases heq
      exact ⟨hdevice, CompleteCall.own_step howned hdevice.1.2 hstep⟩

theorem Thread.Own.evolve (h : t.Own d s) (he : Evolves s s') : t.Own d s' := by
  cases t with
  | startUpload | download | scanFile | recoverStaleUploads | createImport => trivial
  | submitImport c p => exact h
  | readImport c p => exact Progress.Holds.imp h (fun _ _ hpc => hpc.evolve he) fun _ => id
  | presignPart c p => exact Progress.Holds.imp h (fun _ _ hpc => hpc.evolve he) fun _ => id
  | completeUpload c p => exact Progress.Holds.imp h (fun _ _ hpc => hpc.evolve he) fun _ => id

theorem Thread.Sealed.act (h : t.Sealed d s) (hs : WellFormed s) (howned : Owned P s)
    (hact : t.act cfg a s = some (t', w)) (hw : s.write? w = some s') : t'.Sealed d s' := by
  have hsound := Thread.sound hs h.ok hact
  have he : Evolves s s' := hsound.effect.evolves hw
  obtain ⟨hdevice, hown⟩ := h.own_act howned hact
  exact ⟨hdevice, hsound.after s' hw, Thread.matches_act hact h.work hw he, hown.evolve he⟩

/-- The device's new files and jobs are its own. -/
theorem Thread.Sealed.inserts (h : t.Sealed d s) (hact : t.act cfg a s = some (t', w)) :
    (∀ f, w = .insertFile f → showsFile d f = true) ∧
      ∀ job as row, w = .insertJob job as row → showsJob d job = true := by
  have hwrites := Thread.act_writes hact
  refine ⟨fun f hw => ?_, fun job as row hw => ?_⟩
  · subst hw
    rcases hwrites with hplain | hwrites
    · exact hplain.elim
    · cases hwrites with
      | @insertFile t c fp ht hfp hnone =>
          cases ht with
          | upload => exact h.device.elim
          | @attachment call c rest uploads pc =>
              obtain ⟨hcreate, -, hcurrent, -, -⟩ := h.work
              have hactor : c.actor = call.actor := hcurrent.actor
              rw [showsFile_of_device]
              · exact decide_eq_true ((congrArg Actor.subjectId hactor).trans h.device.2)
              · exact (congrArg Actor.kind hactor).trans h.device.1
  · subst hw
    rcases hwrites with hplain | hwrites
    · exact hplain.elim
    · cases hwrites with
      | insertJob hnone hids hjob hattachments =>
          rw [hjob]
          exact decide_eq_true h.device.2

theorem Effect.job_mem (hw : s.write? w = some s') (h : Effect P s w) {j' : ImportJob}
    (hj : j' ∈ s'.jobs.rows) :
    (∃ j ∈ s.jobs.rows, j.id = j'.id ∧ j.deviceId = j'.deviceId) ∨
      ∃ as row, w = .insertJob j' as row := by
  cases h with
  | nothing | noTransition | createMultipart | abortMultipart | completeMultipart | deleteObject
  | publish | consume =>
      cases hw
      exact .inl ⟨j', hj, rfl, rfl⟩
  | insertFile =>
      obtain ⟨files, -, rfl⟩ := Store.write?_insertFile hw
      exact .inl ⟨j', hj, rfl, rfl⟩
  | updateFile =>
      rw [(Store.write?_updateFile hw).2.1] at hj
      exact .inl ⟨j', hj, rfl, rfl⟩
  | insertJob =>
      rw [Table.rows_insert? (Store.write?_insertJob hw).1] at hj
      rcases List.mem_append.mp hj with hj | hj
      · exact .inl ⟨j', hj, rfl, rfl⟩
      · rw [List.mem_singleton.mp hj]
        exact .inr ⟨_, _, rfl⟩
  | transition hjob hstaged =>
      rw [(Store.write?_transition (hstaged.jobId_eq.symm ▸ hjob) hw).2.1] at hj
      rw [Table.rows_modify] at hj
      obtain ⟨j, hmem, rfl⟩ := List.mem_map.mp hj
      refine .inl ⟨j, hmem, ?_⟩
      split <;> exact ⟨rfl, rfl⟩
  | record =>
      rw [(Store.recordAudit_frame hw).2.1] at hj
      exact .inl ⟨j', hj, rfl, rfl⟩

/-- The rows of other devices are never new. -/
theorem Fresh.act {b : Answer} (hfresh : Fresh d s b) (h : t.Sealed d s) (hs : WellFormed s)
    (hact : t.act cfg a s = some (t', w)) (hw : s.write? w = some s') : Fresh d s' b := by
  have hsound := Thread.sound hs h.ok hact
  have he : Evolves s s' := hsound.effect.evolves hw
  obtain ⟨hfiles, hjobs⟩ := h.inserts hact
  refine ⟨fun f hf hhidden => ?_, fun j hj hhidden => ?_, fun x hx hhidden => ?_⟩
  · rcases hsound.effect.file_cases hw (Table.get?_of_mem hf) with
      hsame | ⟨-, hinsert, -⟩ | ⟨g, u, row, hg, -, -, rfl⟩
    · exact hfresh.file f (Table.mem_of_get? hsame) hhidden
    · rw [hfiles f hinsert] at hhidden
      cases hhidden
    · exact hfresh.file g (Table.mem_of_get? hg) hhidden
  · rcases hsound.effect.job_mem hw hj with ⟨j₀, hmem, hid, hdevice⟩ | ⟨as, row, hinsert⟩
    · rw [← hid]
      exact hfresh.job j₀ hmem (by rw [showsJob, hdevice]; exact hhidden)
    · rw [hjobs j as row hinsert] at hhidden
      cases hhidden
  · have hold : ∀ y ∈ s.attachments.rows, s'.showsAttachment d y = false →
        y.id ∉ b.attachmentIds := by
      intro y hy hhidden
      refine hfresh.attachment y hy ?_
      obtain ⟨j, hj, -⟩ := (hs.attached y hy).job
      obtain ⟨j', hj', hle⟩ := he.jobs hj
      rw [Store.showsAttachment, hj', Option.any_some, showsJob, hle.deviceId_eq] at hhidden
      rw [Store.showsAttachment, hj]
      exact hhidden
    rcases hsound.effect.attachments_cases hw with hsame | ⟨job, as, row, rfl⟩
    · exact hold x (hsame ▸ hx) hhidden
    · obtain ⟨hinsert, -, -, -, hrows, -, -⟩ := Store.write?_insertJob hw
      rw [hrows] at hx
      rcases List.mem_append.mp hx with hx | hx
      · exact hold x hx hhidden
      · have hjob : x.jobId = job.id := by
          cases hsound.effect with
          | insertJob _ _ _ _ hattachments _ _ => exact (hattachments x hx).1
        rw [Store.showsAttachment, hjob, Table.get?_insert? hinsert, if_pos rfl, Option.any_some,
          hjobs job as row rfl] at hhidden
        cases hhidden

end steps

/-! ### Runs -/

/-- What the server's invariants say of its tables. -/
structure Possible (P : Platform) (s : Store) : Prop where
  wellFormed : WellFormed s
  owned : Owned P s

section runs

variable {P : Platform} {cfg : ScannerConfig} {d : UUID}

theorem possible_of_reachable {projects : List UUID} {s : SystemState P}
    (h : Reachable (next P cfg) (initialState P projects) s) : Possible P s.store :=
  ⟨(consistent_of_reachable h).wellFormed, owned_of_reachable h⟩

/-- The server with nothing but one operation to run. -/
def alone (s : Store) (t : Thread P) : SystemState P := ⟨s, [t]⟩

/-- What a device can tell of a state: its operations, and what it sees of the store. -/
def observed (d : UUID) (s : SystemState P) : SystemState P := ⟨s.store.view d, s.threads⟩

theorem next_alone (s : Store) (t : Thread P) (a : Answer) :
    next P cfg (alone s t) (.act 0 a) =
      (t.act cfg a s).map fun r => alone (s.write r.2) r.1 := by
  simp only [next, Program.apply, alone, List.getElem?_cons_zero, program, Option.map_map,
    List.set_cons_zero]
  rfl

theorem Possible.act {s s' : Store} {t t' : Thread P} {a : Answer} {w : Write}
    (h : Possible P s) (ht : t.Sealed d s) (hact : t.act cfg a s = some (t', w))
    (hw : s.write? w = some s') : Possible P s' := by
  have hsound := Thread.sound h.wellFormed ht.ok hact
  have hconsistent : Consistent cfg (alone s t) := by
    refine ⟨fun i j u v hu hv hne => ?_, h.wellFormed, fun hu => ?_⟩
    · have hi : i < 1 := (List.getElem?_eq_some_iff.mp hu).1
      have hj : j < 1 := (List.getElem?_eq_some_iff.mp hv).1
      omega
    · obtain rfl := List.mem_singleton.mp (List.mem_of_getElem? hu)
      exact ht.ok
  have hmatches : AllMatch (alone s t) := by
    intro i u hu
    obtain rfl := List.mem_singleton.mp (List.mem_of_getElem? hu)
    exact ht.work
  have hhappens : Happens cfg (alone s t) (.act 0 a) ⟨s', [t].set 0 t'⟩ :=
    .act rfl (fun u hu => (by cases hu)) hact hw hsound
  exact ⟨hsound.effect.wellFormed h.wellFormed hw, h.owned.step hconsistent hmatches hhappens⟩

variable (cfg) in
theorem run_view {s : Store} {t : Thread P} (h : Possible P s) (ht : t.Sealed d s)
    {as : List Answer} (hfresh : ∀ a ∈ as, Fresh d s a) :
    run (next P cfg) (alone (s.view d) t) (as.map (.act 0)) =
      (run (next P cfg) (alone s t) (as.map (.act 0))).map (observed d) := by
  induction as generalizing s t with
  | nil => rfl
  | cons a as ih =>
      obtain ⟨hsame, hseen⟩ := ht.act_view cfg h.wellFormed h.owned
        (hfresh a List.mem_cons_self)
      simp only [List.map_cons, run_cons, next_alone, hsame]
      cases hact : t.act cfg a s with
      | none => rfl
      | some r =>
          obtain ⟨t', w⟩ := r
          obtain ⟨s', hw⟩ := (Thread.sound h.wellFormed ht.ok hact).valid
          have hview : (s.view d).write? w = some (s'.view d) := by
            rw [hseen t' w hact, hw]
            rfl
          have hstore : s.write w = s' := by rw [Store.write, hw]; rfl
          have hviewed : (s.view d).write w = s'.view d := by rw [Store.write, hview]; rfl
          simp only [Option.map_some, hstore, hviewed]
          exact ih (h.act ht hact hw) (ht.act h.wellFormed h.owned hact hw) fun b hb =>
            (hfresh b (List.mem_cons_of_mem a hb)).act ht h.wellFormed hact hw

end runs

/-- A device operation with any arguments and answers: without the rows of the
other devices it goes on in the same way, to the same result or error and the
same change of the device's view; so it does on any two stores that the device
sees alike. -/
theorem device_noninterference {P : Platform} (cfg : ScannerConfig) {d : UUID} {t : Thread P}
    {s : Store} {as : List Answer} (hinitial : t.initial = true) (hdevice : t.Device d)
    (hs : Possible P s) (hfresh : ∀ a ∈ as, Fresh d s a) :
    run (next P cfg) (alone (s.view d) t) (as.map (.act 0)) =
        (run (next P cfg) (alone s t) (as.map (.act 0))).map (observed d) ∧
      ∀ s', Possible P s' → s'.view d = s.view d → (∀ a ∈ as, Fresh d s' a) →
        (run (next P cfg) (alone s' t) (as.map (.act 0))).map (observed d) =
          (run (next P cfg) (alone s t) (as.map (.act 0))).map (observed d) := by
  have hrun := run_view cfg hs (t.sealed_initial hinitial hdevice) hfresh
  refine ⟨hrun, fun s' hs' hview hfresh' => ?_⟩
  have hrun' := run_view cfg hs' (t.sealed_initial hinitial hdevice) hfresh'
  rw [← hrun, ← hrun', hview]

namespace Sample

/-- Another device of the project. -/
def otherDevice : Actor := { device with subjectId := 9 }

def foreignSubmit : Thread platform := .submitImport ⟨otherDevice, 20, 42⟩ (.running .preflight)

def foreignAnswers : List Answer :=
  List.replicate 2 { answer with uuid := 99, auditId := 2 }

end Sample

/-- The job of the other device and no job at all are both `IMPORT_JOB_NOT_FOUND`. -/
theorem device_noninterference_foreign :
    ∃ s, run (next Sample.platform Sample.scanner) (initialState Sample.platform [1])
        Sample.created = some s ∧
      (s.store.jobs.get? 20).isSome = true ∧ (s.store.view 9).jobs.get? 20 = none ∧
      ∃ r, run (next Sample.platform Sample.scanner) (alone s.store Sample.foreignSubmit)
          (Sample.foreignAnswers.map (.act 0)) = some r ∧
        r.threads = [.submitImport ⟨Sample.otherDevice, 20, 42⟩ (.raised (.domain jobNotFound))] ∧
        run (next Sample.platform Sample.scanner) (alone (s.store.view 9) Sample.foreignSubmit)
          (Sample.foreignAnswers.map (.act 0)) = some (observed 9 r) := by
  have hchecked : ((run (next Sample.platform Sample.scanner) (initialState Sample.platform [1])
      Sample.created).bind fun s =>
        (run (next Sample.platform Sample.scanner) (alone s.store Sample.foreignSubmit)
          (Sample.foreignAnswers.map (.act 0))).map fun r =>
        decide ((s.store.jobs.get? 20).isSome = true ∧ (s.store.view 9).jobs.get? 20 = none ∧
          (∀ f ∈ s.store.files.rows, f.id ≠ 99) ∧ (∀ j ∈ s.store.jobs.rows, j.id ≠ 99) ∧
          (∀ b ∈ s.store.attachments.rows, b.id ∉ Sample.answer.attachmentIds) ∧
          r.threads = [.submitImport ⟨Sample.otherDevice, 20, 42⟩
            (.raised (.domain jobNotFound))])) = some true := by
    decide +kernel
  obtain ⟨s, hs, hchecked⟩ := Option.bind_eq_some_iff.mp hchecked
  obtain ⟨r, hr, hchecked⟩ := Option.map_eq_some_iff.mp hchecked
  obtain ⟨hjob, hhidden, hfiles, hjobs, hattachments, hthreads⟩ := of_decide_eq_true hchecked
  have hfresh : ∀ a ∈ Sample.foreignAnswers, Fresh 9 s.store a := by
    intro a ha
    obtain rfl := List.eq_of_mem_replicate ha
    exact ⟨fun f hf _ => hfiles f hf, fun j hj _ => hjobs j hj, fun b hb _ => hattachments b hb⟩
  have hdevice : Sample.foreignSubmit.Device 9 := ⟨rfl, rfl⟩
  have hview := (device_noninterference Sample.scanner rfl hdevice
    (possible_of_reachable ⟨_, hs⟩) hfresh).1
  refine ⟨s, hs, hjob, hhidden, r, hr, hthreads, ?_⟩
  rw [hview, hr]
  rfl

end SuperBoss.Server
