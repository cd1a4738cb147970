import SuperBoss.Files.Lifecycle
import SuperBoss.Server.System

/-!
What can change in the store, and what every committed write is. Assertions
about requests are stable under the evolution of the store as long as nobody
writes the rows they hold.
-/

namespace SuperBoss.Server

open SuperBoss.Core
open SuperBoss.Library
open SuperBoss.Files
open SuperBoss.Imports

/-! ### Evolution -/

/-- A later version of a job row. -/
structure JobLe (j j' : ImportJob) : Prop where
  identity : j'.identity = j.identity
  terminal : j.status.terminal = true → j' = j
  submitted : j.status ≠ .uploading → j'.status ≠ .uploading
  submittedAt : ∀ t, j.submittedAt = some t → j'.submittedAt = some t

namespace JobLe

variable {j j' j'' : ImportJob}

theorem refl (j : ImportJob) : JobLe j j := ⟨rfl, fun _ => rfl, id, fun _ => id⟩

theorem trans (h : JobLe j j') (h' : JobLe j' j'') : JobLe j j'' where
  identity := h'.identity.trans h.identity
  terminal ht := by
    obtain rfl := h.terminal ht
    exact h'.terminal ht
  submitted hs := h'.submitted (h.submitted hs)
  submittedAt t ht := h'.submittedAt t (h.submittedAt t ht)

theorem projectId_eq (h : JobLe j j') : j'.projectId = j.projectId :=
  congrArg (fun i => i.2.2.1) h.identity

theorem createKey_eq (h : JobLe j j') : j'.createKey = j.createKey :=
  congrArg (fun i => (i.2.1, i.2.2.2.1)) h.identity

theorem baseSha256_eq (h : JobLe j j') : j'.baseSha256 = j.baseSha256 :=
  congrArg (fun i => i.2.2.2.2.2.2.1) h.identity

theorem manifestFingerprint_eq (h : JobLe j j') :
    j'.manifestFingerprint = j.manifestFingerprint :=
  congrArg (fun i => i.2.2.2.2.2.2.2.2.1) h.identity

end JobLe

structure Evolves (s s' : Store) : Prop where
  files : ∀ {id f}, s.files.get? id = some f → ∃ f', s'.files.get? id = some f' ∧ FileLe f f'
  jobs : ∀ {id j}, s.jobs.get? id = some j → ∃ j', s'.jobs.get? id = some j' ∧ JobLe j j'
  attachments : ∀ {id j}, s.jobs.get? id = some j → s'.attachmentsOf id = s.attachmentsOf id
  issued : s.storage.issued ⊆ s'.storage.issued

namespace Evolves

variable {s s' s'' : Store}

theorem refl (s : Store) : Evolves s s :=
  ⟨fun h => ⟨_, h, .refl _⟩, fun h => ⟨_, h, .refl _⟩, fun _ => rfl, List.Subset.refl _⟩

theorem trans (h : Evolves s s') (h' : Evolves s' s'') : Evolves s s'' where
  files hf := by
    obtain ⟨f', hf', hle⟩ := h.files hf
    obtain ⟨f'', hf'', hle'⟩ := h'.files hf'
    exact ⟨f'', hf'', hle.trans hle'⟩
  jobs hj := by
    obtain ⟨j', hj', hle⟩ := h.jobs hj
    obtain ⟨j'', hj'', hle'⟩ := h'.jobs hj'
    exact ⟨j'', hj'', hle.trans hle'⟩
  attachments hj := by
    obtain ⟨j', hj', -⟩ := h.jobs hj
    exact (h'.attachments hj').trans (h.attachments hj)
  issued := List.Subset.trans h.issued h'.issued

/-- Writes to the audit log, the storage and the queue. -/
theorem of_tables (hf : s'.files = s.files) (hj : s'.jobs = s.jobs)
    (ha : s'.attachments = s.attachments) (hi : s.storage.issued ⊆ s'.storage.issued) :
    Evolves s s' where
  files h := ⟨_, by rw [hf]; exact h, .refl _⟩
  jobs h := ⟨_, by rw [hj]; exact h, .refl _⟩
  attachments _ := by rw [Store.attachmentsOf, ha]; rfl
  issued := hi

end Evolves

/-! ### Observations -/

namespace Store

theorem mem_attachmentsOf {s : Store} {jobId : UUID} {a : ImportAttachment} :
    a ∈ s.attachmentsOf jobId ↔ a ∈ s.attachments.rows ∧ a.jobId = jobId := by
  simp [attachmentsOf, List.mem_insertionSort]

end Store

/-- A later observation of the same attachment. -/
structure ObservationLe (o o' : FileObservation) : Prop where
  kind : o'.kind = o.kind
  sha256 : o'.sha256 = o.sha256
  state : o.state.Le o'.state

/-- The files of a job were once in the states of `observations`. -/
def Observed (s : Store) (jobId : UUID) (observations : List FileObservation) : Prop :=
  List.Forall₂ ObservationLe observations (s.fileObservations jobId)

theorem Observed.now (s : Store) (jobId : UUID) : Observed s jobId (s.fileObservations jobId) :=
  List.forall₂_same.mpr fun _ _ => ⟨rfl, rfl, .refl _⟩

/-- The rows that an attachment refers to. -/
structure Attached (s : Store) (a : ImportAttachment) : Prop where
  job : ∃ j, s.jobs.get? a.jobId = some j ∧ j.projectId = a.projectId
  file : ∃ f, s.files.get? a.fileId = some f ∧ f.projectId = a.projectId ∧ f.multipartId ≠ none
  upload : a.uploadId = a.fileId

theorem Attached.evolve {s s' : Store} {a : ImportAttachment} (h : Attached s a)
    (he : Evolves s s') : Attached s' a := by
  obtain ⟨j, hj, hjp⟩ := h.job
  obtain ⟨f, hf, hfp, hm⟩ := h.file
  obtain ⟨j', hj', hjle⟩ := he.jobs hj
  obtain ⟨f', hf', hfle⟩ := he.files hf
  exact ⟨⟨j', hj', hjle.projectId_eq.trans hjp⟩,
    ⟨f', hf', hfle.projectId_eq.trans hfp, hfle.multipart_ne_none hm⟩, h.upload⟩

theorem Attached.observe {s : Store} {a : ImportAttachment} (h : Attached s a) :
    ∃ f, s.files.get? a.fileId = some f ∧ s.observe a = some ⟨a.kind, f.state, f.sha256⟩ := by
  obtain ⟨f, hf, hp, -⟩ := h.file
  refine ⟨f, hf, ?_⟩
  simp [Store.observe, hf, hp]

theorem forall₂_observe {s s' : Store} (he : Evolves s s') {as : List ImportAttachment}
    (h : ∀ a ∈ as, Attached s a) :
    List.Forall₂ ObservationLe (as.filterMap s.observe) (as.filterMap s'.observe) := by
  induction as with
  | nil => exact .nil
  | cons a as ih =>
      have ha := h a List.mem_cons_self
      obtain ⟨f, hf, hobs⟩ := ha.observe
      obtain ⟨f', hf', hobs'⟩ := (ha.evolve he).observe
      obtain ⟨f'', hf'', hle⟩ := he.files hf
      obtain rfl : f'' = f' := Option.some.inj (hf''.symm.trans hf')
      rw [List.filterMap_cons_some hobs, List.filterMap_cons_some hobs']
      exact .cons ⟨rfl, hle.sha256_eq, hle.state⟩
        (ih fun b hb => h b (List.mem_cons_of_mem a hb))

theorem ObservationLe.trans {o o' o'' : FileObservation} (h : ObservationLe o o')
    (h' : ObservationLe o' o'') : ObservationLe o o'' :=
  ⟨h'.kind.trans h.kind, h'.sha256.trans h.sha256, h.state.trans h'.state⟩

theorem forall₂_observationLe_trans {l l' l'' : List FileObservation}
    (h : List.Forall₂ ObservationLe l l') (h' : List.Forall₂ ObservationLe l' l'') :
    List.Forall₂ ObservationLe l l'' := by
  induction h generalizing l'' with
  | nil =>
      cases h'
      exact .nil
  | cons hab _ ih =>
      cases h' with
      | cons hbc h' => exact .cons (hab.trans hbc) (ih h')

/-! ### Jobs -/

/-- What a job's status stands for: an evaluation of its files after all of
them had left `UPLOADING`. -/
def Justified (s : Store) (j : ImportJob) : Prop :=
  ∃ observations, Observed s j.id observations ∧
    (∀ o ∈ observations, o.state ≠ .uploading) ∧
    evaluateFiles j.baseSha256 observations = ⟨j.status, j.resultCode⟩

structure JobOk (s : Store) (j : ImportJob) : Prop where
  submission : j.SubmissionState
  result : j.ResultState
  justified : j.status ≠ .uploading → Justified s j

structure WellFormed (s : Store) : Prop where
  issued : ∀ u ∈ s.storage.uploads, u.2 ∈ s.storage.issued
  attached : ∀ a ∈ s.attachments.rows, Attached s a
  attachments : ∀ {id j}, s.jobs.get? id = some j → s.attachmentsOf id ≠ []
  jobs : ∀ {id j}, s.jobs.get? id = some j → JobOk s j

theorem Observed.evolve {s s' : Store} {jobId : UUID} {j : ImportJob}
    {observations : List FileObservation} (h : Observed s jobId observations)
    (hs : WellFormed s) (he : Evolves s s') (hj : s.jobs.get? jobId = some j) :
    Observed s' jobId observations := by
  refine forall₂_observationLe_trans h ?_
  unfold Store.fileObservations
  rw [he.attachments hj]
  exact forall₂_observe he fun a ha => hs.attached a (Store.mem_attachmentsOf.mp ha).1

theorem JobOk.evolve {s s' : Store} {id : UUID} {j : ImportJob} (h : JobOk s j)
    (hs : WellFormed s) (he : Evolves s s') (hj : s.jobs.get? id = some j) : JobOk s' j where
  submission := h.submission
  result := h.result
  justified hne := by
    obtain ⟨observations, hobs, hstates, heval⟩ := h.justified hne
    have hid : id = j.id := (Table.key_of_get? hj).symm
    exact ⟨observations, hobs.evolve hs he (hid ▸ hj), hstates, heval⟩

/-- A transition that a request may commit: an evaluation of the job's files
after they had left `UPLOADING`, which moves the job on. -/
structure Staged (P : Platform) (s : Store) (job : ImportJob) (t : Transition) : Prop where
  stage : ∃ observations action actorKind actorId requestId now auditId,
    t = applyTransition P job (evaluateFiles job.baseSha256 observations) action actorKind actorId
      requestId now auditId ∧
    action ∈ ["import.submit", "import.reconcile"] ∧
    Observed s job.id observations ∧ (∀ o ∈ observations, o.state ≠ .uploading)
  moves : job.status = .uploading ∨ (job.status = .scanning ∧ t.update.status ≠ .scanning)

theorem Staged.evolve {P : Platform} {s s' : Store} {job : ImportJob} {t : Transition}
    (h : Staged P s job t) (hs : WellFormed s) (he : Evolves s s')
    (hj : s.jobs.get? job.id = some job) : Staged P s' job t where
  stage := by
    obtain ⟨observations, action, kind, actorId, requestId, now, auditId, ht, haction, hobs,
      hstates⟩ := h.stage
    exact ⟨observations, action, kind, actorId, requestId, now, auditId, ht, haction,
      hobs.evolve hs he hj, hstates⟩
  moves := h.moves

/-- An object that nobody will ask for: its file is infected or failed. -/
def Discarded (s : Store) (key : Text) : Prop :=
  ∃ id f, s.files.get? id = some f ∧ f.objectKey = key ∧ (f.state = .infected ∨ f.state = .failed)

theorem Discarded.evolve {s s' : Store} {key : Text} (h : Discarded s key)
    (he : Evolves s s') : Discarded s' key := by
  obtain ⟨id, f, hf, hkey, hstate⟩ := h
  obtain ⟨f', hf', hle⟩ := he.files hf
  have hsame : f'.state = f.state :=
    hle.state.eq_of_terminal (by rcases hstate with h | h <;> rw [h] <;> rfl)
  exact ⟨id, f', hf', hle.objectKey_eq.trans hkey, hsame.symm ▸ hstate⟩

/-! ### Effects -/

/-- Every write of the server, as it relates to the store it is committed on. -/
inductive Effect (P : Platform) (s : Store) : Write → Prop
  | nothing : Effect P s .nothing
  | insertFile {f : File} (hstate : f.state = .uploading) (hm : f.multipartId = none) :
      Effect P s (.insertFile f)
  | updateFile {id : UUID} {f : File} {u : FileUpdate} {row : Option AuditLog}
      (hget : s.files.get? id = some f) (hmove : FileMove f u)
      (hissued : ∀ m, u.multipartId = some m → m ∈ s.storage.issued)
      (hrow : ∀ r ∈ row, r.action = "file.upload.complete") :
      Effect P s (.updateFile id u row)
  | insertJob {job : ImportJob} {attachments : List ImportAttachment} {row : AuditLog}
      (hstatus : job.status = .uploading) (hresult : job.resultCode = none)
      (hsubmitted : job.submittedAt = none) (hne : attachments ≠ [])
      (hattachments : ∀ a ∈ attachments, a.jobId = job.id ∧
        ∃ f, s.files.get? a.fileId = some f ∧ f.multipartId ≠ none)
      (hrow : row.action = "import.create")
      (hmanifest : ∃ m : ImportJobCreate P, job.canonicalManifestJson = m.dump) :
      Effect P s (.insertJob job attachments row)
  | transition {job : ImportJob} {t : Transition} (hget : s.jobs.get? job.id = some job)
      (hstaged : Staged P s job t) : Effect P s (.transitions [t])
  | noTransition : Effect P s (.transitions [])
  | record {row : AuditLog} (h : row.outcome = "DENIED") : Effect P s (.record row)
  | createMultipart {key m : Text} (h : m ∉ s.storage.issued) :
      Effect P s (.call (.createMultipart key m))
  | abortMultipart {key m : Text} : Effect P s (.call (.abortMultipart key m))
  | completeMultipart {key m : Text} {content : Bytes} :
      Effect P s (.call (.completeMultipart key m content))
  | deleteObject {key : Text} (h : Discarded s key) : Effect P s (.call (.deleteObject key))
  | publish {fileId : UUID} : Effect P s (.publish fileId)
  | consume {fileId : UUID} : Effect P s (.consume fileId)

namespace Write

/-- The rows that a write updates. -/
def touches : Write → List Row
  | updateFile id _ _ => [.file id]
  | transitions ts => ts.map fun t => .job t.jobId
  | _ => []

end Write

theorem Staged.jobLe {P : Platform} {s : Store} {job : ImportJob} {t : Transition}
    (h : Staged P s job t) : JobLe job (t.update.apply job) := by
  obtain ⟨observations, action, kind, actorId, requestId, now, auditId, rfl, -, -, -⟩ := h.stage
  refine ⟨rfl, fun hterminal => ?_, fun _ => evaluateFiles_status_ne_uploading, fun at' hat => ?_⟩
  · rcases h.moves with hstatus | ⟨hstatus, -⟩ <;> rw [hstatus] at hterminal <;> cases hterminal
  · rw [JobUpdate.apply_submittedAt, hat]
    rfl

theorem Staged.jobId_eq {P : Platform} {s : Store} {job : ImportJob} {t : Transition}
    (h : Staged P s job t) : t.jobId = job.id := by
  obtain ⟨observations, action, kind, actorId, requestId, now, auditId, rfl, -, -, -⟩ := h.stage
  rfl

/-- The row after a transition meets the constraints, and its evaluation justifies it. -/
theorem Staged.jobOk {P : Platform} {s : Store} {job : ImportJob} {t : Transition}
    (h : Staged P s job t) : JobOk s (t.update.apply job) := by
  obtain ⟨observations, action, kind, actorId, requestId, now, auditId, rfl, -, hobs, hstates⟩ :=
    h.stage
  refine ⟨.inr ⟨evaluateFiles_status_ne_uploading, by simp⟩, ?_, fun _ =>
    ⟨observations, hobs, hstates, rfl⟩⟩
  rcases evaluateFiles_resultState job.baseSha256 observations with
    ⟨hstatus, hresult⟩ | hrejected
  · exact .inl ⟨List.mem_cons_of_mem _ hstatus, hresult⟩
  · exact .inr hrejected

namespace Effect

variable {P : Platform} {s s' : Store} {w : Write}

/-- A change of state that leaves no audit row. -/
theorem settle {id : UUID} {f : File} {st : FileState} {result : Option Text} {now : Instant}
    (hget : s.files.get? id = some f) (h : f.state.Move st) :
    Effect P s (.updateFile id (.settle st result now) none) :=
  .updateFile hget (.settle h) (fun _ hm => by cases hm) fun _ hr => by cases hr

theorem attachmentsOf_append {as : List ImportAttachment} {id : UUID}
    (hrows : s'.attachments.rows = s.attachments.rows ++ as) (h : ∀ a ∈ as, a.jobId ≠ id) :
    s'.attachmentsOf id = s.attachmentsOf id := by
  unfold Store.attachmentsOf
  rw [hrows, List.filter_append]
  have hnil : as.filter (fun a => decide (a.jobId = id)) = [] := by
    rw [List.filter_eq_nil_iff]
    intro a ha
    simpa using h a ha
  rw [hnil, List.append_nil]

theorem evolves (h : Effect P s w) (hw : s.write? w = some s') : Evolves s s' := by
  cases h with
  | nothing =>
      cases hw
      exact .refl s
  | insertFile hstate hm =>
      obtain ⟨files, hinsert, rfl⟩ := Store.write?_insertFile hw
      exact ⟨fun hf => ⟨_, Table.get?_insert?_of_some hinsert hf, .refl _⟩,
        fun hj => ⟨_, hj, .refl _⟩, fun _ => rfl, List.Subset.refl _⟩
  | @updateFile id f u row hget hmove hissued hrow =>
      obtain ⟨hfiles, hjobs, hatt, hstorage, -, -⟩ := Store.write?_updateFile hw
      refine ⟨fun {id' f'} hf => ?_, fun hj => ⟨_, by rw [hjobs]; exact hj, .refl _⟩,
        fun _ => by rw [Store.attachmentsOf, hatt]; rfl, by rw [hstorage]; exact List.Subset.refl _⟩
      rw [hfiles]
      by_cases hid : id' = id
      · subst hid
        obtain rfl : f = f' := Option.some.inj (hget.symm.trans hf)
        exact ⟨_, Table.get?_modify_self hget, hmove.le⟩
      · exact ⟨f', (Table.get?_modify_of_ne hid).trans hf, .refl _⟩
  | @insertJob job as row hstatus hresult hsubmitted hne hatt hrow hmanifest =>
      obtain ⟨hinsert, hfiles, hstorage, -, hrows, -, -⟩ := Store.write?_insertJob hw
      refine ⟨fun hf => ⟨_, by rw [hfiles]; exact hf, .refl _⟩,
        fun hj => ⟨_, Table.get?_insert?_of_some hinsert hj, .refl _⟩, fun {id j} hj => ?_,
        by rw [hstorage]; exact List.Subset.refl _⟩
      refine attachmentsOf_append hrows fun a ha hid => ?_
      have hkey : job.id ∉ s.jobs.rows.map ImportJob.id := (Table.insert?_eq_some_iff.mp hinsert).1
      refine hkey (List.mem_map.mpr ⟨j, Table.mem_of_get? hj, ?_⟩)
      rw [Table.key_of_get? hj, ← hid, (hatt a ha).1]
  | @transition job t hget hstaged =>
      have hid := hstaged.jobId_eq
      obtain ⟨-, hjobs, hfiles, hatt, hstorage, -, -⟩ :=
        Store.write?_transition (hid.symm ▸ hget) hw
      refine ⟨fun hf => ⟨_, by rw [hfiles]; exact hf, .refl _⟩, fun {id j} hj => ?_,
        fun _ => by rw [Store.attachmentsOf, hatt]; rfl, by rw [hstorage]; exact List.Subset.refl _⟩
      rw [hjobs]
      by_cases hjid : id = t.jobId
      · subst hjid
        obtain rfl : job = j := Option.some.inj (hget.symm.trans (hid ▸ hj))
        exact ⟨_, Table.get?_modify_self hj, hstaged.jobLe⟩
      · exact ⟨j, (Table.get?_modify_of_ne hjid).trans hj, .refl _⟩
  | noTransition =>
      cases hw
      exact .refl s
  | record h =>
      obtain ⟨hf, hj, ha, -, hs, -, -⟩ := Store.recordAudit_frame hw
      exact .of_tables hf hj ha (by rw [hs]; exact List.Subset.refl _)
  | createMultipart | abortMultipart | completeMultipart | deleteObject =>
      cases hw
      exact .of_tables rfl rfl rfl (Storage.issued_subset_perform _ _)
  | publish | consume =>
      cases hw
      exact .of_tables rfl rfl rfl (List.Subset.refl _)

/-- Rows that a write does not touch stay as they are. -/
theorem file_unchanged (hw : s.write? w = some s') (h : Effect P s w) {id : UUID} {f : File}
    (hr : .file id ∉ w.touches) (hget : s.files.get? id = some f) :
    s'.files.get? id = some f := by
  cases h with
  | nothing | noTransition | createMultipart | abortMultipart | completeMultipart | deleteObject
  | publish | consume =>
      cases hw
      exact hget
  | insertFile hstate hm =>
      obtain ⟨files, hinsert, rfl⟩ := Store.write?_insertFile hw
      exact Table.get?_insert?_of_some hinsert hget
  | updateFile hget' hmove hissued hrow =>
      rw [(Store.write?_updateFile hw).1, Table.get?_modify_of_ne]
      · exact hget
      · rintro rfl
        exact hr (List.mem_singleton.mpr rfl)
  | insertJob =>
      rw [(Store.write?_insertJob hw).2.1]
      exact hget
  | transition hjob hstaged =>
      rw [(Store.write?_transition (hstaged.jobId_eq.symm ▸ hjob) hw).2.2.1]
      exact hget
  | record =>
      rw [(Store.recordAudit_frame hw).1]
      exact hget

theorem job_unchanged (hw : s.write? w = some s') (h : Effect P s w) {id : UUID}
    {j : ImportJob} (hr : .job id ∉ w.touches) (hget : s.jobs.get? id = some j) :
    s'.jobs.get? id = some j := by
  cases h with
  | nothing | noTransition | createMultipart | abortMultipart | completeMultipart | deleteObject
  | publish | consume =>
      cases hw
      exact hget
  | insertFile hstate hm =>
      obtain ⟨files, -, rfl⟩ := Store.write?_insertFile hw
      exact hget
  | updateFile =>
      rw [(Store.write?_updateFile hw).2.1]
      exact hget
  | insertJob =>
      exact Table.get?_insert?_of_some (Store.write?_insertJob hw).1 hget
  | transition hjob hstaged =>
      rw [(Store.write?_transition (hstaged.jobId_eq.symm ▸ hjob) hw).2.1,
        Table.get?_modify_of_ne]
      · exact hget
      · rintro rfl
        exact hr (List.mem_singleton.mpr rfl)
  | record =>
      rw [(Store.recordAudit_frame hw).2.1]
      exact hget

/-- What a write does to one file row: nothing, its insertion, or one update. -/
theorem file_cases (hw : s.write? w = some s') (h : Effect P s w) {id : UUID} {f' : File}
    (hget' : s'.files.get? id = some f') :
    s.files.get? id = some f' ∨
      (s.files.get? id = none ∧ w = .insertFile f' ∧ f'.state = .uploading ∧
        f'.multipartId = none) ∨
      ∃ f u row, s.files.get? id = some f ∧ w = .updateFile id u row ∧ FileMove f u ∧
        f' = u.apply f := by
  cases h with
  | nothing | noTransition | createMultipart | abortMultipart | completeMultipart | deleteObject
  | publish | consume =>
      cases hw
      exact .inl hget'
  | @insertFile f hstate hm =>
      obtain ⟨files, hinsert, rfl⟩ := Store.write?_insertFile hw
      rw [Table.get?_insert? hinsert] at hget'
      split at hget'
      · rename_i hid
        obtain rfl : f = f' := Option.some.inj hget'
        refine .inr (.inl ⟨?_, rfl, hstate, hm⟩)
        rw [Table.get?_eq_none_iff, hid]
        exact fun r hr he => (Table.insert?_eq_some_iff.mp hinsert).1 (List.mem_map.mpr ⟨r, hr, he⟩)
      · exact .inl hget'
  | @updateFile id₀ f u row hget hmove hissued hrow =>
      rw [(Store.write?_updateFile hw).1, Table.get?_modify] at hget'
      split at hget'
      · rename_i hid
        subst hid
        rw [hget] at hget'
        exact .inr (.inr ⟨f, u, row, hget, rfl, hmove, (Option.some.inj hget').symm⟩)
      · exact .inl hget'
  | insertJob =>
      rw [(Store.write?_insertJob hw).2.1] at hget'
      exact .inl hget'
  | transition hjob hstaged =>
      rw [(Store.write?_transition (hstaged.jobId_eq.symm ▸ hjob) hw).2.2.1] at hget'
      exact .inl hget'
  | record =>
      rw [(Store.recordAudit_frame hw).1] at hget'
      exact .inl hget'

theorem storage_cases (hw : s.write? w = some s') (h : Effect P s w) :
    s'.storage = s.storage ∨ ∃ call, w = .call call ∧ s'.storage = s.storage.perform call := by
  cases h with
  | nothing | noTransition | publish | consume =>
      cases hw
      exact .inl rfl
  | createMultipart | abortMultipart | completeMultipart | deleteObject =>
      cases hw
      exact .inr ⟨_, rfl, rfl⟩
  | insertFile =>
      obtain ⟨files, -, rfl⟩ := Store.write?_insertFile hw
      exact .inl rfl
  | updateFile => exact .inl (Store.write?_updateFile hw).2.2.2.1
  | insertJob => exact .inl (Store.write?_insertJob hw).2.2.1
  | transition hjob hstaged =>
      exact .inl (Store.write?_transition (hstaged.jobId_eq.symm ▸ hjob) hw).2.2.2.2.1
  | record => exact .inl (Store.recordAudit_frame hw).2.2.2.2.1

/-- An upload id that was issued and is closed stays closed. -/
theorem upload_closed (hw : s.write? w = some s') (h : Effect P s w) {key m : Text}
    (hissued : m ∈ s.storage.issued) (hclosed : (key, m) ∉ s.storage.uploads) :
    (key, m) ∉ s'.storage.uploads := by
  intro hopen
  rcases h.storage_cases hw with hsame | ⟨call, rfl, hperform⟩
  · exact hclosed (hsame ▸ hopen)
  · rw [hperform] at hopen
    rcases Storage.mem_uploads_perform _ hopen with hopen | ⟨key', m', rfl, hnew⟩
    · exact hclosed hopen
    · obtain ⟨rfl, rfl⟩ := Prod.mk.inj hnew
      cases h with
      | createMultipart hfresh => exact hfresh hissued

end Effect

/-- Well-formedness passes to a later store when its new rows are well formed. -/
theorem WellFormed.evolve {s s' : Store} (hs : WellFormed s) (he : Evolves s s')
    (hissued : ∀ u ∈ s'.storage.uploads, u.2 ∈ s'.storage.issued)
    (hattached : ∀ a ∈ s'.attachments.rows, a ∈ s.attachments.rows ∨ Attached s' a)
    (hjobs : ∀ {id j}, s'.jobs.get? id = some j →
      s.jobs.get? id = some j ∨ (JobOk s' j ∧ s'.attachmentsOf id ≠ [])) : WellFormed s' where
  issued := hissued
  attached a ha := by
    rcases hattached a ha with ha | ha
    · exact (hs.attached a ha).evolve he
    · exact ha
  attachments hj := by
    rcases hjobs hj with hj | hj
    · rw [he.attachments hj]
      exact hs.attachments hj
    · exact hj.2
  jobs hj := by
    rcases hjobs hj with hj | hj
    · exact (hs.jobs hj).evolve hs he hj
    · exact hj.1

theorem attached_of_attachable {s : Store} {a : ImportAttachment} (h : s.attachable a = true)
    (hm : ∃ f, s.files.get? a.fileId = some f ∧ f.multipartId ≠ none) : Attached s a := by
  obtain ⟨f, hf, hm⟩ := hm
  simp only [Store.attachable, hf, Bool.and_eq_true, decide_eq_true_eq] at h
  obtain ⟨⟨hjob, hfile⟩, hupload⟩ := h
  split at hjob
  · rename_i j hj
    exact ⟨⟨j, hj, of_decide_eq_true hjob⟩, ⟨f, hf, hfile, hm⟩, hupload⟩
  · cases hjob

theorem Effect.wellFormed {P : Platform} {s s' : Store} {w : Write} (h : Effect P s w)
    (hs : WellFormed s) (hw : s.write? w = some s') : WellFormed s' := by
  have he := h.evolves hw
  cases h with
  | nothing | noTransition | publish | consume =>
      cases hw
      exact hs.evolve he hs.issued (fun a ha => .inl ha) .inl
  | insertFile hstate hm =>
      obtain ⟨files, -, rfl⟩ := Store.write?_insertFile hw
      exact hs.evolve he hs.issued (fun a ha => .inl ha) .inl
  | updateFile =>
      obtain ⟨-, hjobs, hatt, hstorage, -, -⟩ := Store.write?_updateFile hw
      exact hs.evolve he (by rw [hstorage]; exact hs.issued) (fun a ha => .inl (hatt ▸ ha))
        (fun hj => .inl (hjobs ▸ hj))
  | @insertJob job as row hstatus hresult hsubmitted hne hatt hrow hmanifest =>
      obtain ⟨hinsert, hfiles, hstorage, -, hrows, -, hattachable⟩ := Store.write?_insertJob hw
      refine hs.evolve he (by rw [hstorage]; exact hs.issued) (fun a ha => ?_) fun {id j} hj => ?_
      · rw [hrows] at ha
        rcases List.mem_append.mp ha with ha | ha
        · exact .inl ha
        · obtain ⟨f, hf, hm⟩ := (hatt a ha).2
          refine .inr (attached_of_attachable ?_ ⟨f, by rw [hfiles]; exact hf, hm⟩)
          have hok := hattachable a ha
          unfold Store.attachable at hok ⊢
          rwa [hfiles]
      · rw [Table.get?_insert? hinsert] at hj
        split at hj
        · rename_i hid
          subst hid
          obtain rfl : job = j := Option.some.inj hj
          refine .inr ⟨⟨.inl ⟨hstatus, hsubmitted⟩, .inl ⟨by simp [hstatus], hresult⟩,
            fun hne => absurd hstatus hne⟩, ?_⟩
          obtain ⟨a, ha⟩ := List.exists_mem_of_ne_nil as hne
          refine List.ne_nil_of_mem (Store.mem_attachmentsOf.mpr ⟨?_, (hatt a ha).1⟩)
          rw [hrows]
          exact List.mem_append_right _ ha
        · exact .inl hj
  | @transition job t hget hstaged =>
      have hid := hstaged.jobId_eq
      obtain ⟨-, hjobs, hfiles, hatt, hstorage, -, -⟩ :=
        Store.write?_transition (hid.symm ▸ hget) hw
      refine hs.evolve he (by rw [hstorage]; exact hs.issued) (fun a ha => .inl (hatt ▸ ha))
        fun {id j} hj => ?_
      rw [hjobs, Table.get?_modify] at hj
      split at hj
      · rename_i hjid
        obtain ⟨j₀, hj₀, rfl⟩ := Option.map_eq_some_iff.mp hj
        obtain rfl : job = j₀ := Option.some.inj (hget.symm.trans (hid ▸ hjid ▸ hj₀))
        refine .inr ⟨?_, ?_⟩
        · exact (hstaged.evolve hs he hget).jobOk
        · rw [he.attachments hj₀]
          exact hs.attachments hj₀
      · exact .inl hj
  | record h =>
      obtain ⟨-, hj, ha, -, hst, -, -⟩ := Store.recordAudit_frame hw
      exact hs.evolve he (by rw [hst]; exact hs.issued) (fun a h => .inl (ha ▸ h))
        (fun h => .inl (hj ▸ h))
  | createMultipart | abortMultipart | completeMultipart | deleteObject =>
      cases hw
      refine hs.evolve he (fun u hu => ?_) (fun a ha => .inl ha) .inl
      rcases Storage.mem_uploads_perform _ hu with hu | ⟨key, m, hcall, rfl⟩
      · exact he.issued (hs.issued u hu)
      · simp_all [Storage.perform]

end SuperBoss.Server
