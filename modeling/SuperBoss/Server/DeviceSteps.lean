import SuperBoss.Server.DeviceView

/-!
The operations of a device, one action at a time: on the store and on what the
device sees of it they go on in the same way, with the same write.
-/

namespace SuperBoss.Server

open SuperBoss.Core
open SuperBoss.Library
open SuperBoss.Library.Interleaving
open SuperBoss.Library.Transition
open SuperBoss.Files
open SuperBoss.Imports
open SuperBoss.Infrastructure.Clamav

/-- A write that does the same to the store and to what the device sees of it. -/
def Seen (d : UUID) (s : Store) (w : Write) : Prop :=
  (s.view d).write? w = (s.write? w).map (Store.view d)

/-- The action that a step makes is the same with the view, and so is its write. -/
structure SameStep {Pc Result : Type} (d : UUID) (s : Store)
    (step : Store → Option (Outcome Pc Result)) : Prop where
  same : step (s.view d) = step s
  seen : ∀ o, step s = some o → Seen d s o.write

section outcomes

variable {Pc Result : Type} {d : UUID} {s : Store} {w : Write} {o : Outcome Pc Result}

theorem seen_nothing : Seen d s .nothing := rfl

theorem seen_call (call : StorageCall) : Seen d s (.call call) := rfl

theorem seen_publish (id : UUID) : Seen d s (.publish id) := rfl

theorem seen_record (row : AuditLog) : Seen d s (.record row) := recordAudit_view row

theorem seen_updateFile (id : UUID) (u : FileUpdate) (row : Option AuditLog) :
    Seen d s (.updateFile id u row) := updateFile_view id u row

theorem seen_read {fate : Fate} (h : Seen d s o.write) : Seen d s (Outcome.read fate o).write := by
  rcases Outcome.read_cases fate o with heq | heq
  · rwa [heq]
  · rw [heq]
    exact seen_nothing

theorem seen_commit {fate : Fate} {next : Progress Pc Result} (h : Seen d s w) :
    Seen d s (Outcome.commit s fate w next).write := by
  rcases Outcome.commit_cases s fate w next with ⟨-, heq | heq⟩ | heq
  · rwa [heq]
  · rwa [heq]
  · rw [heq]
    exact seen_nothing

theorem seen_attempt {fate : Fate} {next : Progress Pc Result} (h : Seen d s w) :
    Seen d s (Outcome.attempt fate w next).write := by
  unfold Outcome.attempt
  simp only
  split
  · exact h
  · exact seen_nothing

/-- A commit is accepted of the view as it is of the store. -/
theorem commit_view {fate : Fate} {next : Progress Pc Result} (h : Seen d s w) :
    Outcome.commit (s.view d) fate w next = Outcome.commit s fate w next := by
  unfold Outcome.commit
  rw [show (s.view d).write? w = _ from h]
  cases s.write? w <;> cases fate <;> rfl

theorem sameStep_deny {a : Answer} {row : AuditLog} {error : DomainError} :
    SameStep d s fun s => some (denyWith s a row error : Outcome Pc Result) where
  same := congrArg some (commit_view (seen_record row))
  seen o ho := by
    cases ho
    exact seen_commit (seen_record row)

end outcomes

/-! ### Uploads -/

section uploads

variable {P : Platform} {d : UUID} {s : Store} {a : Answer}

theorem StartCall.seen_reuse {fp : Text} {f : File} : Seen d s (reuse fp f).write := by
  unfold reuse
  split <;> exact seen_nothing

theorem StartCall.view_step {c : StartCall} {pc : StartPc} (howned : Owned P s)
    (hkind : c.actor.kind = .device) (hdevice : c.actor.subjectId = d) (hfresh : Fresh d s a)
    (hpc : pc.Matches P c s) : SameStep d s fun s => c.step P a s pc := by
  cases pc with
  | select =>
      refine ⟨?_, fun o ho => ?_⟩
      · simp only [step, existing_view hkind hdevice]
      · cases ho
        split
        · exact seen_nothing
        · split
          · exact seen_nothing
          · split
            · exact seen_nothing
            · refine seen_read ?_
              split
              · exact seen_reuse
              · exact seen_nothing
  | insert =>
      have hinsert : ∀ fp, Seen d s (.insertFile (c.newFile P fp a.uuid a.now)) := fun fp =>
        insertFile_view howned hkind hdevice hfresh
      refine ⟨?_, fun o ho => ?_⟩
      · simp only [step, existing_view hkind hdevice, commit_view (hinsert _)]
      · cases ho
        split
        · exact seen_nothing
        · split
          · exact seen_read seen_reuse
          · exact seen_commit (hinsert _)
  | lock fileId =>
      obtain ⟨f, hf, hmatches⟩ := hpc
      have hshows : showsFile d f = true := by
        rw [showsFile_of_device (hmatches.uploader.1.trans hkind)]
        exact decide_eq_true (hmatches.uploader.2.trans hdevice)
      refine ⟨?_, fun o ho => ?_⟩
      · simp only [step, hf, get?_view_file hf hshows]
      · simp only [step, hf, Option.some.injEq] at ho
        subst ho
        refine seen_read ?_
        split
        · exact seen_nothing
        · split <;> exact seen_nothing
  | list file =>
      refine ⟨rfl, fun o ho => ?_⟩
      cases ho
      split
      · exact seen_nothing
      · split <;> exact seen_nothing
  | abort file leftovers =>
      refine ⟨rfl, fun o ho => ?_⟩
      cases leftovers with
      | nil =>
          cases ho
          exact seen_nothing
      | cons m rest =>
          cases ho
          exact seen_attempt (seen_call _)
  | create file =>
      refine ⟨rfl, fun o ho => ?_⟩
      simp only [step] at ho
      split at ho
      · cases ho
      · cases ho
        exact seen_attempt (seen_call _)
  | commit file multipartId =>
      have hupdate := seen_updateFile (d := d) (s := s) file.id (.provision multipartId a.now) none
      refine ⟨?_, fun o ho => ?_⟩
      · simp only [step, commit_view hupdate]
      · cases ho
        exact seen_commit hupdate

/-- The file that a request of the device has resolved. -/
def ShownFile (d : UUID) (s : Store) (id : UUID) : Prop :=
  ∃ f, s.files.get? id = some f ∧ showsFile d f = true

/-- The row of an attachment with those that it belongs to, as the query joins them. -/
def joined (s : Store) (device jobId attachmentId : UUID) : Option (ImportJob × ImportAttachment) := do
  let job ← s.jobs.get? jobId
  let attachment ← s.attachments.get? attachmentId
  let file ← s.files.get? attachment.fileId
  if attachment.jobId = jobId ∧ attachment.projectId = job.projectId ∧
      file.projectId = attachment.projectId ∧ file.id = attachment.uploadId ∧
      job.deviceId = device then
    some (job, attachment)
  else none

theorem joined_eq_some {device jobId attachmentId : UUID} {j : ImportJob} {b : ImportAttachment} :
    joined s device jobId attachmentId = some (j, b) ↔
      ∃ f, s.jobs.get? jobId = some j ∧ s.attachments.get? attachmentId = some b ∧
        s.files.get? b.fileId = some f ∧ b.jobId = jobId ∧ b.projectId = j.projectId ∧
        f.projectId = b.projectId ∧ f.id = b.uploadId ∧ j.deviceId = device := by
  constructor
  · intro h
    obtain ⟨j', hj, h⟩ := Option.bind_eq_some_iff.mp h
    obtain ⟨b', hb, h⟩ := Option.bind_eq_some_iff.mp h
    obtain ⟨f, hf, h⟩ := Option.bind_eq_some_iff.mp h
    split at h
    · rename_i hjoin
      cases h
      exact ⟨f, hj, hb, hf, hjoin⟩
    · cases h
  · rintro ⟨f, hj, hb, hf, hjoin⟩
    refine Option.bind_eq_some_iff.mpr ⟨j, hj, Option.bind_eq_some_iff.mpr ⟨b, hb,
      Option.bind_eq_some_iff.mpr ⟨f, hf, if_pos hjoin⟩⟩⟩

theorem joined_view (howned : Owned P s) {jobId attachmentId : UUID} :
    joined (s.view d) d jobId attachmentId = joined s d jobId attachmentId := by
  ext ⟨j, b⟩
  rw [joined_eq_some, joined_eq_some]
  constructor
  · rintro ⟨f, hj, hb, hf, hjoin⟩
    rw [get?_view_job_eq] at hj
    have hb' : (s.attachments.filter (s.showsAttachment d)).get? attachmentId = some b := hb
    have hf' : (s.files.filter (showsFile d)).get? b.fileId = some f := hf
    rw [Table.get?_filter] at hb' hf'
    exact ⟨f, (Option.filter_eq_some_iff.mp hj).1, (Option.filter_eq_some_iff.mp hb').1,
      (Option.filter_eq_some_iff.mp hf').1, hjoin⟩
  · rintro ⟨f, hj, hb, hf, rfl, hprojects, hproject, hupload, hdevice⟩
    have hshows : showsJob d j = true := decide_eq_true hdevice
    obtain ⟨f', hf', hfile⟩ := howned.file_of_attachment (Table.mem_of_get? hb) hj hshows
    obtain rfl := Option.some.inj (hf.symm.trans hf')
    exact ⟨f, get?_view_job hj hshows,
      Table.get?_filter_of_shown hb (showsAttachment_of_job hj hshows), get?_view_file hf hfile, rfl,
      hprojects, hproject, hupload, hdevice⟩

theorem resolve_eq (s : Store) (actor : Actor) (jobId attachmentId : UUID) :
    resolveAttachmentUpload s actor jobId attachmentId =
      if !actor.isImportDevice "imports:upload" then .error (uploadForbidden, none)
      else
        match joined s actor.subjectId jobId attachmentId with
        | none => .error
            (notFoundError "IMPORT_ATTACHMENT_NOT_FOUND" "Import attachment not found", none)
        | some (job, attachment) =>
            if actor.projectIds.contains job.projectId then .ok attachment.uploadId
            else .error (uploadForbidden, some job.projectId) := rfl

theorem resolve_view (howned : Owned P s) {actor : Actor} (hdevice : actor.subjectId = d)
    {jobId attachmentId : UUID} :
    resolveAttachmentUpload (s.view d) actor jobId attachmentId =
      resolveAttachmentUpload s actor jobId attachmentId := by
  rw [resolve_eq, resolve_eq, hdevice, joined_view howned]

/-- A resolved upload is a file that the device sees. -/
theorem shownFile_of_resolve (howned : Owned P s) {actor : Actor} (hdevice : actor.subjectId = d)
    {jobId attachmentId uploadId : UUID}
    (h : resolveAttachmentUpload s actor jobId attachmentId = .ok uploadId) :
    ShownFile d s uploadId := by
  rw [resolve_eq] at h
  split at h
  · cases h
  · split at h
    · cases h
    · rename_i j b hjoined
      split at h
      · obtain ⟨f, hj, hb, hf, rfl, -, -, hupload, hjdevice⟩ := joined_eq_some.mp hjoined
        obtain ⟨f', hf', hfile⟩ := howned.file_of_attachment (Table.mem_of_get? hb) hj
          (decide_eq_true (hjdevice.trans hdevice))
        obtain rfl := Option.some.inj (hf.symm.trans hf')
        cases h
        refine ⟨f, ?_, hfile⟩
        rw [← hupload, Table.key_of_get? hf]
        exact hf
      · cases h

/-- The upload that a request is at work on. -/
def PresignPc.Own (d : UUID) (s : Store) : PresignPc → Prop
  | lock uploadId => ShownFile d s uploadId
  | resolve | deny _ _ => True

theorem PresignCall.view_step {c : PresignCall} {pc : PresignPc} (howned : Owned P s)
    (hdevice : c.actor.subjectId = d) (hpc : pc.Own d s) :
    SameStep d s fun s => c.step a s pc := by
  cases pc with
  | resolve =>
      refine ⟨?_, fun o ho => ?_⟩
      · simp only [step, resolve_view howned hdevice]
      · simp only [step] at ho
        split at ho
        · cases ho
        · cases ho
          refine seen_read ?_
          split <;> exact seen_nothing
  | deny error projectId =>
      simp only [step]
      cases c.target with
      | upload => exact ⟨rfl, fun o ho => (by cases ho)⟩
      | attachment => exact sameStep_deny
  | lock uploadId =>
      obtain ⟨f, hf, hshows⟩ := hpc
      refine ⟨?_, fun o ho => ?_⟩
      · simp only [step, hf, get?_view_file hf hshows]
      · simp only [step, hf, Option.some.injEq] at ho
        subst ho
        split
        · exact seen_nothing
        · refine seen_read ?_
          split
          · exact seen_nothing
          · split
            · exact seen_nothing
            · split <;> exact seen_nothing

theorem PresignCall.own_step {c : PresignCall} {pc : PresignPc} {o : Outcome PresignPc PartUrl}
    (howned : Owned P s) (hdevice : c.actor.subjectId = d) (h : c.step a s pc = some o) :
    o.progress.Holds (PresignPc.Own d s) fun _ => True := by
  cases pc with
  | resolve =>
      simp only [step] at h
      split at h
      · cases h
      · cases h
        refine Outcome.holds_read ?_
        split
        · trivial
        · rename_i uploadId hresolve
          exact shownFile_of_resolve howned hdevice hresolve
  | deny error projectId =>
      simp only [step] at h
      split at h
      · cases h
      · cases h
        exact Outcome.holds_commit trivial
  | lock uploadId =>
      cases h
      split
      · trivial
      · refine Outcome.holds_read ?_
        split
        · trivial
        · split
          · trivial
          · split
            · trivial
            · split <;> trivial

def CompletePc.Own (d : UUID) (s : Store) : CompletePc → Prop
  | lock uploadId => ShownFile d s uploadId
  | resolve | deny _ _ | finalize _ _ | settle _ _ | discard _ | enqueue _ => True

theorem CompleteCall.view_step {c : CompleteCall} {pc : CompletePc} (howned : Owned P s)
    (hdevice : c.actor.subjectId = d) (hpc : pc.Own d s) :
    SameStep d s fun s => c.step a s pc := by
  cases pc with
  | resolve =>
      refine ⟨?_, fun o ho => ?_⟩
      · simp only [step, resolve_view howned hdevice]
      · simp only [step] at ho
        split at ho
        · cases ho
        · cases ho
          refine seen_read ?_
          split <;> exact seen_nothing
  | deny error projectId =>
      simp only [step]
      cases c.target with
      | upload => exact ⟨rfl, fun o ho => (by cases ho)⟩
      | attachment => exact sameStep_deny
  | lock uploadId =>
      obtain ⟨f, hf, hshows⟩ := hpc
      refine ⟨?_, fun o ho => ?_⟩
      · simp only [step, hf, get?_view_file hf hshows]
      · simp only [step, hf, Option.some.injEq] at ho
        subst ho
        refine seen_read ?_
        split
        · exact seen_nothing
        · split
          · exact seen_nothing
          · split
            · exact seen_nothing
            · split <;> exact seen_nothing
  | finalize file multipartId =>
      refine ⟨rfl, fun o ho => ?_⟩
      cases ho
      split
      · exact seen_nothing
      · exact seen_attempt (seen_call _)
  | settle file sizeBytes =>
      refine ⟨?_, fun o ho => ?_⟩
      · simp only [step, commit_view (seen_updateFile _ _ _)]
      · cases ho
        split <;> exact seen_commit (seen_updateFile _ _ _)
  | discard objectKey =>
      refine ⟨rfl, fun o ho => ?_⟩
      cases ho
      exact seen_attempt (seen_call _)
  | enqueue file =>
      refine ⟨rfl, fun o ho => ?_⟩
      cases ho
      exact seen_attempt (seen_publish _)

theorem CompleteCall.own_step {c : CompleteCall} {pc : CompletePc} {o : Outcome CompletePc File}
    (howned : Owned P s) (hdevice : c.actor.subjectId = d) (h : c.step a s pc = some o) :
    o.progress.Holds (CompletePc.Own d s) fun _ => True := by
  cases pc with
  | resolve =>
      simp only [step] at h
      split at h
      · cases h
      · cases h
        refine Outcome.holds_read ?_
        split
        · trivial
        · rename_i uploadId hresolve
          exact shownFile_of_resolve howned hdevice hresolve
  | deny error projectId =>
      simp only [step] at h
      split at h
      · cases h
      · cases h
        exact Outcome.holds_commit trivial
  | lock uploadId =>
      cases h
      refine Outcome.holds_read ?_
      split
      · trivial
      · split
        · trivial
        · split
          · trivial
          · split
            · trivial
            · split <;> trivial
  | finalize file multipartId =>
      cases h
      split
      · trivial
      · show Progress.Holds _ _ (if _ then _ else _)
        split <;> trivial
  | settle file sizeBytes =>
      cases h
      split <;> exact Outcome.holds_commit trivial
  | discard objectKey =>
      cases h
      trivial
  | enqueue file =>
      cases h
      trivial

end uploads

/-! ### Jobs -/

section jobs

variable {P : Platform} {d : UUID} {s : Store} {a : Answer}

/-- A job of the device. -/
def ShownJob (d : UUID) (s : Store) (id : UUID) : Prop :=
  ∃ j, s.jobs.get? id = some j ∧ showsJob d j = true

theorem jobResult_view {job : ImportJob} (hget : s.jobs.get? job.id = some job)
    (hshows : showsJob d job = true) : (s.view d).jobResult job = s.jobResult job := by
  unfold Store.jobResult
  rw [attachmentsOf_view hget hshows]

/-- A job is looked up in the view as in the store, but for the jobs that the
caller treats as missing. -/
theorem job_view_cases (d : UUID) (s : Store) (id : UUID) :
    (∃ j, s.jobs.get? id = some j ∧ (s.view d).jobs.get? id = some j ∧ j.id = id ∧
        j.deviceId = d) ∨
      (s.view d).jobs.get? id = none ∧ ∀ j, s.jobs.get? id = some j → j.deviceId ≠ d := by
  rw [get?_view_job_eq]
  cases hget : s.jobs.get? id with
  | none => exact .inr ⟨rfl, fun j hj => (by cases hj)⟩
  | some j =>
      by_cases hj : j.deviceId = d
      · refine .inl ⟨j, rfl, ?_, Table.key_of_get? hget, hj⟩
        exact Option.filter_eq_some_iff.mpr ⟨rfl, decide_eq_true hj⟩
      · refine .inr ⟨?_, fun k hk => Option.some.inj hk ▸ hj⟩
        rw [Option.filter_some, showsJob, decide_eq_false hj]
        rfl

def SubmitPc.Own (d : UUID) : SubmitPc → Prop
  | observe job | commit job _ => showsJob d job = true
  | preflight | deny _ _ | lock _ => True

theorem SubmitCall.view_step {c : SubmitCall} {pc : SubmitPc} (howned : Owned P s)
    (hdevice : c.actor.subjectId = d) (hok : pc.Ok P s) (hpc : pc.Own d) :
    SameStep d s fun s => c.step P a s pc := by
  cases pc with
  | preflight =>
      refine ⟨?_, fun o ho => ?_⟩
      · rcases job_view_cases d s c.jobId with ⟨j, hget, hview, -, -⟩ | ⟨hview, hforeign⟩
        · simp only [step, hget, hview]
        · cases hget : s.jobs.get? c.jobId with
          | none => simp only [step, hget, hview]
          | some j =>
              have hne : j.deviceId ≠ c.actor.subjectId := hdevice ▸ hforeign j hget
              simp only [step, hget, hview, if_pos hne]
      · cases ho
        split
        · exact seen_nothing
        · refine seen_read ?_
          split
          · exact seen_nothing
          · split
            · exact seen_nothing
            · split <;> exact seen_nothing
  | deny error projectId => exact sameStep_deny
  | lock projectId =>
      refine ⟨?_, fun o ho => ?_⟩
      · rcases job_view_cases d s c.jobId with ⟨j, hget, hview, hid, hj⟩ | ⟨hview, hforeign⟩
        · have hresult := jobResult_view (hid.symm ▸ hget) (decide_eq_true hj)
          simp only [step, hget, hview, hresult]
        · cases hget : s.jobs.get? c.jobId with
          | none => simp only [step, hget, hview]
          | some j =>
              have hne : j.deviceId ≠ c.actor.subjectId := hdevice ▸ hforeign j hget
              simp only [step, hget, hview, if_pos hne]
      · cases ho
        refine seen_read ?_
        split
        · exact seen_nothing
        · split
          · exact seen_nothing
          · split
            · exact seen_nothing
            · split <;> exact seen_nothing
  | observe job =>
      refine ⟨?_, fun o ho => ?_⟩
      · simp only [step, howned.observations_view hok.1 hpc, jobResult_view hok.1 hpc]
      · cases ho
        refine seen_read ?_
        simp only
        split
        · exact seen_nothing
        · split <;> exact seen_nothing
  | commit job t =>
      obtain ⟨hget, hstaged⟩ := hok
      have hid : t.jobId = job.id := hstaged.jobId_eq
      have hseen : Seen d s (.transitions [t]) := transition_view (hid ▸ hget) hpc
      have hkey : (t.update.apply job).id = job.id := rfl
      have hresult : (s.view d).jobResult (t.update.apply job) =
          s.jobResult (t.update.apply job) := by
        unfold Store.jobResult
        rw [hkey, attachmentsOf_view hget hpc]
      refine ⟨?_, fun o ho => ?_⟩
      · simp only [step, commit_view hseen, hresult]
      · cases ho
        exact seen_commit hseen

theorem SubmitCall.own_step {c : SubmitCall} {pc : SubmitPc} {o : Outcome SubmitPc ImportJobResult}
    (hdevice : c.actor.subjectId = d) (hpc : pc.Own d) (h : c.step P a s pc = some o) :
    o.progress.Holds (SubmitPc.Own d) fun _ => True := by
  cases pc with
  | preflight =>
      cases h
      split
      · trivial
      · refine Outcome.holds_read ?_
        split
        · trivial
        · split
          · trivial
          · split <;> trivial
  | deny error projectId =>
      cases h
      exact Outcome.holds_commit trivial
  | lock projectId =>
      cases h
      refine Outcome.holds_read ?_
      split
      · trivial
      · split
        · trivial
        · rename_i howner
          split
          · trivial
          · split
            · trivial
            · exact decide_eq_true ((not_not.mp howner).trans hdevice)
  | observe job =>
      cases h
      refine Outcome.holds_read ?_
      simp only
      split
      · trivial
      · split
        · trivial
        · exact hpc
  | commit job t =>
      cases h
      exact Outcome.holds_commit trivial

/-- A file that the device uploaded. -/
def Uploads (d : UUID) (s : Store) (id : UUID) : Prop :=
  ∃ f, s.files.get? id = some f ∧ f.uploaderId = d

def ReconcilePc.Own (d : UUID) (s : Store) : ReconcilePc → Prop
  | lookup => True
  | lock jobIds => ∀ id ∈ jobIds, ShownJob d s id
  | observe _ todo staged =>
      (∀ j ∈ todo, showsJob d j = true) ∧ ∀ t ∈ staged, ShownJob d s t.jobId
  | commit _ staged => ∀ t ∈ staged, ShownJob d s t.jobId

theorem lookup_view (howned : Owned P s) {fileId : UUID} (hfile : Uploads d s fileId) :
    (s.view d).attachments.rows.filter (fun t => decide (t.fileId = fileId)) =
      s.attachments.rows.filter fun t => decide (t.fileId = fileId) := by
  refine filter_view_attachments fun b hb hmatch => ?_
  obtain ⟨f, hf, hdevice⟩ := hfile
  obtain rfl := of_decide_eq_true hmatch
  exact howned.shows_of_file hb hf hdevice

theorem locked_view {jobIds : List UUID} (hshown : ∀ id ∈ jobIds, ShownJob d s id) :
    (s.view d).jobs.rows.filter (fun j => decide (j.id ∈ jobIds)) =
      s.jobs.rows.filter fun j => decide (j.id ∈ jobIds) := by
  show (s.jobs.rows.filter (showsJob d)).filter _ = _
  rw [List.filter_filter]
  refine List.filter_congr fun j hj => ?_
  by_cases hmem : j.id ∈ jobIds
  · obtain ⟨j', hget, hshows⟩ := hshown j.id hmem
    obtain rfl := Option.some.inj ((Table.get?_of_mem hj).symm.trans hget)
    rw [hshows, Bool.and_true]
  · rw [decide_eq_false hmem, Bool.false_and]

theorem ReconcilePc.view_step {fileId : UUID} {pc : ReconcilePc} (howned : Owned P s)
    (hfile : Uploads d s fileId) (hok : pc.Ok P s) (hpc : pc.Own d s) :
    SameStep d s fun s => pc.step P fileId a s := by
  cases pc with
  | lookup =>
      refine ⟨?_, fun o ho => ?_⟩
      · simp only [step, lookup_view howned hfile]
      · cases ho
        refine seen_read ?_
        simp only
        split <;> exact seen_nothing
  | lock jobIds =>
      refine ⟨?_, fun o ho => ?_⟩
      · simp only [step, locked_view hpc]
      · cases ho
        exact seen_read seen_nothing
  | observe locked todo staged =>
      refine ⟨?_, fun o ho => ?_⟩
      · cases todo with
        | nil => rfl
        | cons job todo =>
            have hget := (hok.snapshots job List.mem_cons_self).2
            have hshows := hpc.1 job List.mem_cons_self
            simp only [step, howned.observations_view hget hshows]
      · cases ho
        split
        · exact seen_nothing
        · split
          · exact seen_nothing
          · refine seen_read ?_
            simp only
            split <;> exact seen_nothing
  | commit locked staged =>
      have hseen : Seen d s (.transitions staged) := by
        have hsingle := hok.single
        cases staged with
        | nil => rfl
        | cons t rest =>
            obtain rfl : rest = [] := by
              rw [List.length_cons, List.length_nil] at hsingle
              exact List.length_eq_zero_iff.mp (by omega)
            obtain ⟨j, hget, hshows⟩ := hpc t List.mem_cons_self
            exact transition_view hget hshows
      refine ⟨?_, fun o ho => ?_⟩
      · simp only [step, commit_view hseen]
      · cases ho
        exact seen_commit hseen

theorem ReconcilePc.own_step {fileId : UUID} {pc : ReconcilePc} {o : Outcome ReconcilePc Unit}
    (howned : Owned P s) (hfile : Uploads d s fileId) (hok : pc.Ok P s) (hpc : pc.Own d s)
    (h : pc.step P fileId a s = some o) :
    o.progress.Holds (ReconcilePc.Own d s) fun _ => True := by
  cases pc with
  | lookup =>
      cases h
      refine Outcome.holds_read ?_
      simp only
      split
      · trivial
      · intro id hid
        rw [List.mem_insertionSort, List.mem_dedup] at hid
        obtain ⟨b, hb, rfl⟩ := List.mem_map.mp hid
        obtain ⟨hmem, hmatch⟩ := List.mem_filter.mp hb
        obtain ⟨f, hf, hdevice⟩ := hfile
        obtain rfl := of_decide_eq_true hmatch
        obtain ⟨j, f', hj, hf', -, hsame⟩ := howned.attached b hmem
        obtain rfl := Option.some.inj (hf.symm.trans hf')
        exact ⟨j, hj, decide_eq_true (hsame.symm.trans hdevice)⟩
  | lock jobIds =>
      cases h
      refine Outcome.holds_read ⟨fun j hj => ?_, List.forall_mem_nil _⟩
      rw [List.mem_insertionSort] at hj
      obtain ⟨hmem, hid⟩ := List.mem_filter.mp hj
      obtain ⟨j', hget, hshows⟩ := hpc j.id (of_decide_eq_true hid)
      obtain rfl := Option.some.inj ((Table.get?_of_mem hmem).symm.trans hget)
      exact hshows
  | observe locked todo staged =>
      cases h
      obtain ⟨htodo, hstaged⟩ := hpc
      cases todo with
      | nil => exact hstaged
      | cons job todo =>
          have hrest : ∀ j ∈ todo, showsJob d j = true := fun j hj =>
            htodo j (List.mem_cons_of_mem job hj)
          simp only
          split
          · exact ⟨hrest, hstaged⟩
          · refine Outcome.holds_read ?_
            split
            · exact ⟨hrest, hstaged⟩
            · refine ⟨hrest, fun t ht => ?_⟩
              rcases List.mem_append.mp ht with ht | ht
              · exact hstaged t ht
              · rw [List.mem_singleton.mp ht]
                exact ⟨job, (hok.snapshots job List.mem_cons_self).2, htodo job List.mem_cons_self⟩
  | commit locked staged =>
      cases h
      exact Outcome.holds_commit trivial

/-- The files that a read request still has to reconcile are the device's. -/
def ReadPc.Own (d : UUID) (s : Store) : ReadPc → Prop
  | reconcile _ fileId rest pc => (∀ id ∈ fileId :: rest, Uploads d s id) ∧ pc.Own d s
  | load | deny _ _ | view _ => True

theorem mapM_congr {α β : Type} {f g : α → Option β} {l : List α} (h : ∀ a ∈ l, f a = g a) :
    l.mapM f = l.mapM g := by
  induction l with
  | nil => rfl
  | cons a l ih =>
      rw [List.mapM_cons, List.mapM_cons, h a List.mem_cons_self,
        ih fun b hb => h b (List.mem_cons_of_mem a hb)]

theorem jobView_view (howned : Owned P s) {job : ImportJob}
    (hget : s.jobs.get? job.id = some job) (hshows : showsJob d job = true) :
    jobView P (s.view d) job = jobView P s job := by
  have hviews : (s.attachmentsOf job.id).mapM (attachmentView (s.view d)) =
      (s.attachmentsOf job.id).mapM (attachmentView s) := by
    refine mapM_congr fun b hb => ?_
    obtain ⟨hmem, hjob⟩ := Store.mem_attachmentsOf.mp hb
    obtain ⟨f, hf, hfile⟩ := howned.file_of_attachment hmem (hjob.symm ▸ hget) hshows
    unfold attachmentView
    rw [hf, get?_view_file hf hfile]
  unfold jobView
  rw [attachmentsOf_view hget hshows, hviews]

theorem ReadCall.view_step {c : ReadCall} {pc : ReadPc} (howned : Owned P s)
    (hdevice : c.actor.subjectId = d) (hok : pc.Ok P s) (hpc : pc.Own d s) :
    SameStep d s fun s => c.step P a s pc := by
  cases pc with
  | load =>
      refine ⟨?_, fun o ho => ?_⟩
      · rcases job_view_cases d s c.jobId with ⟨j, hget, hview, hid, hj⟩ | ⟨hview, hforeign⟩
        · have hfiles : (s.view d).attachments.rows.filter (fun t => decide (t.jobId = j.id)) =
              s.attachments.rows.filter fun t => decide (t.jobId = j.id) := by
            refine filter_view_attachments fun b hb hmatch => ?_
            refine showsAttachment_of_job (j := j) ?_ (decide_eq_true hj)
            rw [of_decide_eq_true hmatch, hid]
            exact hget
          simp only [step, hget, hview, hfiles]
        · cases hget : s.jobs.get? c.jobId with
          | none => simp only [step, hget, hview]
          | some j =>
              have hne : j.deviceId ≠ c.actor.subjectId := hdevice ▸ hforeign j hget
              simp only [step, hget, hview, if_pos hne]
      · cases ho
        split
        · exact seen_nothing
        · refine seen_read ?_
          split
          · exact seen_nothing
          · split
            · exact seen_nothing
            · split <;> exact seen_nothing
  | deny error projectId => exact sameStep_deny
  | reconcile projectId fileId rest pc =>
      have hstep := ReconcilePc.view_step (a := a) howned (hpc.1 fileId List.mem_cons_self) hok hpc.2
      refine ⟨?_, fun o ho => ?_⟩
      · simp only [step, hstep.same]
      · obtain ⟨o', ho', rfl⟩ := Option.map_eq_some_iff.mp ho
        have hseen := hstep.seen o' ho'
        split <;> exact hseen
  | view projectId =>
      refine ⟨?_, fun o ho => ?_⟩
      · rcases job_view_cases d s c.jobId with ⟨j, hget, hview, hid, hj⟩ | ⟨hview, hforeign⟩
        · have hjob := jobView_view howned (hid.symm ▸ hget) (decide_eq_true hj)
          simp only [step, hget, hview, hjob]
        · cases hget : s.jobs.get? c.jobId with
          | none => simp only [step, hget, hview]
          | some j =>
              have hne : j.deviceId ≠ c.actor.subjectId ∨ j.projectId ≠ projectId :=
                .inl (hdevice ▸ hforeign j hget)
              simp only [step, hget, hview, if_pos hne]
      · cases ho
        refine seen_read ?_
        split
        · exact seen_nothing
        · split
          · exact seen_nothing
          · split
            · exact seen_nothing
            · split <;> exact seen_nothing

theorem ReadCall.own_step {c : ReadCall} {pc : ReadPc} {o : Outcome ReadPc (ImportJobView P)}
    (howned : Owned P s) (hdevice : c.actor.subjectId = d) (hok : pc.Ok P s) (hpc : pc.Own d s)
    (h : c.step P a s pc = some o) :
    o.progress.Holds (ReadPc.Own d s) fun _ => True := by
  have hnext : ∀ projectId (ids : List UUID), (∀ id ∈ ids, Uploads d s id) →
      (ReadPc.next projectId ids).Own d s := by
    intro projectId ids hids
    cases ids with
    | nil => trivial
    | cons fileId rest => exact ⟨hids, trivial⟩
  cases pc with
  | load =>
      cases h
      split
      · trivial
      · refine Outcome.holds_read ?_
        split
        · trivial
        · rename_i job hget
          split
          · trivial
          · rename_i howner
            split
            · trivial
            · refine hnext _ _ fun id hid => ?_
              rw [List.mem_insertionSort] at hid
              obtain ⟨b, hb, rfl⟩ := List.mem_map.mp hid
              obtain ⟨hmem, hjob⟩ := List.mem_filter.mp hb
              obtain ⟨j, f, hj, hf, -, hsame⟩ := howned.attached b hmem
              refine ⟨f, hf, ?_⟩
              rw [of_decide_eq_true hjob, Table.key_of_get? hget] at hj
              obtain rfl := Option.some.inj (hget.symm.trans hj)
              rw [hsame, ← hdevice]
              exact not_not.mp howner
  | deny error projectId =>
      cases h
      exact Outcome.holds_commit trivial
  | reconcile projectId fileId rest pc =>
      obtain ⟨o', hstep, rfl⟩ := Option.map_eq_some_iff.mp h
      have hown := ReconcilePc.own_step howned (hpc.1 fileId List.mem_cons_self) hok hpc.2 hstep
      split
      · rename_i pc' hpc'
        rw [hpc'] at hown
        exact ⟨hpc.1, hown⟩
      · exact hnext _ _ fun id hid => hpc.1 id (List.mem_cons_of_mem fileId hid)
      · trivial
      · trivial
  | view projectId =>
      cases h
      refine Outcome.holds_read ?_
      split
      · trivial
      · split
        · trivial
        · split
          · trivial
          · split <;> trivial

end jobs

/-! ### Creating import jobs -/

section creation

variable {P : Platform} {d : UUID} {s : Store} {a : Answer} {c : CreateCall P}

theorem CreateCall.replay_view {job : ImportJob}
    (hget : s.jobs.get? job.id = some job) (hshows : showsJob d job = true) :
    c.replay (s.view d) job = c.replay s job := by
  unfold replay matchingResult
  rw [jobResult_view hget hshows]

theorem CreateCall.seen_replay {job : ImportJob} : Seen d s (c.replay s job).write := by
  unfold replay
  split <;> exact seen_nothing

theorem CreateCall.seen_next {uploads : List File} {ds : List (AttachmentDeclaration P)} :
    Seen d s (⟨c.next uploads ds, .nothing⟩ : Outcome (CreatePc P) ImportJobResult).write :=
  seen_nothing

/-- The answer of a call that looks its job up. -/
theorem CreateCall.byKey_view (hdevice : c.actor.subjectId = d)
    {other : Outcome (CreatePc P) ImportJobResult} :
    (match (s.view d).jobByKey c.actor.subjectId c.idempotencyKey with
      | some job => c.replay (s.view d) job
      | none => other) =
      match s.jobByKey c.actor.subjectId c.idempotencyKey with
      | some job => c.replay s job
      | none => other := by
  rw [hdevice, jobByKey_view]
  cases hkey : s.jobByKey d c.idempotencyKey with
  | none => rfl
  | some job =>
      obtain ⟨hget, hcreate⟩ := Store.get?_of_jobByKey hkey
      exact replay_view hget (decide_eq_true (congrArg Prod.fst hcreate))

theorem CreateCall.ids_of_newAttachments {jobId : UUID} {ids : List UUID}
    {ds : List (AttachmentDeclaration P)} {fs : List File} {t : ImportAttachment}
    (h : t ∈ c.newAttachments jobId ids ds fs) : t.id ∈ ids ∧ t.uploadId = t.fileId := by
  induction ids, ds, fs using CreateCall.newAttachments.induct with
  | case1 id ids d ds f fs ih =>
      rcases List.mem_cons.mp h with rfl | h
      · exact ⟨List.mem_cons_self, rfl⟩
      · obtain ⟨hid, hupload⟩ := ih h
        exact ⟨List.mem_cons_of_mem id hid, hupload⟩
  | case2 ids ds fs hne =>
      rw [newAttachments] at h
      · cases h
      · exact hne

/-- The attachments of a new job stay clear of those of other devices. -/
theorem CreateCall.attaches (hs : WellFormed s) (howned : Owned P s)
    (hdevice : c.actor.subjectId = d) (hfresh : Fresh d s a) (hcreate : c.canCreate = true)
    {uploads : List File} (huploaded : c.Uploaded uploads)
    (hok : ∀ f ∈ uploads, Server.Uploaded s f) {jobs : JobTable}
    (hinsert : s.jobs.insert? (c.newJob a.uuid a.now) = some jobs) {t : ImportAttachment}
    (ht : t ∈ c.newAttachments a.uuid a.attachmentIds c.command.attachments uploads) :
    Attaches d { s with jobs } t := by
  obtain ⟨hjob, f, hf, hkind, huploader⟩ := attachment_uploader hcreate huploaded hok ht
  obtain ⟨hid, hupload⟩ := ids_of_newAttachments ht
  have hnew : jobs.get? a.uuid = some (c.newJob a.uuid a.now) := by
    rw [Table.get?_insert? hinsert]
    exact if_pos rfl
  refine ⟨⟨_, hjob.symm ▸ hnew, decide_eq_true hdevice⟩, ⟨f, hf, ?_⟩, fun b hb hhidden => ?_⟩
  · rw [showsFile_of_device hkind]
    exact decide_eq_true (huploader.trans hdevice)
  · obtain ⟨j, hj, -⟩ := (hs.attached b hb).job
    have hsame : s.showsAttachment d b = false := by
      rw [← hhidden]
      unfold Store.showsAttachment
      rw [hj, Table.get?_insert?_of_some hinsert hj]
    have hfiles : b.fileId ≠ t.fileId := by
      intro heq
      have hshown := howned.shows_of_file hb (heq.symm ▸ hf) (huploader.trans hdevice)
      rw [hshown] at hsame
      cases hsame
    refine ⟨fun heq => hfresh.attachment b hb hsame (heq ▸ hid), fun heq => ?_, hfiles, ?_⟩
    · have hold : a.uuid ∉ s.jobs.rows.map ImportJob.id := (Table.insert?_eq_some_iff.mp hinsert).1
      have hbjob : b.jobId = a.uuid := (congrArg Prod.fst heq).trans hjob
      rw [hbjob] at hj
      exact hold (List.mem_map.mpr ⟨j, Table.mem_of_get? hj, Table.key_of_get? hj⟩)
    · rw [(hs.attached b hb).upload, hupload]
      exact hfiles

theorem CreateCall.view_step {pc : CreatePc P} (hs : WellFormed s) (howned : Owned P s)
    (hdevice : c.actor.subjectId = d) (hfresh : Fresh d s a) (hok : pc.Ok c s)
    (hpc : pc.Matches c s) : SameStep d s fun s => c.step a s pc := by
  cases pc with
  | begin =>
      refine ⟨rfl, fun o ho => ?_⟩
      cases ho
      split
      · exact seen_nothing
      · split
        · exact seen_nothing
        · exact seen_read seen_nothing
  | deny projectId => exact sameStep_deny
  | existing =>
      refine ⟨?_, fun o ho => ?_⟩
      · exact congrArg (fun o => some (Outcome.read a.fate o)) (byKey_view hdevice)
      · cases ho
        refine seen_read ?_
        split
        · exact seen_replay
        · exact seen_next
  | upload current rest uploads pc =>
      obtain ⟨hcreate, -, hcurrent, -, hmatches⟩ := hpc
      have hactor : current.actor = c.actor := hcurrent.actor
      have hstep := StartCall.view_step (a := a) howned
        (by rw [hactor]; exact kind_of_canCreate hcreate) (by rw [hactor]; exact hdevice) hfresh
        hmatches
      refine ⟨?_, fun o ho => ?_⟩
      · simp only [step, hstep.same]
      · obtain ⟨o', ho', rfl⟩ := Option.map_eq_some_iff.mp ho
        have hseen := hstep.seen o' ho'
        split
        · exact hseen
        · exact hseen
        · split <;> exact hseen
        · exact hseen
        · exact hseen
  | persist uploads =>
      refine ⟨?_, fun o ho => ?_⟩
      · exact congrArg (fun o => some (Outcome.read a.fate o)) (byKey_view hdevice)
      · cases ho
        refine seen_read ?_
        split
        · exact seen_replay
        · exact seen_nothing
  | insert uploads =>
      obtain ⟨hcreate, huploaded⟩ := hpc
      have hseen : Seen d s (.insertJob (c.newJob a.uuid a.now)
          (c.newAttachments a.uuid a.attachmentIds c.command.attachments uploads)
          (c.createdRow (c.newJob a.uuid a.now)
            (c.newAttachments a.uuid a.attachmentIds c.command.attachments uploads) a.auditId)) :=
        insertJob_view hs hdevice hfresh.job fun jobs hinsert t ht =>
          attaches hs howned hdevice hfresh hcreate huploaded hok.1 hinsert ht
      refine ⟨?_, fun o ho => ?_⟩
      · simp only [step]
        rw [hdevice, jobByKey_view]
        cases hkey : s.jobByKey d c.idempotencyKey with
        | none =>
            simp only
            split
            · rfl
            · exact congrArg some (commit_view hseen)
        | some job =>
            obtain ⟨hget, hjob⟩ := Store.get?_of_jobByKey hkey
            simp only [replay_view hget (decide_eq_true (congrArg Prod.fst hjob))]
      · simp only [step] at ho
        split at ho
        · cases ho
          exact seen_read seen_replay
        · split at ho
          · cases ho
          · cases ho
            exact seen_commit hseen

end creation

end SuperBoss.Server
