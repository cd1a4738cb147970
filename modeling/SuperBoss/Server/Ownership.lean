import SuperBoss.Server.StartIdempotency

/-!
Whose the rows are: an attachment's file was uploaded by the device of its job,
and an object key names its file.
-/

namespace SuperBoss.Server

open SuperBoss.Core
open SuperBoss.Library
open SuperBoss.Library.Interleaving
open SuperBoss.Library.Transition
open SuperBoss.Files
open SuperBoss.Imports
open SuperBoss.Infrastructure.Clamav

structure Owned (P : Platform) (s : Store) : Prop where
  attached : ∀ a ∈ s.attachments.rows, ∃ j f, s.jobs.get? a.jobId = some j ∧
    s.files.get? a.fileId = some f ∧ f.uploaderKind = .device ∧ f.uploaderId = j.deviceId
  objectKey : ∀ f ∈ s.files.rows, ∃ command, f.objectKey = objectKey P command f.id

/-- Every thread is at work on its own rows. -/
def AllMatch {P : Platform} (s : SystemState P) : Prop :=
  ∀ (i : Nat) (t : Thread P), s.threads[i]? = some t → t.Matches s.store

section ownership

variable {P : Platform} {cfg : ScannerConfig} {s t : SystemState P} {e : SystemEvent P}

theorem uploader_of_le {f f' : File} (h : FileLe f f') :
    f'.uploaderKind = f.uploaderKind ∧ f'.uploaderId = f.uploaderId :=
  ⟨congrArg (fun i => i.2.2.2.2.2.2.2.2.2.1) h.identity,
    congrArg (fun i => i.2.2.2.2.2.2.2.2.1) h.identity⟩

theorem JobLe.deviceId_eq {j j' : ImportJob} (h : JobLe j j') : j'.deviceId = j.deviceId :=
  congrArg (fun i => i.2.1) h.identity

theorem StartCall.Matches.uploader {c : StartCall} {f : File} (h : c.Matches P f) :
    f.uploaderKind = c.actor.kind ∧ f.uploaderId = c.actor.subjectId :=
  ⟨congrArg (fun k => k.2.1) h.uploadKey, congrArg (fun k => k.2.2.1) h.uploadKey⟩

theorem CreateCall.Uploads.actor {d : CreateCall P} {i : Nat} {c : StartCall}
    (h : d.Uploads i c) : c.actor = d.actor := by
  obtain ⟨declaration, -, hstart⟩ := h
  obtain ⟨command, -, rfl⟩ := Option.map_eq_some_iff.mp hstart
  rfl

theorem CreateCall.kind_of_canCreate {d : CreateCall P} (h : d.canCreate = true) :
    d.actor.kind = .device := by
  have hdevice := (Bool.and_eq_true_iff.mp h).1
  simp only [Actor.isImportDevice, Bool.and_eq_true, beq_iff_eq] at hdevice
  exact hdevice.1.1

/-- The attachments of a new job refer to files of its device. -/
theorem CreateCall.attachment_uploader {d : CreateCall P} {uploads : List File}
    {jobId : UUID} {ids : List UUID} {ds : List (AttachmentDeclaration P)} {s : Store}
    (hcreate : d.canCreate = true) (huploaded : d.Uploaded uploads)
    (hok : ∀ f ∈ uploads, Server.Uploaded s f) {a : ImportAttachment}
    (ha : a ∈ d.newAttachments jobId ids ds uploads) :
    a.jobId = jobId ∧ ∃ f, s.files.get? a.fileId = some f ∧ f.uploaderKind = .device ∧
      f.uploaderId = d.actor.subjectId := by
  obtain ⟨hjob, g, hg, hfile⟩ := mem_newAttachments ha
  obtain ⟨i, hi⟩ := List.mem_iff_getElem?.mp hg
  obtain ⟨c, hc, hmatches⟩ := huploaded i g hi
  obtain ⟨-, f, hf, hle⟩ := hok g hg
  refine ⟨hjob, f, hfile ▸ hf, ?_, ?_⟩
  · rw [(uploader_of_le hle).1, hmatches.uploader.1, hc.actor, kind_of_canCreate hcreate]
  · rw [(uploader_of_le hle).2, hmatches.uploader.2, hc.actor]

theorem Effect.attachments_cases {s s' : Store} {w : Write} (hw : s.write? w = some s')
    (h : Effect P s w) :
    s'.attachments = s.attachments ∨ ∃ job as row, w = .insertJob job as row := by
  cases h with
  | nothing | noTransition | createMultipart | abortMultipart | completeMultipart | deleteObject
  | publish | consume =>
      cases hw
      exact .inl rfl
  | insertFile =>
      obtain ⟨files, -, rfl⟩ := Store.write?_insertFile hw
      exact .inl rfl
  | updateFile => exact .inl (Store.write?_updateFile hw).2.2.1
  | insertJob => exact .inr ⟨_, _, _, rfl⟩
  | transition hjob hstaged =>
      exact .inl (Store.write?_transition (hstaged.jobId_eq.symm ▸ hjob) hw).2.2.2.1
  | record => exact .inl (Store.recordAudit_frame hw).2.2.1

theorem Owned.evolve_attached {s s' : Store} (h : Owned P s) (he : Evolves s s')
    {a : ImportAttachment} (ha : a ∈ s.attachments.rows) :
    ∃ j f, s'.jobs.get? a.jobId = some j ∧ s'.files.get? a.fileId = some f ∧
      f.uploaderKind = .device ∧ f.uploaderId = j.deviceId := by
  obtain ⟨j, f, hj, hf, hkind, hdevice⟩ := h.attached a ha
  obtain ⟨j', hj', hjle⟩ := he.jobs hj
  obtain ⟨f', hf', hfle⟩ := he.files hf
  refine ⟨j', f', hj', hf', (uploader_of_le hfle).1.trans hkind, ?_⟩
  rw [(uploader_of_le hfle).2, hdevice, hjle.deviceId_eq]

theorem Owned.step (hs : Consistent cfg s) (hmatches : AllMatch s) (h : Owned P s.store)
    (hhappens : Happens cfg s e t) : Owned P t.store := by
  cases hhappens with
  | spawn | crash => exact h
  | @act i a v v' w store hthread hfree hact hwrite hsound =>
      have he := hsound.effect.evolves hwrite
      refine ⟨fun b hb => ?_, fun f hf => ?_⟩
      · rcases hsound.effect.attachments_cases hwrite with hsame | ⟨job, as, row, rfl⟩
        · exact h.evolve_attached he (hsame ▸ hb)
        · obtain ⟨hinsert, hfiles, -, -, hrows, -, -⟩ := Store.write?_insertJob hwrite
          rw [hrows] at hb
          rcases List.mem_append.mp hb with hb | hb
          · exact h.evolve_attached he hb
          · rcases Thread.act_writes hact with hplain | hwrites
            · exact hplain.elim
            · cases hwrites with
              | @insertJob c uploads job attachments hnone hids hjob hattachments =>
                  subst hattachments
                  obtain ⟨hcreate, huploaded⟩ := hmatches i _ hthread
                  obtain ⟨hjobId, f, hf, hkind, hdevice⟩ := CreateCall.attachment_uploader hcreate
                    huploaded (hs.ok hthread).1 hb
                  refine ⟨job, f, ?_, by rw [hfiles]; exact hf, hkind, ?_⟩
                  · rw [Table.get?_insert? hinsert, hjobId]
                    exact if_pos rfl
                  · rw [hdevice, hjob]
                    rfl
      · rcases hsound.effect.file_cases hwrite (Table.get?_of_mem hf) with
          hsame | ⟨-, rfl, -⟩ | ⟨g, u, row, hg, -, hmove, rfl⟩
        · exact h.objectKey f (Table.mem_of_get? hsame)
        · rcases Thread.act_writes hact with hplain | hwrites
          · exact hplain.elim
          · cases hwrites with
            | @insertFile t c fp ht hfp hnone => exact ⟨c.command, rfl⟩
        · exact h.objectKey g (Table.mem_of_get? hg)

theorem AllMatch.step (hmatches : AllMatch s) (h : Happens cfg s e t) : AllMatch t := by
  intro i v hv
  rcases h.thread_cases hv with
    hsame | hinitial | ⟨u, hu, rfl⟩ | ⟨a, u, w, rfl, hu, hact, hwrite⟩
  · exact (hmatches i v hsame).evolve h.evolves
  · exact Thread.matches_initial hinitial
  · exact ((hmatches i u hu).evolve h.evolves).crash
  · exact Thread.matches_act hact (hmatches i u hu) hwrite h.evolves

/-- Rows in every reachable state are owned. -/
theorem owned_of_reachable {projects : List UUID}
    (h : Reachable (next P cfg) (initialState P projects) s) : Owned P s.store := by
  refine h.induction (I := fun s => Owned P s.store) ⟨?_, ?_⟩ fun s e t hs hinv hstep => ?_
  · exact List.forall_mem_nil _
  · exact List.forall_mem_nil _
  · have hconsistent := consistent_of_reachable hs
    exact hinv.step hconsistent (fun i t ht => matches_of_reachable hs ht)
      (hconsistent.happens hstep)

end ownership

end SuperBoss.Server
