import SuperBoss.Server.Outline

/-!
Inversion of the writes that are no row updates: new rows and storage calls, by
the program counters that make them.
-/

namespace SuperBoss.Server

open SuperBoss.Core
open SuperBoss.Files
open SuperBoss.Imports
open SuperBoss.Infrastructure.Clamav

/-- A thread that is starting an upload, of its own or for an attachment. -/
inductive Thread.Starts {P : Platform} : Thread P → StartCall → StartPc → Prop
  | upload {c : StartCall} {pc : StartPc} : Starts (.startUpload c (.running pc)) c pc
  | attachment {d : CreateCall P} {c : StartCall} {rest : List (AttachmentDeclaration P)}
      {uploads : List File} {pc : StartPc} :
      Starts (.createImport d (.running (.upload c rest uploads pc))) c pc

/-- New rows and storage calls. -/
inductive Writes {P : Platform} (s : Store) (a : Answer) : Thread P → Write → Prop
  | insertFile {t : Thread P} {c : StartCall} {fp : Text} (ht : t.Starts c .insert)
      (hfp : fingerprint P c.command = some fp) (hnone : c.existing s = none) :
      Writes s a t (.insertFile (c.newFile P fp a.uuid a.now))
  | abortLeftover {t : Thread P} {c : StartCall} {f : File} {m : Text} {rest : List Text}
      (ht : t.Starts c (.abort f (m :: rest))) :
      Writes s a t (.call (.abortMultipart f.objectKey m))
  | createMultipart {t : Thread P} {c : StartCall} {f : File} (ht : t.Starts c (.create f))
      (hfresh : a.multipartId ∉ s.storage.issued) :
      Writes s a t (.call (.createMultipart f.objectKey a.multipartId))
  | completeMultipart {c : CompleteCall} {f : File} {m : Text} :
      Writes s a (.completeUpload c (.running (.finalize f m)))
        (.call (.completeMultipart f.objectKey m a.content))
  | discardUpload {c : CompleteCall} {key : Text} :
      Writes s a (.completeUpload c (.running (.discard key))) (.call (.deleteObject key))
  | discardScanned {id : UUID} {key : Text} :
      Writes s a (.scanFile id (.running (.discard key))) (.call (.deleteObject key))
  | abortExpired {c : RecoverCall} {f : File} {m : Text} {rest : List UUID} {n : Nat} :
      Writes s a (.recoverStaleUploads c (.running (.abort f m rest n)))
        (.call (.abortMultipart f.objectKey m))
  | deleteExpired {c : RecoverCall} {f : File} {rest : List UUID} {n : Nat} :
      Writes s a (.recoverStaleUploads c (.running (.delete f rest n)))
        (.call (.deleteObject f.objectKey))
  | insertJob {c : CreateCall P} {uploads : List File} {job : ImportJob}
      {attachments : List ImportAttachment}
      (hnone : s.jobByKey c.actor.subjectId c.idempotencyKey = none)
      (hids : a.attachmentIds.length = uploads.length) (hjob : job = c.newJob a.uuid a.now)
      (hattachments : attachments =
        c.newAttachments job.id a.attachmentIds c.command.attachments uploads) :
      Writes s a (.createImport c (.running (.insert uploads)))
        (.insertJob job attachments (c.createdRow job attachments a.auditId))

/-- Writes that neither insert a file or a job nor call the storage. -/
def Write.Plain : Write → Prop
  | nothing | updateFile _ _ _ | transitions _ | record _ | publish _ | consume _ => True
  | insertFile _ | insertJob _ _ _ | call _ => False

section writes

variable {P : Platform} {cfg : ScannerConfig} {a : Answer} {s : Store}

theorem Outcome.plain_read {Pc Result : Type} {fate : Fate} {o : Outcome Pc Result}
    (h : o.write.Plain) : (read fate o).write.Plain := by
  rcases read_cases fate o with heq | heq
  · rwa [heq]
  · rw [heq]
    trivial

theorem Outcome.plain_commit {Pc Result : Type} {fate : Fate} {w : Write}
    {next : Progress Pc Result} (h : w.Plain) : (commit s fate w next).write.Plain := by
  rcases commit_cases s fate w next with ⟨-, heq | heq⟩ | heq
  · rwa [heq]
  · rwa [heq]
  · rw [heq]
    trivial

theorem Outcome.attempt_cases {Pc Result : Type} (fate : Fate) (w : Write)
    (next : Progress Pc Result) :
    (attempt fate w next).write = .nothing ∨ (attempt fate w next).write = w := by
  unfold attempt
  split
  · exact .inr rfl
  · exact .inl rfl

theorem StartCall.plain_reuse {fp : Text} {f : File} : (reuse fp f).write.Plain := by
  unfold reuse
  split <;> trivial

/-- What starting an upload writes. -/
theorem StartCall.step_writes {c : StartCall} {t : Thread P} {pc : StartPc}
    {o : Outcome StartPc File} (ht : t.Starts c pc) (h : c.step P a s pc = some o) :
    o.write.Plain ∨ Writes s a t o.write := by
  cases pc with
  | select =>
      cases h
      left
      split
      · trivial
      · split
        · trivial
        · split
          · trivial
          · refine Outcome.plain_read ?_
            split
            · exact plain_reuse
            · trivial
  | insert =>
      cases h
      split
      · exact .inl trivial
      · rename_i fp hfp
        split
        · exact .inl (Outcome.plain_read plain_reuse)
        · rename_i hnone
          rcases Outcome.commit_cases s a.fate (.insertFile (c.newFile P fp a.uuid a.now))
            (.running (.lock a.uuid) : Progress StartPc File) with ⟨-, heq | heq⟩ | heq
          · rw [heq]
            exact .inr (.insertFile ht hfp hnone)
          · rw [heq]
            exact .inr (.insertFile ht hfp hnone)
          · rw [heq]
            exact .inl trivial
  | lock fileId =>
      cases h
      refine .inl (Outcome.plain_read ?_)
      split
      · trivial
      · split
        · trivial
        · split <;> trivial
  | list file =>
      cases h
      left
      split
      · trivial
      · split <;> trivial
  | abort file leftovers =>
      cases leftovers with
      | nil =>
          cases h
          exact .inl trivial
      | cons m rest =>
          cases h
          rcases Outcome.attempt_cases a.fate (.call (.abortMultipart file.objectKey m))
            (.running (.provision file rest) : Progress StartPc File) with heq | heq
          · rw [heq]
            exact .inl trivial
          · rw [heq]
            exact .inr (.abortLeftover ht)
  | create file =>
      simp only [step] at h
      split at h
      · cases h
      · rename_i hfresh
        cases h
        rcases Outcome.attempt_cases a.fate
          (.call (.createMultipart file.objectKey a.multipartId)) _ with heq | heq
        · rw [heq]
          exact .inl trivial
        · rw [heq]
          exact .inr (.createMultipart ht hfresh)
  | commit file multipartId =>
      cases h
      exact .inl (Outcome.plain_commit trivial)

theorem CompleteCall.step_writes {c : CompleteCall} {pc : CompletePc}
    {o : Outcome CompletePc File} (h : c.step a s pc = some o) :
    o.write.Plain ∨ Writes (P := P) s a (.completeUpload c (.running pc)) o.write := by
  cases pc with
  | resolve =>
      simp only [step] at h
      split at h
      · cases h
      · cases h
        refine .inl (Outcome.plain_read ?_)
        split <;> trivial
  | deny error projectId =>
      simp only [step] at h
      split at h
      · cases h
      · cases h
        exact .inl (Outcome.plain_commit trivial)
  | lock uploadId =>
      cases h
      refine .inl (Outcome.plain_read ?_)
      split
      · trivial
      · split
        · trivial
        · split
          · trivial
          · split
            · trivial
            · split <;> trivial
  | finalize file m =>
      cases h
      split
      · exact .inl trivial
      · rcases Outcome.attempt_cases a.fate
          (.call (.completeMultipart file.objectKey m a.content)) _ with heq | heq
        · rw [heq]
          exact .inl trivial
        · rw [heq]
          exact .inr .completeMultipart
  | settle file size =>
      cases h
      split
      · exact .inl (Outcome.plain_commit trivial)
      · exact .inl (Outcome.plain_commit trivial)
  | discard key =>
      cases h
      rcases Outcome.attempt_cases a.fate (.call (.deleteObject key))
        (.raised (.domain sizeMismatch) : Progress CompletePc File) with heq | heq
      · rw [heq]
        exact .inl trivial
      · rw [heq]
        exact .inr .discardUpload
  | enqueue file =>
      cases h
      rcases Outcome.attempt_cases a.fate (.publish file.id)
        (.returned file : Progress CompletePc File) with heq | heq
      · rw [heq]
        exact .inl trivial
      · rw [heq]
        exact .inl trivial

theorem PresignCall.step_writes {c : PresignCall} {pc : PresignPc} {o : Outcome PresignPc PartUrl}
    (h : c.step a s pc = some o) : o.write.Plain := by
  cases pc with
  | resolve =>
      simp only [step] at h
      split at h
      · cases h
      · cases h
        refine Outcome.plain_read ?_
        split <;> trivial
  | deny error projectId =>
      simp only [step] at h
      split at h
      · cases h
      · cases h
        exact Outcome.plain_commit trivial
  | lock uploadId =>
      cases h
      split
      · trivial
      · refine Outcome.plain_read ?_
        split
        · trivial
        · split
          · trivial
          · split
            · trivial
            · split <;> trivial

theorem DownloadCall.step_writes {c : DownloadCall} {pc : DownloadPc}
    {o : Outcome DownloadPc DownloadUrl} (h : c.step a s pc = some o) : o.write.Plain := by
  cases pc with
  | read =>
      cases h
      refine Outcome.plain_read ?_
      split
      · trivial
      · split <;> trivial

theorem ReconcilePc.step_writes {fileId : UUID} {pc : ReconcilePc} {o : Outcome ReconcilePc Unit}
    (h : pc.step P fileId a s = some o) : o.write.Plain := by
  cases pc with
  | lookup =>
      cases h
      refine Outcome.plain_read ?_
      simp only
      split <;> trivial
  | lock jobIds =>
      cases h
      exact Outcome.plain_read trivial
  | observe locked todo staged =>
      cases h
      split
      · trivial
      · split
        · trivial
        · refine Outcome.plain_read ?_
          simp only
          split <;> trivial
  | commit locked staged =>
      cases h
      exact Outcome.plain_commit trivial

theorem ScanPc.step_writes {fileId : UUID} {pc : ScanPc} {o : Outcome ScanPc Unit}
    (h : ScanPc.step P cfg fileId a s pc = some o) :
    o.write.Plain ∨ Writes (P := P) s a (.scanFile fileId (.running pc)) o.write := by
  cases pc with
  | receive =>
      simp only [step] at h
      split at h
      · cases h
        left
        simp only
        split <;> trivial
      · cases h
  | claim =>
      cases h
      left
      split
      · exact Outcome.plain_read trivial
      · split
        · exact Outcome.plain_read trivial
        · exact Outcome.plain_commit trivial
  | stream file =>
      simp only [step] at h
      split at h
      · cases h
        exact .inl trivial
      · cases h
  | verdict file st result =>
      cases h
      left
      split
      · exact Outcome.plain_read trivial
      · split
        · exact Outcome.plain_read trivial
        · exact Outcome.plain_commit trivial
  | discard key =>
      cases h
      rcases Outcome.attempt_cases a.fate (.call (.deleteObject key))
        (.running (.reconcile .lookup) : Progress ScanPc Unit) with heq | heq
      · rw [heq]
        exact .inl trivial
      · rw [heq]
        exact .inr .discardScanned
  | reconcile pc =>
      obtain ⟨o', hstep, rfl⟩ := Option.map_eq_some_iff.mp h
      exact .inl (ReconcilePc.step_writes hstep)

theorem RecoverCall.step_writes {c : RecoverCall} {pc : RecoverPc} {o : Outcome RecoverPc Nat}
    (h : c.step a s pc = some o) :
    o.write.Plain ∨ Writes (P := P) s a (.recoverStaleUploads c (.running pc)) o.write := by
  cases pc with
  | expireSelect =>
      cases h
      left
      split
      · trivial
      · exact Outcome.plain_read trivial
  | expire fileId rest n =>
      cases h
      left
      simp only
      split
      · exact Outcome.plain_read trivial
      · split
        · exact Outcome.plain_read trivial
        · exact Outcome.plain_commit trivial
  | abort f m rest n =>
      cases h
      rcases Outcome.attempt_cases a.fate (.call (.abortMultipart f.objectKey m))
        (.running (.delete f rest n) : Progress RecoverPc Nat) with heq | heq
      · rw [heq]
        exact .inl trivial
      · rw [heq]
        exact .inr .abortExpired
  | delete f rest n =>
      cases h
      rcases Outcome.attempt_cases a.fate (.call (.deleteObject f.objectKey))
        (.running (.nextExpire n rest) : Progress RecoverPc Nat) with heq | heq
      · rw [heq]
        exact .inl trivial
      · rw [heq]
        exact .inr .deleteExpired
  | redispatchSelect n =>
      cases h
      exact .inl (Outcome.plain_read trivial)
  | enqueue fileId rest n =>
      cases h
      rcases Outcome.attempt_cases a.fate (.publish fileId) (RecoverPc.nextEnqueue n rest)
        with heq | heq
      · rw [heq]
        exact .inl trivial
      · rw [heq]
        exact .inl trivial

theorem CreateCall.plain_replay {c : CreateCall P} {job : ImportJob} :
    (c.replay s job).write.Plain := by
  unfold replay
  split <;> trivial

theorem CreateCall.step_writes {c : CreateCall P} {pc : CreatePc P}
    {o : Outcome (CreatePc P) ImportJobResult} (h : c.step a s pc = some o) :
    o.write.Plain ∨ Writes s a (.createImport c (.running pc)) o.write := by
  cases pc with
  | begin =>
      cases h
      left
      split
      · trivial
      · split
        · trivial
        · exact Outcome.plain_read trivial
  | deny projectId =>
      cases h
      exact .inl (Outcome.plain_commit trivial)
  | existing =>
      cases h
      refine .inl (Outcome.plain_read ?_)
      split
      · exact plain_replay
      · trivial
  | upload current rest uploads pc =>
      obtain ⟨o', hstep, rfl⟩ := Option.map_eq_some_iff.mp h
      have hwrites := StartCall.step_writes (t := .createImport c
        (.running (.upload current rest uploads pc))) .attachment hstep
      split
      · exact hwrites
      · exact hwrites
      · split <;> exact hwrites
      · exact hwrites
      · exact hwrites
  | persist uploads =>
      cases h
      refine .inl (Outcome.plain_read ?_)
      split
      · exact plain_replay
      · trivial
  | insert uploads =>
      simp only [step] at h
      split at h
      · cases h
        exact .inl (Outcome.plain_read plain_replay)
      · rename_i hnone
        split at h
        · cases h
        · rename_i hids
          cases h
          rcases Outcome.commit_cases s a.fate (.insertJob (c.newJob a.uuid a.now)
            (c.newAttachments a.uuid a.attachmentIds c.command.attachments uploads)
            (c.createdRow (c.newJob a.uuid a.now) (c.newAttachments a.uuid a.attachmentIds
              c.command.attachments uploads) a.auditId)) (.returned (resultOf
              (c.newJob a.uuid a.now) (c.newAttachments a.uuid a.attachmentIds
              c.command.attachments uploads)) : Progress (CreatePc P) ImportJobResult) with
            ⟨-, heq | heq⟩ | heq
          · right
            exact heq.symm ▸ .insertJob hnone (not_not.mp hids) rfl rfl
          · right
            exact heq.symm ▸ .insertJob hnone (not_not.mp hids) rfl rfl
          · left
            exact heq.symm ▸ trivial

theorem SubmitCall.step_writes {c : SubmitCall} {pc : SubmitPc}
    {o : Outcome SubmitPc ImportJobResult} (h : c.step P a s pc = some o) : o.write.Plain := by
  cases pc with
  | preflight =>
      cases h
      split
      · trivial
      · refine Outcome.plain_read ?_
        split
        · trivial
        · split
          · trivial
          · split <;> trivial
  | deny error projectId =>
      cases h
      exact Outcome.plain_commit trivial
  | lock projectId =>
      cases h
      refine Outcome.plain_read ?_
      split
      · trivial
      · split
        · trivial
        · split
          · trivial
          · split <;> trivial
  | observe job =>
      cases h
      refine Outcome.plain_read ?_
      simp only
      split
      · trivial
      · split <;> trivial
  | commit job t =>
      cases h
      exact Outcome.plain_commit trivial

theorem ReadCall.step_writes {c : ReadCall} {pc : ReadPc} {o : Outcome ReadPc (ImportJobView P)}
    (h : c.step P a s pc = some o) : o.write.Plain := by
  cases pc with
  | load =>
      cases h
      split
      · trivial
      · refine Outcome.plain_read ?_
        split
        · trivial
        · split
          · trivial
          · split <;> trivial
  | deny error projectId =>
      cases h
      exact Outcome.plain_commit trivial
  | reconcile projectId fileId rest pc =>
      obtain ⟨o', hstep, rfl⟩ := Option.map_eq_some_iff.mp h
      have hplain := ReconcilePc.step_writes hstep
      split <;> exact hplain
  | view projectId =>
      cases h
      refine Outcome.plain_read ?_
      split
      · trivial
      · split
        · trivial
        · split
          · trivial
          · split <;> trivial

/-- Every write is plain or one of the listed insertions and storage calls. -/
theorem Thread.act_writes {t t' : Thread P} {w : Write} (h : t.act cfg a s = some (t', w)) :
    w.Plain ∨ Writes s a t w := by
  cases t with
  | startUpload c p =>
      obtain ⟨o, hp, heq⟩ := Option.map_eq_some_iff.mp h
      obtain ⟨pc, rfl, hstep⟩ := Progress.step_eq_some hp
      cases heq
      exact StartCall.step_writes .upload hstep
  | presignPart c p =>
      obtain ⟨o, hp, heq⟩ := Option.map_eq_some_iff.mp h
      obtain ⟨pc, rfl, hstep⟩ := Progress.step_eq_some hp
      cases heq
      exact .inl (PresignCall.step_writes hstep)
  | completeUpload c p =>
      obtain ⟨o, hp, heq⟩ := Option.map_eq_some_iff.mp h
      obtain ⟨pc, rfl, hstep⟩ := Progress.step_eq_some hp
      cases heq
      exact CompleteCall.step_writes hstep
  | download c p =>
      obtain ⟨o, hp, heq⟩ := Option.map_eq_some_iff.mp h
      obtain ⟨pc, rfl, hstep⟩ := Progress.step_eq_some hp
      cases heq
      exact .inl (DownloadCall.step_writes hstep)
  | scanFile fileId p =>
      obtain ⟨o, hp, heq⟩ := Option.map_eq_some_iff.mp h
      obtain ⟨pc, rfl, hstep⟩ := Progress.step_eq_some hp
      cases heq
      exact ScanPc.step_writes hstep
  | recoverStaleUploads c p =>
      obtain ⟨o, hp, heq⟩ := Option.map_eq_some_iff.mp h
      obtain ⟨pc, rfl, hstep⟩ := Progress.step_eq_some hp
      cases heq
      exact RecoverCall.step_writes hstep
  | createImport c p =>
      obtain ⟨o, hp, heq⟩ := Option.map_eq_some_iff.mp h
      obtain ⟨pc, rfl, hstep⟩ := Progress.step_eq_some hp
      cases heq
      exact CreateCall.step_writes hstep
  | submitImport c p =>
      obtain ⟨o, hp, heq⟩ := Option.map_eq_some_iff.mp h
      obtain ⟨pc, rfl, hstep⟩ := Progress.step_eq_some hp
      cases heq
      exact .inl (SubmitCall.step_writes hstep)
  | readImport c p =>
      obtain ⟨o, hp, heq⟩ := Option.map_eq_some_iff.mp h
      obtain ⟨pc, rfl, hstep⟩ := Progress.step_eq_some hp
      cases heq
      exact .inl (ReadCall.step_writes hstep)

end writes

end SuperBoss.Server
