import SuperBoss.Server.Outline

/-!
Inversion lemmas for single actions: which program counters update file rows and
what each of them assigns, and where the program counters of scans and
completions come from.
-/

namespace SuperBoss.Server

open SuperBoss.Core
open SuperBoss.Library
open SuperBoss.Library.Interleaving
open SuperBoss.Files
open SuperBoss.Imports
open SuperBoss.Infrastructure.Clamav

/-- An action of a thread that updates a file row, by its program counter, with
what the action found in the store. -/
inductive Updates {P : Platform} (s : Store) (a : Answer) : Thread P → UUID → FileUpdate → Prop
  | start {c : StartCall} {f : File} {m : Text} :
      Updates s a (.startUpload c (.running (.commit f m))) f.id (.provision m a.now)
  | create {c : CreateCall P} {d : StartCall} {rest : List (AttachmentDeclaration P)}
      {uploads : List File} {f : File} {m : Text} :
      Updates s a (.createImport c (.running (.upload d rest uploads (.commit f m)))) f.id
        (.provision m a.now)
  | mismatch {c : CompleteCall} {f : File} {size : Nat} (h : size ≠ f.sizeBytes) :
      Updates s a (.completeUpload c (.running (.settle f size))) f.id
        (.settle .failed (some (Text.ofString "SIZE_MISMATCH")) a.now)
  | complete {c : CompleteCall} {f : File} {size : Nat} (h : size = f.sizeBytes) :
      Updates s a (.completeUpload c (.running (.settle f size))) f.id
        (.settle .quarantined none a.now)
  | claim {id : UUID} {f : File} (hget : s.files.get? id = some f)
      (hstate : f.state = .quarantined) :
      Updates s a (.scanFile id (.running .claim)) id (.settle .scanning none a.now)
  | verdict {id : UUID} {f current : File} {st : FileState} {result : Text}
      (hget : s.files.get? id = some current) (hstate : current.state = .scanning) :
      Updates s a (.scanFile id (.running (.verdict f st result))) id
        (.settle st (some result) a.now)
  | expire {c : RecoverCall} {id : UUID} {rest : List UUID} {n : Nat} {f : File}
      (hget : s.files.get? id = some f) (hstate : f.state = .uploading)
      (hage : f.createdAt < c.reference - expiryAge) :
      Updates s a (.recoverStaleUploads c (.running (.expire id rest n))) id
        (.settle .failed (some (Text.ofString "UPLOAD_EXPIRED")) a.now)

section updates

variable {P : Platform} {cfg : ScannerConfig} {a : Answer} {s : Store} {id : UUID}
  {u : FileUpdate} {row : Option AuditLog}

theorem update_ne_nothing : Write.updateFile id u row ≠ .nothing := Write.noConfusion

/-- An update is an action on a locked row, which leaves few program counters. -/
theorem StartCall.step_update {c : StartCall} {pc : StartPc} {o : Outcome StartPc File}
    (h : c.step P a s pc = some o) (hw : o.write = .updateFile id u row)
    (hrow : .file id ∈ pc.holds ++ pc.needs) :
    ∃ f m, pc = .commit f m ∧ id = f.id ∧ u = .provision m a.now := by
  cases pc with
  | select | insert => cases hrow
  | lock fileId =>
      cases h
      have hw := Outcome.write_read update_ne_nothing hw
      split at hw
      · cases hw
      · split at hw
        · cases hw
        · split at hw <;> cases hw
  | list file =>
      cases h
      split at hw
      · cases hw
      · split at hw <;> cases hw
  | abort file leftovers =>
      cases leftovers with
      | nil =>
          cases h
          cases hw
      | cons m rest =>
          cases h
          cases Outcome.write_attempt update_ne_nothing hw
  | create file =>
      simp only [step] at h
      split at h
      · cases h
      · cases h
        cases Outcome.write_attempt update_ne_nothing hw
  | commit file m =>
      cases h
      cases Outcome.write_commit update_ne_nothing hw
      exact ⟨file, m, rfl, rfl, rfl⟩

theorem CompleteCall.step_update {c : CompleteCall} {pc : CompletePc}
    {o : Outcome CompletePc File} (h : c.step a s pc = some o)
    (hw : o.write = .updateFile id u row) (hrow : .file id ∈ pc.holds ++ pc.needs) :
    Updates (P := P) s a (.completeUpload c (.running pc)) id u := by
  cases pc with
  | resolve | deny | discard | enqueue => cases hrow
  | lock uploadId =>
      cases h
      have hw := Outcome.write_read update_ne_nothing hw
      split at hw
      · cases hw
      · split at hw
        · cases hw
        · split at hw
          · cases hw
          · split at hw
            · cases hw
            · split at hw <;> cases hw
  | finalize file m =>
      cases h
      split at hw
      · cases hw
      · cases Outcome.write_attempt update_ne_nothing hw
  | settle file size =>
      cases h
      split at hw
      · rename_i hsize
        cases Outcome.write_commit update_ne_nothing hw
        exact .mismatch hsize
      · rename_i hsize
        cases Outcome.write_commit update_ne_nothing hw
        exact .complete (not_not.mp hsize)

theorem PresignCall.step_update {c : PresignCall} {pc : PresignPc} {o : Outcome PresignPc PartUrl}
    (h : c.step a s pc = some o) (hrow : .file id ∈ pc.needs) :
    o.write ≠ .updateFile id u row := by
  intro hw
  cases pc with
  | resolve | deny => cases hrow
  | lock uploadId =>
      cases h
      split at hw
      · cases hw
      · have hw := Outcome.write_read update_ne_nothing hw
        split at hw
        · cases hw
        · split at hw
          · cases hw
          · split at hw
            · cases hw
            · split at hw <;> cases hw

theorem ReconcilePc.not_mem_rows {pc : ReconcilePc} : .file id ∉ pc.holds ++ pc.needs := by
  cases pc <;> simp [holds, needs]

theorem ScanPc.step_update {fileId : UUID} {pc : ScanPc} {o : Outcome ScanPc Unit}
    (h : ScanPc.step P cfg fileId a s pc = some o) (hw : o.write = .updateFile id u row)
    (hrow : .file id ∈ pc.holds ++ pc.needs fileId) :
    Updates (P := P) s a (.scanFile fileId (.running pc)) id u := by
  cases pc with
  | receive | stream | discard => cases hrow
  | claim =>
      cases h
      split at hw
      · cases Outcome.write_read update_ne_nothing hw
      · rename_i file hget
        split at hw
        · cases Outcome.write_read update_ne_nothing hw
        · rename_i hstate
          cases Outcome.write_commit update_ne_nothing hw
          exact .claim hget (not_not.mp hstate)
  | verdict file st result =>
      cases h
      split at hw
      · cases Outcome.write_read update_ne_nothing hw
      · rename_i current hget
        split at hw
        · cases Outcome.write_read update_ne_nothing hw
        · rename_i hstate
          cases Outcome.write_commit update_ne_nothing hw
          exact .verdict hget (not_not.mp hstate)
  | reconcile pc => exact absurd hrow ReconcilePc.not_mem_rows

theorem RecoverCall.step_update {c : RecoverCall} {pc : RecoverPc} {o : Outcome RecoverPc Nat}
    (h : c.step a s pc = some o) (hw : o.write = .updateFile id u row)
    (hrow : .file id ∈ pc.needs) :
    Updates (P := P) s a (.recoverStaleUploads c (.running pc)) id u := by
  cases pc with
  | expireSelect | abort | delete | redispatchSelect | enqueue => cases hrow
  | expire fileId rest n =>
      cases h
      simp only at hw
      split at hw
      · cases Outcome.write_read update_ne_nothing hw
      · rename_i f hget
        split at hw
        · cases Outcome.write_read update_ne_nothing hw
        · rename_i hopen
          rw [not_or, not_not, Int.not_le] at hopen
          cases Outcome.write_commit update_ne_nothing hw
          exact .expire hget hopen.1 hopen.2

/-- An upload inside a create call writes what it would write alone. -/
theorem CreateCall.step_of_upload {c : CreateCall P} {current : StartCall}
    {rest : List (AttachmentDeclaration P)} {uploads : List File} {pc : StartPc}
    {o : Outcome (CreatePc P) ImportJobResult}
    (h : c.step a s (.upload current rest uploads pc) = some o) :
    ∃ o', current.step P a s pc = some o' ∧ o.write = o'.write := by
  obtain ⟨o', hstep, rfl⟩ := Option.map_eq_some_iff.mp h
  refine ⟨o', hstep, ?_⟩
  split
  · rfl
  · rfl
  · split
    · rfl
    · rfl
  · rfl
  · rfl

theorem CreateCall.step_update {c : CreateCall P} {pc : CreatePc P}
    {o : Outcome (CreatePc P) ImportJobResult} (h : c.step a s pc = some o)
    (hw : o.write = .updateFile id u row) (hrow : .file id ∈ pc.holds ++ pc.needs) :
    Updates s a (.createImport c (.running pc)) id u := by
  cases pc with
  | begin | deny | existing | persist | insert => cases hrow
  | upload current rest uploads pc =>
      obtain ⟨o', hstep, hwrite⟩ := step_of_upload h
      obtain ⟨f, m, rfl, rfl, rfl⟩ := StartCall.step_update hstep (hwrite.symm.trans hw) hrow
      exact .create

theorem SubmitPc.not_mem_rows {c : SubmitCall} {pc : SubmitPc} :
    .file id ∉ pc.holds ++ pc.needs c := by
  cases pc <;> simp [holds, needs]

theorem ReadPc.not_mem_rows {pc : ReadPc} : .file id ∉ pc.holds ++ pc.needs := by
  cases pc with
  | reconcile projectId fileId rest pc => exact ReconcilePc.not_mem_rows
  | load | deny | view => simp [holds, needs]

theorem Thread.act_update {t t' : Thread P} (hs : WellFormed s) (hok : t.Ok s)
    (h : t.act cfg a s = some (t', .updateFile id u row)) : Updates s a t id u := by
  have hrow : .file id ∈ t.holds ++ t.needs :=
    (Thread.sound hs hok h).touches _ (List.mem_singleton.mpr rfl)
  cases t with
  | startUpload c p =>
      obtain ⟨o, hp, heq⟩ := Option.map_eq_some_iff.mp h
      obtain ⟨pc, rfl, hstep⟩ := Progress.step_eq_some hp
      obtain ⟨-, hw⟩ := Prod.mk.inj heq
      obtain ⟨f, m, rfl, rfl, rfl⟩ := StartCall.step_update hstep hw hrow
      exact .start
  | presignPart c p =>
      obtain ⟨o, hp, heq⟩ := Option.map_eq_some_iff.mp h
      obtain ⟨pc, rfl, hstep⟩ := Progress.step_eq_some hp
      exact absurd (Prod.mk.inj heq).2 (PresignCall.step_update hstep hrow)
  | completeUpload c p =>
      obtain ⟨o, hp, heq⟩ := Option.map_eq_some_iff.mp h
      obtain ⟨pc, rfl, hstep⟩ := Progress.step_eq_some hp
      exact CompleteCall.step_update hstep (Prod.mk.inj heq).2 hrow
  | download c p => cases hrow
  | scanFile fileId p =>
      obtain ⟨o, hp, heq⟩ := Option.map_eq_some_iff.mp h
      obtain ⟨pc, rfl, hstep⟩ := Progress.step_eq_some hp
      exact ScanPc.step_update hstep (Prod.mk.inj heq).2 hrow
  | recoverStaleUploads c p =>
      obtain ⟨o, hp, heq⟩ := Option.map_eq_some_iff.mp h
      obtain ⟨pc, rfl, hstep⟩ := Progress.step_eq_some hp
      exact RecoverCall.step_update hstep (Prod.mk.inj heq).2 hrow
  | createImport c p =>
      obtain ⟨o, hp, heq⟩ := Option.map_eq_some_iff.mp h
      obtain ⟨pc, rfl, hstep⟩ := Progress.step_eq_some hp
      exact CreateCall.step_update hstep (Prod.mk.inj heq).2 hrow
  | submitImport c p =>
      obtain ⟨o, hp, -⟩ := Option.map_eq_some_iff.mp h
      obtain ⟨pc, rfl, -⟩ := Progress.step_eq_some hp
      exact absurd hrow SubmitPc.not_mem_rows
  | readImport c p =>
      obtain ⟨o, hp, -⟩ := Option.map_eq_some_iff.mp h
      obtain ⟨pc, rfl, -⟩ := Progress.step_eq_some hp
      exact absurd hrow ReadPc.not_mem_rows

/-! ### File rows -/

/-- Whoever holds a file row holds that of an `UPLOADING` file. -/
theorem StartPc.Ok.uploading {pc : StartPc} (h : pc.Ok s)
    (hrow : .file id ∈ pc.holds) : ∃ f, s.files.get? id = some f ∧ f.state = .uploading := by
  cases pc with
  | select | insert | lock => cases hrow
  | list f | abort f leftovers | create f =>
      cases List.mem_singleton.mp hrow
      exact ⟨f, h.get, h.state⟩
  | commit f m =>
      cases List.mem_singleton.mp hrow
      exact ⟨f, h.1.get, h.1.state⟩

theorem Thread.Ok.uploading {v : Thread P} (h : v.Ok s)
    (hrow : .file id ∈ v.holds) : ∃ f, s.files.get? id = some f ∧ f.state = .uploading := by
  cases v with
  | presignPart | download | recoverStaleUploads => cases hrow
  | startUpload c p =>
      cases p with
      | running pc => exact StartPc.Ok.uploading h hrow
      | returned | raised | crashed => cases hrow
  | completeUpload c p =>
      cases p with
      | running pc =>
          cases pc with
          | resolve | deny | lock | discard | enqueue => cases hrow
          | finalize f m =>
              cases List.mem_singleton.mp hrow
              exact ⟨f, h.1.get, h.1.state⟩
          | settle f size =>
              cases List.mem_singleton.mp hrow
              exact ⟨f, h.get, h.state⟩
      | returned | raised | crashed => cases hrow
  | scanFile fileId p =>
      cases p with
      | running pc =>
          cases pc with
          | receive | claim | stream | verdict | discard => cases hrow
          | reconcile pc => exact absurd (List.mem_append_left _ hrow) ReconcilePc.not_mem_rows
      | returned | raised | crashed => cases hrow
  | createImport c p =>
      cases p with
      | running pc =>
          cases pc with
          | begin | deny | existing | persist | insert => cases hrow
          | upload current rest uploads pc => exact StartPc.Ok.uploading h.1 hrow
      | returned | raised | crashed => cases hrow
  | submitImport c p =>
      cases p with
      | running pc => exact absurd (List.mem_append_left _ hrow) (SubmitPc.not_mem_rows (c := c))
      | returned | raised | crashed => cases hrow
  | readImport c p =>
      cases p with
      | running pc => exact absurd (List.mem_append_left _ hrow) ReadPc.not_mem_rows
      | returned | raised | crashed => cases hrow

/-- Where a file row comes from: it was there, it is new, or the action updated it. -/
theorem Consistent.file_before {s : SystemState P} (hs : Consistent cfg s) {i : Nat}
    {v v' : Thread P} {w : Write} {store : Store} (hthread : s.threads[i]? = some v)
    (hact : v.act cfg a s.store = some (v', w)) (hwrite : s.store.write? w = some store)
    {f : File} (hget : store.files.get? id = some f) :
    s.store.files.get? id = some f ∨
      (s.store.files.get? id = none ∧ f.state = .uploading) ∨
      ∃ g u, s.store.files.get? id = some g ∧ FileMove g u ∧ Updates s.store a v id u ∧
        f = u.apply g := by
  have hok := hs.ok hthread
  rcases (Thread.sound hs.wellFormed hok hact).effect.file_cases hwrite hget with
    hsame | ⟨hnone, -, hstate, -⟩ | ⟨g, u, row, hg, rfl, hmove, rfl⟩
  · exact .inl hsame
  · exact .inr (.inl ⟨hnone, hstate⟩)
  · exact .inr (.inr ⟨g, u, hg, hmove, Thread.act_update hs.wellFormed hok hact, rfl⟩)

/-- A file row that the action does not update stays. -/
theorem Consistent.file_kept {s : SystemState P} (hs : Consistent cfg s) {i : Nat}
    {v v' : Thread P} {w : Write} {store : Store} (hthread : s.threads[i]? = some v)
    (hact : v.act cfg a s.store = some (v', w)) (hwrite : s.store.write? w = some store)
    {f : File} (hget : s.store.files.get? id = some f)
    (hno : ∀ u, FileMove f u → ¬Updates s.store a v id u) : store.files.get? id = some f := by
  have hsound := Thread.sound hs.wellFormed (hs.ok hthread) hact
  obtain ⟨f', hf', -⟩ := (hsound.effect.evolves hwrite).files hget
  rcases hs.file_before hthread hact hwrite hf' with hsame | ⟨hnone, -⟩ | ⟨g, u, hg, hmove, hu, -⟩
  · rw [hf', ← hsame, hget]
  · rw [hget] at hnone
    cases hnone
  · obtain rfl := Option.some.inj (hget.symm.trans hg)
    exact absurd hu (hno u hmove)

/-! ### Predecessors of program counters -/

theorem Thread.scanFile_of_act {t : Thread P} {pc : ScanPc} {w : Write}
    (h : t.act cfg a s = some (.scanFile id (.running pc), w)) :
    ∃ pc₀ o, t = .scanFile id (.running pc₀) ∧ ScanPc.step P cfg id a s pc₀ = some o ∧
      o.progress = .running pc ∧ o.write = w := by
  cases t with
  | scanFile id' p =>
      obtain ⟨o, hp, heq⟩ := Option.map_eq_some_iff.mp h
      obtain ⟨pc₀, rfl, hstep⟩ := Progress.step_eq_some hp
      obtain ⟨hthread, hw⟩ := Prod.mk.inj heq
      obtain ⟨rfl, hprogress⟩ := Thread.scanFile.inj hthread
      exact ⟨pc₀, o, rfl, hstep, hprogress, hw⟩
  | startUpload | presignPart | completeUpload | download | recoverStaleUploads | createImport
  | submitImport | readImport =>
      obtain ⟨o, -, heq⟩ := Option.map_eq_some_iff.mp h
      cases heq

theorem Thread.completion_of_act {t : Thread P} {c : CompleteCall} {p : Progress CompletePc File}
    {w : Write} (h : t.act cfg a s = some (.completeUpload c p, w)) :
    ∃ pc₀ o, t = .completeUpload c (.running pc₀) ∧ c.step a s pc₀ = some o ∧
      o.progress = p ∧ o.write = w := by
  cases t with
  | completeUpload c' p' =>
      obtain ⟨o, hp, heq⟩ := Option.map_eq_some_iff.mp h
      obtain ⟨pc₀, rfl, hstep⟩ := Progress.step_eq_some hp
      obtain ⟨hthread, hw⟩ := Prod.mk.inj heq
      obtain ⟨rfl, hprogress⟩ := Thread.completeUpload.inj hthread
      exact ⟨pc₀, o, rfl, hstep, hprogress, hw⟩
  | startUpload | presignPart | scanFile | download | recoverStaleUploads | createImport
  | submitImport | readImport =>
      obtain ⟨o, -, heq⟩ := Option.map_eq_some_iff.mp h
      cases heq

theorem Thread.completeUpload_of_act {t : Thread P} {c : CompleteCall} {pc : CompletePc}
    {w : Write} (h : t.act cfg a s = some (.completeUpload c (.running pc), w)) :
    ∃ pc₀ o, t = .completeUpload c (.running pc₀) ∧ c.step a s pc₀ = some o ∧
      o.progress = .running pc ∧ o.write = w := completion_of_act h

theorem Progress.crash_ne_running {Pc Result : Type} {p : Progress Pc Result} {pc : Pc} :
    p.crash ≠ .running pc := by
  cases p <;> simp [crash]

theorem Thread.crash_ne_scanFile {t : Thread P} {pc : ScanPc} :
    t.crash ≠ .scanFile id (.running pc) := by
  intro h
  cases t with
  | scanFile id' p => exact Progress.crash_ne_running (Thread.scanFile.inj h).2
  | startUpload | presignPart | completeUpload | download | recoverStaleUploads | createImport
  | submitImport | readImport => cases h

theorem Thread.crash_ne_completeUpload {t : Thread P} {c : CompleteCall} {pc : CompletePc} :
    t.crash ≠ .completeUpload c (.running pc) := by
  intro h
  cases t with
  | completeUpload c' p => exact Progress.crash_ne_running (Thread.completeUpload.inj h).2
  | startUpload | presignPart | scanFile | download | recoverStaleUploads | createImport
  | submitImport | readImport => cases h

/-- A scan streams the file that it has just claimed. -/
theorem ScanPc.stream_of_step {pc : ScanPc} {o : Outcome ScanPc Unit} {f : File}
    (h : ScanPc.step P cfg id a s pc = some o) (ho : o.progress = .running (.stream f)) :
    pc = .claim ∧ s.files.get? id = some f ∧ f.state = .quarantined := by
  cases pc with
  | receive =>
      simp only [step] at h
      split at h
      · cases h
        cases ho
      · cases h
  | claim =>
      cases h
      split at ho
      · cases Outcome.running_read ho
      · rename_i file hget
        split at ho
        · cases Outcome.running_read ho
        · rename_i hstate
          cases (Outcome.running_commit ho).1
          exact ⟨rfl, hget, not_not.mp hstate⟩
  | stream file =>
      simp only [step] at h
      split at h
      · cases h
        cases ho
      · cases h
  | verdict file st r =>
      cases h
      split at ho
      · cases Outcome.running_read ho
      · split at ho
        · cases Outcome.running_read ho
        · have hnext := Progress.running.inj (Outcome.running_commit ho).1
          split at hnext <;> cases hnext
  | discard key =>
      cases h
      cases ho
  | reconcile pc =>
      obtain ⟨o', -, rfl⟩ := Option.map_eq_some_iff.mp h
      cases hp : o'.progress <;> simp [Outcome.map, Progress.map, hp] at ho

/-- A verdict comes from the streamed object, read to its end. -/
theorem ScanPc.verdict_of_step {pc : ScanPc} {o : Outcome ScanPc Unit} {f : File}
    {st : FileState} {result : Text} (h : ScanPc.step P cfg id a s pc = some o)
    (ho : o.progress = .running (.verdict f st result)) :
    pc = .stream f ∧
      ((s.storage.object? f.objectKey).all fun content => isBody content a.chunks) = true ∧
      scanVerdict P f.sha256 (scanObject cfg s f a) = (st, result) := by
  cases pc with
  | receive =>
      simp only [step] at h
      split at h
      · cases h
        cases ho
      · cases h
  | claim =>
      cases h
      split at ho
      · cases Outcome.running_read ho
      · split at ho
        · cases Outcome.running_read ho
        · cases (Outcome.running_commit ho).1
  | stream file =>
      simp only [step] at h
      split at h
      · rename_i hbody
        cases h
        obtain ⟨rfl, rfl, rfl⟩ := ScanPc.verdict.inj (Progress.running.inj ho)
        exact ⟨rfl, hbody, rfl⟩
      · cases h
  | verdict file st r =>
      cases h
      split at ho
      · cases Outcome.running_read ho
      · split at ho
        · cases Outcome.running_read ho
        · have hnext := Progress.running.inj (Outcome.running_commit ho).1
          split at hnext <;> cases hnext
  | discard key =>
      cases h
      cases ho
  | reconcile pc =>
      obtain ⟨o', -, rfl⟩ := Option.map_eq_some_iff.mp h
      cases hp : o'.progress <;> simp [Outcome.map, Progress.map, hp] at ho

/-- The two commits of an attempt. -/
theorem Thread.act_claim {f : File}
    (hget : s.files.get? id = some f) (hstate : f.state = .quarantined) :
    Thread.act cfg a s (.scanFile id (.running .claim) : Thread P) =
      (some (Outcome.commit s a.fate (.updateFile id (.settle .scanning none a.now) none)
        (.running (.stream f)))).map fun o => (.scanFile id o.progress, o.write) := by
  simp [act, Progress.step, ScanPc.step, hget, hstate]

theorem Thread.act_verdict {f file : File} {st : FileState}
    {result : Text} (hget : s.files.get? id = some f) (hstate : f.state = .scanning) :
    Thread.act cfg a s (.scanFile id (.running (.verdict file st result)) : Thread P) =
      (some (Outcome.commit s a.fate (.updateFile id (.settle st (some result) a.now) none)
        (.running (if st = .infected ∨ st = .failed then .discard file.objectKey
          else .reconcile .lookup)))).map fun o => (.scanFile id o.progress, o.write) := by
  simp [act, Progress.step, ScanPc.step, hget, hstate]

end updates

end SuperBoss.Server
