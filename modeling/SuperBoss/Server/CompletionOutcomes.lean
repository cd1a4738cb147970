import SuperBoss.Server.CompletionReplay
import SuperBoss.Server.JobLifecycle

/-!
The answers to completion requests for one file: who settles its row, and what
the requests after that are told.
-/

namespace SuperBoss.Server

open SuperBoss.Core
open SuperBoss.Library
open SuperBoss.Library.Interleaving
open SuperBoss.Library.Transition
open SuperBoss.Files
open SuperBoss.Imports
open SuperBoss.Infrastructure.Clamav

/-! ### What a completion knows of its file -/

/-- The upload id that the target of a call stands for. -/
def CompleteCall.Aims (c : CompleteCall) (s : Store) (id : UUID) : Prop :=
  match c.target with
  | .upload uploadId => uploadId = id
  | .attachment jobId attachmentId => (s.jobs.get? jobId).isSome ∧
      ∃ t ∈ s.attachmentsOf jobId, t.id = attachmentId ∧ t.uploadId = id

/-- The file has left `UPLOADING`. -/
def Left (s : Store) (id : UUID) : Prop :=
  ∃ f, s.files.get? id = some f ∧ f.state ≠ .uploading

def Failed (s : Store) (id : UUID) : Prop :=
  ∃ f, s.files.get? id = some f ∧ f.state = .failed

namespace CompletePc

/-- On the way to the answer `FILE_UPLOAD_SIZE_MISMATCH`, or there. -/
def mismatched : Progress CompletePc File → Bool
  | .running (.discard _) => true
  | .raised e => decide (e = .domain CompleteCall.sizeMismatch)
  | _ => false

/-- What a completion knows at its program counter. -/
def Track (c : CompleteCall) (s : Store) : Progress CompletePc File → Prop
  | .running (.deny e _) => e ≠ CompleteCall.sizeMismatch
  | .running (.lock id) => c.Aims s id
  | .running (.finalize f _) | .running (.settle f _) => c.Aims s f.id
  | .running (.enqueue f) => c.Aims s f.id ∧ Left s f.id ∧ f.state ≠ .uploading
  | .running (.discard _) => ∃ id, c.Aims s id ∧ Failed s id
  | .raised e => e = .domain CompleteCall.sizeMismatch → ∃ id, c.Aims s id ∧ Failed s id
  | .returned f => c.Aims s f.id ∧ f.state ≠ .uploading
  | .running .resolve | .crashed => True

end CompletePc

section tracks

variable {P : Platform} {c : CompleteCall} {s s' : Store}

theorem CompleteCall.Aims.unique {id id' : UUID} (h : c.Aims s id) (h' : c.Aims s id') :
    id = id' := by
  unfold Aims at h h'
  cases htarget : c.target with
  | upload uploadId =>
      simp only [htarget] at h h'
      exact h.symm.trans h'
  | attachment jobId attachmentId =>
      simp only [htarget] at h h'
      obtain ⟨-, t, ht, htid, rfl⟩ := h
      obtain ⟨-, t', ht', htid', rfl⟩ := h'
      have hrow := Table.get?_of_mem (Store.mem_attachmentsOf.mp ht).1
      have hrow' := Table.get?_of_mem (Store.mem_attachmentsOf.mp ht').1
      rw [htid, ← htid', hrow'] at hrow
      rw [Option.some.inj hrow]

theorem CompleteCall.Aims.evolve {id : UUID} (h : c.Aims s id) (he : Evolves s s') :
    c.Aims s' id := by
  unfold Aims at h ⊢
  split at h
  · exact h
  · obtain ⟨hjob, t, ht, hrest⟩ := h
    obtain ⟨j, hj⟩ := Option.isSome_iff_exists.mp hjob
    obtain ⟨j', hj', -⟩ := he.jobs hj
    refine ⟨Option.isSome_iff_exists.mpr ⟨j', hj'⟩, t, ?_, hrest⟩
    rwa [he.attachments hj]

theorem Left.evolve {id : UUID} (h : Left s id) (he : Evolves s s') : Left s' id := by
  obtain ⟨f, hf, hstate⟩ := h
  obtain ⟨f', hf', hle⟩ := he.files hf
  exact ⟨f', hf', hle.state.ne_uploading hstate⟩

theorem Left.not_uploading {id : UUID} {f : File} (h : Left s id)
    (hget : s.files.get? id = some f) : f.state ≠ .uploading := by
  obtain ⟨g, hg, hstate⟩ := h
  rw [hget] at hg
  cases hg
  exact hstate

theorem Failed.evolve {id : UUID} (h : Failed s id) (he : Evolves s s') : Failed s' id := by
  obtain ⟨f, hf, hstate⟩ := h
  obtain ⟨f', hf', hle⟩ := he.files hf
  exact ⟨f', hf', (hle.state.eq_of_terminal (by rw [hstate]; rfl)).trans hstate⟩

theorem Failed.left {id : UUID} (h : Failed s id) : Left s id := by
  obtain ⟨f, hf, hstate⟩ := h
  exact ⟨f, hf, by rw [hstate]; decide⟩

theorem CompletePc.Track.evolve {p : Progress CompletePc File} (h : Track c s p)
    (he : Evolves s s') : Track c s' p := by
  have hsome : (∃ id, c.Aims s id ∧ Failed s id) → ∃ id, c.Aims s' id ∧ Failed s' id := by
    rintro ⟨id, haims, hfailed⟩
    exact ⟨id, haims.evolve he, hfailed.evolve he⟩
  cases p with
  | running pc =>
      cases pc with
      | resolve => trivial
      | deny => exact h
      | lock | finalize | settle => exact CompleteCall.Aims.evolve h he
      | discard => exact hsome h
      | enqueue => exact ⟨h.1.evolve he, h.2.1.evolve he, h.2.2⟩
  | returned f => exact ⟨h.1.evolve he, h.2⟩
  | raised e => exact fun heq => hsome (h heq)
  | crashed => trivial

theorem CompletePc.Track.crash {p : Progress CompletePc File} (h : Track c s p) :
    Track c s p.crash := by
  cases p with
  | running pc => trivial
  | returned | raised => exact h
  | crashed => trivial

theorem CompletePc.Track.failed {p : Progress CompletePc File} (h : Track c s p)
    (hmismatched : mismatched p = true) : ∃ id, c.Aims s id ∧ Failed s id := by
  unfold mismatched at hmismatched
  split at hmismatched
  · exact h
  · exact h (of_decide_eq_true hmismatched)
  · cases hmismatched

theorem CompletePc.mismatched_begin : mismatched (.running c.begin) = false := by
  unfold CompleteCall.begin
  split
  · rfl
  · rfl

theorem CompletePc.mismatched_of_crash {p : Progress CompletePc File}
    (h : mismatched p.crash = true) : mismatched p = true := by
  cases p with
  | running pc => cases h
  | returned | raised => exact h
  | crashed => exact h

theorem CompletePc.track_begin : Track c s (.running c.begin) := by
  unfold CompleteCall.begin
  split
  · rename_i uploadId htarget
    show c.Aims s uploadId
    rw [CompleteCall.Aims, htarget]
  · trivial

/-- No other error of a completion is the one of a mismatch. -/
theorem CompletePc.track_fail {e : Failure} (h : e ≠ .domain CompleteCall.sizeMismatch) :
    Track c s (.raised e) := fun heq => absurd heq h

theorem CompletePc.track_read {fate : Fate} {o : Outcome CompletePc File}
    (h : Track c s o.progress) : Track c s (Outcome.read fate o).progress := by
  rcases Outcome.read_cases fate o with heq | heq
  · rwa [heq]
  · rw [heq]
    exact track_fail (by decide)

theorem CompletePc.track_commit {st : Store} {fate : Fate} {w : Write}
    {next : Progress CompletePc File}
    (h : (Outcome.commit st fate w next).write = w → Track c s next) :
    Track c s (Outcome.commit st fate w next).progress := by
  rcases Outcome.commit_cases st fate w next with ⟨-, heq | heq⟩ | heq
  · rw [heq] at h ⊢
    exact h rfl
  · rw [heq]
    exact track_fail (by decide)
  · rw [heq]
    exact track_fail (by decide)

theorem CompletePc.mismatched_read {fate : Fate} {o : Outcome CompletePc File}
    (h : mismatched (Outcome.read fate o).progress = true) : mismatched o.progress = true := by
  rcases Outcome.read_cases fate o with heq | heq
  · rwa [heq] at h
  · rw [heq] at h
    cases h

theorem CompletePc.mismatched_commit {st : Store} {fate : Fate} {w : Write}
    {next : Progress CompletePc File}
    (h : mismatched (Outcome.commit st fate w next).progress = true) : mismatched next = true := by
  rcases Outcome.commit_cases st fate w next with ⟨-, heq | heq⟩ | heq
  · rwa [heq] at h
  · rw [heq] at h
    cases h
  · rw [heq] at h
    cases h

theorem authorizeUploadOperation_ne {actor : Actor} {projectId : UUID} {importing : Bool}
    {e : DomainError} (h : authorizeUploadOperation actor projectId importing = .error e) :
    e ≠ CompleteCall.sizeMismatch := by
  unfold authorizeUploadOperation requireProjectAccess at h
  split at h
  · dsimp only at h
    split at h
    · cases h
      decide
    · split at h
      · cases h
      · split at h
        · cases h
        · cases h
          decide
  · split at h
    · cases h
    · cases h
      decide

theorem resolve_ne {actor : Actor} {jobId attachmentId : UUID} {e : DomainError}
    {projectId : Option UUID}
    (h : resolveAttachmentUpload s actor jobId attachmentId = .error (e, projectId)) :
    e ≠ CompleteCall.sizeMismatch := by
  unfold resolveAttachmentUpload at h
  split at h
  · cases h
    decide
  · dsimp only at h
    split at h
    · cases h
      decide
    · split at h
      · cases h
      · cases h
        decide

theorem resolve_aims {jobId attachmentId uploadId : UUID}
    (htarget : c.target = .attachment jobId attachmentId)
    (h : resolveAttachmentUpload s c.actor jobId attachmentId = .ok uploadId) :
    c.Aims s uploadId := by
  unfold resolveAttachmentUpload at h
  split at h
  · cases h
  · dsimp only at h
    split at h
    · cases h
    · rename_i job attachment hrow
      split at h
      · cases h
        obtain ⟨j, hj, hrow⟩ := Option.bind_eq_some_iff.mp hrow
        obtain ⟨t, ht, hrow⟩ := Option.bind_eq_some_iff.mp hrow
        obtain ⟨f, hf, hrow⟩ := Option.bind_eq_some_iff.mp hrow
        split at hrow
        · rename_i hguard
          cases hrow
          rw [CompleteCall.Aims, htarget]
          refine ⟨Option.isSome_iff_exists.mpr ⟨job, hj⟩, attachment, ?_, Table.key_of_get? ht, rfl⟩
          exact Store.mem_attachmentsOf.mpr ⟨Table.mem_of_get? ht, hguard.1⟩
        · cases hrow
      · cases h

/-- One step of a completion: what it knows afterwards. -/
theorem CompleteCall.track_step {a : Answer} {pc : CompletePc} {o : Outcome CompletePc File}
    (hok : pc.Ok s) (htrack : CompletePc.Track c s (.running pc)) (h : c.step a s pc = some o)
    (he : Evolves s s') (hw : s.write? o.write = some s') :
    CompletePc.Track c s' o.progress := by
  cases pc with
  | resolve =>
      simp only [step] at h
      split at h
      · cases h
      · rename_i jobId attachmentId htarget
        cases h
        refine CompletePc.Track.evolve (CompletePc.track_read ?_) he
        split
        · rename_i e projectId hresolve
          exact resolve_ne hresolve
        · rename_i uploadId hresolve
          exact resolve_aims htarget hresolve
  | deny e projectId =>
      simp only [step] at h
      split at h
      · cases h
      · cases h
        refine CompletePc.track_commit fun _ => CompletePc.track_fail fun heq => ?_
        exact htrack (Failure.domain.inj heq)
  | lock id =>
      cases h
      refine CompletePc.Track.evolve (CompletePc.track_read ?_) he
      split
      · exact CompletePc.track_fail (by decide)
      · rename_i f hget
        obtain rfl : f.id = id := Table.key_of_get? hget
        split
        · rename_i e hdenied
          refine CompletePc.track_fail fun heq => ?_
          exact authorizeUploadOperation_ne hdenied (Failure.domain.inj heq)
        · split
          · rename_i hstate
            exact ⟨htrack, hstate⟩
          · split
            · exact CompletePc.track_fail (by decide)
            · split
              · exact htrack
              · exact CompletePc.track_fail (by decide)
  | finalize f m =>
      cases h
      refine CompletePc.Track.evolve ?_ he
      split
      · exact CompletePc.track_fail (by decide)
      · dsimp only [Outcome.attempt]
        split
        · exact htrack
        · exact CompletePc.track_fail (by decide)
  | settle f size =>
      have haims : c.Aims s' f.id := CompleteCall.Aims.evolve htrack he
      cases h
      split
      · refine CompletePc.track_commit fun heq => ?_
        rename_i hsize
        rw [if_pos hsize, heq] at hw
        exact ⟨f.id, haims, _, Store.get?_updateFile hw hok.get, rfl⟩
      · refine CompletePc.track_commit fun heq => ?_
        rename_i hsize
        rw [if_neg hsize, heq] at hw
        have hleft : Left s' f.id := ⟨_, Store.get?_updateFile hw hok.get, by
          rw [FileUpdate.apply_state]
          exact FileState.noConfusion⟩
        exact ⟨haims, hleft, FileState.noConfusion⟩
  | discard key =>
      cases h
      obtain ⟨id, haims, hfailed⟩ := htrack
      exact fun _ => ⟨id, haims.evolve he, hfailed.evolve he⟩
  | enqueue f =>
      cases h
      exact ⟨htrack.1.evolve he, htrack.2.2⟩

/-- Who comes to answer a mismatch: a completion that was about to, or one that has just
settled its row so. -/
theorem CompleteCall.mismatched_step {a : Answer} {pc : CompletePc} {o : Outcome CompletePc File}
    (htrack : CompletePc.Track c s (.running pc)) (h : c.step a s pc = some o)
    (hmismatched : CompletePc.mismatched o.progress = true) :
    CompletePc.mismatched (.running pc) = true ∨
      ∃ f size, pc = .settle f size ∧ size ≠ f.sizeBytes := by
  cases pc with
  | resolve =>
      simp only [step] at h
      split at h
      · cases h
      · cases h
        have hread := CompletePc.mismatched_read hmismatched
        split at hread
        · cases hread
        · cases hread
  | deny e projectId =>
      simp only [step] at h
      split at h
      · cases h
      · cases h
        have hcommit := CompletePc.mismatched_commit hmismatched
        exact absurd (Failure.domain.inj (of_decide_eq_true hcommit)) htrack
  | lock id =>
      cases h
      have hread := CompletePc.mismatched_read hmismatched
      split at hread
      · cases hread
      · split at hread
        · rename_i e hdenied
          exact absurd (Failure.domain.inj (of_decide_eq_true hread))
            (authorizeUploadOperation_ne hdenied)
        · split at hread
          · cases hread
          · split at hread
            · cases hread
            · split at hread
              · cases hread
              · cases hread
  | finalize f m =>
      cases h
      split at hmismatched
      · cases hmismatched
      · dsimp only [Outcome.attempt] at hmismatched
        split at hmismatched
        · cases hmismatched
        · cases hmismatched
  | settle f size =>
      cases h
      split at hmismatched
      · rename_i hsize
        exact .inr ⟨f, size, rfl, hsize⟩
      · cases CompletePc.mismatched_commit hmismatched
  | discard key => exact .inl rfl
  | enqueue f =>
      cases h
      cases hmismatched

/-- Who comes to enqueue a scan: a completion that has just settled its row. -/
theorem CompleteCall.enqueue_of_step {a : Answer} {pc : CompletePc} {o : Outcome CompletePc File}
    {f : File} (h : c.step a s pc = some o) (ho : o.progress = .running (.enqueue f)) :
    ∃ g, pc = .settle g g.sizeBytes ∧ f.id = g.id := by
  cases pc with
  | resolve =>
      simp only [step] at h
      split at h
      · cases h
      · cases h
        have ho := Outcome.running_read ho
        split at ho
        · cases ho
        · cases ho
  | deny e projectId =>
      simp only [step] at h
      split at h
      · cases h
      · cases h
        cases (Outcome.running_commit ho).1
  | lock id =>
      cases h
      have ho := Outcome.running_read ho
      split at ho
      · cases ho
      · split at ho
        · cases ho
        · split at ho
          · cases ho
          · split at ho
            · cases ho
            · split at ho
              · cases ho
              · cases ho
  | finalize g m =>
      cases h
      split at ho
      · cases ho
      · dsimp only [Outcome.attempt] at ho
        split at ho
        · cases ho
        · cases ho
  | settle g size =>
      cases h
      split at ho
      · cases (Outcome.running_commit ho).1
      · rename_i hsize
        obtain rfl := CompletePc.enqueue.inj (Progress.running.inj (Outcome.running_commit ho).1)
        rw [not_not] at hsize
        exact ⟨g, by rw [hsize], rfl⟩
  | discard key =>
      cases h
      cases ho
  | enqueue g =>
      cases h
      cases ho

end tracks

/-! ### The audit rows of completions -/

def IsCompletionOf (r : AuditLog) (id : UUID) : Prop :=
  r.action = "file.upload.complete" ∧ r.outcome = "SUCCESS" ∧ r.objectId = some id

instance (r : AuditLog) (id : UUID) : Decidable (IsCompletionOf r id) :=
  inferInstanceAs (Decidable (_ ∧ _ ∧ _))

/-- The rows that say that the upload of a file was completed. -/
def Store.completions (s : Store) (id : UUID) : List AuditLog :=
  s.audit.rows.filter fun r => decide (IsCompletionOf r id)

section rows

variable {P : Platform} {cfg : ScannerConfig} {s s' : Store} {w : Write} {id : UUID}

theorem Store.completions_append {rows : List AuditLog}
    (hrows : s'.audit.rows = s.audit.rows ++ rows) :
    s'.completions id = s.completions id ++ rows.filter fun r => decide (IsCompletionOf r id) := by
  rw [completions, hrows, List.filter_append]
  rfl

theorem Store.completions_of_not {rows : List AuditLog}
    (hrows : s'.audit.rows = s.audit.rows ++ rows) (hno : ∀ r ∈ rows, ¬IsCompletionOf r id) :
    s'.completions id = s.completions id := by
  rw [completions_append hrows, List.filter_eq_nil_iff.mpr, List.append_nil]
  exact fun r hr hcompletion => hno r hr (of_decide_eq_true hcompletion)

/-- Only the update of a file row can add such a row. -/
theorem Effect.completions (hw : s.write? w = some s') (h : Effect P s w) (id : UUID) :
    s'.completions id = s.completions id ∨
      ∃ fileId u r, w = .updateFile fileId u (some r) ∧ s'.audit.rows = s.audit.rows ++ [r] := by
  cases h with
  | nothing | noTransition | createMultipart | abortMultipart | completeMultipart | deleteObject
  | publish | consume =>
      cases hw
      exact .inl rfl
  | insertFile =>
      obtain ⟨files, -, rfl⟩ := Store.write?_insertFile hw
      exact .inl rfl
  | @updateFile fileId f u row hget hmove hissued hrow =>
      obtain ⟨-, -, -, -, -, hrows⟩ := Store.write?_updateFile hw
      cases row with
      | none => exact .inl (Store.completions_of_not hrows (List.forall_mem_nil _))
      | some r => exact .inr ⟨fileId, u, r, rfl, hrows⟩
  | @insertJob job as row hstatus hresult hsubmitted hne hattachments hrow hmanifest =>
      obtain ⟨-, -, -, -, -, hrows, -⟩ := Store.write?_insertJob hw
      refine .inl (Store.completions_of_not hrows ?_)
      rintro r hr ⟨haction, -⟩
      obtain rfl := List.mem_singleton.mp hr
      rw [hrow] at haction
      exact absurd haction (by decide)
  | record houtcome =>
      obtain ⟨-, -, -, -, -, -, hrows⟩ := Store.recordAudit_frame hw
      refine .inl (Store.completions_of_not hrows ?_)
      rintro r hr ⟨-, hsuccess, -⟩
      obtain rfl := List.mem_singleton.mp hr
      rw [houtcome] at hsuccess
      exact absurd hsuccess (by decide)
  | @transition job t hget hstaged =>
      obtain ⟨-, -, -, -, -, -, hrows⟩ :=
        Store.write?_transition (hstaged.jobId_eq.symm ▸ hget) hw
      refine .inl (Store.completions_of_not hrows ?_)
      rintro r hr ⟨haction, -⟩
      obtain rfl := List.mem_singleton.mp hr
      rcases (hstaged.isTransitionOf.mpr rfl).1 with hsubmit | hreconcile
      · rw [hsubmit] at haction
        exact absurd haction (by decide)
      · rw [hreconcile] at haction
        exact absurd haction (by decide)

/-- Only a completion that accepts an upload writes an audit row with its update. -/
theorem Thread.act_row {a : Answer} {t t' : Thread P} {u : FileUpdate} {r : AuditLog}
    (hs : WellFormed s) (hok : t.Ok s)
    (h : t.act cfg a s = some (t', .updateFile id u (some r))) :
    ∃ c f, t = .completeUpload c (.running (.settle f f.sizeBytes)) ∧ id = f.id ∧
      u.state = some .quarantined ∧ r.objectId = some f.id := by
  have hupdates := Thread.act_update hs hok h
  cases t with
  | presignPart | download | submitImport | readImport => cases hupdates
  | startUpload c p =>
      obtain ⟨o, hp, heq⟩ := Option.map_eq_some_iff.mp h
      obtain ⟨pc, rfl, hstep⟩ := Progress.step_eq_some hp
      have hw := (Prod.mk.inj heq).2
      cases hupdates
      cases hstep
      cases Outcome.write_commit update_ne_nothing hw
  | createImport c p =>
      obtain ⟨o, hp, heq⟩ := Option.map_eq_some_iff.mp h
      obtain ⟨pc, rfl, hstep⟩ := Progress.step_eq_some hp
      have hw := (Prod.mk.inj heq).2
      cases hupdates
      obtain ⟨o', hstep', hwrite⟩ := CreateCall.step_of_upload hstep
      cases hstep'
      cases Outcome.write_commit update_ne_nothing (hwrite.symm.trans hw)
  | completeUpload c p =>
      obtain ⟨o, hp, heq⟩ := Option.map_eq_some_iff.mp h
      obtain ⟨pc, rfl, hstep⟩ := Progress.step_eq_some hp
      have hw := (Prod.mk.inj heq).2
      cases hupdates with
      | mismatch hsize =>
          cases hstep
          rw [if_pos hsize] at hw
          cases Outcome.write_commit update_ne_nothing hw
      | @complete _ f size hsize =>
          cases hstep
          subst hsize
          rw [if_neg (not_not.mpr rfl)] at hw
          have hrow := (Write.updateFile.inj (Outcome.write_commit update_ne_nothing hw)).2.2
          obtain ⟨requestId, -, rfl⟩ := Option.map_eq_some_iff.mp hrow
          exact ⟨c, f, rfl, rfl, rfl, rfl⟩
  | scanFile fileId p =>
      obtain ⟨o, hp, heq⟩ := Option.map_eq_some_iff.mp h
      obtain ⟨pc, rfl, hstep⟩ := Progress.step_eq_some hp
      have hw := (Prod.mk.inj heq).2
      cases hupdates with
      | claim hget hstate | verdict hget hstate =>
          cases hstep
          simp only [hget, hstate, ne_eq, not_true, if_false] at hw
          cases Outcome.write_commit update_ne_nothing hw
  | recoverStaleUploads c p =>
      obtain ⟨o, hp, heq⟩ := Option.map_eq_some_iff.mp h
      obtain ⟨pc, rfl, hstep⟩ := Progress.step_eq_some hp
      have hw := (Prod.mk.inj heq).2
      cases hupdates with
      | expire hget hstate hage =>
          cases hstep
          simp only [hget, hstate, ne_eq, not_true, false_or, Int.not_le.mpr hage, if_false] at hw
          cases Outcome.write_commit update_ne_nothing hw

end rows

/-! ### Runs -/

section outcomes

variable {P : Platform} {cfg : ScannerConfig} {s t : SystemState P} {e : SystemEvent P}
  {i j : Nat} {id : UUID}

/-- Completion `j` answers a mismatch of the file, or is about to. -/
def Mismatches (s : SystemState P) (j : Nat) (id : UUID) : Prop :=
  ∃ c p, s.threads[j]? = some (.completeUpload c p) ∧ c.Aims s.store id ∧
    CompletePc.mismatched p = true

/-- Completion `j` enqueues the scan of the file next. -/
def Enqueues (s : SystemState P) (j : Nat) (id : UUID) : Prop :=
  ∃ c f, s.threads[j]? = some (.completeUpload c (.running (.enqueue f))) ∧ f.id = id

def Decides (s : SystemState P) (j : Nat) (id : UUID) : Prop :=
  Mismatches s j id ∨ Enqueues s j id

/-- Completion `j` is about to commit what it found out about the file. -/
def Settles (s : SystemState P) (j : Nat) (f : File) (size : Nat) : Prop :=
  ∃ c, s.threads[j]? = some (.completeUpload c (.running (.settle f size)))

/-- The calls of `enqueue_scan` for the file that a completion makes with the event. -/
def enqueuedBy (s : SystemState P) (id : UUID) : SystemEvent P → Nat
  | .act j _ =>
      match s.threads[j]? with
      | some (.completeUpload _ (.running (.enqueue f))) => if f.id = id then 1 else 0
      | _ => 0
  | .spawn _ | .crash _ => 0

/-- How often a run has a completion enqueue the scan of the file. -/
def completionEnqueues (P : Platform) (cfg : ScannerConfig) (id : UUID) :
    SystemState P → List (SystemEvent P) → Nat
  | _, [] => 0
  | s, e :: es =>
      match next P cfg s e with
      | none => 0
      | some t => enqueuedBy s id e + completionEnqueues P cfg id t es

theorem completionEnqueues_concat {es : List (SystemEvent P)} {u : SystemState P}
    (hrun : run (next P cfg) s es = some t) (hnext : next P cfg t e = some u) :
    completionEnqueues P cfg id s (es ++ [e]) =
      completionEnqueues P cfg id s es + enqueuedBy t id e := by
  induction es generalizing s with
  | nil =>
      cases hrun
      simp [completionEnqueues, hnext]
  | cons e' es ih =>
      obtain ⟨v, hstep, hrest⟩ := Option.bind_eq_some_iff.mp ((run_cons s e' es).symm.trans hrun)
      simp only [List.cons_append, completionEnqueues, hstep]
      rw [ih hrest, Nat.add_assoc]

theorem enqueuedBy_cases (s : SystemState P) (id : UUID) (e : SystemEvent P) :
    enqueuedBy s id e = 0 ∨
      enqueuedBy s id e = 1 ∧ ∃ j a, e = .act j a ∧ Enqueues s j id := by
  unfold enqueuedBy
  split
  · split
    · rename_i j a _ c f hthread
      split
      · rename_i hid
        exact .inr ⟨rfl, j, a, rfl, c, f, hthread, hid⟩
      · exact .inl rfl
    · exact .inl rfl
  · exact .inl rfl
  · exact .inl rfl

/-- Every completion knows what its program counter says. -/
structure Tracked (s : SystemState P) : Prop where
  track : ∀ {j : Nat} {c : CompleteCall} {p : Progress CompletePc File},
    s.threads[j]? = some (.completeUpload c p) → CompletePc.Track c s.store p

theorem Mismatches.failed (htracked : Tracked s) (h : Mismatches s j id) : Failed s.store id := by
  obtain ⟨c, p, hthread, haims, hmismatched⟩ := h
  obtain ⟨id', haims', hfailed⟩ := (htracked.track hthread).failed hmismatched
  rwa [haims.unique haims']

theorem Decides.left (htracked : Tracked s) (h : Decides s j id) : Left s.store id := by
  rcases h with hmismatches | ⟨c, f, hthread, rfl⟩
  · exact (hmismatches.failed htracked).left
  · exact (htracked.track hthread).2.1

theorem Settles.uploading (hs : Consistent cfg s) {f : File} {size : Nat}
    (h : Settles s j f size) : ¬Left s.store f.id := by
  obtain ⟨c, hthread⟩ := h
  obtain ⟨hget, hstate⟩ : Completing s.store f := hs.ok hthread
  exact fun hleft => hleft.not_uploading hget hstate

/-- Where a completion of the next state comes from. -/
theorem Happens.completion_cases (h : Happens cfg s e t) {c : CompleteCall}
    {p : Progress CompletePc File} (hget : t.threads[j]? = some (.completeUpload c p)) :
    s.threads[j]? = some (.completeUpload c p) ∨ p = .running c.begin ∨
      (∃ p', s.threads[j]? = some (.completeUpload c p') ∧ p = p'.crash) ∨
      ∃ a pc o, e = .act j a ∧ s.threads[j]? = some (.completeUpload c (.running pc)) ∧
        c.step a s.store pc = some o ∧ p = o.progress ∧ s.store.write? o.write = some t.store := by
  rcases h.thread_cases hget with hsame | hinitial | ⟨u, hu, hcrash⟩ |
    ⟨a, u, w, he, hu, hact, hwrite⟩
  · exact .inl hsame
  · exact .inr (.inl (of_decide_eq_true hinitial))
  · cases u with
    | completeUpload c' p' =>
        obtain ⟨rfl, rfl⟩ := Thread.completeUpload.inj hcrash
        exact .inr (.inr (.inl ⟨p', hu, rfl⟩))
    | startUpload | presignPart | scanFile | download | recoverStaleUploads | createImport
    | submitImport | readImport => cases hcrash
  · obtain ⟨pc, o, rfl, hstep, rfl, rfl⟩ := Thread.completion_of_act hact
    exact .inr (.inr (.inr ⟨a, pc, o, he, hu, hstep, rfl, hwrite⟩))

theorem Tracked.step (hs : Consistent cfg s) (h : Happens cfg s e t) (htracked : Tracked s) :
    Tracked t := by
  refine ⟨fun {j c p} hget => ?_⟩
  rcases h.completion_cases hget with hsame | rfl | ⟨p', hp', rfl⟩ |
    ⟨a, pc, o, -, hpc, hstep, rfl, hwrite⟩
  · exact (htracked.track hsame).evolve h.evolves
  · exact CompletePc.track_begin
  · exact ((htracked.track hp').evolve h.evolves).crash
  · exact CompleteCall.track_step (hs.ok hpc) (htracked.track hpc) hstep h.evolves hwrite

/-- A mismatch knows its file, now and before. -/
theorem Tracked.mismatches (htracked : Tracked s) (h : Happens cfg s e t) {c : CompleteCall}
    {p : Progress CompletePc File} (hthread : s.threads[j]? = some (.completeUpload c p))
    (hmismatched : CompletePc.mismatched p = true) (haims : c.Aims t.store id) :
    Mismatches s j id := by
  obtain ⟨id', haims', -⟩ := (htracked.track hthread).failed hmismatched
  obtain rfl := haims.unique (haims'.evolve h.evolves)
  exact ⟨c, p, hthread, haims', hmismatched⟩

/-- Who answers a mismatch after a step. -/
theorem Mismatches.before (htracked : Tracked s) (h : Happens cfg s e t)
    (hmismatches : Mismatches t j id) :
    Mismatches s j id ∨
      ∃ a f size, e = .act j a ∧ Settles s j f size ∧ f.id = id ∧ size ≠ f.sizeBytes := by
  obtain ⟨c, p, hget, haims, hmismatched⟩ := hmismatches
  rcases h.completion_cases hget with hsame | rfl | ⟨p', hp', rfl⟩ |
    ⟨a, pc, o, he, hpc, hstep, rfl, hwrite⟩
  · exact .inl (htracked.mismatches h hsame hmismatched haims)
  · rw [CompletePc.mismatched_begin] at hmismatched
    cases hmismatched
  · exact .inl (htracked.mismatches h hp' (CompletePc.mismatched_of_crash hmismatched) haims)
  · rcases CompleteCall.mismatched_step (htracked.track hpc) hstep hmismatched with
      hbefore | ⟨f, size, rfl, hsize⟩
    · exact .inl (htracked.mismatches h hpc hbefore haims)
    · have haims' : c.Aims s.store f.id := htracked.track hpc
      have hid : f.id = id := (haims'.evolve h.evolves).unique haims
      exact .inr ⟨a, f, size, he, ⟨c, hpc⟩, hid, hsize⟩

theorem Enqueues.before (h : Happens cfg s e t) (henqueues : Enqueues t j id) :
    Enqueues s j id ∨ ∃ a f, e = .act j a ∧ Settles s j f f.sizeBytes ∧ f.id = id := by
  obtain ⟨c, f, hget, hid⟩ := henqueues
  rcases h.completion_cases hget with hsame | hbegin | ⟨p', hp', hcrash⟩ |
    ⟨a, pc, o, he, hpc, hstep, hprogress, hwrite⟩
  · exact .inl ⟨c, f, hsame, hid⟩
  · unfold CompleteCall.begin at hbegin
    split at hbegin
    · cases hbegin
    · cases hbegin
  · exact absurd hcrash.symm Progress.crash_ne_running
  · obtain ⟨g, rfl, hg⟩ := CompleteCall.enqueue_of_step hstep hprogress.symm
    exact .inr ⟨a, g, he, ⟨c, hpc⟩, hg.symm.trans hid⟩

/-- Which event adds a row: the commit of a completion that found the size right. -/
theorem Happens.completions (hs : Consistent cfg s) (h : Happens cfg s e t) (id : UUID) :
    t.store.completions id = s.store.completions id ∨
      ∃ j a f r, e = .act j a ∧ Settles s j f f.sizeBytes ∧ f.id = id ∧ Left t.store id ∧
        t.store.completions id = s.store.completions id ++ [r] := by
  cases h with
  | spawn | crash => exact .inl rfl
  | @act j a u u' w store hget hfree hact hwrite hsound =>
      rcases hsound.effect.completions hwrite id with hsame | ⟨fileId, v, r, rfl, hrows⟩
      · exact .inl hsame
      · obtain ⟨c, f, rfl, rfl, hstate, hobject⟩ := Thread.act_row hs.wellFormed (hs.ok hget) hact
        by_cases hcompletion : IsCompletionOf r id
        · obtain rfl : f.id = id := Option.some.inj (hobject.symm.trans hcompletion.2.2)
          obtain ⟨hrow, -⟩ : Completing s.store f := hs.ok hget
          have hleft : Left store f.id := ⟨_, Store.get?_updateFile hwrite hrow, by
            rw [FileUpdate.apply_state, hstate]
            exact FileState.noConfusion⟩
          refine .inr ⟨j, a, f, r, rfl, ⟨c, hget⟩, rfl, hleft, ?_⟩
          rw [Store.completions_append hrows]
          exact congrArg _ (List.filter_cons_of_pos (decide_eq_true hcompletion))
        · refine .inl (Store.completions_of_not hrows ?_)
          intro r' hr'
          obtain rfl := List.mem_singleton.mp hr'
          exact hcompletion

/-- After it has enqueued a scan, a completion decides nothing any more. -/
theorem Enqueues.done {a : Answer} (h : Happens cfg s (.act j a) t) (henqueues : Enqueues s j id) :
    ¬Decides t j id := by
  obtain ⟨c, f, hthread, -⟩ := henqueues
  have hdone : ∃ p, t.threads[j]? = some (.completeUpload c p) ∧
      CompletePc.mismatched p = false ∧ ∀ g, p ≠ .running (.enqueue g) := by
    cases h with
    | act hget hfree hact hwrite hsound =>
        obtain rfl := Option.some.inj (hthread.symm.trans hget)
        obtain ⟨o, hp, rfl, -⟩ := Thread.act_complete hact
        refine ⟨o.progress,
          List.getElem?_set_self (List.getElem?_eq_some_iff.mp hthread).1, ?_⟩
        cases hp
        exact ⟨rfl, nofun⟩
  obtain ⟨p, hp, hmismatched, hrunning⟩ := hdone
  rintro (⟨c', p', hp', -, hmismatched'⟩ | ⟨c', g, hp', -⟩)
  · obtain ⟨rfl, rfl⟩ := Thread.completeUpload.inj (Option.some.inj (hp.symm.trans hp'))
    rw [hmismatched] at hmismatched'
    cases hmismatched'
  · exact hrunning g (Thread.completeUpload.inj (Option.some.inj (hp.symm.trans hp'))).2

/-- What a run has decided about a file: nothing yet, or one thing, by one completion. -/
structure Settled (P : Platform) (cfg : ScannerConfig) (id : UUID) (enqueued : Nat)
    (s : SystemState P) : Prop where
  tracked : Tracked s
  rows : s.store.completions id = [] ∨ (s.store.completions id).length = 1 ∧ Left s.store id
  count : enqueued = 0 ∨ enqueued = 1 ∧ Left s.store id ∧ ∀ j, ¬Decides s j id
  unique : ∀ {i j}, Decides s i id → Decides s j id → i = j
  mismatch : ∀ {j}, Mismatches s j id → s.store.completions id = [] ∧ enqueued = 0

variable {n : Nat}

/-- The commit of a completion: nothing was decided before it. -/
theorem Settled.settle (hs : Consistent cfg s) (hsettled : Settled P cfg id n s)
    {a : Answer} {f : File} {size : Nat} (h : Happens cfg s (.act j a) t)
    (hsettles : Settles s j f size) (hid : f.id = id) :
    Settled P cfg id (n + enqueuedBy s id (.act j a)) t := by
  have hopen : ¬Left s.store id := hid ▸ hsettles.uploading hs
  have hnobody : ∀ i, ¬Decides s i id := fun i hi => hopen (hi.left hsettled.tracked)
  have hempty : s.store.completions id = [] :=
    hsettled.rows.resolve_right fun hrow => hopen hrow.2
  have hzero : n = 0 := hsettled.count.resolve_right fun hcount => hopen hcount.2.1
  have hnone : enqueuedBy s id (.act j a) = 0 := by
    rcases enqueuedBy_cases s id (.act j a) with hnone | ⟨-, i, a', he, henqueues⟩
    · exact hnone
    · exact absurd (.inr henqueues) (hnobody i)
  have hself : ∀ {i}, Decides t i id → i = j := by
    rintro i (hi | hi)
    · rcases hi.before hsettled.tracked h with hbefore | ⟨a', g, size', he, -⟩
      · exact absurd (.inl hbefore) (hnobody i)
      · exact (Event.act.inj he).1.symm
    · rcases hi.before h with hbefore | ⟨a', g, he, -⟩
      · exact absurd (.inr hbefore) (hnobody i)
      · exact (Event.act.inj he).1.symm
  rw [hzero, hnone]
  refine ⟨hsettled.tracked.step hs h, ?_, .inl rfl, fun hi hj => (hself hi).trans (hself hj).symm,
    fun {i} hi => ⟨?_, rfl⟩⟩
  · rcases h.completions hs id with hsame | ⟨i, a', g, r, -, -, -, hleft, hrows⟩
    · exact .inl (hsame.trans hempty)
    · rw [hrows, hempty]
      exact .inr ⟨rfl, hleft⟩
  · -- The completion that found the size wrong is not the one that found it right.
    rcases h.completions hs id with hsame | ⟨i', a', g, r, he', ⟨c', hg⟩, -⟩
    · exact hsame.trans hempty
    · rcases hi.before hsettled.tracked h with hbefore | ⟨a'', g', size', he, ⟨c, hg'⟩, -, hsize⟩
      · exact absurd (.inl hbefore) (hnobody i)
      · obtain rfl : i' = i := (Event.act.inj (he'.symm.trans he)).1
        obtain ⟨-, hprogress⟩ := Thread.completeUpload.inj (Option.some.inj (hg.symm.trans hg'))
        obtain ⟨rfl, rfl⟩ := CompletePc.settle.inj (Progress.running.inj hprogress)
        exact absurd rfl hsize

/-- Any other step decides nothing new. -/
theorem Settled.other (hs : Consistent cfg s) (hsettled : Settled P cfg id n s)
    (h : Happens cfg s e t)
    (hother : ∀ j a f size, e = .act j a → Settles s j f size → f.id ≠ id) :
    Settled P cfg id (n + enqueuedBy s id e) t := by
  have htracked := hsettled.tracked.step hs h
  have hmismatches : ∀ {j}, Mismatches t j id → Mismatches s j id := by
    intro j hj
    rcases hj.before hsettled.tracked h with hbefore | ⟨a, f, size, he, hsettles, hid, -⟩
    · exact hbefore
    · exact absurd hid (hother j a f size he hsettles)
  have hdecides : ∀ {j}, Decides t j id → Decides s j id := by
    rintro j (hj | hj)
    · exact .inl (hmismatches hj)
    · rcases hj.before h with hbefore | ⟨a, f, he, hsettles, hid⟩
      · exact .inr hbefore
      · exact absurd hid (hother j a f _ he hsettles)
  have hrows : t.store.completions id = s.store.completions id := by
    rcases h.completions hs id with hsame | ⟨j, a, f, r, he, hsettles, hid, -⟩
    · exact hsame
    · exact absurd hid (hother j a f _ he hsettles)
  have hunique : ∀ {i j}, Decides t i id → Decides t j id → i = j :=
    fun hi hj => hsettled.unique (hdecides hi) (hdecides hj)
  have hleft : Left s.store id → Left t.store id := fun hleft => hleft.evolve h.evolves
  have hcompletions : t.store.completions id = [] ∨
      (t.store.completions id).length = 1 ∧ Left t.store id := by
    rw [hrows]
    exact hsettled.rows.imp_right fun hrow => ⟨hrow.1, hleft hrow.2⟩
  rcases enqueuedBy_cases s id e with hnone | ⟨hone, j, a, rfl, henqueues⟩
  · rw [hnone, Nat.add_zero]
    refine ⟨htracked, hcompletions, hsettled.count.imp_right ?_, hunique, fun hj => ?_⟩
    · exact fun hcount => ⟨hcount.1, hleft hcount.2.1, fun j hj => hcount.2.2 j (hdecides hj)⟩
    · rw [hrows]
      exact hsettled.mismatch (hmismatches hj)
  · have hdecider : Decides s j id := .inr henqueues
    have hzero : n = 0 := hsettled.count.resolve_right fun hcount => hcount.2.2 j hdecider
    have hnobody : ∀ i, ¬Decides t i id := by
      intro i hi
      obtain rfl := hsettled.unique (hdecides hi) hdecider
      exact henqueues.done h hi
    rw [hzero, hone]
    refine ⟨htracked, hcompletions, .inr ⟨rfl, ?_, hnobody⟩, hunique, fun hi => ?_⟩
    · exact hleft (hdecider.left hsettled.tracked)
    · exact absurd (.inl hi) (hnobody _)

theorem Settled.step (hs : Consistent cfg s) (hsettled : Settled P cfg id n s)
    (h : Happens cfg s e t) : Settled P cfg id (n + enqueuedBy s id e) t := by
  by_cases hsettle : ∃ j a f size, e = .act j a ∧ Settles s j f size ∧ f.id = id
  · obtain ⟨j, a, f, size, rfl, hsettles, hid⟩ := hsettle
    exact hsettled.settle hs h hsettles hid
  · exact hsettled.other hs h fun j a f size he hsettles hid =>
      hsettle ⟨j, a, f, size, he, hsettles, hid⟩

theorem settled_of_run {projects : List UUID} {es : List (SystemEvent P)}
    (h : run (next P cfg) (initialState P projects) es = some s) (id : UUID) :
    Settled P cfg id (completionEnqueues P cfg id (initialState P projects) es) s := by
  refine run_induction
    (I := fun es s => Settled P cfg id (completionEnqueues P cfg id (initialState P projects) es) s)
    ?_ (fun es s e t hrun hsettled hnext => ?_) h
  · have hnobody : ∀ j, ¬Decides (initialState P projects) j id := by
      rintro j (⟨c, p, hthread, -⟩ | ⟨c, f, hthread, -⟩)
      · cases hthread
      · cases hthread
    refine ⟨⟨fun hthread => ?_⟩, .inl rfl, .inl rfl, fun hi => absurd hi (hnobody _), fun hj => ?_⟩
    · cases hthread
    · exact absurd (.inl hj) (hnobody _)
  · rw [completionEnqueues_concat hrun hnext]
    have hs : Consistent cfg s := consistent_of_reachable ⟨es, hrun⟩
    exact hsettled.step hs (hs.happens hnext)

/-- Completion `j`, by the request `c`, was told that the size does not match. -/
def TurnedDown (s : SystemState P) (j : Nat) (c : CompleteCall) : Prop :=
  s.threads[j]? = some (.completeUpload c (.raised (.domain CompleteCall.sizeMismatch)))

/-- Completion `j`, by the request `c`, was answered with the file `f`. -/
def Accepted (s : SystemState P) (j : Nat) (c : CompleteCall) (f : File) : Prop :=
  s.threads[j]? = some (.completeUpload c (.returned f))

instance (s : SystemState P) (j : Nat) (c : CompleteCall) : Decidable (TurnedDown s j c) :=
  inferInstanceAs (Decidable (_ = _))

instance (s : SystemState P) (j : Nat) (c : CompleteCall) (f : File) :
    Decidable (Accepted s j c f) :=
  inferInstanceAs (Decidable (_ = _))

theorem TurnedDown.mismatches {c : CompleteCall} (h : TurnedDown s j c) (haims : c.Aims s.store id) :
    Mismatches s j id := by
  refine ⟨c, _, h, haims, ?_⟩
  unfold CompletePc.mismatched
  exact decide_eq_true rfl

end outcomes

/-- How the completions of one file were answered in a run. -/
structure CompletionAnswers (P : Platform) (cfg : ScannerConfig) (projects : List UUID)
    (es : List (SystemEvent P)) (s : SystemState P) (id : UUID) : Prop where
  audited : (s.store.completions id).length ≤ 1
  enqueued : completionEnqueues P cfg id (initialState P projects) es ≤ 1
  /-- At most one request is told of a mismatch. -/
  refused : ∀ i j c c', TurnedDown s i c → TurnedDown s j c' → c.Aims s.store id →
    c'.Aims s.store id → i = j
  /-- Then the file has failed, and nobody accepted it. -/
  refusal : ∀ j c, TurnedDown s j c → c.Aims s.store id → Failed s.store id ∧
    s.store.completions id = [] ∧ completionEnqueues P cfg id (initialState P projects) es = 0
  /-- All other answers are the file, whatever became of it. -/
  accepted : ∀ j c f, Accepted s j c f → c.Aims s.store id → f.id = id ∧ f.state ≠ .uploading

/-- In every run at most one completion of a file is told of a size mismatch, at
most one writes the audit row, and at most one enqueues the scan. -/
theorem completion_outcomes (P : Platform) (cfg : ScannerConfig) (projects : List UUID)
    {es : List (SystemEvent P)} {s : SystemState P}
    (h : run (next P cfg) (initialState P projects) es = some s) (id : UUID) :
    CompletionAnswers P cfg projects es s id := by
  have hsettled := settled_of_run h id
  refine ⟨?_, ?_, fun i j c c' hi hj haims haims' => ?_, fun j c hj haims => ?_,
    fun j c f hj haims => ?_⟩
  · rcases hsettled.rows with hempty | ⟨hone, -⟩
    · rw [hempty]
      exact Nat.zero_le 1
    · exact hone.le
  · rcases hsettled.count with hzero | ⟨hone, -⟩
    · rw [hzero]
      exact Nat.zero_le 1
    · exact hone.le
  · exact hsettled.unique (.inl (hi.mismatches haims)) (.inl (hj.mismatches haims'))
  · have hmismatches := hj.mismatches haims
    exact ⟨hmismatches.failed hsettled.tracked, hsettled.mismatch hmismatches⟩
  · obtain ⟨haims', hstate⟩ : c.Aims s.store f.id ∧ f.state ≠ .uploading :=
      hsettled.tracked.track hj
    exact ⟨haims'.unique haims, hstate⟩

namespace Sample

/-- An object that is too short. -/
def short : Answer := { answer with content := ascii "ab" }

/-- The completion finds the short object. -/
def refused : List (SystemEvent platform) :=
  .spawn (.startUpload upload (.running .select)) :: List.replicate 6 (.act 0 answer) ++
    .spawn (.completeUpload completion (.running completion.begin)) ::
      List.replicate 4 (.act 1 short)

/-- The same request once more. -/
def repeated : List (SystemEvent platform) :=
  [.spawn (.completeUpload completion (.running completion.begin)), .act 2 answer]

theorem refused_then_accepted :
    ∃ s f, run (next platform scanner) (initialState platform [1]) (refused ++ repeated) = some s ∧
      TurnedDown s 1 completion ∧ Accepted s 2 completion f ∧ f.state = .failed := by
  have hrun : ((run (next platform scanner) (initialState platform [1])
      (refused ++ repeated)).bind fun s => (s.store.files.get? 10).map fun f =>
        decide (TurnedDown s 1 completion ∧ Accepted s 2 completion f ∧ f.state = .failed)) =
      some true := by decide +kernel
  obtain ⟨s, hs, hrun⟩ := Option.bind_eq_some_iff.mp hrun
  obtain ⟨f, -, hrun⟩ := Option.map_eq_some_iff.mp hrun
  exact ⟨s, f, hs, of_decide_eq_true hrun⟩

end Sample

/-- A request that is told of a mismatch leaves no audit row and no scan. -/
theorem completion_outcomes_refused :
    ∃ s, run (next Sample.platform Sample.scanner) (initialState Sample.platform [1])
        (Sample.refused ++ Sample.repeated) = some s ∧
      TurnedDown s 1 Sample.completion ∧ Failed s.store 10 ∧ s.store.completions 10 = [] := by
  obtain ⟨s, f, hs, hrefused, -, -⟩ := Sample.refused_then_accepted
  obtain ⟨hfailed, hrows, -⟩ :=
    (completion_outcomes _ _ _ hs 10).refusal 1 Sample.completion hrefused rfl
  exact ⟨s, hs, hrefused, hfailed, hrows⟩

/-- Two identical requests, the first one told of the mismatch, the second one accepted. -/
theorem replay_of_mismatch_accepted :
    ¬∀ (es : List (SystemEvent Sample.platform)) (s : SystemState Sample.platform)
        (i j : Nat) (c : CompleteCall) (f : File),
      run (next Sample.platform Sample.scanner) (initialState Sample.platform [1]) es = some s →
      ¬(TurnedDown s i c ∧ Accepted s j c f) := by
  intro h
  obtain ⟨s, f, hs, hrefused, haccepted, -⟩ := Sample.refused_then_accepted
  exact h _ s 1 2 Sample.completion f hs ⟨hrefused, haccepted⟩

end SuperBoss.Server
