import SuperBoss.Connector.Uploading

/-!
Resuming an operation: from any of its entries to the evidence of its job, and
the removal of its document.
-/

namespace SuperBoss.Connector

open SuperBoss.Core
open SuperBoss.Files
open SuperBoss.Imports
open SuperBoss.Library
open SuperBoss.Library.Framing

variable {P : Platform} {A : Type} [DecidableEq A] {T : Timestamps P} {C : UrlContext A}
  {origin : Text} {w : Workstation} {e : OutboxEntry} {accessToken : Text} {jobId : UUID}

/-! ### Creating the job -/

/-- The attachments of a created job declare what they declared. -/
theorem Backed.created {history : List Event} {e' : OutboxEntry} (h : Backed P C history e)
    (hok : e.Ok) (hphase : e.phase = .create)
    (hbound : List.Forall₂ (fun a b => ∃ received, b = AttachmentState.bind a received)
      e.attachments e'.attachments) : Backed P C history e' := by
  intro b hb
  obtain ⟨a, ha, received, rfl⟩ := exists_of_forall₂_left hbound.flip hb
  obtain ⟨⟨content, hdeclares⟩, -⟩ := h a ha
  refine ⟨⟨content, hdeclares⟩, fun p hp => ?_⟩
  have hnone := ((hok.consistent.2.1 hphase).2 a ha).2.1
  change p ∈ a.completedParts at hp
  rw [hnone] at hp
  cases hp

theorem Workstation.Active.keeping_resumeCreate (h : w.Active T C origin e) {m : PreparedManifest P}
    (hm : P.sha256 m.server.canonicalBytes = e.manifestFingerprint) :
    Keeping T C origin
      (fun e' w' => w'.Active T C origin e' ∧ e.Advances e' ∧ e'.phase ≠ .create ∧
        (e.phase ≠ .evidence → e'.phase ≠ .evidence))
      (Workstation.Halted T C origin e.idempotencyKey)
      (resumeCreate accessToken (pathFor P e.idempotencyKey) m e) w := by
  unfold resumeCreate
  split
  · rename_i hphase
    refine Procedure.pre_bind.mpr (h.keeping_request rfl ⟨rfl, m.server, rfl, hm⟩
      (fun payload h₁ => ?_) fun f hf w' hw' => hw'.halted hf)
    refine Procedure.pre_bind.mpr (Procedure.pre_ofExcept.mpr ⟨fun created _ => ?_, fun f hf =>
      h₁.halted (harmless_parseCreatedJob f hf)⟩)
    refine Procedure.pre_bind.mpr (Procedure.pre_ofExcept.mpr ⟨fun e' he' => ?_, fun f hf =>
      h₁.halted (harmless_bindCreatedJob f hf)⟩)
    obtain ⟨hok, hadvances, hupload, hbound⟩ := h.ok.created hphase he'
    refine h₁.keeping_save hadvances hok (h₁.backed.created h.ok hphase hbound)
      (fun now w' hw' => ⟨hw', hadvances.trans (e'.stamp_advances now), ?_, fun _ => ?_⟩)
      fun f hf w' hw' => hw'.halted hf
    · change e'.phase ≠ .create
      rw [hupload]
      decide
    · change e'.phase ≠ .evidence
      rw [hupload]
      decide
  · rename_i hphase
    exact ⟨h, OutboxEntry.Advances.refl e, hphase, fun hne => hne⟩

/-! ### The upload phase -/

theorem Workstation.Active.keeping_resumeUpload (h : w.Active T C origin e)
    (hjob : e.jobId = some jobId) (hcreate : e.phase ≠ .create) (hevidence : e.phase ≠ .evidence) :
    Keeping T C origin
      (fun e' w' => w'.Active T C origin e' ∧ e.Advances e' ∧ e'.phase = .submit)
      (Workstation.Halted T C origin e.idempotencyKey)
      (resumeUpload C P accessToken (pathFor P e.idempotencyKey) jobId e) w := by
  unfold resumeUpload
  split
  · rename_i hphase
    have hstart : w.Uploading T C origin e e := ⟨h, OutboxEntry.Advances.refl e, hphase⟩
    refine Procedure.pre_bind.mpr ((hstart.keeping_attachments hjob).mono
      (fun e' w' hdone => ?_) fun _ _ h => h)
    obtain ⟨hw', hall⟩ := hdone
    have hkey : e'.idempotencyKey = e.idempotencyKey := hw'.advances.idempotencyKey
    have hadvances := OutboxEntry.submit_advances hw'.phase
    rw [← hkey]
    refine hw'.toActive.keeping_save hadvances (hw'.ok.submitted hw'.phase hall)
      (hw'.backed.congr rfl rfl) (fun now w'' hw'' => ⟨hw'', ?_, rfl⟩)
      fun f hf w'' hw'' => hw''.halted hf
    exact (hw'.advances.trans hadvances).trans (OutboxEntry.stamp_advances _ now)
  · rename_i hphase
    refine ⟨h, OutboxEntry.Advances.refl e, ?_⟩
    cases hp : e.phase with
    | create => exact absurd hp hcreate
    | upload => exact absurd hp hphase
    | submit => rfl
    | evidence => exact absurd hp hevidence

/-! ### Submitting -/

theorem parseSubmitted_eq_ok {payload : Bytes} {r : SubmitResponse}
    (h : parseSubmitted P jobId payload = .ok r) : r.id = jobId := by
  obtain ⟨parsed, -, h⟩ := bind_eq_ok.mp h
  split at h
  · cases h
  · rename_i hid
    obtain rfl := Except.ok.inj h
    exact not_not.mp hid

theorem construct_eq_ok {α : Type} {x : Except PyError α} {a : α} (h : construct x = .ok a) :
    x = .ok a := by
  cases x with
  | ok b => exact congrArg Except.ok (Except.ok.inj h)
  | error e => cases h

theorem Workstation.Active.keeping_resumeSubmit (h : w.Active T C origin e)
    (hjob : e.jobId = some jobId) (hphase : e.phase = .submit) :
    Keeping T C origin
      (fun v w' => ∃ e', w'.Active T C origin e' ∧ e'.idempotencyKey = e.idempotencyKey ∧
        e'.evidence = some v)
      (Workstation.Halted T C origin e.idempotencyKey)
      (resumeSubmit T accessToken (pathFor P e.idempotencyKey) jobId e) w := by
  have hcompleted := h.ok.consistent.2.2.2.1 (.inl hphase)
  refine Procedure.pre_bind.mpr (h.keeping_request rfl ⟨hjob, hcompleted⟩
    (fun payload h₁ => ?_) fun f hf w' hw' => hw'.halted hf)
  refine Procedure.pre_bind.mpr (Procedure.pre_ofExcept.mpr ⟨fun result hresult => ?_, fun f hf =>
    h₁.halted (harmless_parseSubmitted f hf)⟩)
  refine Procedure.pre_bind.mpr (Procedure.pre_ofExcept.mpr ⟨fun v hv => ?_, fun f hf =>
    h₁.halted (harmless_construct f hf)⟩)
  obtain ⟨rfl, hok⟩ := EvidenceState.ok_of_validate (construct_eq_ok hv)
  have hown : e.jobId = some result.evidence.jobId := by
    rw [hjob, ← parseSubmitted_eq_ok hresult]
    rfl
  refine Procedure.pre_bind.mpr (h₁.keeping_save
    (OutboxEntry.evidence_advances h.ok hphase result.evidence) (h.ok.answered hphase hok hown)
    (h₁.backed.congr rfl rfl) (fun now w' hw' => ?_) fun f hf w' hw' => hw'.halted hf)
  exact ⟨_, hw', rfl, rfl⟩

/-- Resuming ends with the evidence in the outbox, or leaves an entry that can be resumed. -/
theorem Workstation.Active.keeping_resume (h : w.Active T C origin e) {m : PreparedManifest P}
    (hm : P.sha256 m.server.canonicalBytes = e.manifestFingerprint)
    (hphase : e.phase ≠ .evidence) :
    Keeping T C origin
      (fun v w' => ∃ e', w'.Active T C origin e' ∧ e'.idempotencyKey = e.idempotencyKey ∧
        e'.evidence = some v)
      (Workstation.Halted T C origin e.idempotencyKey)
      (resume T C accessToken (pathFor P e.idempotencyKey) m e) w := by
  refine Procedure.pre_bind.mpr ((h.keeping_resumeCreate hm).mono (fun e₁ w₁ hcreated => ?_)
    fun _ _ h => h)
  obtain ⟨h₁, hadvances₁, hcreate, hevidence⟩ := hcreated
  have hkey₁ : e₁.idempotencyKey = e.idempotencyKey := hadvances₁.idempotencyKey
  rw [← hkey₁]
  split
  · exact h₁.halted stateFailure_not_discards
  rename_i jobId hjob
  refine Procedure.pre_bind.mpr ((h₁.keeping_resumeUpload hjob hcreate (hevidence hphase)).mono
    (fun e₂ w₂ huploaded => ?_) fun _ _ h => h)
  obtain ⟨h₂, hadvances₂, hsubmit⟩ := huploaded
  have hkey₂ : e₂.idempotencyKey = e₁.idempotencyKey := hadvances₂.idempotencyKey
  rw [← hkey₂]
  exact h₂.keeping_resumeSubmit (hadvances₂.jobId jobId hjob) hsubmit

/-! ### Ending an operation -/

/-- The evidence of the outbox is printed before its document is removed. -/
theorem Workstation.Active.keeping_print (h : w.Active T C origin e) {v : EvidenceState}
    (hv : e.evidence = some v) :
    Keeping T C origin (fun _ w' => w'.Ready) (fun _ _ => True)
      (printResultAndDelete v (pathFor P e.idempotencyKey)) w := by
  refine Procedure.pre_bind.mpr (keeping_observe rfl h.inv (fun i _ _ => ?_) fun _ _ _ => trivial)
  have h₁ := h.observe ⟨.echo (resultLine v.jobId v.status v.resultCode), .ok ()⟩ rfl
  exact h₁.keeping_delete (.printed e v w.history h₁.toHolds hv rfl) (fun w' hw' => hw')
    fun _ _ => trivial

/-- An operation is discarded only behind a look that has shown a local file changed. -/
theorem keeping_discardOnFileChange {α : Type} {p : Command α} {key : Text}
    {Q : α → Workstation → Prop}
    (h : Keeping T C origin Q (Workstation.Halted T C origin key) p w) :
    Keeping T C origin Q (fun _ _ => True) (discardOnFileChange (pathFor P key) p) w := by
  refine Procedure.pre_handle.mpr (h.mono (fun _ _ h => h) fun f w' hhalted => ?_)
  obtain ⟨e, hw', rfl, hchanged⟩ := hhalted
  cases f with
  | unexpected => exact trivial
  | connector error =>
      dsimp only
      split
      · rename_i hcode
        obtain ⟨ev, older, hhistory, hev⟩ := hchanged ⟨error, rfl, hcode⟩
        exact Procedure.pre_bind.mpr
          (hw'.keeping_delete (.changed e ev older hw'.toHolds hhistory hev)
            (fun _ _ => trivial) fun _ _ => trivial)
      · exact trivial

end SuperBoss.Connector
