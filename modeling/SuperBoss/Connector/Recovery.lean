import SuperBoss.Connector.Assistance
import SuperBoss.Connector.Sessions

/-!
Recovery: from wherever the commands of a session were stopped, a retry in an
environment that helps prints the evidence of the job and empties the outbox.
-/

namespace SuperBoss.Connector

open SuperBoss.Core
open SuperBoss.Files
open SuperBoss.Imports
open SuperBoss.Library
open SuperBoss.Library.Framing

variable {P : Platform} {A : Type} [DecidableEq A] {T : Timestamps P} {C : UrlContext A}
  {origin : Text} {files : FileSystem} {m : ServerManifest P} {w : Workstation}

/-! ### Parts -/

section parts

variable {e e' : OutboxEntry} {a b : AttachmentState} {i n : Nat} {passed : List Nat}
  {accessToken name : Text} {jobId attachmentId : UUID}

theorem helped_verify {Q : Unit → Workstation → Prop} (ha : a.Intact P files)
    (hQ : Q () (w.push ⟨.look, .ok files⟩)) :
    Helped T C origin files m Q (verify P a) w := by
  refine Procedure.succeeds_bind.mpr (helped_look ?_)
  rw [if_pos ha.verified]
  exact hQ

/-- An accepted attachment has few enough parts for their numbers. -/
theorem AttachmentState.Ok.totalParts_le (h : a.Ok) : a.totalParts ≤ 10000 := by
  have hcount : a.partSha256s.length = a.totalParts := h.consistent.2.2.2.2.1
  have hle := h.parts.1.2
  omega

theorem Workstation.Uploading.helped_uploadPart (h : w.Uploading T C origin e e')
    (hT : T.Encodable) (hwhole : files.Whole) (ha : a.Intact P files)
    (hpassed : PartsPassed a i passed e') (hn : 1 ≤ n ∧ n ≤ a.totalParts) (hnew : n ∉ passed) :
    Helped T C origin files m (fun _ _ => True)
      (uploadPart (P := P) C accessToken name jobId attachmentId i a e' n) w := by
  obtain ⟨b, hb, hab, hnumbers⟩ := hpassed
  have hok := h.ok.attachments.2 b (List.mem_of_getElem? hb)
  have hn' : n ≤ b.totalParts := by
    rw [hab.totalParts]
    exact hn.2
  unfold uploadPart
  split
  · exact trivial
  rename_i hmissing
  refine Procedure.succeeds_bind.mpr (helped_request fun payload haccepts => ?_)
  obtain ⟨url, hurl⟩ := haccepts
  refine Procedure.succeeds_bind.mpr (Procedure.succeeds_ofExcept.mpr ⟨url, hurl, ?_⟩)
  refine Procedure.succeeds_bind.mpr (helped_verify ha ?_)
  obtain ⟨sha256, content, hsha256, hcontent⟩ := ha.part hwhole hn
  rw [hsha256]
  refine Procedure.succeeds_bind.mpr (helped_call fun j hj => ⟨_, _, rfl, ?_⟩)
  rw [hj.2]
  refine Procedure.succeeds_bind.mpr (Procedure.succeeds_ofExcept.mpr ⟨content, hcontent, ?_⟩)
  refine Procedure.succeeds_bind.mpr (helped_call fun k hk => ?_)
  obtain ⟨-, etag, hput, hetag⟩ := hk
  refine ⟨etag, _, Prod.ext (congrArg (Except.mapError Fault.connector) hput) rfl, ?_⟩
  have hpart := CompletedPart.ok_of_put ⟨hn.1, hn'.trans hok.totalParts_le⟩ hput hetag
  refine Procedure.succeeds_bind.mpr
    (Procedure.succeeds_ofExcept.mpr ⟨⟨n, etag⟩, hpart.constructed, ?_⟩)
  refine helped_save hT (h.ok.modified h.phase hb (b.addPart_advances _)
    (hok.addPart hpart ?_ hn')) fun _ _ => trivial
  rw [hnumbers]
  exact not_or.mpr ⟨hmissing, hnew⟩

theorem Workstation.Uploading.helped_parts (h : w.Uploading T C origin e e') (hT : T.Encodable)
    (hwhole : files.Whole) (hintact : a.Intact P files) (ha : e'.attachments[i]? = some a)
    (hjob : e.jobId = some jobId) (hid : a.attachmentId = some attachmentId) :
    Helped T C origin files m
      (fun e'' w' => w'.Uploading T C origin e e'' ∧
        PartsPassed a i (List.range' 1 a.totalParts) e'')
      (Procedure.each
        (uploadPart (P := P) C accessToken (pathFor P e.idempotencyKey) jobId attachmentId i a) e'
        (List.range' 1 a.totalParts)) w := by
  have hstart : PartsPassed a i [] e' :=
    ⟨a, ha, AttachmentState.Advances.refl a, fun n => by simp⟩
  refine Procedure.succeeds_loop
    (I := fun passed e'' (w' : Workstation) =>
      w'.Uploading T C origin e e'' ∧ PartsPassed a i passed e'')
    (fun before n rest hsplit e'' w' hstate => ?_) ⟨h, hstart⟩
  have hnodup : (before ++ n :: rest).Nodup := hsplit ▸ List.nodup_range'
  have hn : n ∈ List.range' 1 a.totalParts := by
    rw [hsplit]
    exact List.mem_append_right before List.mem_cons_self
  rw [List.mem_range'_1, Nat.lt_one_add_iff] at hn
  have hnew : n ∉ before := fun hbefore =>
    (List.nodup_append.mp hnodup).2.2 n hbefore n List.mem_cons_self rfl
  exact ((hstate.1.helped_uploadPart hT hwhole hintact hstate.2 hn hnew).and
    (hstate.1.keeping_uploadPart hjob hid hstate.2 hn hnew)).mono fun _ _ h => h.2

/-! ### Attachments -/

theorem Workstation.Uploading.helped_complete {fileId uploadId : UUID}
    (h : w.Uploading T C origin e e') (hT : T.Encodable) (hintact : b.Intact P files)
    (hb : e'.attachments[i]? = some b) (hid : b.attachmentId = some attachmentId)
    (hfile : b.fileId = some fileId) (hupload : b.uploadId = some uploadId)
    (hall : ∀ n ∈ List.range' 1 b.totalParts, n ∈ b.partNumbers) :
    Helped T C origin files m (fun _ _ => True)
      (completeAttachment P accessToken name jobId attachmentId fileId uploadId i e' b) w := by
  have hmem := List.mem_of_getElem? hb
  unfold completeAttachment
  split
  · exact trivial
  refine Procedure.succeeds_bind.mpr (helped_verify hintact ?_)
  refine Procedure.succeeds_bind.mpr (helped_request fun payload haccepts => ?_)
  obtain ⟨r, hr⟩ := haccepts e' (h.toHolds.push _) b hmem hid fileId hfile uploadId hupload
  refine Procedure.succeeds_bind.mpr (Procedure.succeeds_ofExcept.mpr ⟨r, hr, ?_⟩)
  exact helped_save hT (h.ok.modified h.phase hb b.complete_advances
    ((h.ok.attachments.2 b hmem).complete hall)) fun _ _ => trivial

/-- A bound attachment has all of its ids. -/
theorem AttachmentState.Ok.ids (h : a.Ok) (hid : a.attachmentId ≠ none) :
    ∃ attachmentId fileId uploadId, a.attachmentId = some attachmentId ∧
      a.fileId = some fileId ∧ a.uploadId = some uploadId := by
  obtain ⟨attachmentId, hattachment⟩ := Option.ne_none_iff_exists'.mp hid
  obtain ⟨fileId, hfile⟩ := Option.ne_none_iff_exists'.mp (mt h.consistent.1.1.mpr hid)
  obtain ⟨uploadId, hupload⟩ := Option.ne_none_iff_exists'.mp (mt h.consistent.1.2.mpr hid)
  exact ⟨attachmentId, fileId, uploadId, hattachment, hfile, hupload⟩

theorem Workstation.Uploading.helped_attachment (h : w.Uploading T C origin e e')
    (hT : T.Encodable) (hwhole : files.Whole)
    (hintact : ∀ a ∈ e'.attachments, a.Intact P files) (hjob : e.jobId = some jobId) :
    Helped T C origin files m (fun _ _ => True)
      (uploadAttachment (P := P) C accessToken (pathFor P e.idempotencyKey) jobId e' i) w := by
  unfold uploadAttachment
  split
  · exact trivial
  rename_i a ha
  have hmem := List.mem_of_getElem? ha
  have hok := h.ok.attachments.2 a hmem
  have hcreate : e'.phase ≠ .create := by
    rw [h.phase]
    decide
  obtain ⟨attachmentId, fileId, uploadId, hid, hfile, hupload⟩ :=
    hok.ids ((h.ok.bound hcreate).2 a hmem)
  refine Procedure.succeeds_bind.mpr (helped_verify (hintact a hmem) ?_)
  have h₁ : (w.push ⟨.look, .ok files⟩).Uploading T C origin e e' :=
    ⟨h.toActive.observe _ rfl, h.advances, h.phase⟩
  have hregular : ¬(¬a.partNumbers.Nodup ∨ ∃ n ∈ a.partNumbers, a.totalParts < n) := by
    rintro (hdup | ⟨n, hn, hlast⟩)
    · exact hdup hok.consistent.2.1
    · exact Nat.not_lt.mpr (hok.consistent.2.2.2.1 n hn) hlast
  rw [hid, hfile, hupload]
  dsimp only
  rw [if_neg hregular]
  refine Procedure.succeeds_bind.mpr
    ((h₁.helped_parts hT hwhole (hintact a hmem) ha hjob hid).mono fun e'' w' hparts => ?_)
  obtain ⟨hw', b, hb, hab, hnumbers⟩ := hparts
  rw [hb]
  refine hw'.helped_complete hT ((hintact a hmem).advances hab) hb (hab.attachmentId _ hid)
    (hab.fileId _ hfile) (hab.uploadId _ hupload) fun n hn => ?_
  rw [hab.totalParts] at hn
  exact (hnumbers n).mpr (.inr hn)

theorem intact_of_advances (h : e.Advances e') (hintact : ∀ a ∈ e.attachments, a.Intact P files) :
    ∀ b ∈ e'.attachments, b.Intact P files := by
  intro b hb
  obtain ⟨a, ha, hab⟩ := exists_of_forall₂_left h.attachments.flip hb
  exact (hintact a ha).advances hab

theorem Workstation.Uploading.helped_attachments (h : w.Uploading T C origin e e)
    (hT : T.Encodable) (hwhole : files.Whole)
    (hintact : ∀ a ∈ e.attachments, a.Intact P files) (hjob : e.jobId = some jobId) :
    Helped T C origin files m (fun e' w' => w'.Uploading T C origin e e')
      (Procedure.each
        (uploadAttachment (P := P) C accessToken (pathFor P e.idempotencyKey) jobId) e
        (List.range e.attachments.length)) w := by
  refine Procedure.succeeds_loop (I := fun _ e' (w' : Workstation) => w'.Uploading T C origin e e')
    (fun before i rest _ e' w' hw' => ?_) h
  have hkey : e'.idempotencyKey = e.idempotencyKey := hw'.advances.idempotencyKey
  have hfrom : w'.Uploading T C origin e' e' :=
    ⟨hw'.toActive, OutboxEntry.Advances.refl e', hw'.phase⟩
  have hjob' : e'.jobId = some jobId := hw'.advances.jobId _ hjob
  rw [← hkey]
  refine ((hfrom.helped_attachment hT hwhole (intact_of_advances hw'.advances hintact) hjob').and
    (hfrom.keeping_attachment hjob')).mono fun e'' w'' hnext => ?_
  obtain ⟨-, hw'', -⟩ := hnext
  exact ⟨hw''.toActive, hw'.advances.trans hw''.advances, hw''.phase⟩

end parts

/-! ### Resuming -/

section resuming

variable {e : OutboxEntry} {accessToken name : Text} {jobId : UUID} {prepared : PreparedManifest P}

theorem Workstation.Active.helped_resumeCreate (h : w.Active T C origin e) (hT : T.Encodable)
    (hprepared : Prepared prepared)
    (hlength : prepared.attachments.length = e.attachments.length) :
    Helped T C origin files prepared.server (fun _ _ => True)
      (resumeCreate accessToken name prepared e) w := by
  unfold resumeCreate
  split
  · rename_i hphase
    refine Procedure.succeeds_bind.mpr (helped_request fun payload haccepts => ?_)
    obtain ⟨r, hr⟩ := haccepts
    refine Procedure.succeeds_bind.mpr (Procedure.succeeds_ofExcept.mpr ⟨r, hr, ?_⟩)
    obtain ⟨e', he'⟩ := bindCreatedJob_of_created hprepared hlength hr
    refine Procedure.succeeds_bind.mpr (Procedure.succeeds_ofExcept.mpr ⟨e', he', ?_⟩)
    exact helped_save hT (h.ok.created hphase he').1 fun _ _ => trivial
  · exact trivial

theorem Workstation.Active.helped_resumeUpload (h : w.Active T C origin e) (hT : T.Encodable)
    (hwhole : files.Whole) (hintact : ∀ a ∈ e.attachments, a.Intact P files)
    (hjob : e.jobId = some jobId) :
    Helped T C origin files m (fun _ _ => True)
      (resumeUpload C P accessToken (pathFor P e.idempotencyKey) jobId e) w := by
  unfold resumeUpload
  split
  · rename_i hphase
    have hstart : w.Uploading T C origin e e := ⟨h, OutboxEntry.Advances.refl e, hphase⟩
    refine Procedure.succeeds_bind.mpr (((hstart.helped_attachments hT hwhole hintact hjob).and
      (hstart.keeping_attachments hjob)).mono fun e' w' hdone => ?_)
    obtain ⟨-, hw', hall⟩ := hdone
    exact helped_save hT (hw'.ok.submitted hw'.phase hall) fun _ _ => trivial
  · exact trivial

theorem Workstation.Active.helped_resumeSubmit (h : w.Active T C origin e) (hT : T.Encodable)
    (hjob : e.jobId = some jobId) (hphase : e.phase = .submit) :
    Helped T C origin files m (fun v _ => v.jobId = jobId)
      (resumeSubmit T accessToken name jobId e) w := by
  refine Procedure.succeeds_bind.mpr (helped_request fun payload haccepts => ?_)
  obtain ⟨r, hr⟩ := haccepts
  have hok := evidence_of_submitted hr
  have hid : r.evidence.jobId = jobId := parseSubmitted_eq_ok hr
  refine Procedure.succeeds_bind.mpr (Procedure.succeeds_ofExcept.mpr ⟨r, hr, ?_⟩)
  refine Procedure.succeeds_bind.mpr (Procedure.succeeds_ofExcept.mpr ⟨_, hok.constructed, ?_⟩)
  refine Procedure.succeeds_bind.mpr (helped_save hT (h.ok.answered hphase hok ?_) fun _ _ => hid)
  rw [hjob, hid]

/-- With the files as they were declared, resuming ends with the evidence of the entry's job. -/
theorem Workstation.Active.helped_resume (h : w.Active T C origin e) (hT : T.Encodable)
    (hwhole : files.Whole) (hintact : ∀ a ∈ e.attachments, a.Intact P files)
    (hprepared : Prepared prepared)
    (hlength : prepared.attachments.length = e.attachments.length)
    (hfingerprint : P.sha256 prepared.server.canonicalBytes = e.manifestFingerprint)
    (hphase : e.phase ≠ .evidence) :
    Helped T C origin files prepared.server (fun v _ => ∀ id ∈ e.jobId, v.jobId = id)
      (resume T C accessToken (pathFor P e.idempotencyKey) prepared e) w := by
  refine Procedure.succeeds_bind.mpr (((h.helped_resumeCreate hT hprepared hlength).and
    (h.keeping_resumeCreate hfingerprint)).mono fun e₁ w₁ hcreated => ?_)
  obtain ⟨-, h₁, hadvances₁, hcreate, hevidence⟩ := hcreated
  obtain ⟨jobId, hjob⟩ := Option.ne_none_iff_exists'.mp (h₁.ok.bound hcreate).1
  have hintact₁ := intact_of_advances hadvances₁ hintact
  rw [hjob]
  dsimp only
  rw [← show e₁.idempotencyKey = e.idempotencyKey from hadvances₁.idempotencyKey]
  refine Procedure.succeeds_bind.mpr (((h₁.helped_resumeUpload hT hwhole hintact₁ hjob).and
    (h₁.keeping_resumeUpload hjob hcreate (hevidence hphase))).mono fun e₂ w₂ huploaded => ?_)
  obtain ⟨-, h₂, hadvances₂, hsubmit⟩ := huploaded
  refine (h₂.helped_resumeSubmit hT (hadvances₂.jobId jobId hjob) hsubmit).mono
    fun v w₃ hv id hid => ?_
  have hsame : e₁.jobId = some id := hadvances₁.jobId id hid
  rw [hjob] at hsame
  rw [hv, Option.some.inj hsame]

/-- The evidence is printed, and then its document is removed. -/
theorem Workstation.Active.helped_print (h : w.Active T C origin e) {v : EvidenceState} :
    Helped T C origin files m
      (fun _ w' => w'.documents = [] ∧ w'.history =
        ⟨.delete (pathFor P e.idempotencyKey), .ok ()⟩ ::
          ⟨.echo (resultLine v.jobId v.status v.resultCode), .ok ()⟩ :: w.history)
      (printResultAndDelete v (pathFor P e.idempotencyKey)) w := by
  obtain ⟨b, -, hdocuments⟩ := h.documents
  refine Procedure.succeeds_bind.mpr (helped_echo ?_)
  refine helped_delete ?_ ⟨?_, rfl⟩
  · simp [Workstation.push, hdocuments]
  · simp [Workstation.push, hdocuments, Documents.remove]

end resuming

/-! ### Markers -/

section markers

theorem helped_deleteReplacementMarker {b : Bytes} {Q : Unit → Workstation → Prop}
    (hb : w.replacement = some b)
    (hQ : Q () (Workstation.push { w with replacement := none } ⟨.deleteReplacementMarker, .ok ()⟩)) :
    Helped T C origin files m Q (call .deleteReplacementMarker) w := by
  refine helped_call fun i hi => ⟨(), { w with replacement := none }, ?_, hQ⟩
  simp [Workstation.perform, guardedChange, hi.1, hb, unlink, Except.map]

theorem helped_deletePairCompletionMarker {b : Bytes} {Q : Unit → Workstation → Prop}
    (hb : w.pairCompletion = some b)
    (hQ : Q () (Workstation.push { w with pairCompletion := none }
      ⟨.deletePairCompletionMarker, .ok ()⟩)) :
    Helped T C origin files m Q (call .deletePairCompletionMarker) w := by
  refine helped_call fun i hi => ⟨(), { w with pairCompletion := none }, ?_, hQ⟩
  simp [Workstation.perform, guardedChange, hi.1, hb, unlink, Except.map]

theorem Workstation.Inv.helped_loadReplacementMarker (h : w.Inv T C origin)
    {Q : Option ReplacementMarker → Workstation → Prop}
    (hnone : w.replacement = none → Q none (w.push ⟨.loadReplacementMarker, .ok none⟩))
    (hsome : ∀ b sha256 name, w.replacement = some b →
      replacementBytes origin sha256 name = some b → (∀ d ∈ w.documents, d.1 = name) →
        Q (some ⟨⟨origin, .of sha256, sha256⟩, name⟩)
          (w.push ⟨.loadReplacementMarker, .ok (some ⟨⟨origin, .of sha256, sha256⟩, name⟩)⟩)) :
    Helped T C origin files m Q (call .loadReplacementMarker) w := by
  cases hb : w.replacement with
  | none =>
      refine helped_guarded (fun i hi => ?_) (hnone hb)
      simp [Workstation.perform, guarded, hi, loadMarker, hb]
  | some b =>
      obtain ⟨-, sha256, name, hbytes, hnames, -⟩ := h.replacement b hb
      refine helped_guarded (fun i hi => ?_) (hsome b sha256 name hb hbytes hnames)
      simp [Workstation.perform, guarded, hi, loadMarker, hb, read_replacementBytes hbytes]

theorem Workstation.Inv.helped_loadPairCompletionMarker (h : w.Inv T C origin)
    {Q : Option PairCompletionMarker → Workstation → Prop}
    (hnone : w.pairCompletion = none → Q none (w.push ⟨.loadPairCompletionMarker, .ok none⟩))
    (hsome : ∀ b sha256, w.pairCompletion = some b → pairCompletionBytes origin sha256 = some b →
      Q (some ⟨origin, .of sha256, sha256⟩)
        (w.push ⟨.loadPairCompletionMarker, .ok (some ⟨origin, .of sha256, sha256⟩)⟩)) :
    Helped T C origin files m Q (call .loadPairCompletionMarker) w := by
  cases hb : w.pairCompletion with
  | none =>
      refine helped_guarded (fun i hi => ?_) (hnone hb)
      simp [Workstation.perform, guarded, hi, loadMarker, hb]
  | some b =>
      obtain ⟨-, -, sha256, hbytes, -⟩ := h.pairCompletion b hb
      refine helped_guarded (fun i hi => ?_) (hsome b sha256 hb hbytes)
      simp [Workstation.perform, guarded, hi, loadMarker, hb, read_pairCompletionBytes hbytes]

/-- A credential whose fingerprint can be taken can be compared with any marker. -/
theorem credentialWasReplaced_of_fingerprint {current sha256 : Option Text}
    (h : refreshFingerprint P current = .ok sha256) (marker : PairCompletionMarker) :
    ∃ durable, credentialWasReplaced P marker current = .ok durable := by
  rw [credentialWasReplaced, h]
  exact ⟨_, rfl⟩

/-- The credential behind a replacement marker was replaced. -/
def Workstation.Superseded (w : Workstation) (P : Platform) (origin : Text) : Prop :=
  ∃ b ∈ w.replacement, ∃ sha256 name, replacementBytes origin sha256 name = some b ∧
    credentialWasReplaced P ⟨origin, .of sha256, sha256⟩ w.refresh = .ok true

/-- The bytes of a marker tell whether its credential was replaced. -/
theorem superseded_iff {b : Bytes} {sha256 : Option Text} {name : Text} {durable : Bool}
    (hb : w.replacement = some b) (hbytes : replacementBytes origin sha256 name = some b)
    (hdurable : credentialWasReplaced P ⟨origin, .of sha256, sha256⟩ w.refresh = .ok durable) :
    w.Superseded P origin ↔ durable = true := by
  constructor
  · rintro ⟨b', hb', sha256', name', hbytes', hreplaced⟩
    obtain rfl := Option.some.inj (hb.symm.trans hb')
    have hsame := (read_replacementBytes hbytes).symm.trans (read_replacementBytes hbytes')
    obtain rfl := congrArg (fun o => o.bind (·.oldRefreshSha256)) hsame
    exact Except.ok.inj (hdurable.symm.trans hreplaced)
  · rintro rfl
    exact ⟨b, hb, sha256, name, hbytes, hdurable⟩

theorem Documents.remove_eq_nil {docs : Documents} {name : Text}
    (h : ∀ d ∈ docs, d.1 = name) : docs.remove name = [] := by
  rw [Documents.remove, List.filter_eq_nil_iff]
  intro d hd
  simpa using h d hd

theorem helped_deleteReplaced {marker : ReplacementMarker} {durable : Bool}
    (hnames : ∀ d ∈ w.documents, d.1 = marker.oldOutboxFilename) :
    Helped T C origin files m
      (fun _ w' => w'.replacement = w.replacement ∧ w'.credential = w.credential ∧
        w'.documents = if durable = true then [] else w.documents)
      (deleteReplaced marker durable) w := by
  unfold deleteReplaced
  cases durable with
  | false => exact ⟨rfl, rfl, rfl⟩
  | true =>
      rw [if_pos rfl]
      refine Procedure.succeeds_bind.mpr (helped_call fun i hi =>
        ⟨w.documents.any fun d => decide (d.1 = marker.oldOutboxFilename), w, ?_, ?_⟩)
      · simp [Workstation.perform, hi.1]
      split
      · rename_i hpresent
        exact helped_delete hpresent ⟨rfl, rfl, Documents.remove_eq_nil hnames⟩
      · rename_i habsent
        refine ⟨rfl, rfl, List.eq_nil_iff_forall_not_mem.mpr fun d hd => habsent ?_⟩
        exact List.any_eq_true.mpr ⟨d, hd, decide_eq_true (hnames d hd)⟩

/-- `_recover_replacement` ends; the operation is kept unless its credential was replaced. -/
theorem Workstation.Inv.helped_recoverReplacement (h : w.Inv T C origin) {current : Option Text}
    (hcurrent : refreshFingerprint P w.refresh = .ok current) (retain : Bool) :
    Helped T C origin files m
      (fun durable w' => (w.Superseded P origin ↔ durable = true) ∧
        w'.credential = w.credential ∧
        w'.documents = if durable = true then [] else w.documents)
      (recoverReplacement P retain) w := by
  refine Procedure.succeeds_bind.mpr (h.helped_loadReplacementMarker
    (fun hnone => ⟨iff_of_false ?_ Bool.false_ne_true, rfl, rfl⟩)
    fun b sha256 name hb hbytes hnames => ?_)
  · rintro ⟨b, hb, -⟩
    rw [hnone] at hb
    cases hb
  refine Procedure.succeeds_bind.mpr (helped_loadRefreshOptional ?_)
  obtain ⟨durable, hdurable⟩ := credentialWasReplaced_of_fingerprint hcurrent
    ⟨origin, .of sha256, sha256⟩
  refine Procedure.succeeds_bind.mpr (Procedure.succeeds_ofExcept.mpr ⟨durable, hdurable, ?_⟩)
  have hsuperseded := superseded_iff hb hbytes hdurable
  refine Procedure.succeeds_bind.mpr ((helped_deleteReplaced hnames).mono fun _ w₁ hdeleted => ?_)
  obtain ⟨hb₁, hcredential, hdocuments⟩ := hdeleted
  split
  · rename_i hretain
    obtain ⟨rfl, -⟩ := Bool.and_eq_true_iff.mp hretain
    exact ⟨hsuperseded, hcredential, hdocuments⟩
  · exact Procedure.succeeds_bind.mpr (helped_deleteReplacementMarker (hb₁.trans hb)
      ⟨hsuperseded, hcredential, hdocuments⟩)

end markers

/-! ### The commands -/

section commands

variable {e : OutboxEntry} {prepared : PreparedManifest P}

/-- The evidence of a job has been printed, and the outbox is empty. -/
def Workstation.Finished (w : Workstation) (name : Text) (jobId : Option UUID) : Prop :=
  w.documents = [] ∧ ∃ (v : EvidenceState) (older : List Event), w.history =
    ⟨.delete name, .ok ()⟩ :: ⟨.echo (resultLine v.jobId v.status v.resultCode), .ok ()⟩ :: older ∧
      ∀ id ∈ jobId, v.jobId = id

theorem Workstation.Active.helped_finish (h : w.Active T C origin e) {v : EvidenceState}
    {jobId : Option UUID} (hv : ∀ id ∈ jobId, v.jobId = id) :
    Helped T C origin files m
      (fun _ w' => w'.Finished (pathFor P e.idempotencyKey) jobId)
      (printResultAndDelete v (pathFor P e.idempotencyKey)) w :=
  h.helped_print.mono fun _ _ hdone => ⟨hdone.1, v, w.history, hdone.2, hv⟩

/-- A refresh, and the resumption behind it. -/
theorem Workstation.Active.helped_refreshed (h : w.Active T C origin e) (hT : T.Encodable)
    (hwhole : files.Whole) (hintact : ∀ a ∈ e.attachments, a.Intact P files)
    (hprepared : Prepared prepared)
    (hlength : prepared.attachments.length = e.attachments.length)
    (hfingerprint : P.sha256 prepared.server.canonicalBytes = e.manifestFingerprint)
    (hphase : e.phase ≠ .evidence) (hcredential : w.refresh ≠ none) :
    Helped T C origin files prepared.server
      (fun v w' => (∀ id ∈ e.jobId, v.jobId = id) ∧
        ∃ e', w'.Active T C origin e' ∧ e'.idempotencyKey = e.idempotencyKey ∧
          e'.evidence = some v)
      (do
        let accessToken ← Connector.refresh P
        resume T C accessToken (pathFor P e.idempotencyKey) prepared e) w := by
  refine Procedure.succeeds_bind.mpr (((helped_refresh hcredential).and
    ((settled_active e).keeping_refresh h)).mono fun accessToken w₁ hrefreshed => ?_)
  exact (hrefreshed.2.helped_resume hT hwhole hintact hprepared hlength hfingerprint hphase).and
    (hrefreshed.2.keeping_resume hfingerprint hphase)

/-- What `submit` and `retry` do before they look at the outbox. -/
theorem Workstation.Inv.helped_unpaired {α : Type} (h : w.Inv T C origin)
    (hpending : w.pairCompletion = none) {current : Option Text}
    (hcurrent : refreshFingerprint P w.refresh = .ok current) {Q : α → Workstation → Prop}
    {p : Command α}
    (hp : ∀ durable, ∀ w' : Workstation, w'.Quiet T C origin →
      (w.Superseded P origin ↔ durable = true) → w'.credential = w.credential →
        w'.documents = (if durable = true then [] else w.documents) →
          Helped T C origin files m Q p w') :
    Helped T C origin files m Q
      (do
        rejectPendingInitialPair
        let _ ← recoverReplacement P false
        p) w := by
  have h₁ : (w.push ⟨.loadPairCompletionMarker, .ok none⟩).Inv T C origin := h.observe rfl
  refine Procedure.succeeds_bind.mpr (Procedure.succeeds_bind.mpr
    (h.helped_loadPairCompletionMarker (fun _ => ?_) fun b sha256 hb => ?_))
  · refine Procedure.succeeds_bind.mpr (((h₁.helped_recoverReplacement hcurrent false).and
      (h₁.keeping_recoverReplacement false)).mono fun durable w₂ hrecovered => ?_)
    obtain ⟨⟨hsuperseded, hcredential, hdocuments⟩, hkept⟩ := hrecovered
    rw [Bool.and_false, if_neg Bool.false_ne_true] at hkept
    exact hp durable w₂ ⟨hkept.1, hkept.2.1, hkept.2.2 hpending⟩ hsuperseded hcredential hdocuments
  · rw [hpending] at hb
    cases hb

theorem helped_loadOptional {found : Option (Text × OutboxEntry)}
    {Q : Option (Text × OutboxEntry) → Workstation → Prop}
    (hload : loadOptional P origin w.documents = .ok found)
    (hQ : Q found (w.push ⟨.loadOptional, .ok found⟩)) :
    Helped T C origin files m Q (call .loadOptional) w := by
  refine helped_guarded (fun i hi => ?_) hQ
  rw [Workstation.perform, guarded, hi, hload]
  rfl

/-- A retry of an operation whose credential was not replaced, with the files as they were. -/
theorem Workstation.Inv.helped_retry (h : w.Inv T C origin) (hT : T.Encodable)
    (hwhole : files.Whole) {name : Text}
    (hload : loadOptional P origin w.documents = .ok (some (name, e)))
    (hkept : ¬w.Superseded P origin) {current : Option Text}
    (hcurrent : refreshFingerprint P w.refresh = .ok current) (hcredential : w.refresh ≠ none)
    (hprepared : e.phase ≠ .evidence →
      ∃ prepared, preparedForRetry P files e = .ok prepared ∧ prepared.server = m) :
    Helped T C origin files m (fun _ w' => w'.Finished name e.jobId) (retry T C) w := by
  have hpending : w.pairCompletion = none := by
    refine Option.eq_none_iff_forall_not_mem.mpr fun b hb => ?_
    obtain ⟨b', hdocuments, -⟩ := loadOptional_eq_ok.mp hload
    rw [(h.pairCompletion b hb).2.1] at hdocuments
    cases hdocuments
  refine h.helped_unpaired hpending hcurrent fun durable w₁ h₁ hsuperseded hsame hdocuments => ?_
  obtain rfl : durable = false := Bool.eq_false_of_not_eq_true fun hd => hkept (hsuperseded.mpr hd)
  rw [if_neg Bool.false_ne_true] at hdocuments
  rw [← hdocuments] at hload
  refine Procedure.succeeds_bind.mpr (helped_loadOptional hload ?_)
  obtain ⟨hoperates, rfl⟩ := h₁.inv.loaded hload
  have hactive : w₁.Active T C origin e :=
    ⟨hoperates, h₁.unmarked.replacement, h₁.unmarked.pairCompletion⟩
  have h₂ := hactive.observe ⟨.loadOptional, .ok (some (pathFor P e.idempotencyKey, e))⟩ rfl
  dsimp only
  split
  · rename_i hphase
    obtain ⟨v, hv, hjob⟩ := hactive.ok.consistent.2.2.2.2.1 hphase
    rw [hv]
    refine h₂.helped_finish fun id hid => ?_
    rw [hjob] at hid
    exact Option.some.inj hid
  · rename_i hphase
    obtain ⟨prepared, hretry, rfl⟩ := hprepared hphase
    obtain ⟨hmanifest, hlength, hintact⟩ := intact_of_preparedForRetry hretry
    have hcredential₂ : (w₁.push ⟨.loadOptional,
        .ok (some (pathFor P e.idempotencyKey, e))⟩).refresh ≠ none := by
      change w₁.refresh ≠ none
      rw [Workstation.refresh, hsame]
      exact hcredential
    refine Procedure.succeeds_bind.mpr (Procedure.Succeeds.mono (Procedure.Succeeds.handle
      (Procedure.succeeds_bind.mpr (helped_look (Procedure.succeeds_bind.mpr
        (Procedure.succeeds_ofExcept.mpr ⟨prepared, hretry, (h₂.observe ⟨.look, .ok files⟩
          rfl).helped_refreshed hT hwhole hintact hmanifest hlength
            (preparedForRetry_eq_ok hretry) hphase hcredential₂⟩))))) fun v w₃ hdone => ?_)
    obtain ⟨hv, e', h₃, hkey, -⟩ := hdone
    rw [← hkey]
    exact h₃.helped_finish hv

/-- The first entry of an operation, and the files that were prepared for it. -/
theorem initial_of_prepared {path : Text} {now : Moment}
    (hm : prepareManifest P files path = .ok prepared)
    (he : validatedInitialEntry T origin prepared now = .ok e) :
    prepared.attachments.length = e.attachments.length ∧
      ∀ a ∈ e.attachments, a.Intact P files := by
  obtain ⟨rfl, -⟩ := OutboxEntry.ok_of_validate (e := initialEntry origin prepared now.val)
    now.property he
  refine ⟨?_, fun a ha => ?_⟩
  · simp [OutboxEntry.strip, initialEntry]
  · obtain ⟨stored, hstored, rfl⟩ := List.mem_map.mp ha
    obtain ⟨p, hp, rfl⟩ := List.mem_map.mp hstored
    exact hash_of_prepareManifest hm p hp

/-- A submission behind an empty outbox, or one that a pairing has left to be emptied. -/
theorem Workstation.Inv.helped_submit (h : w.Inv T C origin) (hT : T.Encodable)
    (hwhole : files.Whole) (hdigest : ∀ b, Text.isDigest (P.sha256 b) = true)
    (horigin : StateText 1 4096 origin) {manifestPath : Text}
    (hm : prepareManifest P files manifestPath = .ok prepared) (hstorable : prepared.Storable)
    (hpending : w.pairCompletion = none) (hempty : w.documents = [] ∨ w.Superseded P origin)
    {current : Option Text} (hcurrent : refreshFingerprint P w.refresh = .ok current)
    (hcredential : w.refresh ≠ none) :
    Helped T C origin files prepared.server
      (fun _ w' => w'.Finished (pathFor P prepared.idempotencyKey) none)
      (submit T C origin manifestPath) w := by
  refine Procedure.succeeds_bind.mpr (helped_look ?_)
  refine Procedure.succeeds_bind.mpr (Procedure.succeeds_ofExcept.mpr ⟨prepared, hm, ?_⟩)
  have h₀ : (w.push ⟨.look, .ok files⟩).Inv T C origin := h.observe rfl
  refine h₀.helped_unpaired hpending hcurrent fun durable w₁ h₁ hsuperseded hsame hdocuments => ?_
  have hnil : w₁.documents = [] := by
    rw [hdocuments]
    split
    · rfl
    · rename_i hdurable
      exact hempty.resolve_right fun hs => hdurable (hsuperseded.mp hs)
  have hload : loadOptional P origin w₁.documents = .ok none := by
    rw [hnil]
    rfl
  refine Procedure.succeeds_bind.mpr (helped_loadOptional hload ?_)
  have hready : w₁.Ready :=
    ⟨h₁.inv.loaded_none hload, h₁.unmarked.replacement, h₁.unmarked.pairCompletion⟩
  have h₂ := hready.observe ⟨.loadOptional, .ok none⟩ rfl
  refine Procedure.succeeds_bind.mpr (helped_call fun i _ => ⟨i.now, _, rfl, ?_⟩)
  have h₃ := h₂.observe ⟨.now, .ok i.now⟩ rfl
  obtain ⟨e, he⟩ := (validatedInitialEntry_iff T hdigest hm origin i.now).mpr ⟨horigin, hstorable⟩
  obtain ⟨hlength, hintact⟩ := initial_of_prepared hm he
  obtain ⟨hok, hown, hkey, hphase, hfingerprint, hbacked⟩ := entry_of_prepared (C := C) hm he
  refine Procedure.succeeds_bind.mpr (Procedure.succeeds_ofExcept.mpr
    ⟨e, congrArg construct he, ?_⟩)
  rw [← hkey]
  refine Procedure.succeeds_bind.mpr (((helped_save (Q := fun e' w' => w'.refresh ≠ none) hT hok
    fun now docs => ?_).and (h₃.keeping_save (R := fun _ _ => True)
      (Q := fun e' w' => ∃ now, e' = e.stamp now ∧ w'.Active T C origin e') hok hown hphase
      (hbacked _) (fun now w' hw' => ⟨now, rfl, hw'⟩) fun _ _ => trivial)).mono
        fun e' w₄ hsaved => ?_)
  · change w₁.refresh ≠ none
    rw [Workstation.refresh, hsame]
    exact hcredential
  obtain ⟨hcredential₄, now, rfl, h₄⟩ := hsaved
  have hcreate : (e.stamp now).phase ≠ .evidence := by
    change e.phase ≠ .evidence
    rw [hphase]
    decide
  refine Procedure.succeeds_bind.mpr (Procedure.Succeeds.mono (Procedure.Succeeds.handle
    (h₄.helped_refreshed hT hwhole hintact (prepared_of_prepareManifest hm) hlength
      hfingerprint.symm hcreate hcredential₄)) fun v w₅ hdone => ?_)
  obtain ⟨-, e', h₅, hkey', -⟩ := hdone
  rw [← show e'.idempotencyKey = e.idempotencyKey from hkey']
  apply h₅.helped_finish
  intro id hid
  cases hid

end commands

end SuperBoss.Connector
