import SuperBoss.Connector.CallRules

/-!
Uploading the attachments of an operation: every completed part was put as the
entry declares it, and an operation is only discarded when a look at a local file
has shown it changed.
-/

namespace SuperBoss.Connector

open SuperBoss.Core
open SuperBoss.Files
open SuperBoss.Imports
open SuperBoss.Library
open SuperBoss.Library.Framing

/-! ### Faults that discard nothing -/

/-- The errors of a computation are of a kind. -/
def Raises {ε α : Type} (kind : ε → Prop) (x : Except ε α) : Prop := ∀ e, x = .error e → kind e

section raises

variable {ε α β : Type} {kind : ε → Prop}

theorem ok_of_mapError {f : ε → β} {x : Except ε α} {a : α} (h : x.mapError f = .ok a) :
    x = .ok a := by
  cases x with
  | ok b => exact congrArg Except.ok (Except.ok.inj h)
  | error e => cases h

theorem error_of_mapError {f : ε → β} {x : Except ε α} {e : β} (h : x.mapError f = .error e) :
    ∃ e', x = .error e' ∧ f e' = e := by
  cases x with
  | ok b => cases h
  | error e' => exact ⟨e', rfl, Except.error.inj h⟩

theorem raises_ok {a : α} : Raises kind (.ok a) := nofun

theorem raises_error {e : ε} (h : kind e) : Raises kind (.error e : Except ε α) := by
  rintro e' ⟨rfl⟩
  exact h

theorem Raises.bind {x : Except ε α} {f : α → Except ε β} (hx : Raises kind x)
    (hf : ∀ a, Raises kind (f a)) : Raises kind (x >>= f) := by
  cases x with
  | ok a => exact hf a
  | error e => exact raises_error (hx e rfl)

theorem Raises.ite {p : Prop} [Decidable p] {x y : Except ε α} (hx : Raises kind x)
    (hy : Raises kind y) : Raises kind (if p then x else y) := by
  split
  · exact hx
  · exact hy

end raises

/-- A computation on an answer never calls for the operation to be discarded. -/
abbrev Harmless {α : Type} (x : Except Fault α) : Prop := Raises (fun f => ¬f.Discards) x

section harmless

variable {P : Platform} {α : Type}

theorem harmless_connector {error : ConnectorError} (h : error.exitCode ≠ 4) :
    Harmless (.error (.connector error) : Except Fault α) :=
  raises_error (Fault.not_discards h)

theorem harmless_unexpected : Harmless (.error .unexpected : Except Fault α) :=
  raises_error Fault.unexpected_not_discards

theorem serverRejected_exitCode : serverRejected.exitCode ≠ 4 := by decide

theorem harmless_rejected : Harmless (.error (.connector serverRejected) : Except Fault α) :=
  harmless_connector serverRejected_exitCode

theorem harmless_ofOk {p : Prop} [Decidable p] {a : α} :
    Harmless (if p then .error (.connector serverRejected) else .ok a) :=
  harmless_rejected.ite raises_ok

theorem harmless_construct {x : Except PyError α} : Harmless (construct x) := by
  cases x with
  | ok a => exact raises_ok
  | error e => exact harmless_unexpected

theorem harmless_parsePayload {error : ConnectorError} {validate : Json → Except PyError α}
    {payload : Bytes} (h : error.exitCode ≠ 4) :
    Harmless (parsePayload error validate payload) := by
  intro f hf
  cases f with
  | connector error' =>
      rw [parsePayload_error hf]
      exact Fault.not_discards h
  | unexpected => exact Fault.unexpected_not_discards

theorem harmless_parseToken {payload : Bytes} : Harmless (parseToken P payload) :=
  harmless_parsePayload (by decide)

theorem harmless_parsePartUrl {A : Type} {C : UrlContext A} {payload : Bytes} :
    Harmless (parsePartUrl C payload) :=
  harmless_parsePayload serverRejected_exitCode

theorem harmless_parseCreatedJob {m : ServerManifest P} {payload : Bytes} :
    Harmless (parseCreatedJob m payload) := by
  unfold parseCreatedJob
  split
  · exact harmless_rejected
  · refine Raises.bind ?_ fun r => raises_ok.ite harmless_rejected
    unfold parseResponse
    split
    · exact raises_ok
    · exact harmless_rejected
    · exact harmless_unexpected

theorem harmless_parseCompleted {expected : AttachmentResponse} {payload : Bytes} :
    Harmless (parseCompleted P expected payload) :=
  Raises.bind (harmless_parsePayload serverRejected_exitCode) fun _ => harmless_ofOk

theorem harmless_parseSubmitted {jobId : UUID} {payload : Bytes} :
    Harmless (parseSubmitted P jobId payload) :=
  Raises.bind (harmless_parsePayload serverRejected_exitCode) fun _ => harmless_ofOk

theorem harmless_bindAttachments {r : JobResponse P} {as : List AttachmentState}
    {ps : List PreparedAttachment} : Harmless (bindAttachments r as ps) := by
  induction as generalizing ps with
  | nil =>
      cases ps with
      | nil => exact raises_ok
      | cons p ps => exact harmless_unexpected
  | cons a as ih =>
      cases ps with
      | nil => exact harmless_unexpected
      | cons p ps =>
          rw [bindAttachments]
          split
          · exact harmless_rejected
          · exact Raises.bind ih fun _ => raises_ok

theorem harmless_bindCreatedJob {e : OutboxEntry} {m : PreparedManifest P} {r : JobResponse P} :
    Harmless (bindCreatedJob e m r) :=
  harmless_rejected.ite (Raises.bind harmless_bindAttachments fun _ => raises_ok)

end harmless

section destinations

variable {A : Type} {C : UrlContext A} {α : Type}

/-- The errors of `put_part`. -/
abbrev Refused {α : Type} (x : Except ConnectorError α) : Prop :=
  Raises (fun error => error = serverRejected ∨ error = temporaryFailure) x

theorem refused_rejected : Refused (.error serverRejected : Except ConnectorError α) :=
  raises_error (.inl rfl)

theorem refused_temporary : Refused (.error temporaryFailure : Except ConnectorError α) :=
  raises_error (.inr rfl)

theorem refused_readDestination {url : Text} : Refused (readDestination C url) := by
  unfold readDestination
  repeat' split
  all_goals first | exact refused_rejected | exact raises_ok

theorem refused_destinationAddresses {lookup : Lookup} {d : Destination A} :
    Refused (destinationAddresses C lookup d) := by
  cases d with
  | literal host a => exact raises_ok
  | name host port =>
      refine Raises.bind ?_ fun records => ?_
      · unfold resolveUploadHost
        split
        · exact refused_temporary
        · exact raises_ok
      · split
        · exact refused_rejected
        · exact raises_ok

theorem refused_acceptEtag {status : Nat} {etag : Option Text} :
    Refused (acceptEtag status etag) :=
  refused_temporary.ite (refused_rejected.ite (refused_rejected.ite raises_ok))

theorem refused_send {network : IPAddress A → Connection}
    {validated addresses : List (IPAddress A)} :
    Refused (send network validated addresses).result := by
  induction addresses with
  | nil => exact refused_temporary
  | cons a rest ih =>
      rw [send]
      split
      · exact ih
      · exact refused_temporary
      · exact refused_acceptEtag

theorem stripped_acceptEtag {status : Nat} {raw : Option Text} {etag : Text}
    (h : acceptEtag status raw = .ok etag) : stripEtag etag = etag := by
  simp only [acceptEtag] at h
  split at h
  · cases h
  · split at h
    · cases h
    · split at h
      · cases h
      · cases h
        cases raw with
        | none => rfl
        | some t => exact Text.trim_trim _ t

theorem stripped_send {network : IPAddress A → Connection}
    {validated addresses : List (IPAddress A)} {etag : Text} (h : (send network validated addresses).result = .ok etag) :
    stripEtag etag = etag := by
  induction addresses with
  | nil => cases h
  | cons a rest ih =>
      rw [send] at h
      split at h
      · exact ih h
      · cases h
      · exact stripped_acceptEtag h

variable [DecidableEq A]

theorem refused_validateUploadDestination {lookup : Lookup} {url : Text} :
    Refused (validateUploadDestination C lookup url) :=
  Raises.bind refused_readDestination fun _ =>
    Raises.bind refused_destinationAddresses fun _ => refused_rejected.ite raises_ok

theorem refused_putPart {check connect : Lookup} {network : IPAddress A → Connection} {url : Text} :
    Refused (putPart C check connect network url).result := by
  unfold putPart
  split
  · rename_i error herror
    exact raises_error (refused_validateUploadDestination _ herror)
  · split
    · rename_i error herror
      exact raises_error (refused_readDestination _ herror)
    · exact refused_send

/-- An ETag that `put_part` returns has no white space at its ends. -/
theorem stripped_putPart {check connect : Lookup} {network : IPAddress A → Connection}
    {url etag : Text} (h : (putPart C check connect network url).result = .ok etag) :
    stripEtag etag = etag := by
  unfold putPart at h
  split at h
  · cases h
  · split at h
    · cases h
    · exact stripped_send h

end destinations

variable {P : Platform} {A : Type} [DecidableEq A] {T : Timestamps P} {C : UrlContext A}
  {origin : Text} {w : Workstation}

/-! ### Tokens -/

section tokens

variable (T C origin) in
/-- What calls that do not concern the outbox keep, when no pairing is under way. -/
structure Settled (K : Workstation → Prop) : Prop where
  inv : ∀ w, K w → w.Inv T C origin
  unmarked : ∀ w, K w → w.Unmarked
  push : ∀ (w : Workstation) (ev : Event) (credential : Option Text), K w → ev.isRemoval = false →
    (∀ r, ev.call = .request r → r.isOperation = false) →
      K (Workstation.push { w with credential := credential } ev)

theorem settled_active (e : OutboxEntry) :
    Settled T C origin fun w => w.Active T C origin e where
  inv _ h := h.inv
  unmarked _ h := h.toUnmarked
  push w ev _ h hremoval hev :=
    { ok := h.ok
      origin := h.origin
      documents := h.documents
      backed := h.backed.cons ev
      requests := requests_push (w := w) h.requests hremoval fun r hr =>
        Request.concerns_of_not_operation (hev r hr)
      replacement := h.replacement
      pairCompletion := h.pairCompletion }

theorem settled_ready : Settled T C origin Workstation.Ready where
  inv _ h := h.inv
  unmarked _ h := h.toUnmarked
  push w _ _ h hremoval hev :=
    { documents := h.documents
      requests := requests_push (w := w) h.requests hremoval hev
      replacement := h.replacement
      pairCompletion := h.pairCompletion }

variable {K : Workstation → Prop} {R : Fault → Workstation → Prop}

theorem Settled.observe (hK : Settled T C origin K) (hw : K w) {ev : Event}
    (hev : ev.call.observes = true) : K (w.push ev) :=
  hK.push w ev w.credential hw (Event.isRemoval_of_observes (.inl hev)) fun r hr =>
    absurd hr (Call.ne_request (Call.isRequest_of_observes hev) r)

theorem Settled.keeping_request (hK : Settled T C origin K) (hw : K w) {r : Request}
    (hpair : r.isPair = false) (hoperation : r.isOperation = false) :
    Keeping T C origin (fun _ => K) (fun f w' => ¬f.Discards ∧ K w') (call (.request r)) w := by
  refine keeping_call fun i answer w' hperform => ?_
  obtain ⟨rfl, rfl⟩ := Prod.mk.inj hperform
  have hpush : ∀ answer, K (w.push ⟨.request r, answer⟩) := by
    intro answer
    refine hK.push w _ w.credential hw (Event.isRemoval_of_observes (.inr rfl)) fun r' hr' => ?_
    obtain rfl := Call.request.inj hr'
    exact hoperation
  refine ⟨⟨fun hp => ?_, fun _ => hK.unmarked w hw, fun ho => ?_⟩, hK.inv _ (hpush _),
    fun _ _ => hpush _, fun f hf => ⟨?_, hpush _⟩⟩
  · rw [hpair] at hp
    cases hp
  · rw [hoperation] at ho
    cases ho
  · rintro ⟨error, rfl, hcode⟩
    rcases receive_error hf with rfl | rfl
    · cases hcode
    · rw [refusal] at hcode
      split at hcode <;> cases hcode

theorem Settled.keeping_rotation (hK : Settled T C origin K) (hw : K w) {t : Text} :
    Keeping T C origin (fun _ => K) (fun f w' => ¬f.Discards ∧ K w')
      (call (.saveRefresh .rotation t)) w := by
  refine keeping_call fun i answer w' hperform => ?_
  obtain ⟨hanswer, hworld⟩ := Prod.mk.inj hperform
  have hpush : K (w'.push ⟨.saveRefresh .rotation t, answer⟩) := by
    rw [← hworld]
    split
    · exact hK.push w _ w.credential hw rfl fun r hr => absurd hr (Call.ne_request rfl r)
    · exact hK.push w _ (some t) hw rfl fun r hr => absurd hr (Call.ne_request rfl r)
  refine ⟨hK.unmarked w hw, hK.inv _ hpush, fun _ _ => hpush, fun f hf => ⟨?_, hpush⟩⟩
  rw [← hanswer] at hf
  split at hf
  · obtain rfl := Except.error.inj hf
    exact Fault.not_discards (by decide)
  · cases hf

/-- A refresh leaves the outbox alone. -/
theorem Settled.keeping_refresh (hK : Settled T C origin K) (hw : K w) :
    Keeping T C origin (fun _ => K) (fun f w' => ¬f.Discards ∧ K w') (refresh P) w := by
  refine Procedure.pre_bind.mpr (keeping_observe rfl (hK.inv w hw) (fun i token _ => ?_)
    fun i f hf => ⟨?_, hK.observe hw rfl⟩)
  · have hloaded : K (w.push ⟨.loadRefreshOptional, .ok token⟩) := hK.observe hw rfl
    cases token with
    | none => exact ⟨Fault.not_discards (by decide), hloaded⟩
    | some refreshToken =>
        refine Procedure.pre_bind.mpr ((hK.keeping_request hloaded rfl rfl).mono
          (fun payload w₁ hw₁ => ?_) fun _ _ h => h)
        refine Procedure.pre_bind.mpr (Procedure.pre_ofExcept.mpr ⟨fun parsed _ => ?_, fun f hf =>
          ⟨harmless_parseToken f hf, hw₁⟩⟩)
        exact Procedure.pre_bind.mpr
          ((hK.keeping_rotation hw₁).mono (fun _ _ h => h) fun _ _ h => h)
  · simp only [Workstation.perform] at hf
    split at hf
    · obtain rfl := Except.error.inj hf
      exact Fault.not_discards (by decide)
    · cases hf

end tokens

/-! ### Faults of an operation -/

variable (T C origin) in
/-- A fault leaves the operation in the outbox; where the operation is to be discarded, the
last look has shown a local file changed. -/
def Workstation.Halted (key : Text) (f : Fault) (w : Workstation) : Prop :=
  ∃ e, w.Active T C origin e ∧ e.idempotencyKey = key ∧
    (f.Discards → ∃ ev older, w.history = ev :: older ∧ Changed P e ev)

theorem Workstation.Active.halted {e : OutboxEntry} (h : w.Active T C origin e) {f : Fault}
    (hf : ¬f.Discards) : w.Halted T C origin e.idempotencyKey f :=
  ⟨e, h, rfl, fun hdiscards => absurd hdiscards hf⟩

theorem Workstation.Active.halted_changed {e : OutboxEntry} (h : w.Active T C origin e) {f : Fault}
    {ev : Event} (hev : ev.call.observes = true) (hchanged : Changed P e ev) :
    (w.push ev).Halted T C origin e.idempotencyKey f :=
  ⟨e, h.observe ev hev, rfl, fun _ => ⟨ev, w.history, rfl, hchanged⟩⟩

variable {a b : AttachmentState}

theorem verifyAttachment_advances {a b : AttachmentState} (h : a.Advances b) (fs : FileSystem) :
    verifyAttachment P fs b = verifyAttachment P fs a := by
  rw [verifyAttachment, h.path, h.sizeBytes, h.sha256, verifyAttachment]

theorem checkPart_advances {a b : AttachmentState} (h : a.Advances b) (n : Nat) (sha256 : Text)
    (slice : Option Bytes) : checkPart P b n sha256 slice = checkPart P a n sha256 slice := by
  simp only [checkPart, h.sizeBytes]

theorem checkPart_eq_ok {n : Nat} {sha256 : Text} {slice : Option Bytes} {content : Bytes}
    (h : checkPart P a n sha256 slice = .ok content) :
    content.length = min partSize (a.sizeBytes - (n - 1) * partSize) ∧
      P.sha256 content = sha256 := by
  unfold checkPart at h
  split at h
  · cases h
  · split at h
    · cases h
    · rename_i hcheck
      obtain rfl := Except.ok.inj h
      exact not_or.mp hcheck |>.imp not_not.mp not_not.mp

/-- A look at an attachment of the operation, or at an earlier state of one. -/
theorem Workstation.Active.keeping_verify {e : OutboxEntry} {a b : AttachmentState}
    {Q : Unit → Workstation → Prop} (h : w.Active T C origin e) (hb : b ∈ e.attachments)
    (hab : a.Advances b)
    (hQ : ∀ fs, verifyAttachment P fs a = true → Q () (w.push ⟨.look, .ok fs⟩)) :
    Keeping T C origin Q (Workstation.Halted T C origin e.idempotencyKey) (verify P a) w := by
  refine Procedure.pre_bind.mpr (keeping_observe rfl h.inv (fun i fs _ => ?_) fun i f hf => ?_)
  · cases hverified : verifyAttachment P fs a with
    | true =>
        rw [if_pos rfl]
        exact hQ fs hverified
    | false =>
        refine h.halted_changed rfl (.attachment fs b hb ?_)
        rw [verifyAttachment_advances hab, hverified]
  · cases hf

/-! ### Parts -/

section parts

variable (T C origin) in
/-- An operation on its way from an entry through the upload phase. -/
structure Workstation.Uploading (e e' : OutboxEntry) (w : Workstation) : Prop extends
    w.Active T C origin e' where
  advances : e.Advances e'
  phase : e'.phase = .upload

variable {e e' : OutboxEntry} {i : Nat} {a b : AttachmentState}
  {f : AttachmentState → AttachmentState}

/-- An attachment that advances keeps what its entry is backed by. -/
theorem Backed.modify {history : List Event} (h : Backed P C history e)
    (hb : e.attachments[i]? = some b) (hf : b.Advances (f b))
    (hparts : ∀ p ∈ (f b).completedParts, p ∈ b.completedParts ∨
      ∃ jobId attachmentId content, e.jobId = some jobId ∧
        (f b).attachmentId = some attachmentId ∧
          Uploaded P C history jobId attachmentId (f b) p content) :
    Backed P C history (e.modify i f) := by
  intro c hc
  rcases OutboxEntry.mem_modify hb hc with hc | rfl
  · exact h c hc
  · obtain ⟨⟨content, hdeclares⟩, hold⟩ := h b (List.mem_of_getElem? hb)
    refine ⟨⟨content, hdeclares.advances hf⟩, fun p hp => ?_⟩
    rcases hparts p hp with hp | hnew
    · obtain ⟨jobId, attachmentId, content', hjob, hid, huploaded⟩ := hold p hp
      exact ⟨jobId, attachmentId, content', hjob, hf.attachmentId _ hid, huploaded.advances hf⟩
    · exact hnew

/-- An attachment that has advanced is saved. -/
theorem Workstation.Uploading.keeping_modify {Q : OutboxEntry → Workstation → Prop}
    (h : w.Uploading T C origin e e') (hb : e'.attachments[i]? = some b) (hf : b.Advances (f b))
    (hok : (f b).Ok)
    (hparts : ∀ p ∈ (f b).completedParts, p ∈ b.completedParts ∨
      ∃ jobId attachmentId content, e'.jobId = some jobId ∧
        (f b).attachmentId = some attachmentId ∧
          Uploaded P C w.history jobId attachmentId (f b) p content)
    (hQ : ∀ now, ∀ w' : Workstation, w'.Uploading T C origin e ((e'.modify i f).stamp now) →
      Q ((e'.modify i f).stamp now) w') :
    Keeping T C origin Q (Workstation.Halted T C origin e.idempotencyKey)
      (call (.save (pathFor P e.idempotencyKey) (e'.modify i f))) w := by
  have hadvances := OutboxEntry.modify_advances hb hf
  have hkey : e'.idempotencyKey = e.idempotencyKey := h.advances.idempotencyKey
  rw [← hkey]
  refine h.toActive.keeping_save hadvances (h.ok.modified h.phase hb hf hok)
    (h.backed.modify hb hf hparts) (fun now w' hw' => hQ now w' ?_) fun f hf w' hw' => hw'.halted hf
  exact ⟨hw', (h.advances.trans hadvances).trans (OutboxEntry.stamp_advances _ now), h.phase⟩

/-- The state of the loop over the parts of the attachment at a place. -/
def PartsPassed (a : AttachmentState) (i : Nat) (passed : List Nat) (e : OutboxEntry) : Prop :=
  ∃ b, e.attachments[i]? = some b ∧ a.Advances b ∧
    ∀ n, n ∈ b.partNumbers ↔ n ∈ a.partNumbers ∨ n ∈ passed

theorem mem_partNumbers_addPart {p : CompletedPart} {n : Nat} :
    n ∈ (a.addPart p).partNumbers ↔ n ∈ a.partNumbers ∨ n = p.partNumber := by
  simp only [AttachmentState.partNumbers, List.mem_map, AttachmentState.mem_addPart]
  constructor
  · rintro ⟨q, hq | rfl, rfl⟩
    · exact .inl ⟨q, hq, rfl⟩
    · exact .inr rfl
  · rintro (⟨q, hq, rfl⟩ | rfl)
    · exact ⟨q, .inl hq, rfl⟩
    · exact ⟨p, .inr rfl, rfl⟩

/-- A part is built from a clean ETag as it is. -/
theorem completedPart_eq {n : Nat} {etag : Text} {p : CompletedPart} (hetag : stripEtag etag = etag)
    (h : construct (CompletedPart.validate P (CompletedPart.dump ⟨n, etag⟩)) = .ok p) :
    p = ⟨n, etag⟩ ∧ p.Ok := by
  have hvalid : CompletedPart.validate P (CompletedPart.dump ⟨n, etag⟩) = .ok p := by
    revert h
    cases CompletedPart.validate P (CompletedPart.dump ⟨n, etag⟩) with
    | ok q =>
        intro h
        exact congrArg Except.ok (Except.ok.inj h)
    | error e =>
        intro h
        cases h
  obtain ⟨rfl, hok⟩ := CompletedPart.ok_of_validate hvalid
  refine ⟨?_, hok⟩
  rw [CompletedPart.strip, hetag]

variable {accessToken : Text} {jobId attachmentId : UUID} {n : Nat} {passed : List Nat}

/-- One part is uploaded: its URL is asked for, its bytes are read as the entry declares them,
put there, and the answer is saved. -/
theorem Workstation.Uploading.keeping_uploadPart (h : w.Uploading T C origin e e')
    (hjob : e.jobId = some jobId) (hid : a.attachmentId = some attachmentId)
    (hpassed : PartsPassed a i passed e') (hn : 1 ≤ n ∧ n ≤ a.totalParts) (hnew : n ∉ passed) :
    Keeping T C origin
      (fun e'' w' => w'.Uploading T C origin e e'' ∧ PartsPassed a i (passed ++ [n]) e'')
      (Workstation.Halted T C origin e.idempotencyKey)
      (uploadPart (P := P) C accessToken (pathFor P e.idempotencyKey) jobId attachmentId i a e' n)
      w := by
  obtain ⟨b, hb, hab, hnumbers⟩ := hpassed
  have hmem : b ∈ e'.attachments := List.mem_of_getElem? hb
  have hkey : e'.idempotencyKey = e.idempotencyKey := h.advances.idempotencyKey
  unfold uploadPart
  split
  · rename_i hdone
    refine ⟨h, b, hb, hab, fun m => ?_⟩
    rw [hnumbers, List.mem_append, List.mem_singleton]
    constructor
    · rintro (hm | hm)
      · exact .inl hm
      · exact .inr (.inl hm)
    · rintro (hm | hm | rfl)
      · exact .inl hm
      · exact .inr hm
      · exact .inl hdone
  rename_i hmissing
  have hjob' : e'.jobId = some jobId := h.advances.jobId jobId hjob
  have hid' : b.attachmentId = some attachmentId := hab.attachmentId _ hid
  have hn' : 1 ≤ n ∧ n ≤ b.totalParts := by
    rw [hab.totalParts]
    exact hn
  rw [← hkey]
  refine Procedure.pre_bind.mpr (h.toActive.keeping_request rfl ⟨hjob', b, hmem, hid', hn'⟩
    (fun payload h₁ => ?_) fun f hf w' hw' => hw'.halted hf)
  refine Procedure.pre_bind.mpr (Procedure.pre_ofExcept.mpr ⟨fun url hurl => ?_, fun f hf =>
    h₁.halted (harmless_parsePartUrl f hf)⟩)
  refine Procedure.pre_bind.mpr (h₁.keeping_verify hmem hab fun fs _ => ?_)
  have h₂ := h₁.observe ⟨.look, .ok fs⟩ rfl
  split
  · exact h₂.halted Fault.unexpected_not_discards
  rename_i sha256 hsha256
  refine Procedure.pre_bind.mpr (keeping_observe rfl h₂.inv (fun j slice _ => ?_)
    fun j f hf => by cases hf)
  have h₃ := h₂.observe ⟨.readSlice a.path ((n - 1) * partSize), .ok slice⟩ rfl
  refine Procedure.pre_bind.mpr (Procedure.pre_ofExcept.mpr ⟨fun content hcontent => ?_,
    fun f hf => ?_⟩)
  swap
  · rw [← hab.path]
    refine h₂.halted_changed rfl (.part slice b hmem n sha256 (hab.partSha256s ▸ hsha256) ?_)
    intro content hcontent
    rw [checkPart_advances hab, hf] at hcontent
    cases hcontent
  refine Procedure.pre_bind.mpr (keeping_observe rfl h₃.inv (fun j etag hput => ?_)
    fun j f hf => (h₃.observe _ rfl).halted ?_)
  swap
  · obtain ⟨error, herror, rfl⟩ := error_of_mapError hf
    rcases refused_putPart error herror with rfl | rfl
    · exact Fault.not_discards (by decide)
    · exact Fault.not_discards (by decide)
  have h₄ := h₃.observe ⟨.putPart url content, .ok etag⟩ rfl
  refine Procedure.pre_bind.mpr (Procedure.pre_ofExcept.mpr ⟨fun part hpart => ?_, fun f hf =>
    h₄.halted (harmless_construct f hf)⟩)
  obtain ⟨rfl, hpartOk⟩ := completedPart_eq (stripped_putPart (ok_of_mapError hput)) hpart
  obtain ⟨hlength, hcontentSha256⟩ := checkPart_eq_ok hcontent
  have huploading : (w.push _).push _ |>.push _ |>.push _ |>.Uploading T C origin e e' :=
    ⟨h₄, h.advances, h.phase⟩
  rw [hkey]
  refine huploading.keeping_modify hb (b.addPart_advances _)
    ((h.ok.attachments.2 b hmem).addPart hpartOk ?_ hn'.2) (fun p hp => ?_) fun now w' hw' =>
      ⟨hw', (b.addPart ⟨n, etag⟩), ?_, hab.trans (b.addPart_advances _), fun m => ?_⟩
  · rw [hnumbers]
    exact not_or.mpr ⟨hmissing, hnew⟩
  · rcases AttachmentState.mem_addPart.mp hp with hp | rfl
    · exact .inl hp
    · refine .inr ⟨jobId, attachmentId, content, hjob', hid', ?_, ?_, ?_⟩
      · refine ⟨accessToken, payload, url, ?_, hurl, List.mem_cons_self⟩
        simp [Workstation.push]
      · exact hlength.trans (by rw [← hab.sizeBytes]; rfl)
      · rw [hcontentSha256, ← hsha256, ← hab.partSha256s]
        rfl
  · exact OutboxEntry.getElem?_modify hb
  · rw [mem_partNumbers_addPart, hnumbers, List.mem_append, List.mem_singleton, or_assoc]

/-- The loop over the parts of an attachment leaves none of them out. -/
theorem Workstation.Uploading.keeping_parts (h : w.Uploading T C origin e e')
    (ha : e'.attachments[i]? = some a) (hjob : e.jobId = some jobId)
    (hid : a.attachmentId = some attachmentId) :
    Keeping T C origin
      (fun e'' w' => w'.Uploading T C origin e e'' ∧
        PartsPassed a i (List.range' 1 a.totalParts) e'')
      (Workstation.Halted T C origin e.idempotencyKey)
      (Procedure.each
        (uploadPart (P := P) C accessToken (pathFor P e.idempotencyKey) jobId attachmentId i a) e'
        (List.range' 1 a.totalParts)) w := by
  have hstart : PartsPassed a i [] e' :=
    ⟨a, ha, AttachmentState.Advances.refl a, fun n => by simp⟩
  refine Procedure.pre_loop
    (I := fun passed e'' (w' : Workstation) =>
      w'.Uploading T C origin e e'' ∧ PartsPassed a i passed e'')
    (fun before n rest hsplit e'' w' hstate => ?_) ⟨h, hstart⟩
  have hnodup : (before ++ n :: rest).Nodup := hsplit ▸ List.nodup_range'
  have hn : n ∈ List.range' 1 a.totalParts := by
    rw [hsplit]
    exact List.mem_append_right before List.mem_cons_self
  rw [List.mem_range'_1, Nat.lt_one_add_iff] at hn
  refine hstate.1.keeping_uploadPart hjob hid hstate.2 hn fun hbefore => ?_
  exact (List.nodup_append.mp hnodup).2.2 n hbefore n List.mem_cons_self rfl

/-! ### Attachments -/

/-- An attachment is completed with all of its parts. -/
theorem Workstation.Uploading.keeping_complete {fileId uploadId : UUID}
    (h : w.Uploading T C origin e e') (hb : e'.attachments[i]? = some b)
    (hjob : e.jobId = some jobId) (hid : b.attachmentId = some attachmentId)
    (hall : ∀ n ∈ List.range' 1 b.totalParts, n ∈ b.partNumbers) :
    Keeping T C origin
      (fun e'' w' => w'.Uploading T C origin e e'' ∧
        ∃ c, e''.attachments[i]? = some c ∧ c.completed = true)
      (Workstation.Halted T C origin e.idempotencyKey)
      (completeAttachment P accessToken (pathFor P e.idempotencyKey) jobId attachmentId fileId
        uploadId i e' b) w := by
  have hmem : b ∈ e'.attachments := List.mem_of_getElem? hb
  have hok := h.ok.attachments.2 b hmem
  have hkey : e'.idempotencyKey = e.idempotencyKey := h.advances.idempotencyKey
  have hjob' : e'.jobId = some jobId := h.advances.jobId jobId hjob
  unfold completeAttachment
  split
  · rename_i hcompleted
    exact ⟨h, b, hb, hcompleted⟩
  rw [← hkey]
  refine Procedure.pre_bind.mpr (h.toActive.keeping_verify hmem (AttachmentState.Advances.refl b)
    fun fs _ => ?_)
  have h₁ := h.toActive.observe ⟨.look, .ok fs⟩ rfl
  refine Procedure.pre_bind.mpr (h₁.keeping_request rfl
    ⟨hjob', b, hmem, hid, hok.partNumbers_eq hall, fun p hp => hp⟩ (fun payload h₂ => ?_)
    fun f hf w' hw' => hw'.halted hf)
  refine Procedure.pre_bind.mpr (Procedure.pre_ofExcept.mpr ⟨fun completed _ => ?_, fun f hf =>
    h₂.halted (harmless_parseCompleted f hf)⟩)
  have huploading : (w.push _).push _ |>.Uploading T C origin e e' := ⟨h₂, h.advances, h.phase⟩
  rw [hkey]
  refine huploading.keeping_modify hb b.complete_advances (hok.complete hall)
    (fun p hp => .inl hp) fun now w' hw' => ⟨hw', b.complete, ?_, rfl⟩
  exact OutboxEntry.getElem?_modify hb

/-- One attachment is uploaded as a whole. -/
theorem Workstation.Uploading.keeping_attachment (h : w.Uploading T C origin e e')
    (hjob : e.jobId = some jobId) :
    Keeping T C origin
      (fun e'' w' => w'.Uploading T C origin e e'' ∧
        ∀ c, e''.attachments[i]? = some c → c.completed = true)
      (Workstation.Halted T C origin e.idempotencyKey)
      (uploadAttachment (P := P) C accessToken (pathFor P e.idempotencyKey) jobId e' i) w := by
  have hkey : e'.idempotencyKey = e.idempotencyKey := h.advances.idempotencyKey
  unfold uploadAttachment
  split
  · rename_i hnone
    refine ⟨h, fun c hc => ?_⟩
    rw [hnone] at hc
    cases hc
  rename_i a ha
  have hmem : a ∈ e'.attachments := List.mem_of_getElem? ha
  have hinvalid : ∀ {w' : Workstation}, w'.Active T C origin e' →
      w'.Halted T C origin e.idempotencyKey (.connector outboxInvalid) := by
    intro w' hw'
    rw [← hkey]
    exact hw'.halted stateFailure_not_discards
  rw [← hkey]
  refine Procedure.pre_bind.mpr (h.toActive.keeping_verify hmem (AttachmentState.Advances.refl a)
    fun fs _ => ?_)
  rw [hkey]
  have h₁ : (w.push ⟨.look, .ok fs⟩).Uploading T C origin e e' :=
    ⟨h.toActive.observe _ rfl, h.advances, h.phase⟩
  split
  · rename_i attachmentId fileId uploadId hid _ _
    split
    · exact hinvalid h₁.toActive
    refine Procedure.pre_bind.mpr ((h₁.keeping_parts ha hjob hid).mono (fun e'' w' hparts => ?_)
      fun _ _ h => h)
    obtain ⟨hw', b, hb, hab, hnumbers⟩ := hparts
    split
    · rename_i hnone
      rw [hb] at hnone
      cases hnone
    rename_i b' hb'
    obtain rfl := Option.some.inj (hb.symm.trans hb')
    refine (hw'.keeping_complete hb hjob (hab.attachmentId _ hid) fun n hn => ?_).mono
      (fun e₃ w'' hdone => ?_) fun _ _ h => h
    · rw [hab.totalParts] at hn
      exact (hnumbers n).mpr (.inr hn)
    · obtain ⟨hw'', c, hc, hcompleted⟩ := hdone
      refine ⟨hw'', fun c' hc' => ?_⟩
      obtain rfl := Option.some.inj (hc.symm.trans hc')
      exact hcompleted
  · exact hinvalid h₁.toActive

/-- An attachment of the later entry was one of the earlier entry. -/
theorem OutboxEntry.Advances.getElem? (h : e.Advances e') {c : AttachmentState}
    (hc : e'.attachments[i]? = some c) : ∃ b, e.attachments[i]? = some b ∧ b.Advances c := by
  obtain ⟨hlength, hget⟩ := List.forall₂_iff_get.mp h.attachments
  obtain ⟨hi, rfl⟩ := List.getElem?_eq_some_iff.mp hc
  have hi' : i < e.attachments.length := by
    rw [hlength]
    exact hi
  exact ⟨e.attachments[i], List.getElem?_eq_getElem hi', hget i hi' hi⟩

/-- The loop over the attachments completes all of them. -/
theorem Workstation.Uploading.keeping_attachments (h : w.Uploading T C origin e e)
    (hjob : e.jobId = some jobId) :
    Keeping T C origin
      (fun e' w' => w'.Uploading T C origin e e' ∧ ∀ c ∈ e'.attachments, c.completed = true)
      (Workstation.Halted T C origin e.idempotencyKey)
      (Procedure.each
        (uploadAttachment (P := P) C accessToken (pathFor P e.idempotencyKey) jobId) e
        (List.range e.attachments.length)) w := by
  refine (Procedure.pre_loop
    (I := fun passed e' (w' : Workstation) => w'.Uploading T C origin e e' ∧
      ∀ j ∈ passed, ∀ c, e'.attachments[j]? = some c → c.completed = true)
    (fun before i rest _ e' w' hstate => ?_) ⟨h, List.forall_mem_nil _⟩).mono
    (fun e' w' hdone => ⟨hdone.1, fun c hc => ?_⟩) fun _ _ h => h
  · obtain ⟨hw', hbefore⟩ := hstate
    have hkey : e'.idempotencyKey = e.idempotencyKey := hw'.advances.idempotencyKey
    have hfrom : w'.Uploading T C origin e' e' :=
      ⟨hw'.toActive, OutboxEntry.Advances.refl e', hw'.phase⟩
    rw [← hkey]
    refine (hfrom.keeping_attachment (hw'.advances.jobId _ hjob)).mono
      (fun e'' w'' hnext => ?_) fun _ _ h => h
    obtain ⟨hw'', hcompleted⟩ := hnext
    refine ⟨⟨hw''.toActive, hw'.advances.trans hw''.advances, hw''.phase⟩, fun j hj c hc => ?_⟩
    rcases List.mem_append.mp hj with hj | hj
    · obtain ⟨b, hb, hbc⟩ := hw''.advances.getElem? hc
      exact hbc.completed (hbefore j hj b hb)
    · obtain rfl := List.mem_singleton.mp hj
      exact hcompleted c hc
  · obtain ⟨i, hi⟩ := List.mem_iff_getElem?.mp hc
    refine hdone.2 i ?_ c hi
    obtain ⟨b, hb, -⟩ := hdone.1.advances.getElem? hi
    rw [List.mem_range]
    exact (List.getElem?_eq_some_iff.mp hb).1

end parts

end SuperBoss.Connector
