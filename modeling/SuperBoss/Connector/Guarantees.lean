import SuperBoss.Connector.Progress

/-!
What every call of a command may do to the outbox, the markers and the
credential of an origin, and the invariant that such calls keep.
-/

namespace SuperBoss.Connector

open SuperBoss.Core
open SuperBoss.Files
open SuperBoss.Imports
open SuperBoss.Library
open SuperBoss.Library.Framing

/-! ### Histories -/

/-- A document was removed. -/
def Event.isRemoval : Event → Bool
  | ⟨.delete _, .ok _⟩ => true
  | _ => false

/-- The calls since the last removal of a document. -/
def sinceRemoval (history : List Event) : List Event := history.takeWhile fun ev => !ev.isRemoval

/-- A call that saves a marker or a credential. -/
def Call.marks : Call → Bool
  | .saveReplacementMarker .. | .savePairCompletionMarker .. | .saveRefresh .. => true
  | _ => false

/-- The last token that the keyring was given is one of a pairing, behind the last marker. -/
def PairedSince (t : Text) (history : List Event) : Prop :=
  ∃ newer older answer, history = newer ++ ⟨.saveRefresh .pairing t, answer⟩ :: older ∧
    ∀ ev ∈ newer, ev.call.marks = false

theorem PairedSince.cons {t : Text} {history : List Event} (h : PairedSince t history) {ev : Event}
    (hev : ev.call.marks = false) : PairedSince t (ev :: history) := by
  obtain ⟨newer, older, answer, rfl, hnewer⟩ := h
  exact ⟨ev :: newer, older, answer, rfl, List.forall_mem_cons.mpr ⟨hev, hnewer⟩⟩

theorem sinceRemoval_cons {ev : Event} {history : List Event} (h : ev.isRemoval = false) :
    sinceRemoval (ev :: history) = ev :: sinceRemoval history := by
  rw [sinceRemoval, List.takeWhile_cons, h]
  rfl

theorem sinceRemoval_removal {ev : Event} {history : List Event} (h : ev.isRemoval = true) :
    sinceRemoval (ev :: history) = [] := by
  rw [sinceRemoval, List.takeWhile_cons, h]
  rfl

/-! ### Uploads -/

/-- The hashes of an attachment are those of one byte string and of its slices. -/
def AttachmentState.Declares (P : Platform) (a : AttachmentState) (content : Bytes) : Prop :=
  a.sha256 = P.sha256 content ∧ a.partSha256s = (slices partSize content).map P.sha256

/-- The part was put to a URL that the server had given for it, with bytes of the expected
length and hash. -/
structure Uploaded {A : Type} (P : Platform) (C : UrlContext A) (history : List Event)
    (jobId attachmentId : UUID) (a : AttachmentState) (p : CompletedPart) (content : Bytes) :
    Prop where
  put : ∃ accessToken payload url,
    ⟨.request (.partUrl jobId attachmentId p.partNumber accessToken), .ok payload⟩ ∈ history ∧
      parsePartUrl C payload = .ok url ∧ ⟨.putPart url content, .ok p.etag⟩ ∈ history
  length : content.length = min partSize (a.sizeBytes - (p.partNumber - 1) * partSize)
  sha256 : a.partSha256s[p.partNumber - 1]? = some (P.sha256 content)

/-- Every attachment declares a content, and every completed part of it was uploaded. -/
def Backed {A : Type} (P : Platform) (C : UrlContext A) (history : List Event) (e : OutboxEntry) :
    Prop :=
  ∀ a ∈ e.attachments, (∃ content, a.Declares P content) ∧ ∀ p ∈ a.completedParts,
    ∃ jobId attachmentId content, e.jobId = some jobId ∧ a.attachmentId = some attachmentId ∧
      Uploaded P C history jobId attachmentId a p content

section uploads

variable {A : Type} {P : Platform} {C : UrlContext A} {history : List Event}

theorem Uploaded.cons {jobId attachmentId : UUID} {a : AttachmentState} {p : CompletedPart}
    {content : Bytes} (h : Uploaded P C history jobId attachmentId a p content) (ev : Event) :
    Uploaded P C (ev :: history) jobId attachmentId a p content := by
  obtain ⟨⟨accessToken, payload, url, hrequest, hurl, hput⟩, hlength, hsha256⟩ := h
  exact ⟨⟨accessToken, payload, url, List.mem_cons_of_mem ev hrequest, hurl,
    List.mem_cons_of_mem ev hput⟩, hlength, hsha256⟩

theorem Backed.cons {e : OutboxEntry} (h : Backed P C history e) (ev : Event) :
    Backed P C (ev :: history) e := by
  intro a ha
  obtain ⟨hdeclares, hparts⟩ := h a ha
  refine ⟨hdeclares, fun p hp => ?_⟩
  obtain ⟨jobId, attachmentId, content, hjob, hid, huploaded⟩ := hparts p hp
  exact ⟨jobId, attachmentId, content, hjob, hid, huploaded.cons ev⟩

/-- Changes of an entry that leave its job and attachments alone. -/
theorem Backed.congr {e e' : OutboxEntry} (h : Backed P C history e) (hjob : e'.jobId = e.jobId)
    (hattachments : e'.attachments = e.attachments) : Backed P C history e' := by
  intro a ha
  rw [hjob]
  exact h a (hattachments ▸ ha)

/-- The parts of an attachment that advances without a new one. -/
theorem Uploaded.advances {jobId attachmentId : UUID} {a b : AttachmentState} {p : CompletedPart}
    {content : Bytes} (h : Uploaded P C history jobId attachmentId a p content)
    (hab : a.Advances b) : Uploaded P C history jobId attachmentId b p content where
  put := h.put
  length := by
    rw [hab.sizeBytes]
    exact h.length
  sha256 := by
    rw [hab.partSha256s]
    exact h.sha256

theorem AttachmentState.Declares.advances {a b : AttachmentState} {content : Bytes}
    (h : a.Declares P content) (hab : a.Advances b) : b.Declares P content := by
  rw [Declares, hab.sha256, hab.partSha256s]
  exact h

end uploads

/-! ### Requests -/

def Request.isPair : Request → Bool
  | .pair .. => true
  | _ => false

/-- A request about an operation. -/
def Request.isOperation : Request → Bool
  | .pair .. | .refresh .. | .status .. => false
  | _ => true

/-- What a request says of the operation of an entry. -/
def Request.Concerns (P : Platform) (e : OutboxEntry) : Request → Prop
  | .createJob body idempotencyKey _ => idempotencyKey = e.idempotencyKey ∧
      ∃ m : ServerManifest P, body = m.serverPayload ∧
        P.sha256 m.canonicalBytes = e.manifestFingerprint
  | .partUrl jobId attachmentId partNumber _ => e.jobId = some jobId ∧
      ∃ a ∈ e.attachments, a.attachmentId = some attachmentId ∧
        1 ≤ partNumber ∧ partNumber ≤ a.totalParts
  | .complete jobId attachmentId parts _ => e.jobId = some jobId ∧
      ∃ a ∈ e.attachments, a.attachmentId = some attachmentId ∧
        parts.map (·.partNumber) = List.range' 1 a.totalParts ∧
        ∀ p ∈ parts, p ∈ a.completedParts
  | .submit jobId _ => e.jobId = some jobId ∧ ∀ a ∈ e.attachments, a.completed = true
  | .pair .. | .refresh .. | .status .. => True

theorem Request.concerns_of_not_operation {P : Platform} {e : OutboxEntry} {r : Request}
    (h : r.isOperation = false) : r.Concerns P e := by
  cases r <;> first | trivial | cases h

/-- What a request says stays true while the entry advances. -/
theorem Request.Concerns.advances {P : Platform} {e e' : OutboxEntry} {r : Request}
    (h : r.Concerns P e) (hadvances : e.Advances e') : r.Concerns P e' := by
  cases r with
  | createJob body key accessToken =>
      obtain ⟨hkey, m, hbody, hfingerprint⟩ := h
      refine ⟨hkey.trans hadvances.idempotencyKey.symm, m, hbody, ?_⟩
      exact hfingerprint.trans hadvances.manifestFingerprint.symm
  | partUrl jobId attachmentId n accessToken =>
      obtain ⟨hjob, a, ha, hid, hn⟩ := h
      obtain ⟨b, hb, hab⟩ := hadvances.attachment ha
      refine ⟨hadvances.jobId jobId hjob, b, hb, hab.attachmentId _ hid, ?_⟩
      rwa [hab.totalParts]
  | complete jobId attachmentId parts accessToken =>
      obtain ⟨hjob, a, ha, hid, hnumbers, hparts⟩ := h
      obtain ⟨b, hb, hab⟩ := hadvances.attachment ha
      refine ⟨hadvances.jobId jobId hjob, b, hb, hab.attachmentId _ hid, ?_, fun p hp => ?_⟩
      · rwa [hab.totalParts]
      · exact hab.completedParts p (hparts p hp)
  | submit jobId accessToken =>
      obtain ⟨hjob, hcompleted⟩ := h
      refine ⟨hadvances.jobId jobId hjob, fun b hb => ?_⟩
      obtain ⟨a, ha, hab⟩ := exists_of_forall₂_left hadvances.attachments.flip hb
      exact hab.completed (hcompleted a ha)
  | pair | refresh | status => trivial

/-! ### The state of an origin -/

section state

variable {P : Platform} {A : Type} (T : Timestamps P) (C : UrlContext A) (origin : Text)

def Workstation.push (w : Workstation) (ev : Event) : Workstation :=
  { w with history := ev :: w.history }

/-- No pairing is under way. -/
structure Workstation.Unmarked (w : Workstation) : Prop where
  replacement : w.replacement = none
  pairCompletion : w.pairCompletion = none

/-- The outbox holds the entry and nothing else. -/
structure Workstation.Holds (w : Workstation) (e : OutboxEntry) : Prop where
  ok : e.Ok
  origin : e.normalizedOrigin = origin
  documents : ∃ b, serialize T e = some b ∧ w.documents = [(pathFor P e.idempotencyKey, b)]

/-- The entry of the outbox, with the parts and the requests that it stands for. -/
structure Workstation.Operates (w : Workstation) (e : OutboxEntry) : Prop extends
    w.Holds T origin e where
  backed : Backed P C w.history e
  requests : ∀ r answer, ⟨.request r, answer⟩ ∈ sinceRemoval w.history → r.Concerns P e

/-- The outbox is empty, and no request about an operation was made since it is. -/
structure Workstation.Idle (w : Workstation) : Prop where
  documents : w.documents = []
  requests : ∀ r answer, ⟨.request r, answer⟩ ∈ sinceRemoval w.history → r.isOperation = false

variable (P) in
/-- The credential is still the one with the fingerprint, or a pairing has replaced it. -/
def Workstation.Recorded (w : Workstation) (sha256 : Option Text) : Prop :=
  refreshFingerprint P w.refresh = .ok sha256 ∨
    ∃ t, w.credential = some t ∧ PairedSince t w.history

/-- The bytes of a replacement marker. -/
def replacementBytes (sha256 : Option Text) (name : Text) : Option Bytes :=
  serializeMarker ReplacementMarker.fields ReplacementMarker.validate
    ⟨⟨origin, .of sha256, sha256⟩, name⟩

/-- The bytes of a pair completion marker. -/
def pairCompletionBytes (sha256 : Option Text) : Option Bytes :=
  serializeMarker PairCompletionMarker.fields PairCompletionMarker.validate
    ⟨origin, .of sha256, sha256⟩

variable (P) in
/-- A marker records the credential that the origin has now. -/
def Workstation.Recording (w : Workstation) : Prop :=
  ∃ sha256, refreshFingerprint P w.refresh = .ok sha256 ∧
    ((∃ name b, w.replacement = some b ∧ replacementBytes origin sha256 name = some b ∧
        ∀ d ∈ w.documents, d.1 = name) ∨
      ∃ b, w.pairCompletion = some b ∧ pairCompletionBytes origin sha256 = some b)

variable (P) in
/-- The pairing behind a marker has not replaced the credential, or it has and `done` holds. -/
def Workstation.Concluded (w : Workstation) (sha256 : Option Text) (done : Prop) : Prop :=
  credentialWasReplaced P ⟨origin, .of sha256, sha256⟩ w.refresh = .ok false ∨
    done ∧ ∃ t, w.credential = some t ∧ PairedSince t w.history

/-- What holds of an origin wherever a command can be stopped. -/
structure Workstation.Inv (w : Workstation) : Prop where
  outbox : w.Idle ∨ ∃ e, w.Operates T C origin e
  replacement : ∀ b ∈ w.replacement, w.pairCompletion = none ∧ ∃ sha256 name,
    replacementBytes origin sha256 name = some b ∧ (∀ d ∈ w.documents, d.1 = name) ∧
      w.Recorded P sha256
  pairCompletion : ∀ b ∈ w.pairCompletion, w.replacement = none ∧ w.documents = [] ∧
    ∃ sha256, pairCompletionBytes origin sha256 = some b ∧ w.Recorded P sha256

/-! ### What calls may do -/

variable (P) in
/-- A look at the local files that shows them changed. -/
inductive Changed (e : OutboxEntry) : Event → Prop
  | manifest (fs : FileSystem)
      (h : ∀ m, preparedForRetry P fs e ≠ .ok m) : Changed e ⟨.look, .ok fs⟩
  | attachment (fs : FileSystem) (a : AttachmentState) (ha : a ∈ e.attachments)
      (h : verifyAttachment P fs a = false) : Changed e ⟨.look, .ok fs⟩
  | part (slice : Option Bytes) (a : AttachmentState) (ha : a ∈ e.attachments) (n : Nat)
      (sha256 : Text) (hsha256 : a.partSha256s[n - 1]? = some sha256)
      (h : ∀ content, checkPart P a n sha256 slice ≠ .ok content) :
      Changed e ⟨.readSlice a.path ((n - 1) * partSize), .ok slice⟩

/-- Why a document may be removed: its evidence has just been printed, a local file has
just been seen to have changed, or a pairing has stored a credential since the marker was
written. It is then another one than the marker's, unless the pairing itself has just ended. -/
inductive Workstation.Removable (w : Workstation) : Prop
  | printed (e : OutboxEntry) (v : EvidenceState) (older : List Event) (he : w.Holds T origin e)
      (hv : e.evidence = some v)
      (hprinted : w.history =
        ⟨.echo (resultLine v.jobId v.status v.resultCode), .ok ()⟩ :: older)
  | changed (e : OutboxEntry) (ev : Event) (older : List Event) (he : w.Holds T origin e)
      (hev : w.history = ev :: older) (hchanged : Changed P e ev)
  | replaced (b : Bytes) (sha256 : Option Text) (name t : Text) (hb : w.replacement = some b)
      (hmarker : replacementBytes origin sha256 name = some b) (ht : w.credential = some t)
      (hpaired : PairedSince t w.history)
      (hnew : refreshFingerprint P (some t) ≠ .ok sha256 ∨
        ∃ older, w.history = ⟨.saveRefresh .pairing t, .ok ()⟩ :: older)

/-- When a call may be made. -/
def Workstation.Allowed (w : Workstation) : Call → Prop
  | .save name e' => e'.Ok ∧ name = pathFor P e'.idempotencyKey ∧ w.Unmarked ∧
      (w.Idle ∧ e'.phase = .create ∨ ∃ e, w.Operates T C origin e ∧ e.Advances e')
  | .delete _ => w.Removable T origin
  | .request r => (r.isPair = true → w.Recording P origin) ∧ (r.isPair = false → w.Unmarked) ∧
      (r.isOperation = true → ∃ e, w.Operates T C origin e ∧ r.Concerns P e)
  | .saveRefresh .pairing _ => w.Recording P origin
  | .saveRefresh .rotation _ => w.Unmarked
  | .deleteReplacementMarker => ∃ sha256 name b, w.replacement = some b ∧
      replacementBytes origin sha256 name = some b ∧
        w.Concluded P origin sha256 (w.documents = [])
  | .deletePairCompletionMarker => ∃ sha256 b, w.pairCompletion = some b ∧
      pairCompletionBytes origin sha256 = some b ∧ w.Concluded P origin sha256 True
  | _ => True

/-- The guarantee of every call: it is allowed, and it keeps the invariant. -/
def Workstation.Keeps : Procedure.Guarantee Call.Answer Workstation := fun w c _ w' =>
  w.Allowed T C origin c ∧ w'.Inv T C origin

end state

end SuperBoss.Connector
