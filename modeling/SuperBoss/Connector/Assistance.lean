import SuperBoss.Connector.CreatedJobs
import SuperBoss.Connector.Pairing
import SuperBoss.Connector.Writable

/-!
What an environment has to do for a command to end: the operating system does its
part, the local files stay as they are, and every request gets an answer that the
command takes.
-/

namespace SuperBoss.Connector

open SuperBoss.Core
open SuperBoss.Files
open SuperBoss.Imports
open SuperBoss.Library
open SuperBoss.Library.Framing

/-! ### Answers that are taken -/

section answers

variable {P : Platform}

/-- A job that was created as requested can be bound. -/
theorem bindAttachments_of_kinds {r : JobResponse P} {as : List AttachmentState}
    {ps : List PreparedAttachment} (hlength : as.length = ps.length)
    (hkinds : ∀ p ∈ ps, p.kind ∈ r.attachments.map (·.kind)) :
    ∃ bs, bindAttachments r as ps = .ok bs := by
  induction as generalizing ps with
  | nil =>
      obtain rfl := List.length_eq_zero_iff.mp hlength.symm
      exact ⟨[], rfl⟩
  | cons stored as ih =>
      obtain ⟨p, ps, rfl⟩ := List.exists_cons_of_length_eq_add_one hlength.symm
      obtain ⟨hp, hps⟩ := List.forall_mem_cons.mp hkinds
      obtain ⟨received, hreceived, -⟩ := byKind_eq_some hp
      obtain ⟨bs, hbs⟩ := ih (Nat.succ.inj hlength) hps
      refine ⟨stored.bind received :: bs, ?_⟩
      rw [bindAttachments]
      simp only [hreceived, hbs]
      rfl

theorem bindCreatedJob_of_created {e : OutboxEntry} {m : PreparedManifest P} {payload : Bytes}
    {r : JobResponse P} (hm : Prepared m) (hlength : m.attachments.length = e.attachments.length)
    (hr : parseCreatedJob m.server payload = .ok r) : ∃ e', bindCreatedJob e m r = .ok e' := by
  unfold parseCreatedJob at hr
  split at hr
  · cases hr
  obtain ⟨parsed, -, hr⟩ := bind_eq_ok.mp hr
  split at hr
  swap
  · cases hr
  rename_i hrequested
  obtain rfl := Except.ok.inj hr
  obtain ⟨-, ⟨hkinds, hnodup⟩, -⟩ := hrequested
  rw [hm.kinds] at hkinds
  obtain ⟨bs, hbs⟩ := bindAttachments_of_kinds (r := parsed) hlength.symm fun p hp => by
    rw [hkinds]
    exact List.mem_map_of_mem hp
  have hcount : (parsed.attachments.map (·.kind)).dedup.length = e.attachments.length := by
    rw [List.dedup_eq_self.mpr hnodup, hkinds, List.length_map, hlength]
  unfold bindCreatedJob
  rw [if_neg (not_not.mpr hcount), hbs]
  exact ⟨_, rfl⟩

theorem mem_of_literalField {α : Type} {values : List α} {value : α → String} {j : Json} {a : α}
    (h : literalField values value j = .ok a) : a ∈ values := by
  unfold literalField at h
  split at h
  · split at h
    · cases h
    · rename_i hfind
      obtain rfl := Except.ok.inj h
      exact List.mem_of_find?_eq_some hfind
  · cases h

theorem patternStr_eq_ok {pattern : Text → Bool} {j : Json} {t : Text}
    (h : patternStr pattern j = .ok t) : pattern t = true := by
  unfold patternStr at h
  split at h
  · split at h
    · rename_i ht
      obtain rfl := Except.ok.inj h
      exact ht
    · cases h
  · cases h

theorem nullable_eq_some {α : Type} {parse : Json → Except PyError α} {j : Json} {a : α}
    (h : nullable parse j = .ok (some a)) : parse j = .ok a := by
  unfold nullable at h
  split at h
  · cases h
  · obtain ⟨b, hb, heq⟩ := map_eq_ok.mp h
    obtain rfl := Option.some.inj heq
    exact hb

theorem requiredField_eq_ok {α : Type} {fields : List (Text × Json)} {name : String}
    {parse : Json → Except PyError α} {a : α} (h : requiredField fields name parse = .ok a) :
    ∃ j, parse j = .ok a := by
  unfold requiredField at h
  split at h
  · cases h
  · exact ⟨_, h⟩

/-- The evidence of an answered submission is accepted by its validators. -/
theorem evidence_of_submitted {jobId : UUID} {payload : Bytes} {r : SubmitResponse}
    (h : parseSubmitted P jobId payload = .ok r) : r.evidence.Ok := by
  obtain ⟨parsed, hparsed, h⟩ := bind_eq_ok.mp h
  split at h
  · cases h
  obtain rfl := Except.ok.inj h
  obtain ⟨j, -, hvalid⟩ := parsePayload_eq_ok hparsed
  obtain ⟨r, hr, hvalid⟩ := bind_eq_ok.mp hvalid
  split at hvalid
  swap
  · cases hvalid
  rename_i hconsistent
  obtain rfl := Except.ok.inj hvalid
  unfold SubmitResponse.validateFields at hr
  split at hr
  swap
  · cases hr
  obtain ⟨⟨id, status, code, submitted, updated, _⟩, hparts, rfl⟩ := map_eq_ok.mp hr
  simp only [collect_eq_ok] at hparts
  obtain ⟨-, hstatus, hcode, -⟩ := hparts
  obtain ⟨_, hstatus⟩ := requiredField_eq_ok hstatus
  refine ⟨mem_of_literalField hstatus, fun c hc => ?_, hconsistent⟩
  obtain ⟨_, hcode⟩ := requiredField_eq_ok hcode
  change code = some c at hc
  rw [hc] at hcode
  exact patternStr_eq_ok (nullable_eq_some hcode)

theorem EvidenceState.Ok.constructed {T : Timestamps P} {v : EvidenceState} (h : v.Ok) :
    construct (EvidenceState.validate P (v.dump T)) = .ok v := by
  have hvalid := EvidenceState.validate_dump T Json.reorders_id h
  rw [id_eq] at hvalid
  rw [hvalid]
  rfl

theorem CompletedPart.Ok.constructed {p : CompletedPart} (h : p.Ok) :
    construct (CompletedPart.validate P p.dump) = .ok p := by
  have hvalid := CompletedPart.validate_dump (P := P) Json.reorders_id h
  rw [id_eq] at hvalid
  rw [hvalid]
  rfl

end answers

section puts

variable {A : Type} {C : UrlContext A}

/-- What `put_part` leaves of an ETag for the validators. -/
theorem etag_of_accepted {status : Nat} {raw : Option Text} {etag : Text}
    (h : acceptEtag status raw = .ok etag) :
    (1 ≤ etag.length ∧ etag.length ≤ etagMaxChars) ∧ Text.noControls false etag = true := by
  simp only [acceptEtag] at h
  split at h
  · cases h
  split at h
  · cases h
  split at h
  · cases h
  rename_i hchecks
  obtain rfl := Except.ok.inj h
  obtain ⟨hne, hchecks⟩ := not_or.mp hchecks
  obtain ⟨hlength, hcontrols⟩ := not_or.mp hchecks
  refine ⟨⟨List.length_pos_iff.mpr hne, Nat.not_lt.mp hlength⟩, List.all_eq_true.mpr fun c hc => ?_⟩
  have hc' := List.any_eq_false.mp (Bool.eq_false_of_not_eq_true hcontrols) c hc
  simp only [Bool.or_eq_true, decide_eq_true_eq, beq_iff_eq, not_or] at hc'
  simp [hc'.2, hc'.1]

theorem etag_of_sent {network : IPAddress A → Connection} {validated addresses : List (IPAddress A)}
    {etag : Text} (h : (send network validated addresses).result = .ok etag) :
    (1 ≤ etag.length ∧ etag.length ≤ etagMaxChars) ∧ Text.noControls false etag = true := by
  induction addresses with
  | nil => cases h
  | cons a rest ih =>
      rw [send] at h
      split at h
      · exact ih h
      · cases h
      · exact etag_of_accepted h

variable [DecidableEq A]

theorem etag_of_put {check connect : Lookup} {network : IPAddress A → Connection}
    {url etag : Text} (h : (putPart C check connect network url).result = .ok etag) :
    (1 ≤ etag.length ∧ etag.length ≤ etagMaxChars) ∧ Text.noControls false etag = true := by
  unfold putPart at h
  split at h
  · cases h
  · split at h
    · cases h
    · exact etag_of_sent h

/-- The part of an acknowledged put is accepted by its validators. -/
theorem CompletedPart.ok_of_put {check connect : Lookup} {network : IPAddress A → Connection}
    {url etag : Text} {n : Nat} (hn : 1 ≤ n ∧ n ≤ 10000)
    (h : (putPart C check connect network url).result = .ok etag) (hetag : etag.Encodable) :
    (⟨n, etag⟩ : CompletedPart).Ok where
  number := hn
  encodable := hetag
  length := (etag_of_put h).1
  stripped := stripped_putPart h
  controls := (etag_of_put h).2

end puts

/-! ### Files -/

section files

variable {P : Platform} {files : FileSystem} {a b : AttachmentState} {e : OutboxEntry}

/-- As many bytes are read of a file as the looks at it say. -/
def FileSystem.Whole (files : FileSystem) : Prop :=
  ∀ path r, files.readAttachment path = some r → r.content.length = r.before.size

variable (P files) in
/-- The file of an attachment is as the entry declares it. -/
def AttachmentState.Intact (a : AttachmentState) : Prop :=
  hashRegularFile P files a.path = some (a.sizeBytes, a.sha256, a.partSha256s)

namespace AttachmentState

theorem Intact.advances (h : a.Intact P files) (hab : a.Advances b) : b.Intact P files := by
  rw [Intact, hab.path, hab.sizeBytes, hab.sha256, hab.partSha256s]
  exact h

theorem Intact.verified (h : a.Intact P files) : verifyAttachment P files a = true := by
  rw [Intact] at h
  simp [verifyAttachment, h]

theorem Intact.reading (h : a.Intact P files) : ∃ r, files.readAttachment a.path = some r ∧
    r.before.size = a.sizeBytes ∧ a.partSha256s = (slices partSize r.content).map P.sha256 := by
  obtain ⟨r, hr, h⟩ := Option.bind_eq_some_iff.mp h
  split at h
  · obtain ⟨hsize, hhashes⟩ := Prod.mk.inj (Option.some.inj h)
    exact ⟨r, hr, hsize, (Prod.mk.inj hhashes).2.symm⟩
  · cases h

/-- Every part of an intact file is read as it was declared. -/
theorem Intact.part (h : a.Intact P files) (hwhole : files.Whole) {n : Nat}
    (hn : 1 ≤ n ∧ n ≤ a.totalParts) : ∃ sha256 content, a.partSha256s[n - 1]? = some sha256 ∧
      checkPart P a n sha256 (((files.readAttachment a.path).map fun r =>
        r.content.drop ((n - 1) * partSize)).map fun b => b.take partSize) = .ok content := by
  obtain ⟨r, hr, hsize, hparts⟩ := h.reading
  have hlength : r.content.length = a.sizeBytes := (hwhole a.path r hr).trans hsize
  have hlast : n - 1 < (slices partSize r.content).length := by
    rw [length_slices, hlength]
    exact Nat.sub_one_lt_of_le hn.1 hn.2
  have hslice := (getElem?_slices (List.getElem?_eq_getElem hlast)).2
  refine ⟨P.sha256 ((r.content.drop ((n - 1) * partSize)).take partSize),
    (r.content.drop ((n - 1) * partSize)).take partSize, ?_, ?_⟩
  · rw [hparts, List.getElem?_map, List.getElem?_eq_getElem hlast, hslice]
    rfl
  · rw [hr]
    have hcount : ((r.content.drop ((n - 1) * partSize)).take partSize).length =
        min partSize (a.sizeBytes - (n - 1) * partSize) := by
      rw [List.length_take, List.length_drop, hlength]
    simp only [Option.map_some, checkPart, hcount, ne_eq, not_true_eq_false, or_self, if_false]

end AttachmentState

/-- The file of a prepared attachment is as it was hashed. -/
theorem hash_of_prepareAttachment {base : Text} {seen : List Text} {d : LocalAttachment P}
    {p : PreparedAttachment} (h : prepareAttachment files base seen d = .ok p) :
    hashRegularFile P files p.path = some (p.sizeBytes, p.sha256, p.partSha256s) := by
  obtain ⟨resolved, -, h⟩ := bind_eq_ok.mp h
  split at h
  · cases h
  obtain ⟨⟨size, sha256, parts⟩, hhash, h⟩ := bind_eq_ok.mp h
  obtain ⟨server, -, h⟩ := bind_eq_ok.mp h
  obtain rfl := Except.ok.inj h
  exact expected_eq_ok.mp hhash

theorem hash_of_prepareAttachments {base : Text} {seen : List Text}
    {ds : List (LocalAttachment P)} {ps : List PreparedAttachment}
    (h : prepareAttachments files base seen ds = .ok ps) :
    ∀ p ∈ ps, hashRegularFile P files p.path = some (p.sizeBytes, p.sha256, p.partSha256s) := by
  induction ds generalizing seen ps with
  | nil =>
      obtain rfl := Except.ok.inj h
      exact List.forall_mem_nil _
  | cons d ds ih =>
      obtain ⟨p, hp, h⟩ := bind_eq_ok.mp h
      obtain ⟨ps', hps, h⟩ := bind_eq_ok.mp h
      obtain rfl := Except.ok.inj h
      exact List.forall_mem_cons.mpr ⟨hash_of_prepareAttachment hp, ih hps⟩

theorem hash_of_prepareManifest {path : Text} {m : PreparedManifest P}
    (h : prepareManifest P files path = .ok m) :
    ∀ p ∈ m.attachments,
      hashRegularFile P files p.path = some (p.sizeBytes, p.sha256, p.partSha256s) := by
  obtain ⟨manifestPath, -, h⟩ := bind_eq_ok.mp h
  obtain ⟨⟨st, serialized⟩, -, h⟩ := bind_eq_ok.mp h
  simp only at h
  split at h
  · cases h
  obtain ⟨raw, -, h⟩ := bind_eq_ok.mp h
  obtain ⟨envelope, -, h⟩ := bind_eq_ok.mp h
  obtain ⟨prepared, hprepared, h⟩ := bind_eq_ok.mp h
  obtain ⟨attachments, -, h⟩ := bind_eq_ok.mp h
  obtain ⟨server, -, h⟩ := bind_eq_ok.mp h
  obtain rfl := Except.ok.inj h
  intro p hp
  have hperm := List.perm_insertionSort PreparedAttachment.rankLe prepared
  exact hash_of_prepareAttachments hprepared p (hperm.mem_iff.mp hp)

/-- The attachments of a first entry are those that were prepared. -/
theorem intact_ofPrepared {p : PreparedAttachment}
    (h : hashRegularFile P files p.path = some (p.sizeBytes, p.sha256, p.partSha256s)) :
    (AttachmentState.ofPrepared p).Intact P files :=
  h

theorem intact_of_comparePrepared {ps : List PreparedAttachment} {as : List AttachmentState}
    (hps : ∀ p ∈ ps,
      hashRegularFile P files p.path = some (p.sizeBytes, p.sha256, p.partSha256s))
    (hlength : ps.length = as.length) {u : Unit} (h : comparePrepared ps as = .ok u) :
    ∀ a ∈ as, a.Intact P files := by
  induction ps generalizing as with
  | nil =>
      obtain rfl := List.length_eq_zero_iff.mp hlength.symm
      exact List.forall_mem_nil _
  | cons p ps ih =>
      obtain ⟨a, as, rfl⟩ := List.exists_cons_of_length_eq_add_one hlength.symm
      obtain ⟨hp, hps⟩ := List.forall_mem_cons.mp hps
      rw [comparePrepared] at h
      split at h
      · cases h
      split at h
      · cases h
      rename_i hsame
      simp only [not_or, not_not, ne_eq] at hsame
      obtain ⟨-, hpath, -, hsize, hsha256, hparts, -⟩ := hsame
      refine List.forall_mem_cons.mpr ⟨?_, ih hps (Nat.succ.inj hlength) h⟩
      rw [AttachmentState.Intact, ← hpath, ← hsize, ← hsha256, ← hparts]
      exact hp

/-- What a manifest that is prepared for a retry says of the files and of the entry. -/
theorem intact_of_preparedForRetry {m : PreparedManifest P}
    (h : preparedForRetry P files e = .ok m) : Prepared m ∧
      m.attachments.length = e.attachments.length ∧ ∀ a ∈ e.attachments, a.Intact P files := by
  unfold preparedForRetry at h
  split at h
  · cases h
  · cases h
  rename_i m' hm
  split at h
  · cases h
  rename_i hsame
  obtain ⟨u, hcompare, rfl⟩ := map_eq_ok.mp h
  have hlength : m'.attachments.length = e.attachments.length :=
    not_not.mp (not_or.mp (not_or.mp hsame).2).2
  exact ⟨prepared_of_prepareManifest hm, hlength,
    intact_of_comparePrepared (hash_of_prepareManifest hm) hlength hcompare⟩

end files

/-! ### Help -/

section help

variable {P : Platform} {A : Type} [DecidableEq A] (T : Timestamps P) (C : UrlContext A)
  (origin : Text) (files : FileSystem) (m : ServerManifest P)

/-- The payload of a response that the command takes. -/
def Workstation.Accepts (w : Workstation) : Request → Bytes → Prop
  | .pair .., b | .refresh .., b => ∃ token, parseToken P b = .ok token
  | .createJob .., b => ∃ r, parseCreatedJob m b = .ok r
  | .partUrl .., b => ∃ url, parsePartUrl C b = .ok url
  | .complete _ attachmentId _ _, b => ∀ e, w.Holds T origin e → ∀ a ∈ e.attachments,
      a.attachmentId = some attachmentId → ∀ fileId ∈ a.fileId, ∀ uploadId ∈ a.uploadId,
        ∃ r, parseCompleted P ⟨attachmentId, fileId, uploadId, a.kind, .uploading⟩ b = .ok r
  | .submit jobId _, b => ∃ r, parseSubmitted P jobId b = .ok r
  | .status jobId _, b => ∃ r, parseStatus P jobId b = .ok r

/-- The environment does its part in a call: nothing is refused, the local files are the given
ones, and the server answers with what the command takes. -/
def Workstation.Helps (w : Workstation) (c : Call) (i : Chance A) : Prop :=
  i.fails = false ∧
    match c with
    | .request r => ∃ b, receive r.authFailure i.outcome = .ok b ∧ w.Accepts T C origin m r b
    | .putPart url _ => ∃ etag, (putPart C i.check i.connect i.network url).result = .ok etag ∧
        etag.Encodable
    | .look => i.files = files
    | .readSlice path offset =>
        i.slice = (files.readAttachment path).map fun r => r.content.drop offset
    | _ => True

/-- A command ends without an error wherever the environment helps. -/
abbrev Helped {α : Type} (Q : α → Workstation → Prop) (p : Command α) (w : Workstation) : Prop :=
  Procedure.Succeeds (fun c (i : Chance A) w => Workstation.answer T C origin c i w)
    (fun w c i => w.Helps T C origin files m c i) Q p w

end help

/-! ### Rules -/

section rules

variable {P : Platform} {A : Type} [DecidableEq A] {T : Timestamps P} {C : UrlContext A}
  {origin : Text} {files : FileSystem} {m : ServerManifest P} {w : Workstation}

theorem helped_call {c : Call} {Q : c.Value → Workstation → Prop}
    (h : ∀ i : Chance A, w.Helps T C origin files m c i →
      ∃ a w', w.perform T C origin i c = (.ok a, w') ∧ Q a (w'.push ⟨c, .ok a⟩)) :
    Helped T C origin files m Q (call c) w := by
  refine Procedure.succeeds_bind.mpr (Procedure.succeeds_perform.mpr fun i hi => ?_)
  obtain ⟨a, w', hperform, hQ⟩ := h i hi
  refine Procedure.succeeds_ofExcept.mpr ⟨a, ?_, ?_⟩
  · rw [Workstation.answer, hperform]
  · rw [Workstation.answer, hperform]
    exact hQ

/-- A call of the operating system with a result that is there. -/
theorem helped_guarded {c : Call} {Q : c.Value → Workstation → Prop} {a : c.Value}
    (hperform : ∀ i : Chance A, i.fails = false → w.perform T C origin i c = (.ok a, w))
    (hQ : Q a (w.push ⟨c, .ok a⟩)) : Helped T C origin files m Q (call c) w :=
  helped_call fun i hi => ⟨a, w, hperform i hi.1, hQ⟩

theorem helped_request {r : Request} {Q : Bytes → Workstation → Prop}
    (hQ : ∀ b, w.Accepts T C origin m r b → Q b (w.push ⟨.request r, .ok b⟩)) :
    Helped T C origin files m Q (call (.request r)) w := by
  refine helped_call fun i hi => ?_
  obtain ⟨-, b, hb, haccepts⟩ := hi
  refine ⟨b, w, ?_, hQ b haccepts⟩
  rw [Workstation.perform, hb]

theorem helped_look {Q : FileSystem → Workstation → Prop}
    (hQ : Q files (w.push ⟨.look, .ok files⟩)) :
    Helped T C origin files m Q (call .look) w := by
  refine helped_call fun i hi => ?_
  obtain ⟨-, rfl⟩ := hi
  exact ⟨i.files, w, rfl, hQ⟩

/-- A save of an accepted entry. -/
theorem helped_save {e : OutboxEntry} {name : Text} {Q : OutboxEntry → Workstation → Prop}
    (hT : T.Encodable) (hok : e.Ok)
    (hQ : ∀ (now : Moment) (docs : Documents), Q (e.stamp now)
      (Workstation.push { w with documents := docs } ⟨.save name e, .ok (e.stamp now)⟩)) :
    Helped T C origin files m Q (call (.save name e)) w := by
  refine helped_call fun i hi => ?_
  obtain ⟨b, hb⟩ := (hok.stamp i.now).serialized hT
  have hsave : save T w.documents name e i.now = .ok (w.documents.write name b) := by
    rw [save, hb]
  refine ⟨e.stamp i.now, { w with documents := w.documents.write name b }, ?_, hQ i.now _⟩
  simp [Workstation.perform, guardedChange, hi.1, hsave, Except.map]

/-- The removal of a document that is there. -/
theorem helped_delete {name : Text} {Q : Unit → Workstation → Prop}
    (hdocuments : w.documents.any (fun d => decide (d.1 = name)) = true)
    (hQ : Q () (Workstation.push { w with documents := w.documents.remove name }
      ⟨.delete name, .ok ()⟩)) :
    Helped T C origin files m Q (call (.delete name)) w := by
  refine helped_call fun i hi => ?_
  refine ⟨(), { w with documents := w.documents.remove name }, ?_, hQ⟩
  rw [Workstation.perform, if_pos hdocuments]
  simp [guardedChange, hi.1]

theorem helped_echo {line : Text} {Q : Unit → Workstation → Prop}
    (hQ : Q () (w.push ⟨.echo line, .ok ()⟩)) :
    Helped T C origin files m Q (call (.echo line)) w :=
  helped_guarded (fun i hi => by rw [Workstation.perform, guarded, hi]; rfl) hQ

theorem helped_loadRefreshOptional {Q : Option Text → Workstation → Prop}
    (hQ : Q w.refresh (w.push ⟨.loadRefreshOptional, .ok w.refresh⟩)) :
    Helped T C origin files m Q (call .loadRefreshOptional) w :=
  helped_guarded (fun i hi => by rw [Workstation.perform, hi]; rfl) hQ

/-- A token is fetched and stored. -/
theorem helped_storeToken {grant : Grant} {r : Request} {Q : Text → Workstation → Prop}
    (hr : r.authFailure = true) (hQ : ∀ accessToken w', Q accessToken w') :
    Helped T C origin files m Q (storeToken P grant r) w := by
  refine Procedure.succeeds_bind.mpr (helped_request fun b haccepts => ?_)
  have htoken : ∃ token, parseToken P b = .ok token := by
    cases r with
    | pair | refresh => exact haccepts
    | createJob | partUrl | complete | submit | status => cases hr
  obtain ⟨token, htoken⟩ := htoken
  refine Procedure.succeeds_bind.mpr (Procedure.succeeds_ofExcept.mpr ⟨token, htoken, ?_⟩)
  refine Procedure.succeeds_bind.mpr (helped_call fun i hi => ?_)
  refine ⟨(), { (w.push ⟨.request r, .ok b⟩) with credential := some token.refreshToken }, ?_,
    hQ _ _⟩
  rw [Workstation.perform, hi.1]
  rfl

theorem helped_refresh (hcredential : w.refresh ≠ none) :
    Helped T C origin files m (fun _ _ => True) (Connector.refresh P) w := by
  obtain ⟨t, ht⟩ := Option.ne_none_iff_exists'.mp hcredential
  refine Procedure.succeeds_bind.mpr (helped_loadRefreshOptional ?_)
  rw [ht]
  exact helped_storeToken rfl fun _ _ => trivial

end rules

end SuperBoss.Connector
