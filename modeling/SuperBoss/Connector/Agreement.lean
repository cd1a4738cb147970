import SuperBoss.Connector.Canonical
import SuperBoss.Connector.Client
import SuperBoss.Server.Creations
import SuperBoss.Server.StoredManifests

/-!
The server's job responses as the connector reads them.
-/

namespace SuperBoss.Connector

open SuperBoss.Core
open SuperBoss.Library
open SuperBoss.Library.Transition
open SuperBoss.Files
open SuperBoss.Imports
open SuperBoss.Server
open SuperBoss.Infrastructure.Clamav

variable {P : Platform}

/-! ### Parsing a response -/

theorem literalField_value {α : Type} {values : List α} {value : α → String}
    (hinj : ∀ a ∈ values, ∀ b ∈ values, value a = value b → a = b) {a : α} (ha : a ∈ values) :
    literalField values value (.str (Text.ofString (value a))) = .ok a := by
  simp only [literalField, Text.find?_ofString hinj ha]

theorem stateField_value (st : FileState) :
    literalField fileStates FileState.value (.str (Text.ofString st.value)) = .ok st :=
  literalField_value (by decide) (by cases st <;> decide)

theorem statusField_value (st : ImportStatus) :
    literalField jobStatuses ImportStatus.value (.str (Text.ofString st.value)) = .ok st :=
  literalField_value (by decide) (by cases st <;> decide)

/-- The instants of a Python `datetime`. -/
def IsDatetime (t : Instant) : Prop := Instant.min ≤ t ∧ t ≤ Instant.max

theorem awareField_dump {t : Instant} (h : IsDatetime t) :
    awareField P (.str (P.dumpDatetime t)) = .ok t := by
  simp only [awareField, P.parseDatetime_dump t h.1 h.2, Int.sub_zero]

theorem strictStr_val {maxLength : Nat} (t : CleanText P false maxLength) :
    strictStr 1 maxLength (.str t.val) = .ok t.val :=
  if_pos ⟨t.property.encodable, t.property.minLength, t.property.maxLength⟩

theorem nullable_map {α β : Type} {f : Json → Except PyError α} {g : β → Json} {h : β → α}
    {o : Option β} (hf : ∀ b ∈ o, f (g b) = .ok (h b)) (hnull : ∀ b, g b ≠ .null) :
    nullable f (Json.ofOption g o) = .ok (o.map h) := by
  cases o with
  | none => rfl
  | some b =>
      simp only [Json.ofOption]
      unfold nullable
      split
      · exact absurd ‹_› (hnull b)
      · rw [hf b rfl]
        rfl

def AttachmentResponse.ofView (v : ImportAttachmentView) : AttachmentResponse :=
  ⟨v.id, v.fileId, v.uploadId, v.kind, v.fileState⟩

theorem AttachmentResponse.validate_view (v : ImportAttachmentView) :
    AttachmentResponse.validate P v.dump = .ok (.ofView v) := by
  simp only [validate, ImportAttachmentView.dump, requiredField, field?_cons, onlyKeys_cons,
    onlyKeys_nil, fieldNames, String.reduceEq, if_true, if_false, uuidField_text,
    kindField_value, stateField_value]
  rfl

theorem listOf_map_of {α β : Type} {f : Json → Except PyError α} {g : β → Json} {h : β → α}
    (hf : ∀ b, f (g b) = .ok (h b)) {l : List β} {minLength maxLength : Nat}
    (hmin : minLength ≤ l.length) (hmax : l.length ≤ maxLength) :
    listOf minLength maxLength f (.arr (l.map g)) = .ok (l.map h) := by
  have hcollect : collectList f (l.map g) = .ok (l.map h) := by
    clear hmin hmax
    induction l with
    | nil => rfl
    | cons b l ih => simp [collectList, hf b, ih, collect]
  simp [listOf, hmin, hmax, hcollect]

/-- The response that a view is read as. -/
def JobResponse.ofView (v : ImportJobView P) : JobResponse P :=
  ⟨v.id, v.projectId, v.localTaskId, v.externalDocumentReference, v.baseSha256, v.status,
    v.resultCode.map Text.ofString, v.k3Result, v.submittedAt, v.createdAt, v.updatedAt,
    v.attachments.map .ofView⟩

/-- The times of a view are datetimes. -/
structure Dated (v : ImportJobView P) : Prop where
  submittedAt : ∀ t ∈ v.submittedAt, IsDatetime t
  createdAt : IsDatetime v.createdAt
  updatedAt : IsDatetime v.updatedAt

/-- The view of a job whose columns show the manifest `m`. -/
structure Shows (v : ImportJobView P) (m : ImportJobCreate P) : Prop where
  projectId : v.projectId = m.projectId
  localTaskId : v.localTaskId = m.localTaskId.val
  externalDocumentReference :
    v.externalDocumentReference = m.externalDocumentReference.map (·.val)
  baseSha256 : v.baseSha256 = m.baseSha256.map (·.val)
  k3Result : v.k3Result = m.k3Result
  resultCode : ∀ code ∈ v.resultCode, code ∈ resultCodes
  status : (JobResponse.ofView v).ConsistentStatus
  kinds : (v.attachments.map (·.kind)).Perm m.kinds

theorem isResultCode_of_mem {code : String} (h : code ∈ resultCodes) :
    isResultCode (Text.ofString code) = true := by
  revert code
  decide

theorem JobResponse.validate_view {v : ImportJobView P} {m : ImportJobCreate P} (h : Shows v m)
    (hd : Dated v) : JobResponse.validate P v.dump = .ok (.ofView v) := by
  have htask : strictStr 1 255 (.str v.localTaskId) = .ok v.localTaskId := by
    rw [h.localTaskId]
    exact strictStr_val m.localTaskId
  have hexternal : nullable (strictStr 1 1024)
      (Json.ofOption .str v.externalDocumentReference) = .ok v.externalDocumentReference := by
    rw [h.externalDocumentReference, ofOption_map, nullable_map (h := fun t => t.val)]
    · exact fun t _ => strictStr_val t
    · exact fun _ => Json.noConfusion
  have hbase : nullable (patternStr Text.isDigest) (Json.ofOption .str v.baseSha256) =
      .ok v.baseSha256 := by
    rw [h.baseSha256, ofOption_map, nullable_map (h := fun d => d.val)]
    · exact fun d _ => if_pos d.property
    · exact fun _ => Json.noConfusion
  have hcode : nullable (patternStr isResultCode)
      (Json.ofOption (fun code => .str (Text.ofString code)) v.resultCode) =
        .ok (v.resultCode.map Text.ofString) :=
    nullable_map (fun code hc => if_pos (isResultCode_of_mem (h.resultCode code hc)))
      fun _ => Json.noConfusion
  have hsubmitted : nullable (awareField P)
      (Json.ofOption (fun t => .str (P.dumpDatetime t)) v.submittedAt) =
        .ok (v.submittedAt.map fun t => t) :=
    nullable_map (fun t ht => awareField_dump (hd.submittedAt t ht))
      fun _ => Json.noConfusion
  have hlength : v.attachments.length = m.attachments.length := by
    have hkinds := h.kinds.length_eq
    rwa [List.length_map, ManifestFields.kinds, List.length_map] at hkinds
  have hattachments : listOf 1 3 (AttachmentResponse.validate P)
      (.arr (v.attachments.map ImportAttachmentView.dump)) = .ok (v.attachments.map .ofView) := by
    refine listOf_map_of AttachmentResponse.validate_view ?_ ?_
    · rw [hlength]
      exact List.length_pos_iff.mpr m.attachments_ne_nil
    · rw [hlength]
      exact ImportJobCreate.kinds_length_le _ m.kindsNodup
  have hfields : JobResponse.validateFields P v.dump = .ok (.ofView v) := by
    simp only [validateFields, ImportJobView.dump, requiredField, field?_cons, onlyKeys_cons,
      onlyKeys_nil, fieldNames, String.reduceEq, if_true, if_false, uuidField_text,
      htask, hexternal, hbase, statusField_value, hcode,
      K3Result.validate_dump, hsubmitted, awareField_dump hd.createdAt,
      awareField_dump hd.updatedAt, hattachments, Option.map_id']
    rfl
  rw [JobResponse.validate, hfields]
  exact if_pos h.status

/-! ### Views of stored jobs -/

theorem forall₂_of_mapM {α β : Type} {f : α → Option β} {l : List α} {l' : List β}
    (h : l.mapM f = some l') : List.Forall₂ (fun a b => f a = some b) l l' := by
  induction l generalizing l' with
  | nil =>
      cases h
      exact .nil
  | cons a l ih =>
      rw [List.mapM_cons] at h
      obtain ⟨b, hb, h⟩ := Option.bind_eq_some_iff.mp h
      obtain ⟨bs, hbs, h⟩ := Option.bind_eq_some_iff.mp h
      cases h
      exact .cons hb (ih hbs)

theorem map_eq_of_forall₂ {α β γ : Type} {R : α → β → Prop} {f : α → γ} {g : β → γ}
    {l : List α} {l' : List β} (h : List.Forall₂ R l l') (hfg : ∀ a b, R a b → g b = f a) :
    l'.map g = l.map f := by
  induction h with
  | nil => rfl
  | cons hab _ ih => rw [List.map_cons, List.map_cons, hfg _ _ hab, ih]

/-- The view of an attachment row. -/
structure ViewOf (a : ImportAttachment) (v : ImportAttachmentView) : Prop where
  id : v.id = a.id
  fileId : v.fileId = a.fileId
  uploadId : v.uploadId = a.uploadId
  kind : v.kind = a.kind

theorem viewOf_of_attachmentView {s : Store} {a : ImportAttachment} {v : ImportAttachmentView}
    (h : attachmentView s a = some v) : ViewOf a v := by
  obtain ⟨f, -, rfl⟩ := Option.map_eq_some_iff.mp h
  exact ⟨rfl, rfl, rfl, rfl⟩

theorem ImportJobCreate.dump_inj {m m' : ImportJobCreate P} (h : m.dump = m'.dump) : m = m' := by
  have hm := m.validate_dump
  rw [h, m'.validate_dump] at hm
  exact (Except.ok.inj hm).symm

/-- What a view shows of the row of a job with manifest `m`. -/
structure ViewOfJob (s : Store) (j : ImportJob) (m : ImportJobCreate P) (v : ImportJobView P) :
    Prop where
  shows : Shows v m
  status : v.status = j.status
  resultCode : v.resultCode = j.resultCode
  submittedAt : v.submittedAt = j.submittedAt
  attachments : List.Forall₂ ViewOf (s.attachmentsOf j.id) v.attachments

variable {cfg : ScannerConfig} {projects : List UUID} {s : SystemState P}

/-- In every reachable state the view of a job shows the manifest it was created with. -/
theorem viewOfJob_of_reachable (h : Reachable (next P cfg) (initialState P projects) s)
    {id : UUID} {j : ImportJob} (hj : s.store.jobs.get? id = some j) {m : ImportJobCreate P}
    (hm : j.canonicalManifestJson = m.dump) {v : ImportJobView P}
    (hv : viewJob P s.store id = .ok v) : ViewOfJob s.store j m v := by
  obtain ⟨c, hcolumns, hkinds⟩ := createdBy_of_reachable h id j hj
  have hcommand : c.command = m :=
    ImportJobCreate.dump_inj ((congrArg (fun i => i.2.2.2.2.2.2.2.1) hcolumns).symm.trans hm)
  have hview : jobView P s.store j = some v := by
    simp only [viewJob, hj] at hv
    split at hv
    · cases hv
    · rename_i hview
      cases hv
      exact hview
  obtain ⟨attachments, hattachments, hview⟩ := Option.bind_eq_some_iff.mp hview
  obtain ⟨manifest, hmanifest, hview⟩ := Option.bind_eq_some_iff.mp hview
  cases hview
  rw [hm, m.validate_dump] at hmanifest
  obtain rfl : m = manifest := Option.some.inj hmanifest
  have hforall := (forall₂_of_mapM hattachments).imp fun a v => viewOf_of_attachmentView
  have hok := (consistent_of_reachable h).wellFormed.jobs hj
  have horder := timeOrder_of_reachable h id j hj
  subst hcommand
  refine ⟨⟨?_, ?_, ?_, ?_, rfl, fun code hcode => ?_, ⟨horder.1, horder.2, ?_, ?_⟩, ?_⟩, rfl, rfl,
    rfl, hforall⟩
  · exact congrArg (fun i => i.2.2.1) hcolumns
  · exact congrArg (fun i => i.2.2.2.2.1) hcolumns
  · exact congrArg (fun i => i.2.2.2.2.2.1) hcolumns
  · exact congrArg (fun i => i.2.2.2.2.2.2.1) hcolumns
  · by_cases hstatus : j.status = .uploading
    · rcases hok.result with ⟨-, hnone⟩ | ⟨hrejected, -⟩
      · rw [Option.mem_def, hnone] at hcode
        cases hcode
      · rw [hstatus] at hrejected
        exact absurd hrejected (by decide)
    · obtain ⟨observations, -, -, heval⟩ := hok.justified hstatus
      have heval' : (evaluateFiles j.baseSha256 observations).resultCode = some code := by
        rw [heval]
        exact hcode
      exact evaluateFiles_resultCode heval'
  · show j.status = .uploading ↔ j.submittedAt = none
    rcases hok.submission with ⟨hup, hnone⟩ | ⟨hne, hsome⟩
    · exact ⟨fun _ => hnone, fun _ => hup⟩
    · exact ⟨fun hup => absurd hup hne, fun hnone => absurd hnone hsome⟩
  · show (j.status = .rejected ∨ j.status = .conflict) ↔ j.resultCode.map Text.ofString ≠ none
    rw [ne_eq, Option.map_eq_none_iff]
    rcases hok.result with ⟨hopen, hnone⟩ | ⟨hclosed, hsome⟩
    · refine ⟨fun hclosed => ?_, fun hne => absurd hnone hne⟩
      rcases hclosed with hclosed | hclosed <;> rw [hclosed] at hopen <;>
        exact absurd hopen (by decide)
    · refine ⟨fun _ => hsome, fun _ => ?_⟩
      rcases List.mem_cons.mp hclosed with hrejected | hconflict
      · exact .inl hrejected
      · exact .inr (List.mem_singleton.mp hconflict)
  · rw [map_eq_of_forall₂ (f := (·.kind)) hforall fun a v hav => hav.kind]
    exact hkinds

/-- The echoed fields of a response are those of the request. -/
theorem Shows.echo {v : ImportJobView P} {m : ImportJobCreate P} (h : Shows v m)
    {server : ServerManifest P} (hserver : Describes m server) :
    (JobResponse.ofView v).echo = server.echo := by
  simp only [JobResponse.echo, JobResponse.ofView, ServerManifest.echo, h.projectId,
    h.localTaskId, h.externalDocumentReference, h.baseSha256, h.k3Result, hserver.projectId,
    hserver.localTaskId, hserver.externalDocumentReference, hserver.baseSha256, hserver.k3Result]

/-! ### Agreement -/

/-- For every manifest that the connector prepares, the server accepts the
payload, writes the same canonical bytes and fingerprint, and echoes fields that
compare equal to the request. -/
theorem canonical_agreement (P : Platform) (cfg : ScannerConfig) (projects : List UUID)
    {fs : FileSystem} {path : Text} {p : PreparedManifest P}
    (hp : prepareManifest P fs path = .ok p) :
    ∃ m, ImportJobCreate.validate P p.server.serverPayload = .ok m ∧
      m.canonicalManifestBytes = p.server.canonicalBytes ∧
      (∀ c : CreateCall P, c.command = m → c.manifestFingerprint = p.fingerprint) ∧
      ∀ s, Reachable (next P cfg) (initialState P projects) s →
        ∀ id j, s.store.jobs.get? id = some j → j.canonicalManifestJson = m.dump →
          ∀ v, viewJob P s.store id = .ok v → Dated v →
            ∃ r, JobResponse.validate P v.dump = .ok r ∧ r.echo = p.server.echo := by
  obtain ⟨⟨m, hm⟩, -, hfingerprint⟩ := prepared_of_prepareManifest hp
  have hdump : m.dump = p.server.serverPayload := hm.dump
  have hbytes : m.canonicalManifestBytes = p.server.canonicalBytes := by
    rw [ImportJobCreate.canonicalManifestBytes, hdump]
    rfl
  refine ⟨m, hdump ▸ m.validate_dump, hbytes, ?_, ?_⟩
  · rintro c rfl
    rw [CreateCall.manifestFingerprint, hbytes, hfingerprint]
  · intro s hs id j hj hmanifest v hv hdated
    have hview := viewOfJob_of_reachable hs hj hmanifest hv
    exact ⟨_, JobResponse.validate_view hview.shows hdated, hview.shows.echo hm⟩

namespace Sample

open SuperBoss.Server.Sample

def regularFile (size : Nat) : Stat := ⟨0o100644, size, 0⟩

def attachment (kind : AttachmentKind) (path : String) : Json :=
  .obj [Json.field "kind" (.str (Text.ofString kind.value)),
    Json.field "path" (.str (Text.ofString path)),
    Json.field "content_type" (.str (Text.ofString "text/plain"))]

/-- An envelope with the given attachments. -/
def envelope (attachments : List Json) : Json :=
  .obj [Json.field "idempotency_key" (.str (Text.ofString "create-key-00000001")),
    Json.field "project_id" (.str (UUID.text 1)),
    Json.field "local_task_id" (.str (Text.ofString "task")),
    Json.field "k3_result" k3Result.dump,
    Json.field "attachments" (.arr attachments)]

/-- A directory of files with the sample content, and a manifest among them. -/
def directory (attachments : List Json) : FileSystem where
  resolve := some
  parent _ := []
  name path := path
  isAbsolute _ := false
  isSymlink _ := false
  join _ path := path
  isRelativeTo _ _ := true
  readManifest _ := some (regularFile 512, List.replicate 512 32)
  loads _ := some (envelope attachments)
  readAttachment _ := some ⟨regularFile 3, content, regularFile 3⟩
  guessType _ := none

def single : FileSystem := directory [attachment .k3Raw "task"]

end Sample

/-- The manifest with one attachment. -/
theorem canonical_agreement_single :
    ∃ p m, prepareManifest Server.Sample.platform Sample.single (Text.ofString "manifest") = .ok p ∧
      ImportJobCreate.validate Server.Sample.platform p.server.serverPayload = .ok m ∧
      m.canonicalManifestBytes = p.server.canonicalBytes := by
  have hok : (prepareManifest Server.Sample.platform Sample.single
      (Text.ofString "manifest")).isOk = true := by decide +kernel
  cases hp : prepareManifest Server.Sample.platform Sample.single (Text.ofString "manifest") with
  | error e =>
      rw [hp] at hok
      cases hok
  | ok p =>
      obtain ⟨m, hm, hbytes, -⟩ :=
        canonical_agreement Server.Sample.platform Server.Sample.scanner [1] hp
      exact ⟨p, m, rfl, hm, hbytes⟩

end SuperBoss.Connector
