import SuperBoss.Connector.Manifest

/-!
The server manifest that the connector prepares is the dump of a manifest that
the server's own contract accepts, so both sides write the same canonical bytes.
-/

namespace SuperBoss.Connector

open SuperBoss.Core
open SuperBoss.Imports

variable {P : Platform}

theorem validated_eq_ok {α : Type} {x : Except PyError α} {a : α} :
    validated x = .ok a ↔ x = .ok a := by
  cases x with
  | ok b => simp [validated]
  | error e => cases e <;> simp [validated]

theorem expected_eq_ok {α : Type} {x : Option α} {a : α} : expected x = .ok a ↔ x = some a := by
  cases x with
  | none => simp [expected]
  | some b => simp [expected]

theorem mapM_eq_ok {α β ε : Type} {f : α → Except ε β} {l : List α} {l' : List β}
    (h : l.mapM f = .ok l') : List.Forall₂ (fun a b => f a = .ok b) l l' := by
  induction l generalizing l' with
  | nil =>
      cases h
      exact .nil
  | cons a l ih =>
      rw [List.mapM_cons] at h
      obtain ⟨b, hb, h⟩ := bind_eq_ok.mp h
      obtain ⟨bs, hbs, h⟩ := bind_eq_ok.mp h
      cases h
      exact .cons hb (ih hbs)

/-! ### Strings -/

theorem boundedStr_eq_ok {minLength maxLength : Nat} {t s : Text} :
    boundedStr minLength maxLength t = .ok s ↔
      s = t.strip ∧ (∀ c ∈ s, Text.isSurrogate c = false) ∧ minLength ≤ s.length ∧
        s.length ≤ maxLength := by
  simp only [boundedStr]
  split
  · rename_i h
    simp only [Except.ok.injEq]
    constructor
    · rintro rfl
      exact ⟨rfl, h⟩
    · rintro ⟨rfl, -⟩
      rfl
  · rename_i h
    constructor
    · intro hok
      cases hok
    · rintro ⟨rfl, hs⟩
      exact absurd hs h

/-- A clean text passes the bounds that it carries. -/
theorem boundedStr_val {document : Bool} {maxLength : Nat} (t : CleanText P document maxLength) :
    boundedStr 1 maxLength t.val = .ok t.val :=
  boundedStr_eq_ok.mpr ⟨t.property.stripped.symm, t.property.encodable, t.property.minLength,
    t.property.maxLength⟩

theorem plainStr_val (d : Digest) : ServerManifest.plainStr d.val = .ok d.val := by
  have hhex : ∀ c ∈ d.val, Text.isLowerHex c = true := by
    have h := d.property
    simp only [Text.isDigest, Bool.and_eq_true, List.all_eq_true] at h
    exact h.2
  refine boundedStr_eq_ok.mpr ⟨?_, fun c hc => ?_, Nat.zero_le _, le_rfl⟩
  · exact (strip_of_forall fun c hc => isWhitespace_of_isLowerHex (hhex c hc)).symm
  · have hc := hhex c hc
    simp only [Text.isLowerHex, Bool.or_eq_true, Bool.and_eq_true, decide_eq_true_eq] at hc
    simp only [Text.isSurrogate, Bool.or_eq_false_iff, Bool.and_eq_false_iff,
      decide_eq_false_iff_not]
    omega

theorem optionalStr_val {maxLength : Nat} (o : Option (CleanText P false maxLength)) :
    ServerManifest.optionalStr 1 maxLength (o.map (·.val)) = .ok (o.map (·.val)) := by
  cases o with
  | none => rfl
  | some t =>
      simp only [ServerManifest.optionalStr, Option.map_some, boundedStr_val]
      rfl

/-! ### Attachments -/

/-- An attachment that the server's contract describes as well. -/
structure Declares (d : AttachmentDeclaration P) (a : ServerAttachment) : Prop where
  dump : d.dump = a.dump
  kind : d.kind = a.kind

theorem ServerAttachment.validate_normal {a b : ServerAttachment} (h : a.validate = .ok b)
    (hnormal : P.unicode.Normal a.filename) :
    P.unicode.Normal b.filename ∧ b.kind = a.kind ∧ ∃ d : AttachmentDeclaration P, Declares d b := by
  obtain ⟨⟨filename, _, sha256, mime⟩, hparts, rfl⟩ := map_eq_ok.mp h
  obtain ⟨hname, hparts⟩ := collect_eq_ok.mp hparts
  obtain ⟨hsize, -⟩ := collect_eq_ok.mp hparts
  obtain ⟨name, hbounded, hsafe⟩ := bind_eq_ok.mp hname
  obtain ⟨rfl, hencodable, hmin, hmax⟩ := boundedStr_eq_ok.mp hbounded
  split at hsafe
  · rename_i hcheck
    cases hsafe
    have hclean : P.unicode.Normal a.filename.strip := hnormal.of_isInfix (Text.strip_isInfix _)
    have hbounds : 1 ≤ a.sizeBytes ∧ a.sizeBytes ≤ attachmentMaxBytes := by
      unfold check at hsize
      split at hsize
      · rename_i hdecide
        exact of_decide_eq_true hdecide
      · cases hsize
    refine ⟨hclean, rfl, ⟨a.kind, ⟨a.filename.strip, ?_⟩, ⟨a.sizeBytes, hbounds⟩, sha256, mime⟩,
      rfl, rfl⟩
    exact {
      normal := hclean
      newlines := fun hd => by cases hd
      stripped := Text.strip_strip _
      minLength := hmin
      maxLength := hmax
      encodable := hencodable
      controls := safeText.sound hcheck }
  · cases hsafe

theorem prepareAttachment_normal {fs : FileSystem} {base : Text} {seen : List Text}
    {d : LocalAttachment P} {a : PreparedAttachment}
    (h : prepareAttachment fs base seen d = .ok a) :
    P.unicode.Normal a.filename ∧ a.kind = d.kind := by
  obtain ⟨resolved, -, h⟩ := bind_eq_ok.mp h
  split at h
  · cases h
  · obtain ⟨⟨size, sha256, parts⟩, -, h⟩ := bind_eq_ok.mp h
    obtain ⟨b, hb, h⟩ := bind_eq_ok.mp h
    cases h
    exact ⟨(ServerAttachment.validate_normal (validated_eq_ok.mp hb) (P.unicode.nfc_nfc _)).1, rfl⟩

theorem prepareAttachments_normal {fs : FileSystem} {base : Text} {seen : List Text}
    {ds : List (LocalAttachment P)} {as : List PreparedAttachment}
    (h : prepareAttachments fs base seen ds = .ok as) :
    (∀ a ∈ as, P.unicode.Normal a.filename) ∧ as.map (·.kind) = ds.map (·.kind) := by
  induction ds generalizing seen as with
  | nil =>
      cases h
      exact ⟨List.forall_mem_nil _, rfl⟩
  | cons d ds ih =>
      obtain ⟨a, ha, h⟩ := bind_eq_ok.mp h
      obtain ⟨as', has, h⟩ := bind_eq_ok.mp h
      cases h
      obtain ⟨hnormal, hkind⟩ := prepareAttachment_normal ha
      obtain ⟨hrest, hkinds⟩ := ih has
      refine ⟨List.forall_mem_cons.mpr ⟨hnormal, hrest⟩, ?_⟩
      rw [List.map_cons, List.map_cons, hkind, hkinds]

/-- Declarations for the validated attachments of a prepared list. -/
theorem exists_declarations {as : List PreparedAttachment} {bs : List ServerAttachment}
    (hnormal : ∀ a ∈ as, P.unicode.Normal a.filename)
    (h : List.Forall₂ (fun (a : PreparedAttachment) b => a.server.validate = .ok b) as bs) :
    bs.map (·.kind) = as.map (·.kind) ∧
      ∃ ds : List (AttachmentDeclaration P), List.Forall₂ Declares ds bs := by
  induction h with
  | nil => exact ⟨rfl, [], .nil⟩
  | @cons a b as bs hab _ ih =>
      obtain ⟨ha, has⟩ := List.forall_mem_cons.mp hnormal
      obtain ⟨-, hkind, d, hd⟩ := ServerAttachment.validate_normal (P := P) hab ha
      obtain ⟨hkinds, ds, hds⟩ := ih has
      refine ⟨?_, d :: ds, .cons hd hds⟩
      rw [List.map_cons, List.map_cons, hkinds, hkind]
      rfl

theorem Declares.dumps {ds : List (AttachmentDeclaration P)} {bs : List ServerAttachment}
    (h : List.Forall₂ Declares ds bs) :
    ds.map AttachmentDeclaration.dump = bs.map ServerAttachment.dump ∧
      ds.map (·.kind) = bs.map (·.kind) := by
  induction h with
  | nil => exact ⟨rfl, rfl⟩
  | cons hd _ ih =>
      rw [List.map_cons, List.map_cons, List.map_cons, List.map_cons, hd.dump, hd.kind, ih.1, ih.2]
      exact ⟨rfl, rfl⟩

/-! ### The manifest -/

/-- A manifest of the server's contract that the connector's manifest describes. -/
structure Describes (m : ImportJobCreate P) (server : ServerManifest P) : Prop where
  projectId : m.projectId = server.projectId
  localTaskId : m.localTaskId.val = server.localTaskId
  externalDocumentReference :
    m.externalDocumentReference.map (·.val) = server.externalDocumentReference
  baseSha256 : m.baseSha256.map (·.val) = server.baseSha256
  k3Result : m.k3Result = server.k3Result
  attachments : m.attachments.map AttachmentDeclaration.dump =
    server.attachments.map ServerAttachment.dump
  kinds : m.kinds = server.attachments.map (·.kind)

theorem ofOption_map {α β : Type} (f : α → β) (g : β → Json) (o : Option α) :
    Json.ofOption g (o.map f) = Json.ofOption (fun a => g (f a)) o := by
  cases o <;> rfl

theorem Describes.dump {m : ImportJobCreate P} {server : ServerManifest P}
    (h : Describes m server) : m.dump = server.dump := by
  rw [ServerManifest.dump, ← h.externalDocumentReference, ← h.baseSha256, ofOption_map,
    ofOption_map, ← h.projectId, ← h.localTaskId, ← h.k3Result, ← h.attachments]
  rfl

/-- Both byte budgets are the same. -/
theorem withinBudget_eq (payload : Json) :
    ServerManifest.withinBudget payload = ManifestFields.withinBudget payload := rfl

theorem ServerManifest.validate_texts {projectId : UUID} {task : CleanText P false 255}
    {external : Option (CleanText P false 1024)} {base : Option Digest} {k3 : K3Result P}
    {attachments : List ServerAttachment} {server : ServerManifest P}
    (h : ServerManifest.validate ⟨projectId, task.val, external.map (·.val), base.map (·.val), k3,
      attachments⟩ = .ok server) :
    server = ⟨projectId, task.val, external.map (·.val), base.map (·.val), k3, attachments⟩ ∧
      ServerManifest.withinBudget server.dump = true := by
  obtain ⟨⟨task', external', base', _⟩, hparts, h⟩ := bind_eq_ok.mp h
  obtain ⟨htask, hparts⟩ := collect_eq_ok.mp hparts
  obtain ⟨hexternal, hparts⟩ := collect_eq_ok.mp hparts
  obtain ⟨hbase, -⟩ := collect_eq_ok.mp hparts
  obtain rfl : task.val = task' := Except.ok.inj ((boundedStr_val task).symm.trans htask)
  obtain rfl : external.map (·.val) = external' :=
    Except.ok.inj ((optionalStr_val external).symm.trans hexternal)
  obtain rfl : base.map (·.val) = base' := by
    cases base with
    | none => exact Except.ok.inj hbase
    | some d =>
        simp only [Option.map_some, plainStr_val] at hbase
        exact Except.ok.inj hbase
  simp only at h
  split at h
  · rename_i hbudget
    cases h
    exact ⟨rfl, hbudget⟩
  · cases h

/-- What `prepare_manifest` establishes. -/
structure Prepared (p : PreparedManifest P) : Prop where
  described : ∃ m : ImportJobCreate P, Describes m p.server
  kinds : p.server.attachments.map (·.kind) = p.attachments.map (·.kind)
  fingerprint : p.fingerprint = P.sha256 p.server.canonicalBytes

theorem prepared_of_prepareManifest {fs : FileSystem} {path : Text} {p : PreparedManifest P}
    (h : prepareManifest P fs path = .ok p) : Prepared p := by
  obtain ⟨manifestPath, -, h⟩ := bind_eq_ok.mp h
  obtain ⟨⟨st, serialized⟩, -, h⟩ := bind_eq_ok.mp h
  simp only at h
  split at h
  · cases h
  obtain ⟨raw, -, h⟩ := bind_eq_ok.mp h
  obtain ⟨local', hlocal, h⟩ := bind_eq_ok.mp h
  obtain ⟨prepared, hprepared, h⟩ := bind_eq_ok.mp h
  obtain ⟨attachments, hattachments, h⟩ := bind_eq_ok.mp h
  obtain ⟨server, hserver, h⟩ := bind_eq_ok.mp h
  cases h
  obtain ⟨hnormal, hkinds⟩ := prepareAttachments_normal hprepared
  have hperm := List.perm_insertionSort PreparedAttachment.rankLe prepared
  obtain ⟨hserverKinds, ds, hds⟩ := exists_declarations (P := P)
    (fun a ha => hnormal a (hperm.mem_iff.mp ha)) (mapM_eq_ok (validated_eq_ok.mp hattachments))
  obtain ⟨hdumps, hdsKinds⟩ := Declares.dumps hds
  obtain ⟨rfl, hbudget⟩ := ServerManifest.validate_texts (validated_eq_ok.mp hserver)
  obtain ⟨m, -, hvalid⟩ := bind_eq_ok.mp (validated_eq_ok.mp hlocal)
  split at hvalid
  · rename_i hok
    cases hvalid
    obtain ⟨hnodup, hcount, hbase⟩ := hok
    -- The declarations have the kinds of the local envelope, in rank order.
    have hsame : (ds.map (·.kind)).Perm local'.kinds := by
      rw [hdsKinds, hserverKinds, LocalManifest.kinds, ← hkinds]
      exact hperm.map _
    have hranked : ds.Pairwise rankLe := by
      have hsorted := List.pairwise_insertionSort PreparedAttachment.rankLe prepared
      have hmap : (ds.map (·.kind)).Pairwise fun a b => a.rank ≤ b.rank := by
        rw [hdsKinds, hserverKinds]
        exact List.pairwise_map.mpr hsorted
      rw [List.pairwise_map] at hmap
      exact hmap
    let fields : ManifestFields P := ⟨local'.projectId, local'.localTaskId,
      local'.externalDocumentReference, local'.baseSha256, local'.k3Result, ds⟩
    have hdump : fields.dump = ServerManifest.dump (P := P) ⟨local'.projectId,
        local'.localTaskId.val, local'.externalDocumentReference.map (·.val),
        local'.baseSha256.map (·.val), local'.k3Result, attachments⟩ := by
      rw [ServerManifest.dump, ofOption_map, ofOption_map, ← hdumps]
      rfl
    refine ⟨⟨{ fields with
      kindsNodup := hsame.nodup_iff.mpr hnodup
      k3Raw := hsame.mem_iff.mpr (List.count_pos_iff.mp (by omega))
      baseOriginal := fun hb => hsame.mem_iff.mpr (hbase hb)
      ranked := hranked
      budget := by rw [hdump]; exact hbudget }, rfl, rfl, rfl, rfl, rfl, hdumps, ?_⟩,
      hserverKinds, rfl⟩
    exact hdsKinds
  · cases hvalid

end SuperBoss.Connector
