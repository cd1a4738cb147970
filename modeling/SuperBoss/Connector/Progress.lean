import SuperBoss.Connector.Commands

/-!
What one step of an operation does to its entry: the entry advances, and the
validators of the outbox accept it again.
-/

namespace SuperBoss.Connector

open SuperBoss.Core
open SuperBoss.Files
open SuperBoss.Imports

/-! ### Advancing -/

theorem exists_of_forall₂_left {α β : Type} {R : α → β → Prop} {l : List α} {l' : List β}
    (h : List.Forall₂ R l l') {a : α} (ha : a ∈ l) : ∃ b ∈ l', R a b := by
  induction h with
  | nil => exact absurd ha List.not_mem_nil
  | cons hab _ ih =>
      rcases List.mem_cons.mp ha with rfl | ha
      · exact ⟨_, List.mem_cons_self, hab⟩
      · obtain ⟨b, hb, hr⟩ := ih ha
        exact ⟨b, List.mem_cons_of_mem _ hb, hr⟩

/-- What an attachment declares, without its progress. -/
def AttachmentState.declaration (a : AttachmentState) : AttachmentState :=
  { a with
    attachmentId := none
    fileId := none
    uploadId := none
    completedParts := []
    completed := false }

/-- The ids that are bound stay, completed parts are only added. -/
structure AttachmentState.Advances (a b : AttachmentState) : Prop where
  declaration : b.declaration = a.declaration
  attachmentId : ∀ id ∈ a.attachmentId, b.attachmentId = some id
  fileId : ∀ id ∈ a.fileId, b.fileId = some id
  uploadId : ∀ id ∈ a.uploadId, b.uploadId = some id
  completedParts : ∀ p ∈ a.completedParts, p ∈ b.completedParts
  completed : a.completed = true → b.completed = true

namespace AttachmentState

theorem Advances.refl (a : AttachmentState) : a.Advances a :=
  ⟨rfl, fun _ h => h, fun _ h => h, fun _ h => h, fun _ h => h, fun h => h⟩

theorem Advances.trans {a b c : AttachmentState} (h : a.Advances b) (h' : b.Advances c) :
    a.Advances c where
  declaration := h'.declaration.trans h.declaration
  attachmentId id hid := h'.attachmentId id (h.attachmentId id hid)
  fileId id hid := h'.fileId id (h.fileId id hid)
  uploadId id hid := h'.uploadId id (h.uploadId id hid)
  completedParts p hp := h'.completedParts p (h.completedParts p hp)
  completed hc := h'.completed (h.completed hc)

/-- What a declaration has does not change. -/
theorem Advances.declared {β : Type} {a b : AttachmentState} (h : a.Advances b)
    (f : AttachmentState → β) (hf : ∀ a : AttachmentState, f a.declaration = f a) : f b = f a := by
  rw [← hf b, h.declaration, hf a]

theorem Advances.kind {a b : AttachmentState} (h : a.Advances b) : b.kind = a.kind :=
  h.declared _ fun _ => rfl

theorem Advances.path {a b : AttachmentState} (h : a.Advances b) : b.path = a.path :=
  h.declared _ fun _ => rfl

theorem Advances.sizeBytes {a b : AttachmentState} (h : a.Advances b) :
    b.sizeBytes = a.sizeBytes :=
  h.declared _ fun _ => rfl

theorem Advances.sha256 {a b : AttachmentState} (h : a.Advances b) : b.sha256 = a.sha256 :=
  h.declared _ fun _ => rfl

theorem Advances.partSha256s {a b : AttachmentState} (h : a.Advances b) :
    b.partSha256s = a.partSha256s :=
  h.declared _ fun _ => rfl

theorem Advances.totalParts {a b : AttachmentState} (h : a.Advances b) :
    b.totalParts = a.totalParts := by
  rw [AttachmentState.totalParts, h.sizeBytes, AttachmentState.totalParts]

theorem bind_advances {a : AttachmentState} (h : a.attachmentId = none) (hok : a.Ok)
    (r : AttachmentResponse) : a.Advances (a.bind r) where
  declaration := rfl
  attachmentId id hid := by
    rw [h] at hid
    cases hid
  fileId id hid := by
    rw [hok.consistent.1.1.mp h] at hid
    cases hid
  uploadId id hid := by
    rw [hok.consistent.1.2.mp h] at hid
    cases hid
  completedParts _ hp := hp
  completed hc := hc

theorem mem_addPart {a : AttachmentState} {p q : CompletedPart} :
    q ∈ (a.addPart p).completedParts ↔ q ∈ a.completedParts ∨ q = p := by
  rw [addPart, List.mem_insertionSort, List.mem_append, List.mem_singleton]

theorem addPart_advances (a : AttachmentState) (p : CompletedPart) : a.Advances (a.addPart p) where
  declaration := rfl
  attachmentId _ hid := hid
  fileId _ hid := hid
  uploadId _ hid := hid
  completedParts _ hq := mem_addPart.mpr (.inl hq)
  completed hc := hc

theorem complete_advances (a : AttachmentState) : a.Advances a.complete where
  declaration := rfl
  attachmentId _ hid := hid
  fileId _ hid := hid
  uploadId _ hid := hid
  completedParts _ hq := hq
  completed _ := rfl

end AttachmentState

def Phase.rank : Phase → Nat
  | .create => 0
  | .upload => 1
  | .submit => 2
  | .evidence => 3

/-- An entry of the same operation that has got no less far. -/
structure OutboxEntry.Advances (e e' : OutboxEntry) : Prop where
  normalizedOrigin : e'.normalizedOrigin = e.normalizedOrigin
  idempotencyKey : e'.idempotencyKey = e.idempotencyKey
  manifestPath : e'.manifestPath = e.manifestPath
  manifestFingerprint : e'.manifestFingerprint = e.manifestFingerprint
  jobId : ∀ id ∈ e.jobId, e'.jobId = some id
  phase : e.phase.rank ≤ e'.phase.rank
  attachments : List.Forall₂ AttachmentState.Advances e.attachments e'.attachments
  evidence : ∀ v ∈ e.evidence, e'.evidence = some v

namespace OutboxEntry

theorem forall₂_advances_refl (as : List AttachmentState) :
    List.Forall₂ AttachmentState.Advances as as :=
  List.forall₂_same.mpr fun a _ => AttachmentState.Advances.refl a

theorem forall₂_advances_trans {as bs cs : List AttachmentState}
    (h : List.Forall₂ AttachmentState.Advances as bs)
    (h' : List.Forall₂ AttachmentState.Advances bs cs) :
    List.Forall₂ AttachmentState.Advances as cs := by
  induction h generalizing cs with
  | nil => exact h'
  | cons hab _ ih =>
      cases h' with
      | cons hbc hrest => exact .cons (hab.trans hbc) (ih hrest)

theorem Advances.refl (e : OutboxEntry) : e.Advances e :=
  ⟨rfl, rfl, rfl, rfl, fun _ h => h, le_rfl, forall₂_advances_refl _, fun _ h => h⟩

theorem Advances.trans {e e' e'' : OutboxEntry} (h : e.Advances e') (h' : e'.Advances e'') :
    e.Advances e'' where
  normalizedOrigin := h'.normalizedOrigin.trans h.normalizedOrigin
  idempotencyKey := h'.idempotencyKey.trans h.idempotencyKey
  manifestPath := h'.manifestPath.trans h.manifestPath
  manifestFingerprint := h'.manifestFingerprint.trans h.manifestFingerprint
  jobId id hid := h'.jobId id (h.jobId id hid)
  phase := h.phase.trans h'.phase
  attachments := forall₂_advances_trans h.attachments h'.attachments
  evidence v hv := h'.evidence v (h.evidence v hv)

theorem stamp_advances (e : OutboxEntry) (now : Moment) : e.Advances (e.stamp now) :=
  ⟨rfl, rfl, rfl, rfl, fun _ h => h, le_rfl, forall₂_advances_refl _, fun _ h => h⟩

theorem Ok.stamp {e : OutboxEntry} (h : e.Ok) (now : Moment) : (e.stamp now).Ok :=
  { origin := h.origin
    key := h.key
    path := h.path
    fingerprint := h.fingerprint
    attachments := h.attachments
    evidence := h.evidence
    dated := now.property
    consistent := h.consistent }

theorem Ok.stripped {e : OutboxEntry} (h : e.Ok) : e.strip = e :=
  strip_eq_self.mpr fun a ha p hp => ((h.attachments.2 a ha).completed p hp).stripped

/-- An attachment of the earlier entry is found again. -/
theorem Advances.attachment {e e' : OutboxEntry} (h : e.Advances e') {a : AttachmentState}
    (ha : a ∈ e.attachments) : ∃ b ∈ e'.attachments, a.Advances b :=
  exists_of_forall₂_left h.attachments ha

end OutboxEntry

/-! ### Attachments that the validators accept -/

namespace AttachmentState

/-- Numbers of completed parts are at least one. -/
theorem Ok.one_le {a : AttachmentState} (h : a.Ok) {n : Nat} (hn : n ∈ a.partNumbers) : 1 ≤ n := by
  obtain ⟨p, hp, rfl⟩ := List.mem_map.mp hn
  exact (h.completed p hp).number.1

theorem Ok.bind {a : AttachmentState} (h : a.Ok) (r : AttachmentResponse) : (a.bind r).Ok :=
  { path := h.path
    filename := h.filename
    size := h.size
    sha256 := h.sha256
    parts := h.parts
    contentType := h.contentType
    completed := h.completed
    consistent := ⟨⟨iff_of_false (Option.some_ne_none r.id) (Option.some_ne_none r.fileId),
      iff_of_false (Option.some_ne_none r.id) (Option.some_ne_none r.uploadId)⟩,
      h.consistent.2⟩ }

/-- The numbers of the parts when all of them are there. -/
theorem Ok.partNumbers_eq {a : AttachmentState} (h : a.Ok)
    (hall : ∀ n ∈ List.range' 1 a.totalParts, n ∈ a.partNumbers) :
    a.partNumbers = List.range' 1 a.totalParts := by
  obtain ⟨-, hnodup, hsorted, hle, -⟩ := h.consistent
  have hrange : (List.range' 1 a.totalParts).Pairwise fun m n => m ≤ n :=
    List.Pairwise.imp Nat.le_of_lt List.pairwise_lt_range'
  refine List.Perm.eq_of_pairwise (fun a b _ _ => Nat.le_antisymm) hsorted hrange ?_
  refine (List.perm_ext_iff_of_nodup hnodup List.nodup_range').mpr fun n => ⟨fun hn => ?_, hall n⟩
  rw [List.mem_range'_1]
  exact ⟨h.one_le hn, Nat.lt_one_add_iff.mpr (hle n hn)⟩

/-- A completed attachment lacks no part. -/
theorem Ok.mem_of_completed {a : AttachmentState} (h : a.Ok) (hcompleted : a.completed = true)
    {n : Nat} (hn : 1 ≤ n ∧ n ≤ a.totalParts) : n ∈ a.partNumbers := by
  obtain ⟨-, hnodup, -, hle, -, hlength⟩ := h.consistent
  have hsubset : a.partNumbers ⊆ List.range' 1 a.totalParts := by
    intro m hm
    rw [List.mem_range'_1]
    exact ⟨h.one_le hm, Nat.lt_one_add_iff.mpr (hle m hm)⟩
  have hperm := (List.subperm_of_subset hnodup hsubset).perm_of_length_le (by
    rw [List.length_range', hlength hcompleted])
  rw [hperm.mem_iff, List.mem_range'_1]
  exact ⟨hn.1, Nat.lt_one_add_iff.mpr hn.2⟩

theorem Ok.addPart {a : AttachmentState} (h : a.Ok) {p : CompletedPart} (hp : p.Ok)
    (hnew : p.partNumber ∉ a.partNumbers) (hle : p.partNumber ≤ a.totalParts) :
    (a.addPart p).Ok := by
  have hperm := List.perm_insertionSort partLe (a.completedParts ++ [p])
  have hnumbers : (a.addPart p).partNumbers.Perm (a.partNumbers ++ [p.partNumber]) := by
    have hmap := hperm.map (·.partNumber)
    rwa [List.map_append] at hmap
  obtain ⟨hids, hnodup, -, hbound, hparts, -⟩ := h.consistent
  refine {
    path := h.path
    filename := h.filename
    size := h.size
    sha256 := h.sha256
    parts := h.parts
    contentType := h.contentType
    completed := fun q hq => ?_
    consistent := ⟨hids, ?_, ?_, fun n hn => ?_, hparts, fun hcompleted => ?_⟩ }
  · rcases mem_addPart.mp hq with hq | rfl
    · exact h.completed q hq
    · exact hp
  · refine hnumbers.nodup_iff.mpr (List.nodup_append.mpr ⟨hnodup, List.nodup_singleton _, ?_⟩)
    rintro n hn m hm rfl
    exact hnew (List.mem_singleton.mp hm ▸ hn)
  · exact List.pairwise_map.mpr (List.pairwise_insertionSort partLe _)
  · rcases List.mem_append.mp (hnumbers.mem_iff.mp hn) with hn | hn
    · exact hbound n hn
    · rw [List.mem_singleton.mp hn]
      exact hle
  · exact absurd (h.mem_of_completed hcompleted ⟨hp.number.1, hle⟩) hnew

theorem Ok.complete {a : AttachmentState} (h : a.Ok)
    (hall : ∀ n ∈ List.range' 1 a.totalParts, n ∈ a.partNumbers) : a.complete.Ok :=
  { path := h.path
    filename := h.filename
    size := h.size
    sha256 := h.sha256
    parts := h.parts
    contentType := h.contentType
    completed := h.completed
    consistent := ⟨h.consistent.1, h.consistent.2.1, h.consistent.2.2.1, h.consistent.2.2.2.1,
      h.consistent.2.2.2.2.1, fun _ => by
        have hlength := congrArg List.length (h.partNumbers_eq hall)
        rwa [List.length_range'] at hlength⟩ }

end AttachmentState

/-! ### Entries that the validators accept -/

theorem bindAttachments_eq_ok {P : Platform} {r : JobResponse P} {as bs : List AttachmentState}
    {ps : List PreparedAttachment} (h : bindAttachments r as ps = .ok bs) :
    List.Forall₂ (fun a b => ∃ received, b = AttachmentState.bind a received) as bs := by
  induction as generalizing ps bs with
  | nil =>
      cases ps with
      | nil =>
          cases h
          exact .nil
      | cons p ps => cases h
  | cons a as ih =>
      cases ps with
      | nil => cases h
      | cons p ps =>
          rw [bindAttachments] at h
          split at h
          · cases h
          · rename_i received _
            obtain ⟨rest, hrest, h⟩ := bind_eq_ok.mp h
            cases h
            exact .cons ⟨received, rfl⟩ (ih hrest)

/-- Related lists, with the items known to be in them. -/
theorem forall₂_and_mem {α β : Type} {R : α → β → Prop} {l : List α} {l' : List β}
    (h : List.Forall₂ R l l') : List.Forall₂ (fun a b => R a b ∧ a ∈ l ∧ b ∈ l') l l' := by
  induction h with
  | nil => exact .nil
  | cons hab _ ih =>
      refine .cons ⟨hab, List.mem_cons_self, List.mem_cons_self⟩ (ih.imp fun c d hcd => ?_)
      exact ⟨hcd.1, List.mem_cons_of_mem _ hcd.2.1, List.mem_cons_of_mem _ hcd.2.2⟩

namespace OutboxEntry

/-- What no step of an operation changes. -/
def header (e : OutboxEntry) : Text × Text × Text × Text × Instant :=
  (e.normalizedOrigin, e.idempotencyKey, e.manifestPath, e.manifestFingerprint, e.updatedAt)

/-- An evidence of the entry's own job in the last phase, and none before. -/
def Evident (e : OutboxEntry) : Prop :=
  (e.phase ≠ .evidence ∧ e.evidence = none) ∨
    ∃ v : EvidenceState, v.Ok ∧ e.phase = .evidence ∧ e.evidence = some v ∧ e.jobId = some v.jobId

/-- A changed entry behind its creation is accepted when its attachments are, and its phase
suits them. -/
theorem Ok.remote {e e' : OutboxEntry} (h : e.Ok) (hheader : e'.header = e.header)
    (hkinds : e'.attachments.map (·.kind) = e.attachments.map (·.kind))
    (hphase : e'.phase ≠ .create) (hjob : e'.jobId ≠ none)
    (hattachments : ∀ b ∈ e'.attachments, b.Ok ∧ b.attachmentId ≠ none)
    (hcompleted : e'.phase ≠ .upload → ∀ b ∈ e'.attachments, b.completed = true)
    (hevident : e'.Evident) : e'.Ok := by
  simp only [header, Prod.mk.injEq] at hheader
  obtain ⟨horigin, hkey, hpath, hfingerprint, hupdated⟩ := hheader
  have hlength : e'.attachments.length = e.attachments.length := by
    have hcount := congrArg List.length hkinds
    rwa [List.length_map, List.length_map] at hcount
  refine {
    origin := horigin ▸ h.origin
    key := hkey ▸ h.key
    path := hpath ▸ h.path
    fingerprint := hfingerprint ▸ h.fingerprint
    attachments := ⟨hlength ▸ h.attachments.1, fun b hb => (hattachments b hb).1⟩
    evidence := fun v hv => ?_
    dated := hupdated ▸ h.dated
    consistent := ⟨hkinds ▸ h.consistent.1, fun hcreate => absurd hcreate hphase,
      fun _ => ⟨hjob, fun b hb => (hattachments b hb).2⟩, fun hlater => hcompleted fun hup => ?_,
      fun hlast => ?_, fun hlast => ?_⟩ }
  · rcases hevident with ⟨-, hnone⟩ | ⟨u, hu, -, hsome, -⟩
    · rw [hnone] at hv
      cases hv
    · rw [hsome] at hv
      cases hv
      exact hu
  · rw [hup] at hlater
    rcases hlater with hlater | hlater <;> cases hlater
  · rcases hevident with ⟨hne, -⟩ | ⟨u, -, -, hsome, hown⟩
    · exact absurd hlast hne
    · exact ⟨u, hsome, hown⟩
  · rcases hevident with ⟨-, hnone⟩ | ⟨u, -, hphase', -⟩
    · exact hnone
    · exact absurd hphase' hlast

theorem Ok.evidence_eq_none {e : OutboxEntry} (h : e.Ok) (hphase : e.phase ≠ .evidence) :
    e.evidence = none :=
  h.consistent.2.2.2.2.2 hphase

theorem Ok.bound {e : OutboxEntry} (h : e.Ok) (hphase : e.phase ≠ .create) :
    e.jobId ≠ none ∧ ∀ a ∈ e.attachments, a.attachmentId ≠ none :=
  h.consistent.2.2.1 hphase

/-- The entry of a created job. -/
theorem Ok.created {P : Platform} {e e' : OutboxEntry} {m : PreparedManifest P} {r : JobResponse P}
    (h : e.Ok) (hphase : e.phase = .create) (hbind : bindCreatedJob e m r = .ok e') :
    e'.Ok ∧ e.Advances e' ∧ e'.phase = .upload ∧
      List.Forall₂ (fun a b => ∃ received, b = AttachmentState.bind a received) e.attachments
        e'.attachments := by
  unfold bindCreatedJob at hbind
  split at hbind
  · cases hbind
  obtain ⟨as, has, hbind⟩ := bind_eq_ok.mp hbind
  cases hbind
  have hall := bindAttachments_eq_ok has
  have hcreate := h.consistent.2.1 hphase
  have hbound : ∀ b ∈ as, ∃ a ∈ e.attachments, ∃ received, b = AttachmentState.bind a received :=
    fun b hb => exists_of_forall₂_left hall.flip hb
  have hne : e.phase ≠ .evidence := by
    rw [hphase]
    decide
  refine ⟨h.remote rfl ?_ (by rintro ⟨⟩) (Option.some_ne_none r.id) (fun b hb => ?_)
    (fun hup => absurd rfl hup) (.inl ⟨by rintro ⟨⟩, h.evidence_eq_none hne⟩), ?_, rfl, hall⟩
  · refine map_eq_of_forall₂ hall fun a b hab => ?_
    obtain ⟨received, rfl⟩ := hab
    rfl
  · obtain ⟨a, ha, received, rfl⟩ := hbound b hb
    exact ⟨(h.attachments.2 a ha).bind received, Option.some_ne_none received.id⟩
  · refine {
      normalizedOrigin := rfl
      idempotencyKey := rfl
      manifestPath := rfl
      manifestFingerprint := rfl
      jobId := fun id hid => ?_
      phase := ?_
      attachments := ?_
      evidence := fun v hv => hv }
    · rw [hcreate.1] at hid
      cases hid
    · rw [hphase]
      exact Nat.zero_le _
    · refine (forall₂_and_mem hall).imp fun a b hab => ?_
      obtain ⟨⟨received, rfl⟩, ha, -⟩ := hab
      exact AttachmentState.bind_advances (hcreate.2 a ha).1 (h.attachments.2 a ha) received

theorem getElem?_modify {e : OutboxEntry} {i : Nat} {f : AttachmentState → AttachmentState}
    {a : AttachmentState} (ha : e.attachments[i]? = some a) :
    (e.modify i f).attachments[i]? = some (f a) := by
  change (e.attachments.modify i f)[i]? = _
  rw [List.getElem?_modify, ha]
  simp

theorem mem_modify {e : OutboxEntry} {i : Nat} {f : AttachmentState → AttachmentState}
    {a b : AttachmentState} (ha : e.attachments[i]? = some a)
    (hb : b ∈ (e.modify i f).attachments) : b ∈ e.attachments ∨ b = f a := by
  obtain ⟨j, hj⟩ := List.mem_iff_getElem?.mp hb
  by_cases hij : i = j
  · subst hij
    exact .inr (Option.some.inj (hj.symm.trans (getElem?_modify ha)))
  · refine .inl (List.mem_iff_getElem?.mpr ⟨j, ?_⟩)
    change (e.attachments.modify i f)[j]? = _ at hj
    simp only [List.getElem?_modify, if_neg hij] at hj
    rwa [id_map'] at hj

theorem modify_advances {e : OutboxEntry} {i : Nat} {f : AttachmentState → AttachmentState}
    {a : AttachmentState} (ha : e.attachments[i]? = some a) (hf : a.Advances (f a)) :
    e.Advances (e.modify i f) where
  normalizedOrigin := rfl
  idempotencyKey := rfl
  manifestPath := rfl
  manifestFingerprint := rfl
  jobId _ hid := hid
  phase := le_rfl
  attachments := by
    change List.Forall₂ _ e.attachments (e.attachments.modify i f)
    rw [List.forall₂_iff_get]
    refine ⟨(List.length_modify ..).symm, fun j hj hj' => ?_⟩
    rw [List.get_eq_getElem, List.get_eq_getElem, List.getElem_modify]
    split
    · rename_i hij
      subst hij
      obtain rfl := Option.some.inj ((List.getElem?_eq_getElem hj).symm.trans ha)
      exact hf
    · exact AttachmentState.Advances.refl _
  evidence _ hv := hv

/-- An entry is accepted again when one of its attachments advances. -/
theorem Ok.modified {e : OutboxEntry} (h : e.Ok) (hphase : e.phase = .upload) {i : Nat}
    {f : AttachmentState → AttachmentState} {a : AttachmentState} (ha : e.attachments[i]? = some a)
    (hf : a.Advances (f a)) (hok : (f a).Ok) : (e.modify i f).Ok := by
  have hcreate : e.phase ≠ .create := by
    rw [hphase]
    decide
  have hevidence : e.phase ≠ .evidence := by
    rw [hphase]
    decide
  obtain ⟨hjob, hids⟩ := h.bound hcreate
  refine h.remote rfl
    (map_eq_of_forall₂ (modify_advances ha hf).attachments fun a b hab => hab.kind) hcreate hjob (fun b hb => ?_) (fun hne => absurd hphase hne)
    (.inl ⟨hevidence, h.evidence_eq_none hevidence⟩)
  rcases mem_modify ha hb with hb | rfl
  · exact ⟨h.attachments.2 b hb, hids b hb⟩
  · obtain ⟨id, hid⟩ := Option.ne_none_iff_exists'.mp (hids a (List.mem_of_getElem? ha))
    refine ⟨hok, ?_⟩
    rw [hf.attachmentId id hid]
    exact Option.some_ne_none id

/-- The entry of an operation whose attachments are all complete. -/
theorem Ok.submitted {e : OutboxEntry} (h : e.Ok) (hphase : e.phase = .upload)
    (hall : ∀ a ∈ e.attachments, a.completed = true) :
    ({ e with phase := .submit } : OutboxEntry).Ok := by
  have hcreate : e.phase ≠ .create := by
    rw [hphase]
    decide
  have hevidence : e.phase ≠ .evidence := by
    rw [hphase]
    decide
  obtain ⟨hjob, hids⟩ := h.bound hcreate
  exact h.remote rfl rfl (by rintro ⟨⟩) hjob (fun a ha => ⟨h.attachments.2 a ha, hids a ha⟩)
    (fun _ => hall) (.inl ⟨by rintro ⟨⟩, h.evidence_eq_none hevidence⟩)

/-- The entry of an operation whose submission was answered. -/
theorem Ok.answered {e : OutboxEntry} (h : e.Ok) (hphase : e.phase = .submit) {v : EvidenceState}
    (hv : v.Ok) (hjob : e.jobId = some v.jobId) :
    ({ e with phase := .evidence, evidence := some v } : OutboxEntry).Ok := by
  have hcreate : e.phase ≠ .create := by
    rw [hphase]
    decide
  obtain ⟨hne, hids⟩ := h.bound hcreate
  exact h.remote rfl rfl (by rintro ⟨⟩) hne (fun a ha => ⟨h.attachments.2 a ha, hids a ha⟩)
    (fun _ => h.consistent.2.2.2.1 (.inl hphase)) (.inr ⟨v, hv, rfl, rfl, hjob⟩)

theorem submit_advances {e : OutboxEntry} (hphase : e.phase = .upload) :
    e.Advances { e with phase := .submit } where
  normalizedOrigin := rfl
  idempotencyKey := rfl
  manifestPath := rfl
  manifestFingerprint := rfl
  jobId _ hid := hid
  phase := by
    rw [hphase, Phase.rank, Phase.rank]
    exact Nat.le_succ 1
  attachments := forall₂_advances_refl _
  evidence _ hv := hv

theorem evidence_advances {e : OutboxEntry} (h : e.Ok) (hphase : e.phase = .submit)
    (v : EvidenceState) : e.Advances { e with phase := .evidence, evidence := some v } where
  normalizedOrigin := rfl
  idempotencyKey := rfl
  manifestPath := rfl
  manifestFingerprint := rfl
  jobId _ hid := hid
  phase := by
    rw [hphase, Phase.rank, Phase.rank]
    exact Nat.le_succ 2
  attachments := forall₂_advances_refl _
  evidence u hu := by
    have hnone : e.evidence = none := by
      refine h.evidence_eq_none ?_
      rw [hphase]
      decide
    rw [hnone] at hu
    cases hu

end OutboxEntry

end SuperBoss.Connector
