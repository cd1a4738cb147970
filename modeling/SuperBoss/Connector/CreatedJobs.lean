import SuperBoss.Connector.Agreement
import SuperBoss.Server.CreateIdempotency

/-!
Creating a job from both sides. The server reads attachments in the alphabetical
order of their kinds, the connector expects them in rank order, and the two agree
on one attachment only.
-/

namespace SuperBoss.Imports

open SuperBoss.Core

namespace AttachmentKind

/-- The place of a kind in the alphabetical order of the column. -/
def columnRank : AttachmentKind → Nat
  | .k3Raw => 0
  | .original => 1
  | .revised => 2

theorem columnLe_iff {a b : AttachmentKind} : a.columnLe b ↔ a.columnRank ≤ b.columnRank := by
  cases a <;> cases b <;> decide

theorem columnRank_inj {a b : AttachmentKind} (h : a.columnRank = b.columnRank) : a = b := by
  revert h
  cases a <;> cases b <;> decide

/-- The alphabetical and the rank order of a manifest's kinds differ unless
there is one kind only: `K3_RAW` comes first in the one and last in the other. -/
theorem columnOrder_eq_iff {l k : List AttachmentKind} (hperm : l.Perm k)
    (hcolumn : l.Pairwise columnLe) (hrank : k.Pairwise fun a b => a.rank ≤ b.rank)
    (hnodup : k.Nodup) (hraw : .k3Raw ∈ k) : l = k ↔ k.length = 1 := by
  constructor
  · rintro rfl
    match l with
    | [] => cases hraw
    | [_] => rfl
    | a :: b :: rest =>
        exfalso
        have hfirst : a = .k3Raw := by
          rcases List.mem_cons.mp hraw with h | h
          · exact h.symm
          · have hle := columnLe_iff.mp ((List.pairwise_cons.mp hcolumn).1 _ h)
            exact columnRank_inj (Nat.le_zero.mp hle)
        have hle := (List.pairwise_cons.mp hrank).1 b List.mem_cons_self
        have hne : a ≠ b := fun h => (List.nodup_cons.mp hnodup).1 (h ▸ List.mem_cons_self)
        subst hfirst
        revert hle hne
        cases b <;> decide
  · intro hlength
    obtain ⟨a, rfl⟩ := List.length_eq_one_iff.mp hlength
    exact List.perm_singleton.mp hperm

end AttachmentKind

namespace ImportAttachment

instance : IsTrans _ columnLe := ⟨fun a b c hab hbc => by
  unfold columnLe at *
  simp only [AttachmentKind.columnLe_iff] at *
  split at hab
  · rename_i hkab
    split at hbc
    · rename_i hkbc
      rw [if_pos (hkab.trans hkbc)]
      exact BitVec.le_trans hab hbc
    · rename_i hkbc
      rw [hkab, if_neg hkbc]
      exact hbc
  · rename_i hkab
    split at hbc
    · rename_i hkbc
      rw [← hkbc, if_neg hkab]
      exact hab
    · rw [if_neg]
      · exact le_trans hab hbc
      · intro hkac
        rw [← hkac] at hbc
        exact hkab (AttachmentKind.columnRank_inj (Nat.le_antisymm hab hbc))⟩

instance : Std.Total columnLe := ⟨fun a b => by
  unfold columnLe
  simp only [AttachmentKind.columnLe_iff]
  by_cases h : a.kind = b.kind
  · rw [if_pos h, if_pos h.symm]
    exact BitVec.le_total a.id b.id
  · rw [if_neg h, if_neg (Ne.symm h)]
    exact le_total a.kind.columnRank b.kind.columnRank⟩

end ImportAttachment

end SuperBoss.Imports

namespace SuperBoss.Connector

open SuperBoss.Core
open SuperBoss.Library
open SuperBoss.Library.Transition
open SuperBoss.Files
open SuperBoss.Imports
open SuperBoss.Server
open SuperBoss.Infrastructure.Clamav

variable {P : Platform}

/-! ### The rows of a job -/

theorem attachmentsOf_kinds (s : Store) (id : UUID) :
    ((s.attachmentsOf id).map (·.kind)).Pairwise AttachmentKind.columnLe := by
  rw [List.pairwise_map]
  refine (List.pairwise_insertionSort ImportAttachment.columnLe _).imp fun {a b} hab => ?_
  unfold ImportAttachment.columnLe at hab
  split at hab
  · rename_i hkind
    rw [hkind]
    exact AttachmentKind.columnLe_iff.mpr le_rfl
  · exact hab

/-- The ids of a job's attachments, their files and their uploads are pairwise different. -/
theorem attachmentsOf_nodup (s : Store) (id : UUID) :
    ((s.attachmentsOf id).map (·.id)).Nodup ∧ ((s.attachmentsOf id).map (·.fileId)).Nodup ∧
      ((s.attachmentsOf id).map (·.uploadId)).Nodup := by
  have hperm := List.perm_insertionSort ImportAttachment.columnLe
    (s.attachments.rows.filter fun a => decide (a.jobId = id))
  have hdistinct := s.attachments.unique.filter fun a => decide (a.jobId = id)
  refine ⟨?_, ?_, ?_⟩
  · exact (hperm.map _).nodup_iff.mpr
      (s.attachments.nodup.sublist (List.filter_sublist.map ImportAttachment.id))
  · exact (hperm.map _).nodup_iff.mpr (List.pairwise_map.mpr (hdistinct.imp fun h => h.2.1))
  · exact (hperm.map _).nodup_iff.mpr (List.pairwise_map.mpr (hdistinct.imp fun h => h.2.2))

/-! ### Binding -/

/-- Every prepared attachment has the ids of the viewed attachment of its kind. -/
def Bound (v : ImportJobView P) (p : PreparedManifest P) (e : OutboxEntry) : Prop :=
  List.Forall₂ (fun (stored : AttachmentState) (prepared : PreparedAttachment) =>
    ∃ a ∈ v.attachments, a.kind = prepared.kind ∧ stored.attachmentId = some a.id ∧
      stored.fileId = some a.fileId ∧ stored.uploadId = some a.uploadId) e.attachments p.attachments

theorem byKind_eq_some {r : JobResponse P} {k : AttachmentKind}
    (h : k ∈ r.attachments.map (·.kind)) :
    ∃ a, byKind r k = some a ∧ a ∈ r.attachments ∧ a.kind = k := by
  cases hfind : byKind r k with
  | none =>
      obtain ⟨a, ha, hkind⟩ := List.mem_map.mp h
      have hno := List.find?_eq_none.mp hfind a (List.mem_reverse.mpr ha)
      simp [hkind] at hno
  | some a =>
      have hkind := List.find?_some (p := fun a : AttachmentResponse => decide (a.kind = k)) hfind
      exact ⟨a, rfl, List.mem_reverse.mp (List.mem_of_find?_eq_some hfind),
        of_decide_eq_true hkind⟩

theorem bindAttachments_view {v : ImportJobView P} {as : List AttachmentState}
    {ps : List PreparedAttachment} (hlength : as.length = ps.length)
    (hkinds : ∀ p ∈ ps, p.kind ∈ v.attachments.map (·.kind)) :
    ∃ es, bindAttachments (JobResponse.ofView v) as ps = .ok es ∧
      List.Forall₂ (fun (stored : AttachmentState) (prepared : PreparedAttachment) =>
        ∃ a ∈ v.attachments, a.kind = prepared.kind ∧ stored.attachmentId = some a.id ∧
          stored.fileId = some a.fileId ∧ stored.uploadId = some a.uploadId) es ps := by
  induction as generalizing ps with
  | nil =>
      obtain rfl := List.length_eq_zero_iff.mp hlength.symm
      exact ⟨[], rfl, .nil⟩
  | cons stored as ih =>
      obtain ⟨p, ps, rfl⟩ := List.exists_cons_of_length_eq_add_one hlength.symm
      obtain ⟨es, hes, hbound⟩ := ih (Nat.succ.inj hlength)
        fun q hq => hkinds q (List.mem_cons_of_mem p hq)
      have hmem : p.kind ∈ (JobResponse.ofView v).attachments.map (·.kind) := by
        have hmap : (JobResponse.ofView v).attachments.map (·.kind) =
            v.attachments.map (·.kind) := by
          simp only [JobResponse.ofView, List.map_map]
          rfl
        rw [hmap]
        exact hkinds p List.mem_cons_self
      obtain ⟨received, hfind, hreceived, hkind⟩ := byKind_eq_some hmem
      obtain ⟨a, ha, rfl⟩ := List.mem_map.mp hreceived
      refine ⟨stored.bind (.ofView a) :: es, ?_, .cons ⟨a, ha, hkind, rfl, rfl, rfl⟩ hbound⟩
      simp only [bindAttachments, hfind, hes]
      rfl

variable {cfg : ScannerConfig} {projects : List UUID} {s : SystemState P}

/-- `create_job` accepts the view of a new job exactly when it lists the kinds
as the payload does and no file has moved on. -/
theorem createJob_view {server : ServerManifest P} {m : ImportJobCreate P}
    (hserver : Describes m server) {j : ImportJob} {v : ImportJobView P}
    (hview : ViewOfJob s.store j m v) (hok : JobOk s.store j) (hnew : j.status = .uploading)
    (hdated : Dated v) :
    createJob server v.dump =
      if v.attachments.map (·.kind) = m.kinds ∧ ∀ a ∈ v.attachments, a.fileState = .uploading then
        .ok (.ofView v)
      else .error (.connector serverRejected) := by
  have hsubmitted : v.submittedAt = none := by
    rw [hview.submittedAt]
    rcases hok.submission with ⟨-, hnone⟩ | ⟨hne, -⟩
    · exact hnone
    · exact absurd hnew hne
  have hcode : v.resultCode = none := by
    rw [hview.resultCode]
    rcases hok.result with ⟨-, hnone⟩ | ⟨hclosed, -⟩
    · exact hnone
    · rw [hnew] at hclosed
      exact absurd hclosed (by decide)
  obtain ⟨hids, hfiles, huploads⟩ := attachmentsOf_nodup s.store j.id
  have hrows := hview.attachments
  rw [← map_eq_of_forall₂ (g := (·.id)) hrows fun a v hav => hav.id] at hids
  rw [← map_eq_of_forall₂ (g := (·.fileId)) hrows fun a v hav => hav.fileId] at hfiles
  rw [← map_eq_of_forall₂ (g := (·.uploadId)) hrows fun a v hav => hav.uploadId] at huploads
  have hmap : ∀ {β : Type} (f : AttachmentResponse → β) (g : ImportAttachmentView → β),
      (∀ a, f (.ofView a) = g a) →
        (JobResponse.ofView v).attachments.map f = v.attachments.map g := by
    intro β f g hfg
    simp only [JobResponse.ofView, List.map_map]
    exact List.map_congr_left fun a _ => hfg a
  have hkindsNodup : (v.attachments.map (·.kind)).Nodup :=
    hview.shows.kinds.nodup_iff.mpr m.kindsNodup
  have hrequested : createdAsRequested server (.ofView v) ↔
      v.attachments.map (·.kind) = m.kinds ∧ ∀ a ∈ v.attachments, a.fileState = .uploading := by
    unfold createdAsRequested
    rw [hmap (·.kind) (·.kind) fun _ => rfl, hmap (·.id) (·.id) fun _ => rfl,
      hmap (·.fileId) (·.fileId) fun _ => rfl, hmap (·.uploadId) (·.uploadId) fun _ => rfl,
      ← hserver.kinds]
    constructor
    · rintro ⟨-, ⟨hkinds, -⟩, -, -, -, hstates, -⟩
      exact ⟨hkinds, fun a ha => hstates (.ofView a) (List.mem_map_of_mem ha)⟩
    · rintro ⟨hkinds, hstates⟩
      refine ⟨hview.shows.echo hserver, ⟨hkinds, hkindsNodup⟩, hview.status.trans hnew, hsubmitted,
        by rw [JobResponse.ofView, hcode]; rfl, fun a ha => ?_, hids, hfiles, huploads⟩
      obtain ⟨a', ha', rfl⟩ := List.mem_map.mp ha
      exact hstates a' ha'
  unfold createJob
  rw [JobResponse.validate_view hview.shows hdated]
  by_cases h : createdAsRequested server (.ofView v)
  · rw [if_pos (hrequested.mp h)]
    exact if_pos h
  · rw [if_neg fun h' => h (hrequested.mpr h')]
    exact if_neg h

/-- The connector accepts a newly created job, and binds every attachment to the
ids of its kind, exactly when there is one attachment and its file is still
`UPLOADING`. -/
theorem created_job_bound (h : Reachable (next P cfg) (initialState P projects) s)
    {fs : FileSystem} {path : Text} {p : PreparedManifest P}
    (hp : prepareManifest P fs path = .ok p) {id : UUID} {j : ImportJob}
    (hj : s.store.jobs.get? id = some j)
    (hmanifest : j.canonicalManifestJson = p.server.serverPayload)
    (hnew : j.status = .uploading) {v : ImportJobView P} (hv : viewJob P s.store id = .ok v)
    (hdated : Dated v) {entry : OutboxEntry}
    (hentry : entry.attachments.length = p.attachments.length) :
    (∃ r e, createJob p.server v.dump = .ok r ∧ bindCreatedJob entry p r = .ok e ∧ Bound v p e) ↔
      p.attachments.length = 1 ∧ ∀ a ∈ v.attachments, a.fileState = .uploading := by
  obtain ⟨⟨m, hm⟩, hpkinds, -⟩ := prepared_of_prepareManifest hp
  have hview := viewOfJob_of_reachable h hj (hmanifest.trans hm.dump.symm) hv
  have hok := (consistent_of_reachable h).wellFormed.jobs hj
  have hcreate := createJob_view hm hview hok hnew hdated
  have hmkinds : m.kinds = p.attachments.map (·.kind) := hm.kinds.trans hpkinds
  have hlength : m.kinds.length = p.attachments.length := by rw [hmkinds, List.length_map]
  have horder : v.attachments.map (·.kind) = m.kinds ↔ p.attachments.length = 1 := by
    rw [← hlength]
    refine AttachmentKind.columnOrder_eq_iff hview.shows.kinds ?_ ?_ m.kindsNodup m.k3Raw
    · rw [map_eq_of_forall₂ (f := (·.kind)) hview.attachments fun a v hav => hav.kind]
      exact attachmentsOf_kinds s.store j.id
    · exact List.pairwise_map.mpr m.ranked
  constructor
  · rintro ⟨r, e, hr, -, -⟩
    rw [hcreate] at hr
    split at hr
    · rename_i hrequested
      exact ⟨horder.mp hrequested.1, hrequested.2⟩
    · cases hr
  · rintro ⟨hone, hstates⟩
    rw [if_pos ⟨horder.mpr hone, hstates⟩] at hcreate
    obtain ⟨es, hes, hbound⟩ := bindAttachments_view (v := v) hentry fun a ha => by
      rw [horder.mpr hone, hmkinds]
      exact List.mem_map_of_mem ha
    refine ⟨_, { entry with jobId := some v.id, attachments := es, phase := .upload }, hcreate, ?_,
      hbound⟩
    have hdedup : ((JobResponse.ofView v).attachments.map (·.kind)).dedup.length =
        entry.attachments.length := by
      have hmap : (JobResponse.ofView v).attachments.map (·.kind) = m.kinds := by
        rw [← horder.mpr hone]
        simp only [JobResponse.ofView, List.map_map]
        rfl
      rw [hmap, List.dedup_eq_self.mpr m.kindsNodup, hlength, hentry]
    unfold bindCreatedJob
    rw [if_neg (not_not.mpr hdedup), hes]
    rfl

/-! ### Sample exchanges -/

namespace Sample

open SuperBoss.Server.Sample

/-- A prepared manifest, the server after a run, and the job 20 with its view. -/
def exchange (P : Platform) (fs : FileSystem) (events : List (SystemEvent P)) :
    Option (PreparedManifest P × SystemState P × ImportJob × ImportJobView P) := do
  let p ← (prepareManifest P fs (Text.ofString "manifest")).toOption
  let s ← run (next P scanner) (initialState P [1]) events
  let j ← s.store.jobs.get? 20
  let v ← (viewJob P s.store 20).toOption
  some (p, s, j, v)

theorem exchange_eq_some {fs : FileSystem} {events : List (SystemEvent P)}
    {p : PreparedManifest P} {s : SystemState P} {j : ImportJob} {v : ImportJobView P}
    (h : exchange P fs events = some (p, s, j, v)) :
    prepareManifest P fs (Text.ofString "manifest") = .ok p ∧
      run (next P scanner) (initialState P [1]) events = some s ∧
      s.store.jobs.get? 20 = some j ∧ viewJob P s.store 20 = .ok v := by
  obtain ⟨p', hp, h⟩ := Option.bind_eq_some_iff.mp h
  obtain ⟨s', hs, h⟩ := Option.bind_eq_some_iff.mp h
  obtain ⟨j', hj, h⟩ := Option.bind_eq_some_iff.mp h
  obtain ⟨v', hv, h⟩ := Option.bind_eq_some_iff.mp h
  cases h
  exact ⟨ok_of_toOption hp, hs, hj, ok_of_toOption hv⟩

/-- A manifest with an original besides its `K3_RAW`. -/
def double : FileSystem :=
  directory [attachment .original "task", attachment .k3Raw "name"]

end Sample

/-- The job of the single manifest is bound. -/
theorem created_job_bound_single :
    ∃ p s j v, Sample.exchange Server.Sample.platform Sample.single Server.Sample.created =
        some (p, s, j, v) ∧
      ∃ r e, createJob p.server v.dump = .ok r ∧
        bindCreatedJob (initialEntry [] p 0) p r = .ok e ∧ Bound v p e := by
  have hrun : ((Sample.exchange Server.Sample.platform Sample.single
      Server.Sample.created).map fun x =>
      decide (x.2.2.1.canonicalManifestJson = x.1.server.serverPayload ∧
        x.2.2.1.status = .uploading ∧ x.2.2.2.submittedAt = none ∧ x.2.2.2.createdAt = 0 ∧
        x.2.2.2.updatedAt = 0 ∧ x.1.attachments.length = 1 ∧
        ∀ a ∈ x.2.2.2.attachments, a.fileState = .uploading)) = some true := by decide +kernel
  obtain ⟨⟨p, s, j, v⟩, hexchange, hchecks⟩ := Option.map_eq_some_iff.mp hrun
  obtain ⟨hmanifest, hnew, hsubmitted, hcreated, hupdated, hone, hstates⟩ :
      j.canonicalManifestJson = p.server.serverPayload ∧ j.status = .uploading ∧
        v.submittedAt = none ∧ v.createdAt = 0 ∧ v.updatedAt = 0 ∧ p.attachments.length = 1 ∧
        ∀ a ∈ v.attachments, a.fileState = .uploading := of_decide_eq_true hchecks
  obtain ⟨hp, hs, hj, hv⟩ := Sample.exchange_eq_some hexchange
  have hdatetime : IsDatetime 0 := ⟨by decide, by decide⟩
  have hdated : Dated v := by
    refine ⟨fun t ht => ?_, hcreated ▸ hdatetime, hupdated ▸ hdatetime⟩
    rw [hsubmitted] at ht
    cases ht
  refine ⟨p, s, j, v, hexchange, (created_job_bound ⟨_, hs⟩ hp hj hmanifest hnew hv hdated ?_).mpr
    ⟨hone, hstates⟩⟩
  rw [initialEntry, List.length_map]

/-- The server accepts a manifest with an original and turns it into a job whose
files are `UPLOADING`, and the connector rejects the response. -/
theorem double_manifest_rejected :
    ∃ p s j v, Sample.exchange Server.Sample.hashed Sample.double Server.Sample.pairCreated =
        some (p, s, j, v) ∧
      p.attachments.length = 2 ∧ j.canonicalManifestJson = p.server.serverPayload ∧
      j.status = .uploading ∧ (∀ a ∈ v.attachments, a.fileState = .uploading) ∧
      createJob p.server v.dump = .error (.connector serverRejected) := by
  have hrun : ((Sample.exchange Server.Sample.hashed Sample.double
      Server.Sample.pairCreated).map fun x =>
      decide (x.1.attachments.length = 2 ∧
        x.2.2.1.canonicalManifestJson = x.1.server.serverPayload ∧
        x.2.2.1.status = .uploading ∧ (∀ a ∈ x.2.2.2.attachments, a.fileState = .uploading) ∧
        createJob x.1.server x.2.2.2.dump = .error (.connector serverRejected))) = some true := by
    decide +kernel
  obtain ⟨⟨p, s, j, v⟩, hexchange, hchecks⟩ := Option.map_eq_some_iff.mp hrun
  exact ⟨p, s, j, v, hexchange, of_decide_eq_true hchecks⟩

end SuperBoss.Connector
