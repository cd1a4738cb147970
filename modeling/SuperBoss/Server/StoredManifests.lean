import SuperBoss.Server.JobLifecycle

/-!
Stored manifests read back: the JSON of every job row is the dump of a
validated manifest, and validating a dump gives the manifest back.
-/

namespace SuperBoss.Server

open SuperBoss.Core
open SuperBoss.Library
open SuperBoss.Library.Interleaving
open SuperBoss.Library.Transition
open SuperBoss.Files
open SuperBoss.Imports
open SuperBoss.Infrastructure.Clamav

/-! ### The owner's list -/

structure OwnerImportJobView where
  id : UUID
  projectId : UUID
  localTaskId : Text
  externalDocumentReference : Option Text
  modelLabel : Text
  status : ImportStatus
  resultCode : Option String
  submittedAt : Option Instant
  createdAt : Instant
  updatedAt : Instant
  attachments : List ImportAttachmentView
  deriving DecidableEq

def ownerRequired : DomainError := forbiddenError "OWNER_REQUIRED" "Owner access required"

def OwnerImportJobView.ofView {P : Platform} (v : ImportJobView P) : OwnerImportJobView :=
  ⟨v.id, v.projectId, v.localTaskId, v.externalDocumentReference, v.k3Result.modelLabel.val,
    v.status, v.resultCode, v.submittedAt, v.createdAt, v.updatedAt, v.attachments⟩

/-- `list_owner`: the newest jobs, `ORDER BY created_at DESC, id DESC`. -/
def listOwner (P : Platform) (s : Store) (actor : Actor) (limit : Int) :
    Except Failure (List OwnerImportJobView) :=
  if actor.kind ≠ .user ∨ actor.role ≠ some .owner then .error (.domain ownerRequired)
  else if ¬(1 ≤ limit ∧ limit ≤ 100) then .error (.value "import list limit must be in 1..100")
  else
    let jobs := (s.jobs.rows.insertionSort fun i j =>
      j.createdAt < i.createdAt ∨ (i.createdAt = j.createdAt ∧ j.id ≤ i.id)).take limit.toNat
    match jobs.mapM (jobView P s) with
    | none => .error .unexpected
    | some views => .ok (views.map .ofView)

/-! ### Manifests of job rows -/

section manifests

variable {P : Platform} {cfg : ScannerConfig} {s t : SystemState P} {e : SystemEvent P}

/-- The row holds the dump of a validated manifest. -/
def Manifested (P : Platform) (j : ImportJob) : Prop :=
  ∃ m : ImportJobCreate P, j.canonicalManifestJson = m.dump

theorem Happens.manifested (h : Happens cfg s e t)
    (hs : ∀ id j, s.store.jobs.get? id = some j → Manifested P j) (id : UUID) (j : ImportJob)
    (hj : t.store.jobs.get? id = some j) : Manifested P j := by
  rcases h.job_cases id with
    ⟨hsame, -⟩ | ⟨j', -, hj', -, -, hmanifest⟩ | ⟨j', u, hj', -, hnext, -⟩
  · exact hs id j (hsame.symm.trans hj)
  · obtain rfl := Option.some.inj (hj'.symm.trans hj)
    exact hmanifest
  · obtain rfl := Option.some.inj (hnext.symm.trans hj)
    exact hs id j' hj'

theorem manifested_of_reachable {projects : List UUID}
    (h : Reachable (next P cfg) (initialState P projects) s) (id : UUID) (j : ImportJob)
    (hj : s.store.jobs.get? id = some j) : Manifested P j := by
  revert id j
  refine h.induction (I := fun s => ∀ id j, s.store.jobs.get? id = some j → Manifested P j)
    (fun id j hj => ?_) fun s e t hs hok hstep =>
      ((consistent_of_reachable hs).happens hstep).manifested hok
  cases hj

/-! ### Views -/

theorem mapM_eq_some_of {α β : Type} {f : α → Option β} {l : List α}
    (h : ∀ a ∈ l, ∃ b, f a = some b) : ∃ bs, l.mapM f = some bs := by
  induction l with
  | nil => exact ⟨[], rfl⟩
  | cons a l ih =>
      obtain ⟨b, hb⟩ := h a List.mem_cons_self
      obtain ⟨bs, hbs⟩ := ih fun x hx => h x (List.mem_cons_of_mem a hx)
      exact ⟨b :: bs, by simp [List.mapM_cons, hb, hbs]⟩

theorem attachmentView_eq_some {st : Store} (hs : WellFormed st) {id : UUID}
    {a : ImportAttachment} (ha : a ∈ st.attachmentsOf id) : ∃ v, attachmentView st a = some v := by
  obtain ⟨f, hf, -⟩ := (hs.attached a (Store.mem_attachmentsOf.mp ha).1).file
  exact ⟨_, by rw [attachmentView, hf]; rfl⟩

/-- The view of a stored job never raises. -/
theorem jobView_eq_some {st : Store} (hs : WellFormed st) {j : ImportJob}
    {m : ImportJobCreate P} (hm : j.canonicalManifestJson = m.dump) :
    ∃ v, jobView P st j = some v ∧ v.k3Result = m.k3Result := by
  obtain ⟨views, hviews⟩ := mapM_eq_some_of (f := attachmentView st) (l := st.attachmentsOf j.id)
    fun a ha => attachmentView_eq_some hs ha
  have hview : jobView P st j = some ⟨j.id, j.projectId, j.localTaskId,
      j.externalDocumentReference, j.baseSha256, j.status, j.resultCode, m.k3Result,
      j.submittedAt, j.createdAt, j.updatedAt, views⟩ := by
    simp only [jobView, hviews, hm, ImportJobCreate.validate_dump, Except.toOption]
    rfl
  exact ⟨_, hview, rfl⟩

theorem viewJob_eq_ok {st : Store} (hs : WellFormed st) {id : UUID} {j : ImportJob}
    (hj : st.jobs.get? id = some j) {m : ImportJobCreate P}
    (hm : j.canonicalManifestJson = m.dump) :
    ∃ v, viewJob P st id = .ok v ∧ v.k3Result = m.k3Result := by
  obtain ⟨v, hv, hk3⟩ := jobView_eq_some hs hm
  exact ⟨v, by simp only [viewJob, hj, hv], hk3⟩

/-- The last statement of `read` does not raise of itself. -/
theorem ReadCall.step_view {st : Store} (hs : WellFormed st)
    (hmanifests : ∀ id j, st.jobs.get? id = some j → Manifested P j) {c : ReadCall} {a : Answer}
    {projectId : UUID} {o : Outcome ReadPc (ImportJobView P)}
    (h : c.step P a st (.view projectId) = some o) (hfate : a.fate = .ok) :
    o.progress ≠ .raised .unexpected := by
  cases h
  rw [Outcome.read, if_pos hfate]
  cases hj : st.jobs.get? c.jobId with
  | none => simp [Outcome.goto]
  | some j =>
      obtain ⟨m, hm⟩ := hmanifests _ _ hj
      obtain ⟨v, hv, -⟩ := jobView_eq_some (P := P) hs hm
      simp only [hv]
      split
      · simp [Outcome.goto]
      · split <;> simp [Outcome.goto, Outcome.done]

theorem listOwner_ne_unexpected {st : Store} (hs : WellFormed st)
    (hmanifests : ∀ id j, st.jobs.get? id = some j → Manifested P j) (actor : Actor)
    (limit : Int) : listOwner P st actor limit ≠ .error .unexpected := by
  unfold listOwner
  split
  · simp
  · split
    · simp
    · obtain ⟨views, hviews⟩ := mapM_eq_some_of (f := jobView P st)
        (l := (st.jobs.rows.insertionSort fun i j =>
          j.createdAt < i.createdAt ∨ (i.createdAt = j.createdAt ∧ j.id ≤ i.id)).take limit.toNat)
        fun j hj => by
          have hrow := (List.mem_insertionSort _).mp (List.mem_of_mem_take hj)
          obtain ⟨m, hm⟩ := hmanifests j.id j (Table.get?_of_mem hrow)
          obtain ⟨v, hv, -⟩ := jobView_eq_some hs hm
          exact ⟨v, hv⟩
      simp [hviews]

end manifests

/-- A manifest that was accepted once reads back: validating its dump gives it
again, with the same canonical bytes, and no view of a stored job raises in any
state the server reaches. -/
theorem stored_manifests_read_back (P : Platform) (cfg : ScannerConfig) (projects : List UUID)
    {s : SystemState P} (h : Reachable (next P cfg) (initialState P projects) s) :
    (∀ body m, ImportJobCreate.validate P body = .ok m →
      ∃ m', ImportJobCreate.validate P m.dump = .ok m' ∧ m' = m ∧
        m'.canonicalManifestBytes = m.canonicalManifestBytes) ∧
    (∀ id j, s.store.jobs.get? id = some j → ∃ v m, viewJob P s.store id = .ok v ∧
      ImportJobCreate.validate P j.canonicalManifestJson = .ok m ∧
      j.canonicalManifestJson = m.dump ∧ v.k3Result = m.k3Result) ∧
    (∀ (c : ReadCall) a projectId o, c.step P a s.store (.view projectId) = some o →
      a.fate = .ok → o.progress ≠ .raised .unexpected) ∧
    (∀ actor limit, listOwner P s.store actor limit ≠ .error .unexpected) ∧
    ∀ (c : CreateCall P) j, (c.replay s.store j).progress ≠ .raised .unexpected := by
  have hs := (consistent_of_reachable h).wellFormed
  have hmanifests := manifested_of_reachable h
  refine ⟨fun body m _ => ⟨m, m.validate_dump, rfl, rfl⟩, fun id j hj => ?_,
    fun c a projectId o hstep hfate => ReadCall.step_view hs hmanifests hstep hfate,
    fun actor limit => listOwner_ne_unexpected hs hmanifests actor limit, fun c j => ?_⟩
  · obtain ⟨m, hm⟩ := hmanifests id j hj
    obtain ⟨v, hv, hk3⟩ := viewJob_eq_ok hs hj hm
    exact ⟨v, m, hv, by rw [hm, m.validate_dump], hm, hk3⟩
  · unfold CreateCall.replay
    cases matchingResult s.store j c.manifestFingerprint with
    | error e => simp [Outcome.reject, Outcome.fail]
    | ok r => simp [Outcome.done]

/-- The manifest of the sample job reads back. -/
theorem stored_manifests_read_back_created :
    ∃ s v, run (next Sample.platform Sample.scanner) (initialState Sample.platform [1])
        Sample.created = some s ∧ viewJob Sample.platform s.store 20 = .ok v := by
  have hrun : ((run (next Sample.platform Sample.scanner) (initialState Sample.platform [1])
      Sample.created).bind fun s => (s.store.jobs.get? 20).map fun _ => ()) = some () := by
    decide +kernel
  obtain ⟨s, hs, hjob⟩ := Option.bind_eq_some_iff.mp hrun
  obtain ⟨j, hj, -⟩ := Option.map_eq_some_iff.mp hjob
  obtain ⟨v, m, hv, -⟩ := (stored_manifests_read_back _ _ [1] ⟨_, hs⟩).2.1 20 j hj
  exact ⟨s, v, hs, hv⟩

end SuperBoss.Server
