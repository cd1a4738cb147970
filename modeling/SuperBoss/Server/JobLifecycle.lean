import SuperBoss.Server.FileLifecycle

/-!
The state machine of an import job, and the trail its transitions leave in the
audit log.
-/

namespace SuperBoss.Imports

/-- The moves of a job's status. -/
inductive ImportStatus.Move : ImportStatus → ImportStatus → Prop
  | submit {st : ImportStatus} (h : st ≠ .uploading) : Move .uploading st
  | reconcile {st : ImportStatus} (h : st.terminal = true) : Move .scanning st

namespace ImportStatus

variable {a b : ImportStatus}

theorem Move.ne (h : Move a b) : b ≠ a := by
  cases h with
  | submit h => exact h
  | reconcile h =>
      rintro rfl
      cases h

theorem Move.ne_uploading (h : Move a b) : b ≠ .uploading := by
  cases h with
  | submit h => exact h
  | reconcile h =>
      rintro rfl
      cases h

theorem terminal_of_ne (h : a ≠ .uploading) (h' : a ≠ .scanning) : a.terminal = true := by
  cases a with
  | uploading => exact absurd rfl h
  | scanning => exact absurd rfl h'
  | received | rejected | conflict => rfl

end ImportStatus

end SuperBoss.Imports

namespace SuperBoss.Server

open SuperBoss.Core
open SuperBoss.Library
open SuperBoss.Library.Interleaving
open SuperBoss.Library.Transition
open SuperBoss.Files
open SuperBoss.Imports
open SuperBoss.Infrastructure.Clamav

/-! ### The trail of a job -/

/-- A `SUCCESS` row of `import.submit` or `import.reconcile` on the job. -/
def IsTransitionOf (id : UUID) (r : AuditLog) : Prop :=
  (r.action = "import.submit" ∨ r.action = "import.reconcile") ∧ r.outcome = "SUCCESS" ∧
    r.objectId = some id

instance (id : UUID) : DecidablePred (IsTransitionOf id) := fun r => inferInstanceAs (Decidable
  ((r.action = "import.submit" ∨ r.action = "import.reconcile") ∧ r.outcome = "SUCCESS" ∧
    r.objectId = some id))

def Store.trail (s : Store) (id : UUID) : List AuditLog :=
  s.audit.rows.filter fun r => decide (IsTransitionOf id r)

/-- A transition row names a status and a result code. -/
def Names (r : AuditLog) (e : ImportEvaluation) : Prop := r.metadata = transitionMetadata e

theorem Store.trail_append {s s' : Store} {l : List AuditLog}
    (h : s'.audit.rows = s.audit.rows ++ l) (id : UUID) :
    s'.trail id = s.trail id ++ l.filter fun r => decide (IsTransitionOf id r) := by
  rw [trail, h, List.filter_append]
  rfl

theorem Store.trail_append_of_not {s s' : Store} {l : List AuditLog} {id : UUID}
    (h : s'.audit.rows = s.audit.rows ++ l) (hl : ∀ r ∈ l, ¬IsTransitionOf id r) :
    s'.trail id = s.trail id := by
  rw [trail_append h, List.filter_eq_nil_iff.mpr fun r hr => by simpa using hl r hr,
    List.append_nil]

section trail

variable {P : Platform} {s s' : Store} {w : Write}

theorem Staged.isTransitionOf {job : ImportJob} {t : Transition} (h : Staged P s job t)
    {id : UUID} : IsTransitionOf id t.row ↔ id = job.id := by
  obtain ⟨observations, action, kind, actorId, requestId, now, auditId, rfl, haction, -, -⟩ :=
    h.stage
  simp only [IsTransitionOf, applyTransition, Option.some.injEq, true_and]
  rcases List.mem_cons.mp haction with rfl | haction
  · simp [eq_comm]
  · obtain rfl := List.mem_singleton.mp haction
    simp [eq_comm]

theorem Staged.names {job : ImportJob} {t : Transition} (h : Staged P s job t) :
    Names t.row ⟨t.update.status, t.update.resultCode⟩ := by
  obtain ⟨observations, action, kind, actorId, requestId, now, auditId, rfl, -, -, -⟩ := h.stage
  rfl

theorem Staged.eventKey {job : ImportJob} {t : Transition} (h : Staged P s job t) :
    t.row.eventKey ≠ none := by
  obtain ⟨observations, action, kind, actorId, requestId, now, auditId, rfl, -, -, -⟩ := h.stage
  exact Option.some_ne_none _

theorem Staged.move {job : ImportJob} {t : Transition} (h : Staged P s job t) :
    job.status.Move t.update.status := by
  have hne : t.update.status ≠ .uploading := h.jobOk.submission.elim
    (fun hup => absurd hup.2 (by simp)) fun hup => hup.1
  rcases h.moves with hstatus | ⟨hstatus, hscanning⟩
  · rw [hstatus]
    exact .submit hne
  · rw [hstatus]
    exact .reconcile (ImportStatus.terminal_of_ne hne hscanning)

/-- What a write does to a job and its trail: nothing, its insertion, or one
transition. -/
theorem Effect.job_cases (hw : s.write? w = some s') (h : Effect P s w) (id : UUID) :
    (s'.jobs.get? id = s.jobs.get? id ∧ s'.trail id = s.trail id) ∨
      (∃ j, s.jobs.get? id = none ∧ s'.jobs.get? id = some j ∧ j.status = .uploading ∧
        s'.trail id = s.trail id ∧ ∃ m : ImportJobCreate P, j.canonicalManifestJson = m.dump) ∨
      ∃ j t, w = .transitions [t] ∧ s.jobs.get? id = some j ∧ Staged P s j t ∧
        s'.jobs.get? id = some (t.update.apply j) ∧ s'.trail id = s.trail id ++ [t.row] := by
  cases h with
  | nothing | noTransition | createMultipart | abortMultipart | completeMultipart | deleteObject
  | publish | consume =>
      cases hw
      exact .inl ⟨rfl, rfl⟩
  | insertFile =>
      obtain ⟨files, -, rfl⟩ := Store.write?_insertFile hw
      exact .inl ⟨rfl, rfl⟩
  | updateFile hget hmove hissued hrow =>
      obtain ⟨-, hjobs, -, -, -, hrows⟩ := Store.write?_updateFile hw
      refine .inl ⟨by rw [hjobs], Store.trail_append_of_not hrows ?_⟩
      rintro r hr ⟨haction, -⟩
      rw [hrow r (Option.mem_toList.mp hr)] at haction
      exact absurd haction (by decide)
  | @insertJob job as row hstatus hresult hsubmitted hne hattachments hrow hmanifest =>
      obtain ⟨hinsert, -, -, -, -, hrows, -⟩ := Store.write?_insertJob hw
      have htrail : s'.trail id = s.trail id := by
        refine Store.trail_append_of_not hrows ?_
        rintro r hr ⟨haction, -⟩
        obtain rfl := List.mem_singleton.mp hr
        rw [hrow] at haction
        exact absurd haction (by decide)
      by_cases hid : id = job.id
      · subst hid
        refine .inr (.inl ⟨job, ?_, ?_, hstatus, htrail, hmanifest⟩)
        · rw [Table.get?_eq_none_iff]
          exact fun r hr he =>
            (Table.insert?_eq_some_iff.mp hinsert).1 (List.mem_map.mpr ⟨r, hr, he⟩)
        · rw [Table.get?_insert? hinsert, if_pos rfl]
      · exact .inl ⟨by rw [Table.get?_insert? hinsert, if_neg hid], htrail⟩
  | record houtcome =>
      obtain ⟨-, hjobs, -, -, -, -, hrows⟩ := Store.recordAudit_frame hw
      refine .inl ⟨by rw [hjobs], Store.trail_append_of_not hrows ?_⟩
      rintro r hr ⟨-, hsuccess, -⟩
      obtain rfl := List.mem_singleton.mp hr
      rw [houtcome] at hsuccess
      exact absurd hsuccess (by decide)
  | @transition job t hget hstaged =>
      have hjid := hstaged.jobId_eq
      obtain ⟨-, hjobs, -, -, -, -, hrows⟩ := Store.write?_transition (hjid.symm ▸ hget) hw
      by_cases hid : id = job.id
      · subst hid
        refine .inr (.inr ⟨job, t, rfl, hget, hstaged, ?_, ?_⟩)
        · rw [hjobs, hjid, Table.get?_modify_self hget]
        · rw [Store.trail_append hrows]
          exact congrArg (s.trail job.id ++ ·)
            (List.filter_cons_of_pos (decide_eq_true (hstaged.isTransitionOf.mpr rfl)))
      · refine .inl ⟨?_, Store.trail_append_of_not hrows fun r hr hof => ?_⟩
        · rw [hjobs, Table.get?_modify_of_ne]
          exact hjid ▸ hid
        · obtain rfl := List.mem_singleton.mp hr
          exact hid (hstaged.isTransitionOf.mp hof)

end trail

/-! ### Jobs in a run -/

section lifecycle

variable {P : Platform} {cfg : ScannerConfig} {s t : SystemState P} {e : SystemEvent P}

theorem Happens.job_cases (h : Happens cfg s e t) (id : UUID) :
    (t.store.jobs.get? id = s.store.jobs.get? id ∧ t.store.trail id = s.store.trail id) ∨
      (∃ j, s.store.jobs.get? id = none ∧ t.store.jobs.get? id = some j ∧
        j.status = .uploading ∧ t.store.trail id = s.store.trail id ∧
        ∃ m : ImportJobCreate P, j.canonicalManifestJson = m.dump) ∨
      ∃ j u, s.store.jobs.get? id = some j ∧ Staged P s.store j u ∧
        t.store.jobs.get? id = some (u.update.apply j) ∧
        t.store.trail id = s.store.trail id ++ [u.row] := by
  cases h with
  | spawn | crash => exact .inl ⟨rfl, rfl⟩
  | act hget hfree hact hwrite hsound =>
      rcases hsound.effect.job_cases hwrite id with hsame | hnew | ⟨j, u, -, hrest⟩
      · exact .inl hsame
      · exact .inr (.inl hnew)
      · exact .inr (.inr ⟨j, u, hrest⟩)

/-- The transition of a job between two stores, if it took one. -/
def jobMove (s s' : Store) (id : UUID) : List ImportEvaluation :=
  match s.jobs.get? id, s'.jobs.get? id with
  | some j, some j' => if j'.status = j.status then [] else [⟨j'.status, j'.resultCode⟩]
  | _, _ => []

/-- The transitions a job takes in a run, in order. -/
def transitionsTaken (P : Platform) (cfg : ScannerConfig) (id : UUID) :
    SystemState P → List (SystemEvent P) → List ImportEvaluation
  | _, [] => []
  | s, e :: es =>
      match next P cfg s e with
      | none => []
      | some t => jobMove s.store t.store id ++ transitionsTaken P cfg id t es

/-- One step of a run appends the transition that it takes. -/
theorem Happens.trail (h : Happens cfg s e t) (id : UUID) :
    (t.store.trail id).map (·.metadata) =
      (s.store.trail id).map (·.metadata) ++
        (jobMove s.store t.store id).map transitionMetadata := by
  rcases h.job_cases id with
    ⟨hjob, htrail⟩ | ⟨j, hnone, hsome, -, htrail, -⟩ | ⟨j, u, hj, hstaged, hj', htrail⟩
  · rw [htrail, jobMove, hjob]
    cases s.store.jobs.get? id with
    | none => simp
    | some j => simp
  · rw [htrail, jobMove, hnone, hsome]
    simp
  · rw [htrail, jobMove, hj, hj', List.map_append]
    have hnames : u.row.metadata = transitionMetadata ⟨u.update.status, u.update.resultCode⟩ :=
      hstaged.names
    simp [hstaged.move.ne, hnames]

/-- The trail of a job lists the transitions it took. -/
theorem Consistent.trail_of_run (hs : Consistent cfg s) (id : UUID) {es : List (SystemEvent P)}
    (h : run (next P cfg) s es = some t) :
    (t.store.trail id).map (·.metadata) =
      (s.store.trail id).map (·.metadata) ++
        (transitionsTaken P cfg id s es).map transitionMetadata := by
  induction es generalizing s with
  | nil =>
      cases h
      simp [transitionsTaken]
  | cons e es ih =>
      obtain ⟨u, hstep, hrest⟩ := Option.bind_eq_some_iff.mp ((run_cons s e es).symm.trans h)
      rw [ih (hs.step hstep) hrest, (hs.happens hstep).trail id, transitionsTaken, hstep,
        List.map_append, List.append_assoc]

/-- The trail of a job fits its row. -/
structure TrailOk (s : Store) (id : UUID) : Prop where
  missing : s.jobs.get? id = none → s.trail id = []
  uploading : ∀ j, s.jobs.get? id = some j → j.status = .uploading → s.trail id = []
  last : ∀ j, s.jobs.get? id = some j → j.status ≠ .uploading →
    ∃ r, (s.trail id).getLast? = some r ∧ Names r ⟨j.status, j.resultCode⟩
  eventKeys : ∀ r ∈ s.trail id, r.eventKey ≠ none

theorem TrailOk.step (h : Happens cfg s e t) {id : UUID} (hok : TrailOk s.store id) :
    TrailOk t.store id := by
  rcases h.job_cases id with
    ⟨hjob, htrail⟩ | ⟨j, hnone, hsome, hstatus, htrail, -⟩ | ⟨j, u, hj, hstaged, hj', htrail⟩
  · constructor
    · rw [hjob, htrail]
      exact hok.missing
    · rw [hjob, htrail]
      exact hok.uploading
    · rw [hjob, htrail]
      exact hok.last
    · rw [htrail]
      exact hok.eventKeys
  · have hempty : t.store.trail id = [] := htrail.trans (hok.missing hnone)
    refine ⟨fun _ => hempty, fun _ _ _ => hempty, fun j' hj' hne => ?_, fun r hr => ?_⟩
    · obtain rfl := Option.some.inj (hsome.symm.trans hj')
      exact absurd hstatus hne
    · rw [hempty] at hr
      cases hr
  · refine ⟨fun hnone => ?_, fun j₁ hj₁ hstatus => ?_, fun j₁ hj₁ _ => ?_, fun r hr => ?_⟩
    · rw [hj'] at hnone
      cases hnone
    · obtain rfl := Option.some.inj (hj'.symm.trans hj₁)
      exact absurd hstatus hstaged.move.ne_uploading
    · obtain rfl := Option.some.inj (hj'.symm.trans hj₁)
      exact ⟨u.row, by rw [htrail, List.getLast?_concat], hstaged.names⟩
    · rw [htrail] at hr
      rcases List.mem_append.mp hr with hr | hr
      · exact hok.eventKeys r hr
      · rw [List.mem_singleton.mp hr]
        exact hstaged.eventKey

theorem trailOk_of_reachable {projects : List UUID}
    (h : Reachable (next P cfg) (initialState P projects) s) (id : UUID) :
    TrailOk s.store id := by
  refine h.induction (I := fun s => TrailOk s.store id) ⟨fun _ => rfl, fun _ _ _ => rfl, ?_, ?_⟩
    fun s e t hs hok hstep => hok.step ((consistent_of_reachable hs).happens hstep)
  · intro j hj
    cases hj
  · exact List.forall_mem_nil _

/-- The unique index keeps the event keys of a trail apart. -/
theorem TrailOk.nodup {s : Store} {id : UUID} (hok : TrailOk s id) :
    ((s.trail id).map (·.eventKey)).Nodup := by
  rw [List.Nodup, List.pairwise_map]
  have hpairwise : (s.trail id).Pairwise AuditLog.Distinct :=
    s.audit.unique.sublist List.filter_sublist
  refine hpairwise.imp_of_mem fun {r x} hr _ hdistinct => ?_
  rcases hdistinct with hnone | hne
  · exact absurd hnone (hok.eventKeys r hr)
  · exact hne

/-- Files that were once seen outside `UPLOADING` stay outside. -/
theorem Observed.uploaded {s : Store} (hs : WellFormed s) {id : UUID}
    {observations : List FileObservation} (h : Observed s id observations)
    (hstates : ∀ o ∈ observations, o.state ≠ .uploading) {a : ImportAttachment}
    (ha : a ∈ s.attachmentsOf id) {f : File} (hf : s.files.get? a.fileId = some f) :
    f.state ≠ .uploading := by
  obtain ⟨f', hf', hobserve⟩ := (hs.attached a (Store.mem_attachmentsOf.mp ha).1).observe
  obtain rfl := Option.some.inj (hf.symm.trans hf')
  obtain ⟨o, ho, hle⟩ := exists_earlier h (List.mem_filterMap.mpr ⟨a, ha, hobserve⟩)
  exact hle.state.ne_uploading (hstates o ho)

/-- The files of a job that has left `UPLOADING` have left it too. -/
theorem WellFormed.attachments_uploaded {s : Store} (hs : WellFormed s) {id : UUID}
    {j : ImportJob} (hj : s.jobs.get? id = some j) (hstatus : j.status ≠ .uploading)
    {a : ImportAttachment} (ha : a ∈ s.attachmentsOf id) {f : File}
    (hf : s.files.get? a.fileId = some f) : f.state ≠ .uploading := by
  obtain ⟨observations, hobserved, hstates, -⟩ := (hs.jobs hj).justified hstatus
  obtain rfl : j.id = id := Table.key_of_get? hj
  exact hobserved.uploaded hs hstates ha hf

end lifecycle

namespace Sample

def device : Actor :=
  ⟨.device, 8, none, [1],
    ["imports:create", "imports:upload", "imports:submit", "imports:read-own"]⟩

def name {maxLength : Nat} (h : 4 ≤ maxLength) : CleanText platform false maxLength :=
  ⟨Text.ofString "task", {
    normal := rfl
    newlines := fun h => by cases h
    stripped := by decide
    minLength := by decide
    maxLength := h
    encodable := by decide
    controls := by decide }⟩

def k3Result : K3Result platform :=
  ⟨name (by decide), ⟨0, by decide⟩, [], [], [], none, ⟨[], by decide, .nil, .nil⟩, by decide,
    by decide, by decide⟩

theorem size_ok : 1 ≤ 3 ∧ 3 ≤ attachmentMaxBytes := by decide

theorem digest_ok : Text.isDigest digest = true := by decide

theorem mime_ok : (1 ≤ (Text.ofString "text/plain").length ∧
    (Text.ofString "text/plain").length ≤ mimeMaxLength) ∧
    Text.isMimeType (Text.ofString "text/plain") = true := by decide

def declaration (kind : AttachmentKind) : AttachmentDeclaration platform :=
  ⟨kind, name (by decide), ⟨3, size_ok⟩, ⟨digest, digest_ok⟩,
    ⟨Text.ofString "text/plain", mime_ok⟩⟩

def manifest : ImportJobCreate platform where
  projectId := 1
  localTaskId := name (by decide)
  externalDocumentReference := none
  baseSha256 := none
  k3Result := k3Result
  attachments := [declaration .k3Raw]
  kindsNodup := by decide
  k3Raw := by decide
  baseOriginal h := absurd rfl h
  ranked := List.pairwise_singleton _ _
  budget := by decide +kernel

def creation : CreateCall platform := ⟨device, manifest, Text.ofString "create-key-00000001", 40⟩

/-- A job with one attachment: file 10, job 20, attachment 30. -/
def created : List (SystemEvent platform) :=
  .spawn (.createImport creation (.running .begin)) :: List.replicate 8 (.act 0 answer) ++
    List.replicate 2 (.act 0 { answer with uuid := 20, attachmentIds := [30] })

def completed : List (SystemEvent platform) :=
  .spawn (.completeUpload ⟨.attachment 20 30, device, [⟨1, Text.ofString "etag"⟩], some 41⟩
      (.running .resolve)) :: List.replicate 5 (.act 1 { answer with auditId := 1 })

def submitted : List (SystemEvent platform) :=
  .spawn (.submitImport ⟨device, 20, 42⟩ (.running .preflight)) ::
    List.replicate 4 (.act 2 { answer with auditId := 2 })

def reconciled : List (SystemEvent platform) :=
  .spawn (.scanFile 10 (.running .receive)) ::
    List.replicate 9 (.act 3 { answer with auditId := 3 })

end Sample

/-- What holds of the job `id` in the state `s` that the run `es` reached, and of
all that can follow. -/
structure JobHistory (P : Platform) (cfg : ScannerConfig) (projects : List UUID)
    (es : List (SystemEvent P)) (s : SystemState P) (id : UUID) : Prop where
  constraints : ∀ j, s.store.jobs.get? id = some j → j.SubmissionState ∧ j.ResultState
  created : ∀ e t j, next P cfg s e = some t → s.store.jobs.get? id = none →
    t.store.jobs.get? id = some j → j.status = .uploading
  moves : ∀ e t j, next P cfg s e = some t → s.store.jobs.get? id = some j →
    ∃ j', t.store.jobs.get? id = some j' ∧ (j' = j ∨ j.status.Move j'.status)
  terminal : ∀ t j, Reachable (next P cfg) s t → s.store.jobs.get? id = some j →
    j.status.terminal = true → t.store.jobs.get? id = some j
  submittedAt : ∀ t j at', Reachable (next P cfg) s t → s.store.jobs.get? id = some j →
    j.submittedAt = some at' → ∃ j', t.store.jobs.get? id = some j' ∧ j'.submittedAt = some at'
  uploaded : ∀ j a f, s.store.jobs.get? id = some j → j.status ≠ .uploading →
    a ∈ s.store.attachmentsOf id → s.store.files.get? a.fileId = some f → f.state ≠ .uploading
  /-- One row per transition taken, in order, which names its status and result. -/
  trail : (s.store.trail id).map (·.metadata) =
    (transitionsTaken P cfg id (initialState P projects) es).map transitionMetadata
  eventKeys : (∀ r ∈ s.store.trail id, r.eventKey ≠ none) ∧
    ((s.store.trail id).map (·.eventKey)).Nodup
  last : ∀ j, s.store.jobs.get? id = some j → j.status ≠ .uploading →
    ∃ r, (s.store.trail id).getLast? = some r ∧ Names r ⟨j.status, j.resultCode⟩

/-- The state machine and the audit trail of every import job, in every run. -/
theorem import_lifecycle (P : Platform) (cfg : ScannerConfig) (projects : List UUID)
    {es : List (SystemEvent P)} {s : SystemState P}
    (h : run (next P cfg) (initialState P projects) es = some s) (id : UUID) :
    JobHistory P cfg projects es s id := by
  have hreach : Reachable (next P cfg) (initialState P projects) s := ⟨es, h⟩
  have hs : Consistent cfg s := consistent_of_reachable hreach
  have htrail := trailOk_of_reachable hreach id
  refine ⟨fun j hj => ?_, fun e t j hstep hnone hj => ?_, fun e t j hstep hj => ?_,
    fun t j ht hj hterminal => ?_, fun t j at' ht hj hat => ?_,
    fun j a f hj hstatus ha hf => hs.wellFormed.attachments_uploaded hj hstatus ha hf, ?_,
    ⟨htrail.eventKeys, htrail.nodup⟩, htrail.last⟩
  · exact ⟨(hs.wellFormed.jobs hj).submission, (hs.wellFormed.jobs hj).result⟩
  · rcases (hs.happens hstep).job_cases id with
      ⟨hsame, -⟩ | ⟨j', -, hj', hstatus, -⟩ | ⟨j', u, hsome, -⟩
    · rw [hsame, hnone] at hj
      cases hj
    · obtain rfl := Option.some.inj (hj'.symm.trans hj)
      exact hstatus
    · rw [hnone] at hsome
      cases hsome
  · rcases (hs.happens hstep).job_cases id with
      ⟨hsame, -⟩ | ⟨j', hnone, -⟩ | ⟨j', u, hj', hstaged, hnext, -⟩
    · exact ⟨j, hsame.trans hj, .inl rfl⟩
    · rw [hj] at hnone
      cases hnone
    · obtain rfl := Option.some.inj (hj.symm.trans hj')
      exact ⟨_, hnext, .inr hstaged.move⟩
  · obtain ⟨j', hj', hle⟩ := (hs.evolves ht).jobs hj
    rw [hj', hle.terminal hterminal]
  · obtain ⟨j', hj', hle⟩ := (hs.evolves ht).jobs hj
    exact ⟨j', hj', hle.submittedAt at' hat⟩
  · exact (Consistent.initial projects).trail_of_run id h

/-- The sample job is submitted and received, with a row for each. -/
theorem import_lifecycle_received :
    ∃ s, run (next Sample.platform Sample.scanner) (initialState Sample.platform [1])
        (Sample.created ++ Sample.completed ++ Sample.submitted ++ Sample.reconciled) = some s ∧
      (s.store.trail 20).map (·.metadata) =
        [transitionMetadata ⟨.scanning, none⟩, transitionMetadata ⟨.received, none⟩] ∧
      ∀ t, Reachable (next Sample.platform Sample.scanner) s t →
        ∃ j, t.store.jobs.get? 20 = some j ∧ j.status = .received := by
  have hrun : ((run (next Sample.platform Sample.scanner) (initialState Sample.platform [1])
      (Sample.created ++ Sample.completed ++ Sample.submitted ++ Sample.reconciled)).bind fun s =>
        (s.store.jobs.get? 20).map (·.status)) = some .received := by decide +kernel
  have htaken : transitionsTaken Sample.platform Sample.scanner 20 (initialState Sample.platform [1])
      (Sample.created ++ Sample.completed ++ Sample.submitted ++ Sample.reconciled) =
        [⟨.scanning, none⟩, ⟨.received, none⟩] := by decide +kernel
  obtain ⟨s, hs, hjob⟩ := Option.bind_eq_some_iff.mp hrun
  obtain ⟨j, hj, hstatus⟩ := Option.map_eq_some_iff.mp hjob
  have hhistory := import_lifecycle _ _ _ hs 20
  refine ⟨s, hs, ?_, fun t ht => ⟨j, hhistory.terminal t j ht hj (by rw [hstatus]; rfl), hstatus⟩⟩
  rw [hhistory.trail, htaken]
  rfl

end SuperBoss.Server
