import SuperBoss.Server.Evolution

/-!
The proof outline of the server: an assertion for every program counter. A row
that a request holds is still as the request read it, observations still lie
behind the files they were made of, and objects set aside for deletion belong
to infected or failed files. Every action establishes its next assertion, and
its write is one of the listed effects on rows it has locked.
-/

namespace SuperBoss.Server

open SuperBoss.Core
open SuperBoss.Library
open SuperBoss.Library.Interleaving
open SuperBoss.Files
open SuperBoss.Imports
open SuperBoss.Infrastructure.Clamav

/-! ### Assertions -/

def Progress.Holds {Pc Result : Type} (ok : Pc → Prop) (post : Result → Prop) :
    Progress Pc Result → Prop
  | running pc => ok pc
  | returned r => post r
  | raised _ | crashed => True

/-- The row of a file as it was read under a lock, before anything was provisioned. -/
structure Unprovisioned (s : Store) (f : File) : Prop where
  get : s.files.get? f.id = some f
  state : f.state = .uploading
  multipart : f.multipartId = none

def StartPc.Ok (s : Store) : StartPc → Prop
  | list f | abort f _ | create f => Unprovisioned s f
  | commit f m => Unprovisioned s f ∧ m ∈ s.storage.issued
  | select | insert | lock _ => True

/-- A provisioned file, as it was when its upload was started. -/
structure Uploaded (s : Store) (f : File) : Prop where
  multipart : f.multipartId ≠ none
  later : ∃ f', s.files.get? f.id = some f' ∧ FileLe f f'

structure Completing (s : Store) (f : File) : Prop where
  get : s.files.get? f.id = some f
  state : f.state = .uploading

def CompletePc.Ok (s : Store) : CompletePc → Prop
  | finalize f m => Completing s f ∧ f.multipartId = some m
  | settle f _ => Completing s f
  | discard key => Discarded s key
  | resolve | deny _ _ | lock _ | enqueue _ => True

structure ReconcilePc.Locked (P : Platform) (s : Store) (locked : List UUID)
    (todo : List ImportJob) (staged : List Transition) : Prop where
  snapshots : ∀ job ∈ todo, job.id ∈ locked ∧ s.jobs.get? job.id = some job
  transitions : ∀ t ∈ staged, ∃ job, job.id ∈ locked ∧ s.jobs.get? job.id = some job ∧ Staged P s job t
  settled : ∀ t ∈ staged, t.update.status ≠ .scanning
  single : todo.length + staged.length ≤ 1

/-- A file belongs to at most one job, so at most one job is reconciled. -/
def ReconcilePc.Ok (P : Platform) (s : Store) : ReconcilePc → Prop
  | lookup => True
  | lock jobIds => jobIds.length ≤ 1
  | observe locked todo staged => Locked P s locked todo staged
  | commit locked staged => Locked P s locked [] staged

def SubmitPc.Ok (P : Platform) (s : Store) : SubmitPc → Prop
  | observe job => s.jobs.get? job.id = some job ∧ job.status.terminal = false
  | commit job t => s.jobs.get? job.id = some job ∧ Staged P s job t
  | preflight | deny _ _ | lock _ => True

def ReadPc.Ok (P : Platform) (s : Store) : ReadPc → Prop
  | reconcile _ _ _ pc => pc.Ok P s
  | load | deny _ _ | view _ => True

/-- The file a scan attempt works on: the row is the one that was claimed. -/
structure Scanning (s : Store) (fileId : UUID) (f : File) : Prop where
  later : ∃ f', s.files.get? fileId = some f' ∧ f'.identity = f.identity

def ScanPc.Ok (P : Platform) (s : Store) (fileId : UUID) : ScanPc → Prop
  | stream f => Scanning s fileId f
  | verdict f st _ => Scanning s fileId f ∧ st.terminal = true
  | discard key => Discarded s key
  | reconcile pc => pc.Ok P s
  | receive | claim => True

def RecoverPc.Ok (s : Store) : RecoverPc → Prop
  | abort f _ _ _ | delete f _ _ => Discarded s f.objectKey
  | expireSelect | expire _ _ _ | redispatchSelect _ | enqueue _ _ _ => True

def CreatePc.Ok {P : Platform} (c : CreateCall P) (s : Store) : CreatePc P → Prop
  | upload _ rest uploads pc =>
      pc.Ok s ∧ (∀ f ∈ uploads, Uploaded s f) ∧
        uploads.length + 1 + rest.length = c.command.attachments.length
  | persist uploads | insert uploads =>
      (∀ f ∈ uploads, Uploaded s f) ∧ uploads.length = c.command.attachments.length
  | begin | deny _ | existing => True

/-- The stored job that a successful create call answers with. -/
structure Created {P : Platform} (c : CreateCall P) (s : Store) (r : ImportJobResult) : Prop where
  job : ∃ j, s.jobs.get? r.id = some j ∧ j.createKey = (c.actor.subjectId, c.idempotencyKey) ∧
    j.manifestFingerprint = c.manifestFingerprint
  attachments : r.attachments.Perm ((s.attachmentsOf r.id).map attachmentResult)

def Thread.Ok {P : Platform} (s : Store) : Thread P → Prop
  | startUpload _ p => p.Holds (StartPc.Ok s) (Uploaded s)
  | completeUpload _ p => p.Holds (CompletePc.Ok s) fun _ => True
  | scanFile fileId p => p.Holds (ScanPc.Ok P s fileId) fun _ => True
  | recoverStaleUploads _ p => p.Holds (RecoverPc.Ok s) fun _ => True
  | createImport c p => p.Holds (CreatePc.Ok c s) (Created c s)
  | submitImport _ p => p.Holds (SubmitPc.Ok P s) fun _ => True
  | readImport _ p => p.Holds (ReadPc.Ok P s) fun _ => True
  | presignPart _ _ | download _ _ => True

/-! ### Stability -/

/-- An evolution of the store that leaves some rows as they are. -/
structure Respects (rows : List Row) (s s' : Store) : Prop where
  evolves : Evolves s s'
  file : ∀ {id f}, .file id ∈ rows → s.files.get? id = some f → s'.files.get? id = some f
  job : ∀ {id j}, .job id ∈ rows → s.jobs.get? id = some j → s'.jobs.get? id = some j

section stability

variable {P : Platform} {s s' : Store}

theorem Progress.Holds.imp {Pc Result : Type} {ok ok' : Pc → Prop} {post post' : Result → Prop}
    {p : Progress Pc Result} (h : p.Holds ok post) (hok : ∀ pc, p = .running pc → ok pc → ok' pc)
    (hpost : ∀ r, post r → post' r) : p.Holds ok' post' := by
  cases p with
  | running pc => exact hok pc rfl h
  | returned r => exact hpost r h
  | raised e => trivial
  | crashed => trivial

theorem Outcome.holds_read {Pc Result : Type} {ok : Pc → Prop} {post : Result → Prop} {fate : Fate}
    {o : Outcome Pc Result} (h : o.progress.Holds ok post) :
    (Outcome.read fate o).progress.Holds ok post := by
  rcases Outcome.read_cases fate o with heq | heq
  · rwa [heq]
  · rw [heq]
    trivial

theorem Outcome.holds_commit {Pc Result : Type} {ok : Pc → Prop} {post : Result → Prop}
    {fate : Fate} {w : Write} {next : Progress Pc Result} (h : next.Holds ok post) :
    (Outcome.commit s fate w next).progress.Holds ok post := by
  rcases Outcome.commit_cases s fate w next with ⟨-, heq | heq⟩ | heq
  · rwa [heq]
  · rw [heq]
    trivial
  · rw [heq]
    trivial

theorem Unprovisioned.stable {f : File} (h : Unprovisioned s f)
    (hr : Respects [.file f.id] s s') : Unprovisioned s' f :=
  ⟨hr.file (List.mem_singleton.mpr rfl) h.get, h.state, h.multipart⟩

theorem StartPc.Ok.stable {pc : StartPc} (h : pc.Ok s) (hr : Respects pc.holds s s') :
    pc.Ok s' := by
  cases pc with
  | select | insert | lock => trivial
  | list f => exact Unprovisioned.stable h hr
  | abort f leftovers => exact Unprovisioned.stable h hr
  | create f => exact Unprovisioned.stable h hr
  | commit f m => exact ⟨h.1.stable hr, hr.evolves.issued h.2⟩

theorem Uploaded.evolve {f : File} (h : Uploaded s f) (he : Evolves s s') : Uploaded s' f := by
  obtain ⟨f', hf', hle⟩ := h.later
  obtain ⟨f'', hf'', hle'⟩ := he.files hf'
  exact ⟨h.multipart, f'', hf'', hle.trans hle'⟩

theorem Completing.stable {f : File} (h : Completing s f) (hr : Respects [.file f.id] s s') :
    Completing s' f :=
  ⟨hr.file (List.mem_singleton.mpr rfl) h.get, h.state⟩

theorem CompletePc.Ok.stable {pc : CompletePc} (h : pc.Ok s) (hr : Respects pc.holds s s') :
    pc.Ok s' := by
  cases pc with
  | resolve | deny | lock | enqueue => trivial
  | finalize f m => exact ⟨h.1.stable hr, h.2⟩
  | settle f size => exact Completing.stable h hr
  | discard key => exact Discarded.evolve h hr.evolves

theorem ReconcilePc.Locked.stable {locked : List UUID} {todo : List ImportJob}
    {staged : List Transition} (h : Locked P s locked todo staged) (hs : WellFormed s)
    (hr : Respects (locked.map .job) s s') : Locked P s' locked todo staged where
  snapshots job hjob := by
    obtain ⟨hlocked, hget⟩ := h.snapshots job hjob
    exact ⟨hlocked, hr.job (List.mem_map_of_mem hlocked) hget⟩
  transitions t ht := by
    obtain ⟨job, hlocked, hget, hstaged⟩ := h.transitions t ht
    exact ⟨job, hlocked, hr.job (List.mem_map_of_mem hlocked) hget,
      hstaged.evolve hs hr.evolves hget⟩
  settled := h.settled
  single := h.single

theorem ReconcilePc.Ok.stable {pc : ReconcilePc} (h : pc.Ok P s) (hs : WellFormed s)
    (hr : Respects pc.holds s s') : pc.Ok P s' := by
  cases pc with
  | lookup => trivial
  | lock jobIds => exact h
  | observe locked todo staged => exact Locked.stable h hs hr
  | commit locked staged => exact Locked.stable h hs hr

theorem SubmitPc.Ok.stable {pc : SubmitPc} (h : pc.Ok P s) (hs : WellFormed s)
    (hr : Respects pc.holds s s') : pc.Ok P s' := by
  cases pc with
  | preflight | deny | lock => trivial
  | observe job => exact ⟨hr.job (List.mem_singleton.mpr rfl) h.1, h.2⟩
  | commit job t =>
      exact ⟨hr.job (List.mem_singleton.mpr rfl) h.1, h.2.evolve hs hr.evolves h.1⟩

theorem ReadPc.Ok.stable {pc : ReadPc} (h : pc.Ok P s) (hs : WellFormed s)
    (hr : Respects pc.holds s s') : pc.Ok P s' := by
  cases pc with
  | load | deny | view => trivial
  | reconcile projectId fileId rest pc => exact ReconcilePc.Ok.stable h hs hr

theorem Scanning.evolve {fileId : UUID} {f : File} (h : Scanning s fileId f)
    (he : Evolves s s') : Scanning s' fileId f := by
  obtain ⟨f', hf', hid⟩ := h.later
  obtain ⟨f'', hf'', hle⟩ := he.files hf'
  exact ⟨f'', hf'', hle.identity.trans hid⟩

theorem ScanPc.Ok.stable {fileId : UUID} {pc : ScanPc} (h : pc.Ok P s fileId)
    (hs : WellFormed s) (hr : Respects pc.holds s s') : pc.Ok P s' fileId := by
  cases pc with
  | receive | claim => trivial
  | stream f => exact Scanning.evolve h hr.evolves
  | verdict f st result => exact ⟨h.1.evolve hr.evolves, h.2⟩
  | discard key => exact Discarded.evolve h hr.evolves
  | reconcile pc => exact ReconcilePc.Ok.stable h hs hr

theorem RecoverPc.Ok.evolve {pc : RecoverPc} (h : pc.Ok s) (he : Evolves s s') : pc.Ok s' := by
  cases pc with
  | expireSelect | expire | redispatchSelect | enqueue => trivial
  | abort f m rest n => exact Discarded.evolve h he
  | delete f rest n => exact Discarded.evolve h he

theorem CreatePc.Ok.stable {c : CreateCall P} {pc : CreatePc P} (h : pc.Ok c s)
    (hr : Respects pc.holds s s') : pc.Ok c s' := by
  cases pc with
  | begin | deny | existing => trivial
  | upload current rest uploads pc =>
      exact ⟨StartPc.Ok.stable h.1 hr, fun f hf => (h.2.1 f hf).evolve hr.evolves, h.2.2⟩
  | persist uploads => exact ⟨fun f hf => (h.1 f hf).evolve hr.evolves, h.2⟩
  | insert uploads => exact ⟨fun f hf => (h.1 f hf).evolve hr.evolves, h.2⟩

theorem Created.evolve {c : CreateCall P} {r : ImportJobResult} (h : Created c s r)
    (he : Evolves s s') : Created c s' r := by
  obtain ⟨j, hj, hkey, hfp⟩ := h.job
  obtain ⟨j', hj', hle⟩ := he.jobs hj
  refine ⟨⟨j', hj', hle.createKey_eq.trans hkey, hle.manifestFingerprint_eq.trans hfp⟩, ?_⟩
  rw [he.attachments hj]
  exact h.attachments

theorem Thread.Ok.stable {t : Thread P} (h : t.Ok s) (hs : WellFormed s)
    (hr : Respects t.holds s s') : t.Ok s' := by
  cases t with
  | presignPart | download => trivial
  | startUpload c p =>
      refine Progress.Holds.imp h (fun pc hp hok => ?_) fun f hf => hf.evolve hr.evolves
      subst hp
      exact hok.stable hr
  | completeUpload c p =>
      refine Progress.Holds.imp h (fun pc hp hok => ?_) fun _ => id
      subst hp
      exact hok.stable hr
  | scanFile fileId p =>
      refine Progress.Holds.imp h (fun pc hp hok => ?_) fun _ => id
      subst hp
      exact hok.stable hs hr
  | recoverStaleUploads c p =>
      exact Progress.Holds.imp h (fun pc _ hok => hok.evolve hr.evolves) fun _ => id
  | createImport c p =>
      refine Progress.Holds.imp h (fun pc hp hok => ?_) fun r hcreated =>
        hcreated.evolve hr.evolves
      subst hp
      exact hok.stable hr
  | submitImport c p =>
      refine Progress.Holds.imp h (fun pc hp hok => ?_) fun _ => id
      subst hp
      exact hok.stable hs hr
  | readImport c p =>
      refine Progress.Holds.imp h (fun pc hp hok => ?_) fun _ => id
      subst hp
      exact hok.stable hs hr

end stability

/-! ### Sound actions -/

/-- An action that is sound on `s`: its write is a possible effect, on locked
rows, and the assertion of where it ends holds after the write. -/
structure Sound {Pc Result : Type} (P : Platform) (s : Store) (rows : List Row)
    (A : Store → Pc → Prop) (Q : Store → Result → Prop) (o : Outcome Pc Result) : Prop where
  valid : ∃ s', s.write? o.write = some s'
  effect : Effect P s o.write
  touches : ∀ r ∈ o.write.touches, r ∈ rows
  after : ∀ s', s.write? o.write = some s' → o.progress.Holds (A s') (Q s')

namespace Sound

variable {Pc Result : Type} {P : Platform} {s : Store} {rows : List Row}
  {A : Store → Pc → Prop} {Q : Store → Result → Prop}

theorem still {p : Progress Pc Result} (h : p.Holds (A s) (Q s)) :
    Sound P s rows A Q ⟨p, .nothing⟩ where
  valid := ⟨s, rfl⟩
  effect := .nothing
  touches := List.forall_mem_nil _
  after s' hs' := by
    cases hs'
    exact h

theorem goto {pc : Pc} (h : A s pc) : Sound P s rows A Q (.goto pc) := still h

theorem done {r : Result} (h : Q s r) : Sound P s rows A Q (.done r) := still h

theorem fail {e : Failure} : Sound P s rows A Q (.fail e : Outcome Pc Result) := still trivial

theorem reject {e : DomainError} : Sound P s rows A Q (.reject e : Outcome Pc Result) := fail

theorem read {fate : Fate} {o : Outcome Pc Result} (h : Sound P s rows A Q o) :
    Sound P s rows A Q (.read fate o) := by
  rcases Outcome.read_cases fate o with heq | heq
  · rwa [heq]
  · rw [heq]
    exact fail

theorem commit {fate : Fate} {w : Write} {next : Progress Pc Result} (heffect : Effect P s w)
    (htouches : ∀ r ∈ w.touches, r ∈ rows)
    (hafter : ∀ s', s.write? w = some s' → next.Holds (A s') (Q s')) :
    Sound P s rows A Q (.commit s fate w next) := by
  rcases Outcome.commit_cases s fate w next with ⟨hvalid, heq | heq⟩ | heq
  · rw [heq]
    exact ⟨hvalid, heffect, htouches, hafter⟩
  · rw [heq]
    exact ⟨hvalid, heffect, htouches, fun _ _ => trivial⟩
  · rw [heq]
    exact fail

theorem deny {a : Answer} {row : AuditLog} {error : DomainError} (h : row.outcome = "DENIED") :
    Sound P s rows A Q (denyWith s a row error : Outcome Pc Result) :=
  commit (.record h) (List.forall_mem_nil _) fun _ _ => trivial

/-- External calls lock nothing and cannot be rejected. -/
theorem attempt {fate : Fate} {w : Write} {next : Progress Pc Result}
    (heffect : Effect P s w) (hbefore : next.Holds (A s) (Q s))
    (hafter : ∀ s', s.write? w = some s' → next.Holds (A s') (Q s'))
    (hvalid : ∃ s', s.write? w = some s' := by exact ⟨_, rfl⟩)
    (htouches : w.touches = [] := by rfl) : Sound P s rows A Q (.attempt fate w next) := by
  unfold Outcome.attempt
  split
  · exact ⟨hvalid, heffect, htouches ▸ List.forall_mem_nil _, hafter⟩
  · exact still hbefore

end Sound

end SuperBoss.Server
