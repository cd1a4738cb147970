import SuperBoss.Files.Fingerprint
import SuperBoss.Server.CreateIdempotency

/-!
Starting an upload is idempotent: one file for each key, one answer for one set
of metadata, a conflict for another, and a multipart upload that was opened for
the file and stays.
-/

namespace SuperBoss.Server

open SuperBoss.Core
open SuperBoss.Library
open SuperBoss.Library.Interleaving
open SuperBoss.Library.Transition
open SuperBoss.Files
open SuperBoss.Imports
open SuperBoss.Infrastructure.Clamav

/-! ### The file of a call -/

/-- The row of a call: it has the key and the fingerprint of the call. -/
structure StartCall.Matches (P : Platform) (c : StartCall) (f : File) : Prop where
  uploadKey : f.uploadKey = c.uploadKey
  fingerprint : fingerprint P c.command = some f.metadataFingerprint

def StartPc.Matches (P : Platform) (c : StartCall) (s : Store) : StartPc → Prop
  | lock fileId => ∃ f, s.files.get? fileId = some f ∧ c.Matches P f
  | list f | abort f _ | create f | commit f _ => c.Matches P f
  | select | insert => True

theorem Store.file_unique {s : Store} {f g : File} (hf : f ∈ s.files.rows)
    (hg : g ∈ s.files.rows) (h : f.uploadKey = g.uploadKey) : f = g :=
  Table.eq_of_not_distinct hf hg (fun hd => hd.1 h) fun hd => hd.1 h.symm

section call

variable {P : Platform} {a : Answer} {s s' : Store} {c : StartCall} {pc : StartPc}
  {o : Outcome StartPc File}

theorem Store.existing_spec {f : File} (h : c.existing s = some f) :
    f ∈ s.files.rows ∧ f.uploadKey = c.uploadKey := by
  have hfound := List.find?_some (p := fun f : File => decide (f.uploadKey = c.uploadKey)) h
  exact ⟨List.mem_of_find?_eq_some h, of_decide_eq_true hfound⟩

theorem Store.existing_eq_some {f : File} (hf : f ∈ s.files.rows)
    (hkey : f.uploadKey = c.uploadKey) : c.existing s = some f := by
  cases hfind : c.existing s with
  | none =>
      have hno := List.find?_eq_none.mp hfind f hf
      simp [hkey] at hno
  | some g =>
      obtain ⟨hg, hgkey⟩ := Store.existing_spec hfind
      rw [Store.file_unique hg hf (hgkey.trans hkey.symm)]

theorem StartCall.Matches.later {f f' : File} (hf : c.Matches P f) (h : FileLe f f') :
    c.Matches P f' where
  uploadKey := by
    have hkey : f'.uploadKey = f.uploadKey :=
      congrArg (fun i => (i.2.1, i.2.2.2.2.2.2.2.2.2.1, i.2.2.2.2.2.2.2.2.1,
        i.2.2.2.2.2.2.2.2.2.2.2.2.1)) h.identity
    rw [hkey, hf.uploadKey]
  fingerprint := by
    have hfp : f'.metadataFingerprint = f.metadataFingerprint :=
      congrArg (fun i => i.2.2.2.2.2.2.2.2.2.2.2.1) h.identity
    rw [hfp, hf.fingerprint]

theorem StartPc.Matches.evolve (h : pc.Matches P c s) (he : Evolves s s') :
    pc.Matches P c s' := by
  cases pc with
  | select | insert => trivial
  | lock fileId =>
      obtain ⟨f, hf, hmatches⟩ := h
      obtain ⟨f', hf', hle⟩ := he.files hf
      exact ⟨f', hf', hmatches.later hle⟩
  | list | abort | create | commit => exact h

theorem StartPc.matches_provision {f : File} (h : c.Matches P f) (leftovers : List Text) :
    (StartPc.provision f leftovers).Matches P c s := by
  cases leftovers <;> exact h

/-- Where an action of a call leaves it. -/
def StartCall.Follows (P : Platform) (c : StartCall) (s : Store) (o : Outcome StartPc File) :
    Prop :=
  o.progress.Holds (StartPc.Matches P c s) (c.Matches P)

theorem StartCall.follows_read {fate : Fate} (h : c.Follows P s o) :
    c.Follows P s (.read fate o) := by
  rcases Outcome.read_cases fate o with heq | heq
  · rwa [heq]
  · rw [heq]
    trivial

theorem StartCall.follows_reuse {fp : Text} {f : File}
    (hfp : Files.fingerprint P c.command = some fp) (hf : c.existing s = some f) :
    c.Follows P s (reuse fp f) := by
  obtain ⟨hmem, hkey⟩ := Store.existing_spec hf
  unfold reuse
  split
  · trivial
  · rename_i hsame
    exact ⟨f, Table.get?_of_mem hmem, hkey, by rw [hfp, not_not.mp hsame]⟩

/-- An action of a call keeps its row, or inserts it. -/
theorem StartCall.follows_step (h : c.step P a s pc = some o) (hpc : pc.Matches P c s) :
    c.Follows P s o ∨ ∃ fp, Files.fingerprint P c.command = some fp ∧
      o.write = .insertFile (c.newFile P fp a.uuid a.now) ∧ o.progress = .running (.lock a.uuid) := by
  cases pc with
  | select =>
      cases h
      left
      split
      · trivial
      · split
        · trivial
        · split
          · trivial
          · rename_i fp hfp
            refine follows_read ?_
            split
            · rename_i f hf
              exact follows_reuse hfp hf
            · trivial
  | insert =>
      cases h
      split
      · exact .inl trivial
      · rename_i fp hfp
        split
        · rename_i f hf
          exact .inl (follows_read (follows_reuse hfp hf))
        · rcases Outcome.commit_cases s a.fate (.insertFile (c.newFile P fp a.uuid a.now))
            (.running (.lock a.uuid) : Progress StartPc File) with ⟨-, heq | heq⟩ | heq
          · rw [heq]
            exact .inr ⟨fp, hfp, rfl, rfl⟩
          · rw [heq]
            exact .inl trivial
          · rw [heq]
            exact .inl trivial
  | lock fileId =>
      cases h
      obtain ⟨f, hf, hmatches⟩ := hpc
      refine .inl (follows_read ?_)
      rw [hf]
      simp only
      split
      · trivial
      · split
        · exact hmatches
        · exact hmatches
  | list file =>
      cases h
      left
      split
      · trivial
      · split
        · exact hpc
        · exact StartPc.matches_provision hpc _
  | abort file leftovers =>
      left
      cases leftovers with
      | nil =>
          cases h
          exact hpc
      | cons m rest =>
          cases h
          exact StartPc.matches_provision hpc rest
  | create file =>
      left
      simp only [step] at h
      split at h
      · cases h
      · cases h
        unfold Follows Outcome.attempt
        simp only
        split
        · exact hpc
        · trivial
  | commit file multipartId =>
      cases h
      left
      rcases Outcome.commit_cases s a.fate
        (.updateFile file.id (.provision multipartId a.now) none)
        (.returned { file with multipartId := some multipartId } : Progress StartPc File) with
        ⟨-, heq | heq⟩ | heq
      · rw [heq]
        exact ⟨hpc.uploadKey, hpc.fingerprint⟩
      · rw [heq]
        trivial
      · rw [heq]
        trivial

theorem StartCall.Follows.evolve (h : c.Follows P s o) (he : Evolves s s') :
    c.Follows P s' o :=
  Progress.Holds.imp h (fun _ _ hpc => hpc.evolve he) fun _ => id

/-- The row of a call after the write of its action. -/
theorem StartCall.follows_write (h : c.step P a s pc = some o) (hpc : pc.Matches P c s)
    (hw : s.write? o.write = some s') (he : Evolves s s') : c.Follows P s' o := by
  rcases follows_step h hpc with hfollows | ⟨fp, hfp, hwrite, hprogress⟩
  · exact hfollows.evolve he
  · rw [hwrite] at hw
    obtain ⟨files, hinsert, rfl⟩ := Store.write?_insertFile hw
    unfold Follows
    rw [hprogress]
    refine ⟨c.newFile P fp a.uuid a.now, ?_, rfl, hfp⟩
    rw [Table.get?_insert? hinsert]
    exact if_pos rfl

end call

/-! ### The files of all calls -/

def CreatePc.uploads {P : Platform} : CreatePc P → List File
  | upload _ _ uploads _ | persist uploads | insert uploads => uploads
  | begin | deny _ | existing => []

/-- The `i`-th attachment of a create call is uploaded by the call `c`. -/
def CreateCall.Uploads {P : Platform} (d : CreateCall P) (i : Nat) (c : StartCall) : Prop :=
  ∃ declaration, d.command.attachments[i]? = some declaration ∧ d.startCall declaration = some c

/-- The thread has the answer `f` to the call `c`, its own or that for an attachment. -/
inductive Thread.Answered {P : Platform} : Thread P → StartCall → File → Prop
  | upload {c : StartCall} {f : File} : Answered (.startUpload c (.returned f)) c f
  | attachment {d : CreateCall P} {pc : CreatePc P} {i : Nat} {c : StartCall} {f : File}
      (hf : pc.uploads[i]? = some f) (hc : d.Uploads i c) :
      Answered (.createImport d (.running pc)) c f

/-- The uploads so far belong to the first attachments. -/
def CreateCall.Uploaded {P : Platform} (d : CreateCall P) (uploads : List File) : Prop :=
  ∀ i f, uploads[i]? = some f → ∃ c, d.Uploads i c ∧ c.Matches P f

def CreatePc.Matches {P : Platform} (d : CreateCall P) (s : Store) : CreatePc P → Prop
  | upload current rest uploads pc =>
      d.canCreate = true ∧ d.Uploaded uploads ∧ d.Uploads uploads.length current ∧
        rest = d.command.attachments.drop (uploads.length + 1) ∧ pc.Matches P current s
  | persist uploads | insert uploads => d.canCreate = true ∧ d.Uploaded uploads
  | existing => d.canCreate = true
  | begin | deny _ => True

def Thread.Matches {P : Platform} (s : Store) : Thread P → Prop
  | startUpload c p => p.Holds (StartPc.Matches P c s) (c.Matches P)
  | createImport d p => p.Holds (CreatePc.Matches d s) fun _ => True
  | _ => True

section calls

variable {P : Platform} {cfg : ScannerConfig} {a : Answer} {s s' : Store}

theorem CreatePc.Matches.evolve {d : CreateCall P} {pc : CreatePc P} (h : pc.Matches d s)
    (he : Evolves s s') : pc.Matches d s' := by
  cases pc with
  | upload current rest uploads pc =>
      obtain ⟨hcreate, huploaded, hcurrent, hrest, hpc⟩ := h
      exact ⟨hcreate, huploaded, hcurrent, hrest, hpc.evolve he⟩
  | persist | insert | begin | deny | existing => exact h

theorem Thread.Matches.evolve {t : Thread P} (h : t.Matches s) (he : Evolves s s') :
    t.Matches s' := by
  cases t with
  | startUpload c p => exact Progress.Holds.imp h (fun _ _ hpc => hpc.evolve he) fun _ => id
  | createImport d p => exact Progress.Holds.imp h (fun _ _ hpc => hpc.evolve he) fun _ => id
  | presignPart | completeUpload | download | scanFile | recoverStaleUploads | submitImport
  | readImport => trivial

theorem CreateCall.matches_next {d : CreateCall P} {uploads : List File}
    (hcreate : d.canCreate = true) (h : d.Uploaded uploads) :
    (d.next uploads (d.command.attachments.drop uploads.length)).Holds (CreatePc.Matches d s)
      fun _ => True := by
  cases hrest : d.command.attachments.drop uploads.length with
  | nil => exact ⟨hcreate, h⟩
  | cons declaration rest =>
      simp only [next]
      split
      · trivial
      · rename_i current hcurrent
        have hget : d.command.attachments[uploads.length]? = some declaration := by
          rw [← List.head?_drop, hrest]
          rfl
        refine ⟨hcreate, h, ⟨declaration, hget, hcurrent⟩, ?_, trivial⟩
        rw [← List.tail_drop, hrest]
        rfl

theorem CreateCall.matches_replay {d : CreateCall P} {job : ImportJob} :
    (d.replay s job).progress.Holds (CreatePc.Matches d s') fun _ => True := by
  unfold replay
  split <;> trivial

theorem CreateCall.uploaded_append {d : CreateCall P} {uploads : List File} {c : StartCall}
    {f : File} (h : d.Uploaded uploads) (hc : d.Uploads uploads.length c) (hf : c.Matches P f) :
    d.Uploaded (uploads ++ [f]) := by
  intro i g hg
  rcases getElem?_append_cases hg with ⟨rfl, rfl⟩ | hg
  · exact ⟨c, hc, hf⟩
  · exact h i g hg

/-- An action of a create call keeps the files of its uploads. -/
theorem CreateCall.matches_step {d : CreateCall P} {pc : CreatePc P}
    {o : Outcome (CreatePc P) ImportJobResult} (h : d.step a s pc = some o)
    (hpc : pc.Matches d s) (hw : s.write? o.write = some s') (he : Evolves s s') :
    o.progress.Holds (CreatePc.Matches d s') fun _ => True := by
  cases pc with
  | begin =>
      cases h
      split
      · trivial
      · split
        · rename_i hcreate
          exact hcreate
        · refine Outcome.holds_read ?_
          trivial
  | deny projectId =>
      cases h
      exact Outcome.holds_commit trivial
  | existing =>
      cases h
      refine Outcome.holds_read ?_
      split
      · exact matches_replay
      · have hnone : d.Uploaded [] := by
          intro i f hf
          rw [List.getElem?_nil] at hf
          cases hf
        exact matches_next hpc hnone
  | upload current rest uploads pc =>
      obtain ⟨hcreate, huploaded, hcurrent, hrest, hpc⟩ := hpc
      obtain ⟨o', hstep, rfl⟩ := Option.map_eq_some_iff.mp h
      have hw' : s.write? o'.write = some s' := by
        split at hw
        · exact hw
        · exact hw
        · split at hw <;> exact hw
        · exact hw
        · exact hw
      have hfollows := StartCall.follows_write hstep hpc hw' he
      unfold StartCall.Follows at hfollows
      split
      · rename_i pc' hpc'
        rw [hpc'] at hfollows
        exact ⟨hcreate, huploaded, hcurrent, hrest, hfollows⟩
      · rename_i file hfile
        rw [hfile] at hfollows
        have hnext := matches_next (s := s') hcreate
          (uploaded_append huploaded hcurrent hfollows)
        rw [List.length_append, List.length_singleton] at hnext
        rw [hrest]
        exact hnext
      · split <;> trivial
      · trivial
      · trivial
  | persist uploads =>
      cases h
      refine Outcome.holds_read ?_
      split
      · exact matches_replay
      · exact hpc
  | insert uploads =>
      simp only [step] at h
      split at h
      · cases h
        exact Outcome.holds_read matches_replay
      · split at h
        · cases h
        · cases h
          exact Outcome.holds_commit trivial

theorem Thread.matches_act {t t' : Thread P} {w : Write} (h : t.act cfg a s = some (t', w))
    (ht : t.Matches s) (hw : s.write? w = some s') (he : Evolves s s') : t'.Matches s' := by
  cases t with
  | startUpload c p =>
      obtain ⟨o, hp, heq⟩ := Option.map_eq_some_iff.mp h
      obtain ⟨pc, rfl, hstep⟩ := Progress.step_eq_some hp
      cases heq
      exact StartCall.follows_write hstep ht hw he
  | createImport d p =>
      obtain ⟨o, hp, heq⟩ := Option.map_eq_some_iff.mp h
      obtain ⟨pc, rfl, hstep⟩ := Progress.step_eq_some hp
      cases heq
      exact CreateCall.matches_step hstep ht hw he
  | presignPart | completeUpload | download | scanFile | recoverStaleUploads | submitImport
  | readImport =>
      obtain ⟨o, -, heq⟩ := Option.map_eq_some_iff.mp h
      cases heq
      trivial

theorem Thread.matches_initial {t : Thread P} (h : t.initial = true) : t.Matches s := by
  cases t with
  | startUpload c p =>
      cases of_decide_eq_true h
      trivial
  | createImport d p =>
      cases of_decide_eq_true h
      trivial
  | presignPart | completeUpload | download | scanFile | recoverStaleUploads | submitImport
  | readImport => trivial

theorem Thread.Matches.crash {t : Thread P} (h : t.Matches s) : t.crash.Matches s := by
  cases t with
  | startUpload c p => exact Progress.Holds.crash h
  | createImport d p => exact Progress.Holds.crash h
  | presignPart | completeUpload | download | scanFile | recoverStaleUploads | submitImport
  | readImport => trivial

/-- In every reachable state, each call is at work on its own row. -/
theorem matches_of_reachable {projects : List UUID} {s : SystemState P}
    (h : Reachable (next P cfg) (initialState P projects) s) {i : Nat} {t : Thread P}
    (hthread : s.threads[i]? = some t) : t.Matches s.store := by
  revert i t
  refine h.induction (I := fun s => ∀ {i : Nat} {t : Thread P}, s.threads[i]? = some t →
    t.Matches s.store) (fun ht => by cases ht) fun s e u hs hinv hstep i t ht => ?_
  have hhappens := (consistent_of_reachable hs).happens hstep
  rcases hhappens.thread_cases ht with
    hsame | hinitial | ⟨v, hv, rfl⟩ | ⟨a, v, w, rfl, hv, hact, hwrite⟩
  · exact (hinv hsame).evolve hhappens.evolves
  · exact Thread.matches_initial hinitial
  · exact ((hinv hv).evolve hhappens.evolves).crash
  · exact Thread.matches_act hact (hinv hv) hwrite hhappens.evolves

/-- The answer to a call is a version of a stored row. -/
theorem answered_of_reachable {projects : List UUID} {s : SystemState P}
    (h : Reachable (next P cfg) (initialState P projects) s) {i : Nat} {t : Thread P}
    (hthread : s.threads[i]? = some t) {c : StartCall} {f : File} (ht : t.Answered c f) :
    c.Matches P f ∧ Uploaded s.store f := by
  have hok := (consistent_of_reachable h).ok hthread
  have hmatches := matches_of_reachable h hthread
  cases ht with
  | upload => exact ⟨hmatches, hok⟩
  | @attachment d pc i c f hf hc =>
      have hmem := List.mem_of_getElem? hf
      have huploaded : d.Uploaded pc.uploads ∧ Uploaded s.store f := by
        cases pc with
        | begin | deny | existing => cases hf
        | upload current rest uploads pc => exact ⟨hmatches.2.1, hok.2.1 f hmem⟩
        | persist uploads => exact ⟨hmatches.2, hok.1 f hmem⟩
        | insert uploads => exact ⟨hmatches.2, hok.1 f hmem⟩
      obtain ⟨c', ⟨declaration, hget, hstart⟩, hfile⟩ := huploaded.1 i f hf
      obtain ⟨declaration', hget', hstart'⟩ := hc
      obtain rfl := Option.some.inj (hget.symm.trans hget')
      obtain rfl := Option.some.inj (hstart.symm.trans hstart')
      exact ⟨hfile, huploaded.2⟩

end calls

/-! ### Agreement -/

section agreement

variable {P : Platform} {cfg : ScannerConfig} {projects : List UUID} {s t : SystemState P}

/-- Two calls with one key that were answered, one maybe later, have one file and
one multipart upload. -/
theorem answers_agree (h : Reachable (next P cfg) (initialState P projects) s)
    (hst : Reachable (next P cfg) s t) {i j : Nat} {v w : Thread P} {c c' : StartCall}
    {f f' : File} (hv : s.threads[i]? = some v) (hf : v.Answered c f)
    (hw : t.threads[j]? = some w) (hf' : w.Answered c' f') (hkey : c.uploadKey = c'.uploadKey) :
    f.identity = f'.identity ∧ f.multipartId = f'.multipartId ∧ f.multipartId ≠ none ∧
      Files.fingerprint P c.command = Files.fingerprint P c'.command := by
  obtain ⟨hmatches, hm, g, hg, hle⟩ := answered_of_reachable h hv hf
  obtain ⟨hmatches', hm', g', hg', hle'⟩ := answered_of_reachable (h.trans hst) hw hf'
  obtain ⟨k, hk, hgk⟩ := ((consistent_of_reachable h).evolves hst).files hg
  have hfk := hle.trans hgk
  have hsame : k = g' := by
    refine Store.file_unique (Table.mem_of_get? hk) (Table.mem_of_get? hg') ?_
    rw [(hmatches.later hfk).uploadKey, (hmatches'.later hle').uploadKey, hkey]
  subst hsame
  have hidentity : f.identity = f'.identity := hfk.identity.symm.trans hle'.identity
  obtain ⟨m, hsome⟩ := Option.ne_none_iff_exists'.mp hm
  obtain ⟨m', hsome'⟩ := Option.ne_none_iff_exists'.mp hm'
  have hmultipart : m = m' :=
    Option.some.inj ((hfk.multipart m hsome).symm.trans (hle'.multipart m' hsome'))
  refine ⟨hidentity, by rw [hsome, hsome', hmultipart], hm, ?_⟩
  have hfp : f.metadataFingerprint = f'.metadataFingerprint :=
    congrArg (fun i => i.2.2.2.2.2.2.2.2.2.2.2.1) hidentity
  rw [hmatches.fingerprint, hmatches'.fingerprint, hfp]

/-- Every stored file shows the metadata of the call that started it. -/
theorem started_of_reachable (h : Reachable (next P cfg) (initialState P projects) s) (id : UUID)
    (g : File) (hg : s.store.files.get? id = some g) :
    ∃ c : StartCall, c.Matches P g ∧ g.metadata = c.command.metadata := by
  revert id g
  refine h.induction (I := fun s => ∀ id g, s.store.files.get? id = some g →
    ∃ c : StartCall, c.Matches P g ∧ g.metadata = c.command.metadata) (fun id g hg => ?_)
    fun s e t hs hinv hstep id g hg => ?_
  · cases hg
  have hconsistent := consistent_of_reachable hs
  cases hconsistent.happens hstep with
  | spawn | crash => exact hinv id g hg
  | act hthread hfree hact hwrite hsound =>
      rcases hsound.effect.file_cases hwrite hg with
        hsame | ⟨-, rfl, -⟩ | ⟨f, u, row, hf, -, hmove, rfl⟩
      · exact hinv id g hsame
      · rcases Thread.act_writes hact with hplain | hwrites
        · exact hplain.elim
        · cases hwrites with
          | @insertFile t c fp ht hfp hnone => exact ⟨c, ⟨rfl, hfp⟩, rfl⟩
      · obtain ⟨c, hmatches, hmetadata⟩ := hinv id f hf
        exact ⟨c, hmatches.later hmove.le, hmetadata⟩

end agreement

/-! ### Conflicts -/

/-- A stored file with the key of the call and another fingerprint. -/
structure StartCall.Conflicts (P : Platform) (c : StartCall) (s : Store) (g : File) : Prop where
  stored : g ∈ s.files.rows
  uploadKey : g.uploadKey = c.uploadKey
  fingerprint : Files.fingerprint P c.command ≠ some g.metadataFingerprint

section conflicts

variable {P : Platform} {cfg : ScannerConfig} {a : Answer} {s s' : Store} {c : StartCall}
  {pc : StartPc} {o : Outcome StartPc File} {g : File}

theorem StartCall.Conflicts.no_match (h : c.Conflicts P s g) {f : File} (hf : f ∈ s.files.rows) :
    ¬c.Matches P f := by
  intro hmatches
  obtain rfl := Store.file_unique hf h.stored (hmatches.uploadKey.trans h.uploadKey.symm)
  exact h.fingerprint hmatches.fingerprint

/-- The file that a call works on is stored. -/
theorem StartPc.Matches.stored (h : pc.Matches P c s) (hok : pc.Ok s) :
    pc = .select ∨ pc = .insert ∨ ∃ f ∈ s.files.rows, c.Matches P f := by
  cases pc with
  | select => exact .inl rfl
  | insert => exact .inr (.inl rfl)
  | lock fileId =>
      obtain ⟨f, hf, hmatches⟩ := h
      exact .inr (.inr ⟨f, Table.mem_of_get? hf, hmatches⟩)
  | list f | abort f leftovers | create f =>
      exact .inr (.inr ⟨f, Table.mem_of_get? hok.get, h⟩)
  | commit f m => exact .inr (.inr ⟨f, Table.mem_of_get? hok.1.get, h⟩)

/-- The next action of a call in conflict raises, and writes nothing. -/
theorem StartCall.Conflicts.step (h : c.Conflicts P s g) (hpc : pc = .select ∨ pc = .insert)
    (hstep : c.step P a s pc = some o) :
    o.write = .nothing ∧ ∃ e, o.progress = .raised e ∧
      (a.fate = .ok → c.authorize = .ok () → Text.isIdempotencyKey c.idempotencyKey = true →
        Files.fingerprint P c.command ≠ none → e = .domain conflict) := by
  have hexisting := Store.existing_eq_some h.stored h.uploadKey
  have hreuse : ∀ fp, Files.fingerprint P c.command = some fp →
      reuse fp g = .reject conflict := by
    intro fp hfp
    refine if_pos fun hsame => h.fingerprint ?_
    rw [hfp, hsame]
  have hread : ∀ fp, Files.fingerprint P c.command = some fp →
      (Outcome.read a.fate (reuse fp g)).write = .nothing ∧
        ∃ e, (Outcome.read a.fate (reuse fp g)).progress = .raised e ∧
          (a.fate = .ok → e = .domain conflict) := by
    intro fp hfp
    rw [hreuse fp hfp]
    unfold Outcome.read
    split
    · exact ⟨rfl, _, rfl, fun _ => rfl⟩
    · rename_i hfate
      exact ⟨rfl, _, rfl, fun hok => absurd hok hfate⟩
  rcases hpc with rfl | rfl
  · cases hstep
    split
    · rename_i e herror
      exact ⟨rfl, _, rfl, fun _ hauthorized => by
        rw [herror] at hauthorized
        cases hauthorized⟩
    · split
      · rename_i hkey
        exact ⟨rfl, _, rfl, fun _ _ hvalid => by simp [hvalid] at hkey⟩
      · split
        · rename_i hnone
          exact ⟨rfl, _, rfl, fun _ _ _ hsome => absurd hnone hsome⟩
        · rename_i fp hfp
          rw [hexisting]
          obtain ⟨hwrite, e, hprogress, hconflict⟩ := hread fp hfp
          exact ⟨hwrite, e, hprogress, fun hfate _ _ _ => hconflict hfate⟩
  · cases hstep
    split
    · rename_i hnone
      exact ⟨rfl, _, rfl, fun _ _ _ hsome => absurd hnone hsome⟩
    · rename_i fp hfp
      rw [hexisting]
      obtain ⟨hwrite, e, hprogress, hconflict⟩ := hread fp hfp
      exact ⟨hwrite, e, hprogress, fun hfate _ _ _ => hconflict hfate⟩

/-- A call writes only once its row is there, or to insert it. -/
theorem StartCall.write_cases (h : c.step P a s pc = some o) (hpc : pc.Matches P c s)
    (hok : pc.Ok s) (hw : s.write? o.write = some s') (he : Evolves s s') :
    s' = s ∨ ∃ f ∈ s'.files.rows, c.Matches P f := by
  have hstill : o.write = .nothing → s' = s := by
    intro hnothing
    rw [hnothing] at hw
    cases hw
    rfl
  have hread : ∀ {o' : Outcome StartPc File}, o'.write = .nothing →
      (Outcome.read a.fate o').write = .nothing := by
    intro o' ho'
    unfold Outcome.read
    split
    · exact ho'
    · rfl
  have hreuse : ∀ fp f, (reuse fp f).write = .nothing := by
    intro fp f
    unfold reuse
    split <;> rfl
  rcases hpc.stored hok with rfl | rfl | ⟨f, hf, hmatches⟩
  · left
    refine hstill ?_
    cases h
    split
    · rfl
    · split
      · rfl
      · split
        · rfl
        · refine hread ?_
          split
          · exact hreuse _ _
          · rfl
  · cases hfp : Files.fingerprint P c.command with
    | none =>
        simp only [step, hfp, Option.some.injEq] at h
        subst h
        exact .inl (hstill rfl)
    | some fp =>
        cases hexisting : c.existing s with
        | some f =>
            simp only [step, hfp, hexisting, Option.some.injEq] at h
            subst h
            exact .inl (hstill (hread (hreuse fp f)))
        | none =>
            simp only [step, hfp, hexisting, Option.some.injEq] at h
            subst h
            rcases Outcome.commit_cases s a.fate (.insertFile (c.newFile P fp a.uuid a.now))
              (.running (.lock a.uuid) : Progress StartPc File) with ⟨-, heq⟩ | heq
            · right
              have hwrite : s.write? (.insertFile (c.newFile P fp a.uuid a.now)) = some s' := by
                rcases heq with heq | heq <;> rwa [heq] at hw
              obtain ⟨files, hinsert, rfl⟩ := Store.write?_insertFile hwrite
              refine ⟨c.newFile P fp a.uuid a.now, ?_, rfl, hfp⟩
              rw [Table.rows_insert? hinsert]
              exact List.mem_append_right _ (List.mem_singleton.mpr rfl)
            · rw [heq] at hw
              cases hw
              exact .inl rfl
  · right
    obtain ⟨f', hf', hle⟩ := he.files (Table.get?_of_mem hf)
    exact ⟨f', Table.mem_of_get? hf', hmatches.later hle⟩

end conflicts

/-! ### Calls in threads -/

section threads

variable {P : Platform} {cfg : ScannerConfig} {a : Answer} {s : Store} {v v' : Thread P}
  {w : Write} {c : StartCall} {pc : StartPc}

/-- An action of a thread that is starting an upload is one of the call. -/
theorem Thread.Starts.act (hv : v.Starts c pc) (h : v.act cfg a s = some (v', w)) :
    ∃ o, c.step P a s pc = some o ∧ o.write = w := by
  cases hv with
  | upload =>
      obtain ⟨o, hstep, heq⟩ := Option.map_eq_some_iff.mp h
      exact ⟨o, hstep, (Prod.mk.inj heq).2⟩
  | attachment =>
      obtain ⟨o, hp, heq⟩ := Option.map_eq_some_iff.mp h
      obtain ⟨o', hstep, rfl⟩ := Option.map_eq_some_iff.mp hp
      refine ⟨o', hstep, (Eq.trans ?_ (Prod.mk.inj heq).2)⟩
      split
      · rfl
      · rfl
      · split <;> rfl
      · rfl
      · rfl

theorem Thread.Starts.outline (hv : v.Starts c pc) (hok : v.Ok s) (hmatches : v.Matches s) :
    pc.Ok s ∧ pc.Matches P c s := by
  cases hv with
  | upload => exact ⟨hok, hmatches⟩
  | attachment => exact ⟨hok.1, hmatches.2.2.2.2⟩

theorem Thread.Starts.not_initial (hv : v.Starts c pc) (hpc : pc ≠ .select) :
    v.initial = false := by
  cases hv with
  | upload => simp [initial, hpc]
  | attachment => simp [initial]

theorem Thread.not_starts_crash : ¬v.crash.Starts c pc := by
  intro h
  generalize hu : v.crash = u at h
  cases h with
  | upload =>
      cases v with
      | startUpload d p => exact Progress.crash_ne_running (Thread.startUpload.inj hu).2
      | presignPart | completeUpload | download | scanFile | recoverStaleUploads | createImport
      | submitImport | readImport => cases hu
  | attachment =>
      cases v with
      | createImport d p => exact Progress.crash_ne_running (Thread.createImport.inj hu).2
      | startUpload | presignPart | completeUpload | download | scanFile | recoverStaleUploads
      | submitImport | readImport => cases hu

theorem StartPc.provision_ne_commit {f g : File} {m : Text} (leftovers : List Text) :
    StartPc.provision g leftovers ≠ .commit f m := by
  cases leftovers <;> exact StartPc.noConfusion

/-- The multipart upload that a call is about to record is open. -/
theorem StartCall.commit_of_step {o : Outcome StartPc File} {f : File} {m : Text}
    (h : c.step P a s pc = some o) (ho : o.progress = .running (.commit f m)) :
    (f.objectKey, m) ∈ s.storage.uploads ∨ o.write = .call (.createMultipart f.objectKey m) := by
  have hreuse : ∀ fp g, (reuse fp g).progress ≠ .running (.commit f m) := by
    intro fp g
    unfold reuse
    split <;> exact fun he => by cases he
  cases pc with
  | select =>
      cases h
      exfalso
      split at ho
      · cases ho
      · split at ho
        · cases ho
        · split at ho
          · cases ho
          · have ho := Outcome.running_read ho
            split at ho
            · exact hreuse _ _ ho
            · cases ho
  | insert =>
      cases h
      exfalso
      split at ho
      · cases ho
      · split at ho
        · exact hreuse _ _ (Outcome.running_read ho)
        · cases (Outcome.running_commit ho).1
  | lock fileId =>
      cases h
      exfalso
      have ho := Outcome.running_read ho
      split at ho
      · cases ho
      · split at ho
        · cases ho
        · split at ho <;> cases ho
  | list file =>
      cases h
      split at ho
      · cases ho
      · split at ho
        · rename_i m' hlist
          cases ho
          left
          rw [← Storage.mem_listMultipartUploads, hlist]
          exact List.mem_singleton.mpr rfl
        · exact absurd (Progress.running.inj ho) (StartPc.provision_ne_commit _)
  | abort file leftovers =>
      exfalso
      cases leftovers with
      | nil =>
          cases h
          cases ho
      | cons m' rest =>
          cases h
          exact absurd (Progress.running.inj ho) (StartPc.provision_ne_commit rest)
  | create file =>
      simp only [step] at h
      split at h
      · cases h
      · cases h
        simp only [Outcome.attempt] at ho ⊢
        split at ho
        · rename_i hfate
          cases ho
          right
          rw [hfate]
          rfl
        · cases ho
  | commit file multipartId =>
      cases h
      cases (Outcome.running_commit ho).1

theorem CreateCall.next_ne_upload {d : CreateCall P} {uploads uploads' : List File}
    {ds rest : List (AttachmentDeclaration P)} (hpc : pc ≠ .select) :
    d.next uploads ds ≠ .running (.upload c rest uploads' pc) := by
  cases ds with
  | nil => simp [next]
  | cons declaration ds =>
      simp only [next]
      split
      · simp
      · simp only [ne_eq, Progress.running.injEq, CreatePc.upload.injEq, not_and]
        exact fun _ _ _ h => hpc h.symm

/-- A create call in the midst of an upload was there before. -/
theorem CreateCall.upload_of_step {d : CreateCall P} {pc₀ : CreatePc P}
    {o : Outcome (CreatePc P) ImportJobResult} {rest : List (AttachmentDeclaration P)}
    {uploads : List File} (hpc : pc ≠ .select) (h : d.step a s pc₀ = some o)
    (ho : o.progress = .running (.upload c rest uploads pc)) :
    ∃ pc' o', pc₀ = .upload c rest uploads pc' ∧ c.step P a s pc' = some o' ∧
      o'.progress = .running pc ∧ o'.write = o.write := by
  have hreplay : ∀ job, (d.replay s job).progress ≠ .running (.upload c rest uploads pc) := by
    intro job
    unfold replay
    split <;> exact fun he => by cases he
  cases pc₀ with
  | begin =>
      cases h
      exfalso
      split at ho
      · cases ho
      · split at ho
        · cases ho
        · cases Outcome.running_read ho
  | deny projectId =>
      cases h
      cases (Outcome.running_commit ho).1
  | existing =>
      cases h
      exfalso
      have ho := Outcome.running_read ho
      split at ho
      · exact hreplay _ ho
      · exact next_ne_upload hpc ho
  | upload current rest' uploads' pc' =>
      obtain ⟨o', hstep, rfl⟩ := Option.map_eq_some_iff.mp h
      split at ho
      · rename_i pc'' hprogress
        obtain ⟨rfl, rfl, rfl, rfl⟩ := CreatePc.upload.inj (Progress.running.inj ho)
        exact ⟨pc', o', rfl, hstep, hprogress, rfl⟩
      · exact absurd ho (next_ne_upload hpc)
      · split at ho <;> cases ho
      · cases ho
      · cases ho
  | persist uploads' =>
      cases h
      exfalso
      have ho := Outcome.running_read ho
      split at ho
      · exact hreplay _ ho
      · cases ho
  | insert uploads' =>
      simp only [step] at h
      split at h
      · cases h
        exact absurd (Outcome.running_read ho) (hreplay _)
      · split at h
        · cases h
        · cases h
          cases (Outcome.running_commit ho).1

/-- Whoever is about to record a multipart upload has found it or opens it. -/
theorem Thread.commit_of_act {f : File} {m : Text} (h : v.act cfg a s = some (v', w))
    (hv : v'.Starts c (.commit f m)) :
    (f.objectKey, m) ∈ s.storage.uploads ∨ w = .call (.createMultipart f.objectKey m) := by
  cases v with
  | startUpload d p =>
      obtain ⟨o, hp, heq⟩ := Option.map_eq_some_iff.mp h
      obtain ⟨pc, rfl, hstep⟩ := Progress.step_eq_some hp
      obtain ⟨rfl, rfl⟩ := Prod.mk.inj heq
      generalize hprogress : o.progress = p at hv
      cases hv with
      | upload => exact StartCall.commit_of_step hstep hprogress
  | createImport d p =>
      obtain ⟨o, hp, heq⟩ := Option.map_eq_some_iff.mp h
      obtain ⟨pc, rfl, hstep⟩ := Progress.step_eq_some hp
      obtain ⟨rfl, rfl⟩ := Prod.mk.inj heq
      generalize hprogress : o.progress = p at hv
      cases hv with
      | attachment =>
          obtain ⟨pc', o', -, hstep', hprogress', hwrite⟩ :=
            CreateCall.upload_of_step StartPc.noConfusion hstep hprogress
          rw [← hwrite]
          exact StartCall.commit_of_step hstep' hprogress'
  | presignPart | completeUpload | download | scanFile | recoverStaleUploads | submitImport
  | readImport =>
      obtain ⟨o, -, heq⟩ := Option.map_eq_some_iff.mp h
      obtain ⟨rfl, -⟩ := Prod.mk.inj heq
      cases hv

end threads

/-! ### Multipart uploads -/

section multipart

variable {P : Platform} {cfg : ScannerConfig}

/-- In the course of the run the storage had the upload open under the key. -/
def Opened (cfg : ScannerConfig) (start : SystemState P) (es : List (SystemEvent P))
    (key m : Text) : Prop :=
  ∃ es₁ es₂ u, es = es₁ ++ es₂ ∧ run (next P cfg) start es₁ = some u ∧
    (key, m) ∈ u.store.storage.uploads

theorem Opened.now {start s : SystemState P} {es : List (SystemEvent P)} {key m : Text}
    (h : run (next P cfg) start es = some s) (hopen : (key, m) ∈ s.store.storage.uploads) :
    Opened cfg start es key m :=
  ⟨es, [], s, (List.append_nil es).symm, h, hopen⟩

theorem Opened.append {start : SystemState P} {es : List (SystemEvent P)} {key m : Text}
    (h : Opened cfg start es key m) (e : SystemEvent P) : Opened cfg start (es ++ [e]) key m := by
  obtain ⟨es₁, es₂, u, rfl, hu, hopen⟩ := h
  exact ⟨es₁, es₂ ++ [e], u, List.append_assoc .., hu, hopen⟩

/-- Recorded uploads, and those about to be recorded, were open under the key of
their file. -/
structure Recorded (cfg : ScannerConfig) (start : SystemState P) (es : List (SystemEvent P))
    (s : SystemState P) : Prop where
  commits : ∀ {i : Nat} {v : Thread P} {c : StartCall} {f : File} {m : Text},
    s.threads[i]? = some v → v.Starts c (.commit f m) → Opened cfg start es f.objectKey m
  files : ∀ {id : UUID} {f : File} {m : Text}, s.store.files.get? id = some f →
    f.multipartId = some m → Opened cfg start es f.objectKey m

theorem Thread.act_provision {a : Answer} {s : Store} {v v' : Thread P} {id : UUID} {m : Text}
    {now : Instant} {row : Option AuditLog} (hs : WellFormed s) (hok : v.Ok s)
    (h : v.act cfg a s = some (v', .updateFile id (.provision m now) row)) :
    ∃ c f, v.Starts c (.commit f m) ∧ id = f.id := by
  have hupdates := Thread.act_update hs hok h
  generalize hu : FileUpdate.provision m now = u at hupdates
  cases hupdates with
  | start =>
      cases hu
      exact ⟨_, _, .upload, rfl⟩
  | create =>
      cases hu
      exact ⟨_, _, .attachment, rfl⟩
  | mismatch | complete | claim | verdict | expire => cases hu

theorem Recorded.step {start s t : SystemState P} {es : List (SystemEvent P)}
    {e : SystemEvent P} (hrun : run (next P cfg) start es = some s) (hs : Consistent cfg s)
    (hmatches : ∀ {i : Nat} {v : Thread P}, s.threads[i]? = some v → v.Matches s.store)
    (h : Recorded cfg start es s) (hstep : next P cfg s e = some t) :
    Recorded cfg start (es ++ [e]) t where
  commits {i v c f m} hv hstarts := by
    have hhappens := hs.happens hstep
    rcases hhappens.thread_cases hv with
      hsame | hinitial | ⟨u, -, rfl⟩ | ⟨a, u, w, rfl, hu, hact, hwrite⟩
    · exact (h.commits hsame hstarts).append _
    · rw [hstarts.not_initial StartPc.noConfusion] at hinitial
      cases hinitial
    · exact absurd hstarts Thread.not_starts_crash
    · rcases Thread.commit_of_act hact hstarts with hopen | rfl
      · exact (Opened.now hrun hopen).append _
      · refine Opened.now (run_concat_of hrun hstep) ?_
        rw [← Option.some.inj hwrite]
        exact List.mem_append_right _ (List.mem_singleton.mpr rfl)
  files {id f m} hget hm := by
    cases hs.happens hstep with
    | spawn | crash => exact (h.files hget hm).append _
    | act hthread hfree hact hwrite hsound =>
        rcases hsound.effect.file_cases hwrite hget with
          hsame | ⟨-, -, -, hnone⟩ | ⟨g, u, row, hg, rfl, hmove, rfl⟩
        · exact (h.files hsame hm).append _
        · rw [hm] at hnone
          cases hnone
        · cases hmove with
          | settle => exact (h.files hg hm).append _
          | @provision m' now hstate hnone =>
              have hsame : m' = m := by
                rw [FileUpdate.apply_multipartId] at hm
                exact Option.some.inj hm
              subst hsame
              obtain ⟨c, f, hstarts, rfl⟩ := Thread.act_provision hs.wellFormed (hs.ok hthread) hact
              obtain rfl : f = g := by
                have hok := (hstarts.outline (hs.ok hthread) (hmatches hthread)).1
                exact Option.some.inj (hok.1.get.symm.trans hg)
              exact (h.commits hthread hstarts).append _

theorem recorded_of_run {projects : List UUID} {es : List (SystemEvent P)} {s : SystemState P}
    (h : run (next P cfg) (initialState P projects) es = some s) :
    Recorded cfg (initialState P projects) es s := by
  refine run_induction (I := fun es s => Recorded cfg (initialState P projects) es s) ?_
    (fun es s e t hs hinv hstep => ?_) h
  · exact ⟨fun hget => (by cases hget), fun hget => (by cases hget)⟩
  · exact hinv.step hs (consistent_of_reachable ⟨es, hs⟩)
      (fun hthread => matches_of_reachable ⟨es, hs⟩ hthread) hstep

end multipart

/-! ### Idempotency -/

/-- What holds of starting uploads after a run. -/
structure StartsOnce (P : Platform) (cfg : ScannerConfig) (start : SystemState P)
    (es : List (SystemEvent P)) (s : SystemState P) : Prop where
  /-- One file for each project, uploader and key. -/
  unique : ∀ f ∈ s.store.files.rows, ∀ g ∈ s.store.files.rows, f.uploadKey = g.uploadKey → f = g
  /-- Calls with one key that were answered, now and now or later. -/
  agree : ∀ t, Reachable (next P cfg) s t →
    ∀ (i j : Nat) (v w : Thread P) (c c' : StartCall) (f f' : File), s.threads[i]? = some v → v.Answered c f → t.threads[j]? = some w → w.Answered c' f' →
    c.uploadKey = c'.uploadKey →
    f.identity = f'.identity ∧ f.multipartId = f'.multipartId ∧ f.multipartId ≠ none ∧
      (NoCollision P c.command.metadata.hashed c'.command.metadata.hashed →
        c.command.metadata = c'.command.metadata)
  /-- A call with other metadata than the stored file: it has no answer, and its
  next action writes nothing and raises, the conflict unless the action fails or
  the arguments of the call do not pass the checks before it. -/
  refused : ∀ g ∈ s.store.files.rows, ∀ c : StartCall, g.uploadKey = c.uploadKey →
    g.metadata ≠ c.command.metadata →
    NoCollision P g.metadata.hashed c.command.metadata.hashed →
    ∀ (i : Nat) (v : Thread P), s.threads[i]? = some v → (∀ f, ¬v.Answered c f) ∧
    ∀ pc, v.Starts c pc → ∀ a o, c.step P a s.store pc = some o →
      o.write = .nothing ∧ ∃ e, o.progress = .raised e ∧
        (a.fate = .ok → c.authorize = .ok () → Text.isIdempotencyKey c.idempotencyKey = true →
          fingerprint P c.command ≠ none → e = .domain StartCall.conflict)
  /-- A call that writes is never one with other metadata than the stored file. -/
  writes : ∀ (i : Nat) (a : Answer) (v : Thread P) (c : StartCall) (pc : StartPc)
    (t : SystemState P), s.threads[i]? = some v → v.Starts c pc →
    next P cfg s (.act i a) = some t → t.store ≠ s.store → ∀ u, Reachable (next P cfg) t u →
    ∀ g ∈ u.store.files.rows, g.uploadKey = c.uploadKey →
    NoCollision P g.metadata.hashed c.command.metadata.hashed → g.metadata = c.command.metadata
  /-- A recorded multipart upload was open under the key of the file, and stays recorded. -/
  multipart : ∀ id f m, s.store.files.get? id = some f → f.multipartId = some m →
    Opened cfg start es f.objectKey m ∧ ∀ t, Reachable (next P cfg) s t →
      ∃ f', t.store.files.get? id = some f' ∧ f'.multipartId = some m

section idempotency

variable {P : Platform} {cfg : ScannerConfig} {projects : List UUID} {s t : SystemState P}

theorem fingerprint_of_metadata {c d : StartCall} {g : File} (hd : d.Matches P g)
    (hmetadata : g.metadata = d.command.metadata)
    (hno : NoCollision P g.metadata.hashed c.command.metadata.hashed)
    (hc : fingerprint P c.command = some g.metadataFingerprint) :
    g.metadata = c.command.metadata := by
  rw [hmetadata] at hno ⊢
  exact metadata_of_fingerprint hd.fingerprint hc hno

/-- In every run, starting an upload is idempotent. -/
theorem start_idempotent (projects : List UUID) {es : List (SystemEvent P)}
    (h : run (next P cfg) (initialState P projects) es = some s) :
    StartsOnce P cfg (initialState P projects) es s where
  unique f hf g hg := Store.file_unique hf hg
  agree t hst i j v w c c' f f' hv hf hw hf' hkey := by
    obtain ⟨hidentity, hmultipart, hm, hfp⟩ := answers_agree ⟨es, h⟩ hst hv hf hw hf' hkey
    refine ⟨hidentity, hmultipart, hm, fun hno => ?_⟩
    have hmatches := (answered_of_reachable ⟨es, h⟩ hv hf).1.fingerprint
    exact metadata_of_fingerprint hmatches (hfp.symm.trans hmatches) hno
  refused g hg c hkey hdiffer hno i v hv := by
    obtain ⟨d, hd, hmetadata⟩ := started_of_reachable ⟨es, h⟩ _ _ (Table.get?_of_mem hg)
    have hconflicts : c.Conflicts P s.store g :=
      ⟨hg, hkey, fun hc => hdiffer (fingerprint_of_metadata hd hmetadata hno hc)⟩
    refine ⟨fun f hf => ?_, fun pc hstarts a o hstep => ?_⟩
    · obtain ⟨hmatches, -, g', hg', hle⟩ := answered_of_reachable ⟨es, h⟩ hv hf
      exact hconflicts.no_match (Table.mem_of_get? hg') (hmatches.later hle)
    · obtain ⟨hok, hmatches⟩ := hstarts.outline ((consistent_of_reachable ⟨es, h⟩).ok hv)
        (matches_of_reachable ⟨es, h⟩ hv)
      rcases hmatches.stored hok with hpc | hpc | ⟨f, hf, hmatch⟩
      · exact hconflicts.step (.inl hpc) hstep
      · exact hconflicts.step (.inr hpc) hstep
      · exact absurd hmatch (hconflicts.no_match hf)
  writes i a v c pc t hv hstarts hstep hchanged u htu g hg hkey hno := by
    have hs := consistent_of_reachable ⟨es, h⟩
    have hu := (Reachable.step ⟨es, h⟩ hstep).trans htu
    obtain ⟨d, hd, hmetadata⟩ := started_of_reachable hu _ _ (Table.get?_of_mem hg)
    cases hs.happens hstep with
    | act hthread hfree hact hwrite hsound =>
        obtain rfl := Option.some.inj (hv.symm.trans hthread)
        obtain ⟨o, hcall, rfl⟩ := hstarts.act hact
        obtain ⟨hok, hmatches⟩ := hstarts.outline (hs.ok hv) (matches_of_reachable ⟨es, h⟩ hv)
        rcases StartCall.write_cases hcall hmatches hok hwrite (hsound.effect.evolves hwrite) with
          hsame | ⟨f, hf, hmatch⟩
        · exact absurd hsame hchanged
        · obtain ⟨f', hf', hle⟩ := ((hs.step hstep).evolves htu).files (Table.get?_of_mem hf)
          have hfile := hmatch.later hle
          obtain rfl := Store.file_unique (Table.mem_of_get? hf') hg
            (hfile.uploadKey.trans hkey.symm)
          exact fingerprint_of_metadata hd hmetadata hno hfile.fingerprint
  multipart id f m hget hm := by
    refine ⟨(recorded_of_run h).files hget hm, fun t hst => ?_⟩
    obtain ⟨f', hf', hle⟩ := ((consistent_of_reachable ⟨es, h⟩).evolves hst).files hget
    exact ⟨f', hf', hle.multipart m hm⟩

end idempotency

/-! ### A sample run with a lost response -/

namespace Sample

def firstUpload : StartCall := upload

def otherUpload : StartCall :=
  { upload with
    command := { upload.command with
      filename := Text.ofString "other.bin"
      safeFilename := by decide } }

/-- SHA-256 on the bytes that the two calls hash. -/
def uploadHash (b : Bytes) : Text :=
  if b = firstUpload.command.metadata.hashed then
    Text.ofString "f2d756e9777426a7a679ed15c4cf43b2aa5b091748fe19c92a36ea1ac305cb7d"
  else if b = otherUpload.command.metadata.hashed then
    Text.ofString "b6fcf4a69c460d34cf6b65425c5263de67d60acd794bb592d6374a0cb104031a"
  else 0 :: b.map UInt8.toNat

def uploadPlatform : Platform := platformWith uploadHash

/-- The response to the creation of the multipart upload is lost. The next call
finds the upload, a third one its row, and a call with another name neither. -/
def uploadRetried : List (SystemEvent uploadPlatform) :=
  .spawn (.startUpload firstUpload (.running .select)) :: List.replicate 4 (.act 0 answer) ++
    .act 0 { answer with fate := .lost } ::
    .spawn (.startUpload firstUpload (.running .select)) :: List.replicate 4 (.act 1 answer) ++
    .spawn (.startUpload firstUpload (.running .select)) :: List.replicate 2 (.act 2 answer) ++
    [.spawn (.startUpload otherUpload (.running .select)), .act 3 answer]

/-- The row of the first call, with its multipart upload. -/
def startedFile : File :=
  { firstUpload.newFile uploadPlatform (uploadHash firstUpload.command.metadata.hashed) 10 0 with
    multipartId := some (Text.ofString "m") }

def retryThreads : List (Thread uploadPlatform) :=
  [.startUpload firstUpload (.raised (.domain fileProvisioningPendingError)),
    .startUpload firstUpload (.returned startedFile),
    .startUpload firstUpload (.returned startedFile),
    .startUpload otherUpload (.raised (.domain StartCall.conflict))]

end Sample

/-- The retries agree, and the call with another name has no answer. -/
theorem start_idempotent_retry :
    ∃ s, run (next Sample.uploadPlatform Sample.scanner) (initialState Sample.uploadPlatform [1])
        Sample.uploadRetried = some s ∧ s.threads = Sample.retryThreads ∧
      StartsOnce Sample.uploadPlatform Sample.scanner (initialState Sample.uploadPlatform [1])
        Sample.uploadRetried s := by
  have hrun : ((run (next Sample.uploadPlatform Sample.scanner)
      (initialState Sample.uploadPlatform [1]) Sample.uploadRetried).map fun s =>
        decide (s.threads = Sample.retryThreads)) = some true := by
    decide +kernel
  obtain ⟨s, hs, hthreads⟩ := Option.map_eq_some_iff.mp hrun
  exact ⟨s, hs, of_decide_eq_true hthreads, start_idempotent [1] hs⟩

end SuperBoss.Server
