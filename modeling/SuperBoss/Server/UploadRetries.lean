import SuperBoss.Server.Recovery
import SuperBoss.Server.StartIdempotency

/-!
Retries of an upload start. While the file of the key is `UPLOADING`, a retry
that nobody disturbs ends with the file and its multipart upload; once the file
has left `UPLOADING`, its key is spent and no start call is answered with a file
any more.
-/

namespace SuperBoss.Server

open SuperBoss.Core
open SuperBoss.Library
open SuperBoss.Library.Interleaving
open SuperBoss.Library.Transition
open SuperBoss.Files
open SuperBoss.Imports
open SuperBoss.Infrastructure.Clamav

/-! ### Spent keys -/

theorem FileLe.uploadKey_eq {f f' : File} (h : FileLe f f') : f'.uploadKey = f.uploadKey :=
  congrArg (fun i => (i.2.1, i.2.2.2.2.2.2.2.2.2.1, i.2.2.2.2.2.2.2.2.1,
    i.2.2.2.2.2.2.2.2.2.2.2.2.1)) h.identity

/-- The file of an upload key is still `UPLOADING`. -/
def KeyOpen (s : Store) (c : StartCall) : Prop :=
  ∃ f, s.files.get? f.id = some f ∧ f.uploadKey = c.uploadKey ∧ f.state = .uploading

section spent

variable {P : Platform} {cfg : ScannerConfig} {a : Answer} {s : Store} {c : StartCall} {g : File}

theorem StartCall.open_of_returned {pc : StartPc} {o : Outcome StartPc File} (hok : pc.Ok s)
    (hmatches : pc.Matches P c s) (h : c.step P a s pc = some o) (ho : o.progress = .returned g) :
    KeyOpen s c := by
  have hreuse : ∀ fp f, (reuse fp f).progress ≠ .returned g := by
    intro fp f
    unfold reuse
    split <;> exact fun he => by cases he
  cases pc with
  | select =>
      cases h
      exfalso
      split at ho
      · cases ho
      · split at ho
        · cases ho
        · split at ho
          · cases ho
          · have ho := Outcome.returned_read ho
            split at ho
            · exact hreuse _ _ ho
            · cases ho
  | insert =>
      cases h
      exfalso
      split at ho
      · cases ho
      · split at ho
        · exact hreuse _ _ (Outcome.returned_read ho)
        · rcases Outcome.commit_cases s a.fate (.insertFile (c.newFile P _ a.uuid a.now))
            (.running (.lock a.uuid) : Progress StartPc File) with ⟨-, heq | heq⟩ | heq
          · rw [heq] at ho
            cases ho
          · rw [heq] at ho
            cases ho
          · rw [heq] at ho
            cases ho
  | lock fileId =>
      cases h
      obtain ⟨f, hf, hfile⟩ := hmatches
      have ho := Outcome.returned_read ho
      rw [hf] at ho
      dsimp only at ho
      split at ho
      · cases ho
      · rename_i hstate
        obtain rfl := Table.key_of_get? hf
        exact ⟨f, hf, hfile.uploadKey, not_not.mp hstate⟩
  | list file =>
      cases h
      exfalso
      split at ho
      · cases ho
      · split at ho <;> cases ho
  | abort file leftovers =>
      cases leftovers with
      | nil =>
          cases h
          cases ho
      | cons m rest =>
          cases h
          cases ho
  | create file =>
      simp only [step] at h
      split at h
      · cases h
      · cases h
        simp only [Outcome.attempt] at ho
        split at ho <;> cases ho
  | commit file m => exact ⟨file, hok.1.get, hmatches.uploadKey, hok.1.state⟩

theorem CreateCall.answered_next {d : CreateCall P} {uploads : List File}
    {rest : List (AttachmentDeclaration P)} {pc : CreatePc P}
    (h : d.next uploads rest = .running pc) : pc.uploads = uploads := by
  cases rest with
  | nil =>
      cases h
      rfl
  | cons declaration rest =>
      simp only [next] at h
      split at h
      · cases h
      · cases h
        rfl

/-- An action of a create call that adds a file to its uploads. -/
theorem CreateCall.uploads_of_step {d : CreateCall P} {pc pc' : CreatePc P}
    {o : Outcome (CreatePc P) ImportJobResult} (hok : pc.Ok d s) (hmatches : pc.Matches d s)
    (h : d.step a s pc = some o) (ho : o.progress = .running pc') {i : Nat}
    (hg : pc'.uploads[i]? = some g) (hc : d.Uploads i c) :
    pc.uploads[i]? = some g ∨ KeyOpen s c := by
  have hreplay : ∀ job, (d.replay s job).progress ≠ .running pc' := by
    intro job
    unfold replay
    split <;> exact fun he => by cases he
  cases pc with
  | begin =>
      cases h
      split at ho
      · cases ho
      · split at ho
        · cases ho
          cases hg
        · cases Outcome.running_read ho
          cases hg
  | deny projectId =>
      cases h
      cases (Outcome.running_commit ho).1
  | existing =>
      cases h
      have ho := Outcome.running_read ho
      split at ho
      · exact absurd ho (hreplay _)
      · rw [answered_next ho] at hg
        cases hg
  | upload current rest uploads pc =>
      obtain ⟨-, huploaded, hcurrent, -, hpc⟩ := hmatches
      obtain ⟨o', hstep, rfl⟩ := Option.map_eq_some_iff.mp h
      split at ho
      · cases ho
        exact .inl hg
      · rename_i file hprogress
        rw [answered_next ho] at hg
        rcases getElem?_append_cases hg with ⟨rfl, rfl⟩ | hg
        · -- The answer to the current upload.
          obtain ⟨declaration, hget, hstart⟩ := hcurrent
          obtain ⟨declaration', hget', hstart'⟩ := hc
          obtain rfl := Option.some.inj (hget.symm.trans hget')
          obtain rfl := Option.some.inj (hstart.symm.trans hstart')
          exact .inr (StartCall.open_of_returned hok.1 hpc hstep hprogress)
        · exact .inl hg
      · split at ho <;> cases ho
      · cases ho
      · cases ho
  | persist uploads =>
      cases h
      have ho := Outcome.running_read ho
      split at ho
      · exact absurd ho (hreplay _)
      · cases ho
        exact .inl hg
  | insert uploads =>
      simp only [step] at h
      split at h
      · cases h
        exact absurd (Outcome.running_read ho) (hreplay _)
      · split at h
        · cases h
        · cases h
          cases (Outcome.running_commit ho).1

/-- A new answer is given while the file is `UPLOADING`. -/
theorem Thread.answered_of_act {v v' : Thread P} {w : Write} (hok : v.Ok s)
    (hmatches : v.Matches s) (h : v.act cfg a s = some (v', w)) (hv : v'.Answered c g) :
    v.Answered c g ∨ KeyOpen s c := by
  cases v with
  | startUpload d p =>
      obtain ⟨o, hp, heq⟩ := Option.map_eq_some_iff.mp h
      obtain ⟨pc, rfl, hstep⟩ := Progress.step_eq_some hp
      obtain ⟨rfl, -⟩ := Prod.mk.inj heq
      generalize hprogress : o.progress = p at hv
      cases hv with
      | upload => exact .inr (StartCall.open_of_returned hok hmatches hstep hprogress)
  | createImport d p =>
      obtain ⟨o, hp, heq⟩ := Option.map_eq_some_iff.mp h
      obtain ⟨pc, rfl, hstep⟩ := Progress.step_eq_some hp
      obtain ⟨rfl, -⟩ := Prod.mk.inj heq
      generalize hprogress : o.progress = p at hv
      cases hv with
      | attachment hg hc =>
          rcases CreateCall.uploads_of_step hok hmatches hstep hprogress hg hc with hg | hopen
          · exact .inl (.attachment hg hc)
          · exact .inr hopen
  | presignPart | completeUpload | download | scanFile | recoverStaleUploads | submitImport
  | readImport =>
      obtain ⟨o, -, heq⟩ := Option.map_eq_some_iff.mp h
      obtain ⟨rfl, -⟩ := Prod.mk.inj heq
      cases hv

theorem Thread.not_answered_initial {v : Thread P} (h : v.initial = true) : ¬v.Answered c g := by
  intro hv
  cases hv with
  | upload => cases h
  | attachment hg hc =>
      obtain rfl := Progress.running.inj (of_decide_eq_true h)
      cases hg

theorem Thread.Answered.of_crash {v : Thread P} (h : v.crash.Answered c g) : v.Answered c g := by
  generalize hv : v.crash = u at h
  cases v with
  | startUpload d p | presignPart d p | completeUpload d p | download d p | scanFile d p
  | recoverStaleUploads d p | createImport d p | submitImport d p | readImport d p =>
      subst hv
      cases p with
      | running pc => cases h
      | returned r => exact h
      | raised e => exact h
      | crashed => exact h

end spent

/-- Once the file of an upload key has left `UPLOADING`, no call with the key is
answered with a file any more, directly or for an attachment. -/
theorem key_spent (P : Platform) (cfg : ScannerConfig) (projects : List UUID)
    {s t : SystemState P} (hs : Reachable (next P cfg) (initialState P projects) s)
    (ht : Reachable (next P cfg) s t) {id : UUID} {f : File}
    (hget : s.store.files.get? id = some f) (hstate : f.state ≠ .uploading) {c : StartCall}
    (hkey : c.uploadKey = f.uploadKey) {j : Nat} {v : Thread P} {g : File}
    (hthread : t.threads[j]? = some v) (hv : v.Answered c g) :
    ∃ u, s.threads[j]? = some u ∧ u.Answered c g := by
  have hconsistent : Consistent cfg s := consistent_of_reachable hs
  revert j v
  refine ht.induction (I := fun t => ∀ {j : Nat} {v : Thread P}, t.threads[j]? = some v →
      v.Answered c g → ∃ u : Thread P, s.threads[j]? = some u ∧ u.Answered c g)
    (fun hthread hv => ⟨_, hthread, hv⟩) fun u e t hu hinv hstep j v hthread hv => ?_
  have hreachable := hs.trans hu
  have hu' : Consistent cfg u := consistent_of_reachable hreachable
  rcases (hu'.happens hstep).thread_cases hthread with
    hsame | hinitial | ⟨w, hw, rfl⟩ | ⟨a, w, write, -, hw, hact, -⟩
  · exact hinv hsame hv
  · exact absurd hv (Thread.not_answered_initial hinitial)
  · exact hinv hw hv.of_crash
  · rcases Thread.answered_of_act (hu'.ok hw) (matches_of_reachable hreachable hw) hact hv with
      hold | ⟨f', hf', hkey', hopen⟩
    · exact hinv hw hold
    · -- The file of the key is the one that has left `UPLOADING`.
      obtain ⟨f'', hf'', hle⟩ := (hconsistent.evolves hu).files hget
      obtain rfl := Store.file_unique (Table.mem_of_get? hf') (Table.mem_of_get? hf'')
        (hkey'.trans (hkey.trans (FileLe.uploadKey_eq hle).symm))
      exact absurd hopen (hle.state.ne_uploading hstate)

/-! ### A retry alone -/

/-- Thread `j` ends so if it acts alone from now on. -/
def Finishes {P : Platform} (cfg : ScannerConfig) (answers : Nat → Answer) (j k : Nat)
    (s : SystemState P) (Q : Store → Thread P → Prop) : Prop :=
  ∃ (n : Nat) (t : SystemState P) (v : Thread P),
    run (next P cfg) s ((List.range' k n).map fun i => .act j (answers i)) = some t ∧
      t.threads[j]? = some v ∧ Q t.store v

section alone

variable {P : Platform} {cfg : ScannerConfig} {answers : Nat → Answer} {j k : Nat}
  {s : SystemState P} {Q : Store → Thread P → Prop} {c : StartCall} {f : File}

theorem Finishes.now {v : Thread P} (hget : s.threads[j]? = some v) (h : Q s.store v) :
    Finishes cfg answers j k s Q := ⟨0, s, v, rfl, hget, h⟩

theorem Finishes.act {v v' : Thread P} {w : Write} {store : Store}
    (hget : s.threads[j]? = some v) (hfree : (program P cfg).Free s.threads j v)
    (hact : v.act cfg (answers k) s.store = some (v', w)) (hwrite : s.store.write? w = some store)
    (hrest : Finishes cfg answers j (k + 1) ⟨store, s.threads.set j v'⟩ Q) :
    Finishes cfg answers j k s Q := by
  obtain ⟨n, t, u, hrun, hu, hQ⟩ := hrest
  refine ⟨n + 1, t, u, ?_, hu, hQ⟩
  have hnext : next P cfg s (.act j (answers k)) = some ⟨store, s.threads.set j v'⟩ := by
    refine (program P cfg).apply_of_step (.act hget hfree ?_)
    refine (program_next_eq_some P cfg).mpr ⟨w, hact, ?_⟩
    rw [Store.write, hwrite]
    rfl
  rw [List.range'_succ, List.map_cons, run_cons_of hnext]
  exact hrun

/-- One action of a start call that needs no lock. -/
theorem Finishes.start {pc : StartPc} {o : Outcome StartPc File} {store : Store}
    (hget : s.threads[j]? = some (.startUpload c (.running pc))) (hneeds : pc.needs = [])
    (hstep : c.step P (answers k) s.store pc = some o)
    (hwrite : s.store.write? o.write = some store)
    (hrest : ∀ s' : SystemState P, s'.store = store →
      s'.threads[j]? = some (.startUpload c o.progress) → Finishes cfg answers j (k + 1) s' Q) :
    Finishes cfg answers j k s Q := by
  have hlt := (List.getElem?_eq_some_iff.mp hget).1
  exact .act hget (free_of_needs_nil hneeds) (c.embeds.act hstep) hwrite
    (hrest _ rfl (List.getElem?_set_self hlt))

/-- The file, with a multipart upload that its row records. -/
def Provisioned (c : StartCall) (f : File) (store : Store) (v : Thread P) : Prop :=
  ∃ m f', v = .startUpload c (.returned { f with multipartId := some m }) ∧
    store.files.get? f.id = some f' ∧ f'.multipartId = some m

/-- Everything outside answers, and the storage issues new upload ids. -/
structure Serves (answers : Nat → Answer) (s : Store) : Prop where
  fate : ∀ i, (answers i).fate = .ok
  fresh : ∀ i, (answers i).multipartId ∉ s.storage.issued

theorem finishes_commit {m : Text} (hfate : ∀ i, (answers i).fate = .ok)
    (hun : Unprovisioned s.store f)
    (hget : s.threads[j]? = some (.startUpload c (.running (.commit f m)))) :
    Finishes cfg answers j k s (Provisioned c f) := by
  have hwrite : s.store.write? (.updateFile f.id (.provision m (answers k).now) none) =
      some (s.store.modifyFile f.id (.provision m (answers k).now)) := rfl
  have hcommit : c.step P (answers k) s.store (.commit f m) =
      some ⟨.returned { f with multipartId := some m },
        .updateFile f.id (.provision m (answers k).now) none⟩ := by
    simp only [StartCall.step, Outcome.commit, hwrite, hfate]
  refine .start hget rfl hcommit hwrite fun s' hs' hget' => .now hget' ?_
  rw [hs']
  exact ⟨m, _, rfl, Store.get?_updateFile hwrite hun.get, rfl⟩

theorem finishes_create (hserves : Serves answers s.store) (hun : Unprovisioned s.store f)
    (hget : s.threads[j]? = some (.startUpload c (.running (.create f)))) :
    Finishes cfg answers j k s (Provisioned c f) := by
  have hcreate : c.step P (answers k) s.store (.create f) =
      some ⟨.running (.commit f (answers k).multipartId),
        .call (.createMultipart f.objectKey (answers k).multipartId)⟩ := by
    simp [StartCall.step, hserves.fresh, Outcome.attempt, hserves.fate, Fate.applied]
  refine .start hget rfl hcreate rfl fun s' hs' hget' => finishes_commit hserves.fate ?_ hget'
  rw [hs']
  exact ⟨hun.get, hun.state, hun.multipart⟩

/-- Every leftover is aborted before the new upload is opened. -/
theorem finishes_provision (leftovers : List Text)
    (hserves : Serves answers s.store) (hun : Unprovisioned s.store f)
    (hget : s.threads[j]? = some (.startUpload c (.running (.provision f leftovers)))) :
    Finishes cfg answers j k s (Provisioned c f) := by
  induction leftovers generalizing s k with
  | nil => exact finishes_create hserves hun hget
  | cons m rest ih =>
      have habort : c.step P (answers k) s.store (.abort f (m :: rest)) =
          some ⟨.running (.provision f rest), .call (.abortMultipart f.objectKey m)⟩ := by
        simp [StartCall.step, Outcome.attempt, hserves.fate, Fate.applied]
      refine .start hget rfl habort rfl fun s' hs' hget' => ih ?_ ?_ hget'
      · rw [hs']
        exact ⟨hserves.fate, hserves.fresh⟩
      · rw [hs']
        exact ⟨hun.get, hun.state, hun.multipart⟩

theorem finishes_list (hserves : Serves answers s.store) (hun : Unprovisioned s.store f)
    (hget : s.threads[j]? = some (.startUpload c (.running (.list f)))) :
    Finishes cfg answers j k s (Provisioned c f) := by
  rcases c.step_list (P := P) (s := s.store) (f := f) (hserves.fate k) with
    ⟨m, hstep⟩ | ⟨leftovers, hstep⟩
  · refine .start hget rfl hstep rfl fun s' hs' hget' => finishes_commit hserves.fate ?_ hget'
    rw [hs']
    exact hun
  · refine .start hget rfl hstep rfl fun s' hs' hget' =>
      finishes_provision leftovers ?_ ?_ hget'
    · rw [hs']
      exact hserves
    · rw [hs']
      exact hun

/-- The outcome of a start call for a file that is there. -/
def RetryOutcome (c : StartCall) (f : File) (store : Store) (v : Thread P) : Prop :=
  if f.state = .uploading then Provisioned c f store v
  else v = .startUpload c (.raised (.domain fileProvisioningPendingError))

theorem finishes_lock (hserves : Serves answers s.store) (hfile : s.store.files.get? f.id = some f)
    (hunlocked : ∀ v ∈ s.threads.eraseIdx j, .file f.id ∉ v.holds)
    (hget : s.threads[j]? = some (.startUpload c (.running (.lock f.id)))) :
    Finishes cfg answers j k s (RetryOutcome c f) := by
  have hfree : (program P cfg).Free s.threads j (.startUpload c (.running (.lock f.id))) := by
    intro u hu r hr
    obtain rfl := List.mem_singleton.mp hr
    exact hunlocked u hu
  have hlt := (List.getElem?_eq_some_iff.mp hget).1
  unfold RetryOutcome
  by_cases hstate : f.state = .uploading
  · simp only [if_pos hstate]
    cases hm : f.multipartId with
    | some m =>
        have hstep : c.step P (answers k) s.store (.lock f.id) = some (.done f) := by
          simp [StartCall.step, Outcome.read, hserves.fate, hfile, hstate, hm]
        refine .act hget hfree (c.embeds.act hstep) rfl
          (.now (List.getElem?_set_self hlt) ⟨m, f, ?_, hfile, hm⟩)
        rw [← hm]
        rfl
    | none =>
        have hstep : c.step P (answers k) s.store (.lock f.id) = some (.goto (.list f)) := by
          simp [StartCall.step, Outcome.read, hserves.fate, hfile, hstate, hm]
        exact .act hget hfree (c.embeds.act hstep) rfl
          (finishes_list hserves ⟨hfile, hstate, hm⟩ (List.getElem?_set_self hlt))
  · simp only [if_neg hstate]
    have hstep : c.step P (answers k) s.store (.lock f.id) =
        some (.reject fileProvisioningPendingError) := by
      simp [StartCall.step, Outcome.read, hserves.fate, hfile, hstate]
    exact .act hget hfree (c.embeds.act hstep) rfl (.now (List.getElem?_set_self hlt) rfl)

end alone

namespace Sample

/-- Another upload id than the one that was issued before. -/
def retryAnswer : Answer := { answer with multipartId := Text.ofString "n" }

end Sample

/-- After its completion an upload cannot be started again. -/
theorem key_spent_completed :
    ∃ s f, run (next Sample.platform Sample.scanner) (initialState Sample.platform [1])
        Sample.uploaded = some s ∧ s.store.files.get? 10 = some f ∧ f.state = .quarantined ∧
      ∀ t, Reachable (next Sample.platform Sample.scanner) s t → ∀ (j : Nat) v g,
        t.threads[j]? = some v → v.Answered Sample.upload g →
          ∃ u : Thread Sample.platform, s.threads[j]? = some u ∧ u.Answered Sample.upload g := by
  have hrun : ((run (next Sample.platform Sample.scanner) (initialState Sample.platform [1])
      Sample.uploaded).bind fun s => (s.store.files.get? 10).map fun f =>
        (f.state, f.uploadKey)) = some (.quarantined, Sample.upload.uploadKey) := by
    decide +kernel
  obtain ⟨s, hs, hfound⟩ := Option.bind_eq_some_iff.mp hrun
  obtain ⟨f, hf, hfound⟩ := Option.map_eq_some_iff.mp hfound
  obtain ⟨hstate, hkey⟩ := Prod.mk.inj hfound
  refine ⟨s, f, hs, hf, hstate, fun t ht j v g hthread hv => ?_⟩
  exact key_spent _ _ [1] ⟨_, hs⟩ ht hf (by rw [hstate]; decide) hkey.symm hthread hv

end SuperBoss.Server
