import SuperBoss.Server.FileLifecycle
import SuperBoss.Server.Writes

/-!
What a settled file has in the storage: nothing in any run touches it any more
once the cleanups under way are over. The object of a clean file is never
replaced, and what a failed cleanup left behind is never collected.
-/

namespace SuperBoss.Files

open SuperBoss.Core

/-! ### Storage calls on other keys -/

def StorageCall.key : StorageCall → Text
  | .createMultipart key _ | .abortMultipart key _ | .completeMultipart key _ _
  | .deleteObject key => key

section storage

variable {s : Storage} {key : Text} {call : StorageCall}

theorem Storage.object?_removeObject {key' : Text} (h : key' ≠ key) :
    (s.removeObject key').object? key = s.object? key := by
  unfold Storage.object? Storage.removeObject
  rw [List.find?_filter]
  congr 2
  funext o
  by_cases ho : o.1 = key
  · simp [ho, h.symm]
  · simp [ho]

theorem Storage.mem_closeUpload {key' m m' : Text} (h : key' ≠ key) :
    (key, m) ∈ (s.closeUpload key' m').uploads ↔ (key, m) ∈ s.uploads := by
  simp only [Storage.closeUpload, List.mem_filter, decide_eq_true_eq]
  constructor
  · exact And.left
  · intro hmem
    refine ⟨hmem, fun heq => ?_⟩
    exact h (Prod.mk.inj heq).1.symm

/-- What the storage has under a key: its object and its open uploads. -/
structure Storage.Same (s t : Storage) (key : Text) : Prop where
  object : t.object? key = s.object? key
  uploads : ∀ m, (key, m) ∈ t.uploads ↔ (key, m) ∈ s.uploads

theorem Storage.Same.refl (s : Storage) (key : Text) : s.Same s key := ⟨rfl, fun _ => Iff.rfl⟩

theorem Storage.Same.trans {t u : Storage} (h : s.Same t key) (h' : t.Same u key) :
    s.Same u key :=
  ⟨h'.object.trans h.object, fun m => (h'.uploads m).trans (h.uploads m)⟩

theorem Storage.same_perform (h : call.key ≠ key) : s.Same (s.perform call) key := by
  cases call with
  | createMultipart key' m =>
      refine ⟨rfl, fun m' => ?_⟩
      rw [show (s.perform (.createMultipart key' m)).uploads = s.uploads ++ [(key', m)] from rfl,
        List.mem_append, List.mem_singleton]
      constructor
      · rintro (hmem | heq)
        · exact hmem
        · exact absurd (Prod.mk.inj heq).1.symm h
      · exact Or.inl
  | abortMultipart key' m => exact ⟨rfl, fun m' => mem_closeUpload h⟩
  | completeMultipart key' m content =>
      simp only [Storage.perform]
      split
      · refine ⟨?_, fun m' => mem_closeUpload h⟩
        unfold Storage.object?
        rw [List.find?_cons_of_neg (by simpa [StorageCall.key] using h)]
        exact object?_removeObject h
      · exact .refl s key
  | deleteObject key' => exact ⟨object?_removeObject h, fun m' => Iff.rfl⟩

end storage

end SuperBoss.Files

namespace SuperBoss.Server

open SuperBoss.Core
open SuperBoss.Library
open SuperBoss.Library.Interleaving
open SuperBoss.Library.Transition
open SuperBoss.Files
open SuperBoss.Imports
open SuperBoss.Infrastructure.Clamav

/-! ### Cleanups -/

/-- The thread is about to clean up under the key. -/
inductive Thread.Clears {P : Platform} : Thread P → Text → Prop
  | discardUpload {c : CompleteCall} {key : Text} :
      Clears (.completeUpload c (.running (.discard key))) key
  | discardScanned {id : UUID} {key : Text} : Clears (.scanFile id (.running (.discard key))) key
  | abortExpired {c : RecoverCall} {f : File} {m : Text} {rest : List UUID} {n : Nat} :
      Clears (.recoverStaleUploads c (.running (.abort f m rest n))) f.objectKey
  | deleteExpired {c : RecoverCall} {f : File} {rest : List UUID} {n : Nat} :
      Clears (.recoverStaleUploads c (.running (.delete f rest n))) f.objectKey

def Thread.isRunning {P : Platform} : Thread P → Bool
  | startUpload _ p => p.isRunning
  | presignPart _ p => p.isRunning
  | completeUpload _ p => p.isRunning
  | download _ p => p.isRunning
  | scanFile _ p => p.isRunning
  | recoverStaleUploads _ p => p.isRunning
  | createImport _ p => p.isRunning
  | submitImport _ p => p.isRunning
  | readImport _ p => p.isRunning

/-- The key of a file that is not settled. -/
def Unsettled (s : Store) (key : Text) : Prop :=
  ∃ id f, s.files.get? id = some f ∧ f.objectKey = key ∧ f.state.terminal = false

section cleanups

variable {P : Platform} {cfg : ScannerConfig} {a : Answer} {s : Store} {key : Text}

theorem Unsettled.not_terminal (h : Unsettled s key) {id : UUID} {f : File}
    (hget : s.files.get? id = some f) (hkey : f.objectKey = key) : f.state.terminal = false := by
  obtain ⟨id', g, hg, hgkey, hstate⟩ := h
  have hsame : f = g := Table.eq_of_not_distinct (Table.mem_of_get? hget) (Table.mem_of_get? hg)
    (fun hdistinct => hdistinct.2 (hkey.trans hgkey.symm))
    (fun hdistinct => hdistinct.2 (hgkey.trans hkey.symm))
  exact hsame ▸ hstate

theorem Unprovisioned.unsettled {f : File} (h : Unprovisioned s f) : Unsettled s f.objectKey :=
  ⟨f.id, f, h.get, rfl, by rw [h.state]; rfl⟩

theorem Completing.unsettled {f : File} (h : Completing s f) : Unsettled s f.objectKey :=
  ⟨f.id, f, h.get, rfl, by rw [h.state]; rfl⟩

theorem Thread.Starts.ok {v : Thread P} {c : StartCall} {pc : StartPc} (h : v.Starts c pc)
    (hok : v.Ok s) : pc.Ok s := by
  cases h with
  | upload => exact hok
  | attachment => exact hok.1

/-- Whoever calls the storage cleans up, or holds a file that is not settled. -/
theorem Thread.clears_of_call {v v' : Thread P} {call : StorageCall} (hok : v.Ok s)
    (h : v.act cfg a s = some (v', .call call)) :
    v.Clears call.key ∨ Unsettled s call.key := by
  rcases Thread.act_writes h with hplain | hwrites
  · exact hplain.elim
  · cases hwrites with
    | abortLeftover ht => exact .inr (Unprovisioned.unsettled (ht.ok hok))
    | createMultipart ht => exact .inr (Unprovisioned.unsettled (ht.ok hok))
    | completeMultipart => exact .inr hok.1.unsettled
    | discardUpload => exact .inl .discardUpload
    | discardScanned => exact .inl .discardScanned
    | abortExpired => exact .inl .abortExpired
    | deleteExpired => exact .inl .deleteExpired

theorem CompleteCall.discard_of_step {c : CompleteCall} {pc : CompletePc}
    {o : Outcome CompletePc File} (hok : pc.Ok s) (h : c.step a s pc = some o)
    (ho : o.progress = .running (.discard key)) : Unsettled s key := by
  cases pc with
  | resolve =>
      simp only [step] at h
      split at h
      · cases h
      · cases h
        have ho := Outcome.running_read ho
        split at ho <;> cases ho
  | deny error projectId =>
      simp only [step] at h
      split at h
      · cases h
      · cases h
        cases (Outcome.running_commit ho).1
  | lock uploadId =>
      cases h
      have ho := Outcome.running_read ho
      split at ho
      · cases ho
      · split at ho
        · cases ho
        · split at ho
          · cases ho
          · split at ho
            · cases ho
            · split at ho <;> cases ho
  | finalize file m =>
      cases h
      split at ho
      · cases ho
      · simp only [Outcome.attempt] at ho
        split at ho <;> cases ho
  | settle file size =>
      cases h
      split at ho
      · cases (Outcome.running_commit ho).1
        exact Completing.unsettled hok
      · cases (Outcome.running_commit ho).1
  | discard key' =>
      cases h
      cases ho
  | enqueue file =>
      cases h
      cases ho

theorem ScanPc.discard_of_step {id : UUID} {pc : ScanPc} {o : Outcome ScanPc Unit}
    (hok : pc.Ok P s id) (h : ScanPc.step P cfg id a s pc = some o)
    (ho : o.progress = .running (.discard key)) : Unsettled s key := by
  cases pc with
  | receive =>
      simp only [step] at h
      split at h
      · cases h
        cases ho
      · cases h
  | claim =>
      cases h
      split at ho
      · cases Outcome.running_read ho
      · split at ho
        · cases Outcome.running_read ho
        · cases (Outcome.running_commit ho).1
  | stream file =>
      simp only [step] at h
      split at h
      · cases h
        cases ho
      · cases h
  | verdict file st result =>
      cases h
      split at ho
      · cases Outcome.running_read ho
      · rename_i current hget
        split at ho
        · cases Outcome.running_read ho
        · rename_i hstate
          have hnext := Progress.running.inj (Outcome.running_commit ho).1
          split at hnext
          · obtain rfl := ScanPc.discard.inj hnext
            -- The claimed row and the current one differ in their states only.
            obtain ⟨f, hf, hsame⟩ := hok.1.later
            obtain rfl := Option.some.inj (hget.symm.trans hf)
            have hkey : current.objectKey = file.objectKey :=
              congrArg (fun i => i.2.2.2.2.2.1) hsame
            exact ⟨id, current, hget, hkey, by rw [not_not.mp hstate]; rfl⟩
          · cases hnext
  | discard key' =>
      cases h
      cases ho
  | reconcile pc =>
      obtain ⟨o', -, rfl⟩ := Option.map_eq_some_iff.mp h
      cases hp : o'.progress <;> simp [Outcome.map, Progress.map, hp] at ho

theorem RecoverPc.nextExpire_cases (recovered : Nat) (ids : List UUID) :
    RecoverPc.nextExpire recovered ids = .redispatchSelect recovered ∨
      ∃ id rest, RecoverPc.nextExpire recovered ids = .expire id rest recovered := by
  cases ids with
  | nil => exact .inl rfl
  | cons id rest => exact .inr ⟨id, rest, rfl⟩

theorem Thread.not_clears_nextExpire {c : RecoverCall} {recovered : Nat} {ids : List UUID} :
    ¬(Thread.recoverStaleUploads c (.running (.nextExpire recovered ids)) : Thread P).Clears
      key := by
  intro h
  rcases RecoverPc.nextExpire_cases recovered ids with heq | ⟨id, rest, heq⟩
  · rw [heq] at h
    cases h
  · rw [heq] at h
    cases h

theorem Thread.not_clears_nextEnqueue {c : RecoverCall} {recovered : Nat} {ids : List UUID} :
    ¬(Thread.recoverStaleUploads c (RecoverPc.nextEnqueue recovered ids) : Thread P).Clears
      key := by
  intro h
  cases ids with
  | nil => cases h
  | cons id rest => cases h

theorem Thread.not_clears_read {c : RecoverCall} {fate : Fate} {o : Outcome RecoverPc Nat}
    (h : ¬(Thread.recoverStaleUploads c o.progress : Thread P).Clears key) :
    ¬(Thread.recoverStaleUploads c (Outcome.read fate o).progress : Thread P).Clears key := by
  rcases Outcome.read_cases fate o with heq | heq
  · rwa [heq]
  · rw [heq]
    intro hclears
    cases hclears

/-- The janitor turns to files that it has just expired. -/
theorem RecoverCall.clears_of_step {c : RecoverCall} {pc : RecoverPc} {o : Outcome RecoverPc Nat}
    (h : c.step a s pc = some o)
    (ho : (Thread.recoverStaleUploads c o.progress : Thread P).Clears key) :
    (Thread.recoverStaleUploads c (.running pc) : Thread P).Clears key ∨ Unsettled s key := by
  cases pc with
  | expireSelect =>
      cases h
      exfalso
      split at ho
      · cases ho
      · exact Thread.not_clears_read Thread.not_clears_nextExpire ho
  | expire id rest recovered =>
      cases h
      dsimp only at ho
      split at ho
      · exact (Thread.not_clears_read Thread.not_clears_nextExpire ho).elim
      · rename_i f hget
        split at ho
        · exact (Thread.not_clears_read Thread.not_clears_nextExpire ho).elim
        · rename_i hfresh
          have hstate : f.state = .uploading := not_not.mp fun hne => hfresh (.inl hne)
          have hunsettled : Unsettled s f.objectKey := ⟨id, f, hget, rfl, by rw [hstate]; rfl⟩
          generalize hp : Outcome.progress _ = p at ho
          cases ho with
          | abortExpired =>
              have hnext := Progress.running.inj (Outcome.running_commit hp).1
              split at hnext
              · cases hnext
                exact .inr hunsettled
              · cases hnext
          | deleteExpired =>
              have hnext := Progress.running.inj (Outcome.running_commit hp).1
              split at hnext
              · cases hnext
              · cases hnext
                exact .inr hunsettled
  | abort file m rest recovered =>
      cases h
      cases ho
      exact .inl .abortExpired
  | delete file rest recovered =>
      cases h
      exact (Thread.not_clears_nextExpire ho).elim
  | redispatchSelect recovered =>
      cases h
      exact (Thread.not_clears_read Thread.not_clears_nextEnqueue ho).elim
  | enqueue id rest recovered =>
      cases h
      exact (Thread.not_clears_nextEnqueue ho).elim

/-- A cleanup begins with the verdict on a file that was not settled. -/
theorem Thread.clears_of_act {v v' : Thread P} {w : Write} (hok : v.Ok s)
    (h : v.act cfg a s = some (v', w)) (hv : v'.Clears key) : v.Clears key ∨ Unsettled s key := by
  cases v with
  | completeUpload c p =>
      obtain ⟨o, hp, heq⟩ := Option.map_eq_some_iff.mp h
      obtain ⟨pc, rfl, hstep⟩ := Progress.step_eq_some hp
      obtain ⟨rfl, -⟩ := Prod.mk.inj heq
      generalize hprogress : o.progress = p at hv
      cases hv with
      | discardUpload => exact .inr (CompleteCall.discard_of_step hok hstep hprogress)
  | scanFile id p =>
      obtain ⟨o, hp, heq⟩ := Option.map_eq_some_iff.mp h
      obtain ⟨pc, rfl, hstep⟩ := Progress.step_eq_some hp
      obtain ⟨rfl, -⟩ := Prod.mk.inj heq
      generalize hprogress : o.progress = p at hv
      cases hv with
      | discardScanned => exact .inr (ScanPc.discard_of_step hok hstep hprogress)
  | recoverStaleUploads c p =>
      obtain ⟨o, hp, heq⟩ := Option.map_eq_some_iff.mp h
      obtain ⟨pc, rfl, hstep⟩ := Progress.step_eq_some hp
      obtain ⟨rfl, -⟩ := Prod.mk.inj heq
      exact RecoverCall.clears_of_step hstep hv
  | startUpload | presignPart | download | createImport | submitImport | readImport =>
      obtain ⟨o, -, heq⟩ := Option.map_eq_some_iff.mp h
      obtain ⟨rfl, -⟩ := Prod.mk.inj heq
      cases hv

theorem Thread.Clears.isRunning {v : Thread P} (h : v.Clears key) : v.isRunning = true := by
  cases h with
  | discardUpload | discardScanned | abortExpired | deleteExpired => rfl

theorem Thread.not_clears_initial {v : Thread P} (h : v.initial = true) : ¬v.Clears key := by
  intro hclears
  cases hclears with
  | @discardUpload c =>
      have hbegin := Progress.running.inj (of_decide_eq_true h)
      unfold CompleteCall.begin at hbegin
      split at hbegin <;> cases hbegin
  | discardScanned | abortExpired | deleteExpired => cases h

theorem Thread.not_clears_crash {v : Thread P} : ¬v.crash.Clears key := by
  intro hclears
  generalize hv : v.crash = u at hclears
  cases v with
  | startUpload c p | presignPart c p | completeUpload c p | download c p | scanFile c p
  | recoverStaleUploads c p | createImport c p | submitImport c p | readImport c p =>
      subst hv
      cases p <;> cases hclears

end cleanups

/-! ### Runs -/

section runs

variable {P : Platform} {cfg : ScannerConfig} {s t : SystemState P} {e : SystemEvent P}
  {id : UUID} {f : File}

/-- One step leaves what a settled file has in the storage as it is. -/
theorem Consistent.settled_step (hs : Consistent cfg s) (h : next P cfg s e = some t)
    (hget : s.store.files.get? id = some f) (hterminal : f.state.terminal = true)
    (hidle : ∀ v ∈ s.threads, ¬v.Clears f.objectKey) :
    s.store.storage.Same t.store.storage f.objectKey ∧
      ∀ v ∈ t.threads, ¬v.Clears f.objectKey := by
  have hsettled : ¬Unsettled s.store f.objectKey := by
    intro hunsettled
    rw [hunsettled.not_terminal hget rfl] at hterminal
    cases hterminal
  cases hs.happens h with
  | spawn hinitial =>
      refine ⟨.refl _ _, fun v hv => ?_⟩
      rcases List.mem_append.mp hv with hv | hv
      · exact hidle v hv
      · rw [List.mem_singleton.mp hv]
        exact Thread.not_clears_initial hinitial
  | crash hthread =>
      refine ⟨.refl _ _, fun v hv => ?_⟩
      rcases List.mem_or_eq_of_mem_set hv with hv | rfl
      · exact hidle v hv
      · exact Thread.not_clears_crash
  | act hthread hfree hact hwrite hsound =>
      have hclears := hidle _ (List.mem_of_getElem? hthread)
      constructor
      · rcases hsound.effect.storage_cases hwrite with hsame | ⟨call, rfl, hperform⟩
        · rw [hsame]
          exact .refl _ _
        · rw [hperform]
          apply Storage.same_perform
          rintro hkey
          rcases Thread.clears_of_call (hs.ok hthread) hact with h | h
          · exact hclears (hkey ▸ h)
          · exact hsettled (hkey ▸ h)
      · intro v hv
        rcases List.mem_or_eq_of_mem_set hv with hv | rfl
        · exact hidle v hv
        · intro hv
          rcases Thread.clears_of_act (hs.ok hthread) hact hv with h | h
          · exact hclears h
          · exact hsettled h

theorem Thread.Clears.discarded {v : Thread P} {key : Text} (h : v.Clears key)
    (hok : v.Ok s.store) : Discarded s.store key := by
  cases h with
  | discardUpload | discardScanned | abortExpired | deleteExpired => exact hok

/-- No cleanup is under way for a clean file. -/
theorem Consistent.idle_of_clean (hs : Consistent cfg s) (hget : s.store.files.get? id = some f)
    (hclean : f.state = .clean) : ∀ v ∈ s.threads, ¬v.Clears f.objectKey := by
  intro v hv hclears
  obtain ⟨i, hthread⟩ := List.mem_iff_getElem?.mp hv
  rcases (hclears.discarded (hs.ok hthread)).state_of_objectKey hget rfl with h | h
  · rw [hclean] at h
    cases h
  · rw [hclean] at h
    cases h

end runs

namespace Sample

/-- One byte more than was declared. -/
def oversized : Answer := { answer with content := ascii "abcd" }

/-- A completion that finds the wrong size and fails to delete the object. -/
def leftover : List (SystemEvent platform) :=
  .spawn (.startUpload upload (.running .select)) :: List.replicate 6 (.act 0 answer) ++
    .spawn (.completeUpload completion (.running completion.begin)) ::
      List.replicate 3 (.act 1 oversized) ++ [.act 1 { oversized with fate := .error }]

end Sample

end SuperBoss.Server
