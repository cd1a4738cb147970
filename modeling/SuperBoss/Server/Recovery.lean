import Mathlib.Data.Fintype.EquivFin
import SuperBoss.Server.Updates

/-!
Recovery runs: deliveries of scan messages, runs of the janitor, and the
requests that are under way, with a storage and a scanner that work. First the
requests that hold file rows finish; then each round of the janitor dispatches
a quarantined file, and the scan that follows settles it.
-/

namespace SuperBoss.Server

open SuperBoss.Core
open SuperBoss.Library
open SuperBoss.Library.Framing
open SuperBoss.Library.Interleaving
open SuperBoss.Library.Transition
open SuperBoss.Files
open SuperBoss.Imports
open SuperBoss.Infrastructure.Clamav

/-! ### Recovery runs -/

structure Working (a : Answer) : Prop where
  fate : a.fate = .ok
  head : a.head = true
  patience : a.patience = none
  received : a.received = clearReply ++ [0]

/-- A step of a recovery: a scan delivery or a janitor starts, or a thread acts
while everything outside works. The janitor runs with its default limit. -/
def IsRecovery {P : Platform} : SystemEvent P → Prop
  | .spawn (.scanFile _ _) => True
  | .spawn (.recoverStaleUploads c _) => c.limit = 100
  | .spawn _ => False
  | .act _ a => Working a
  | .crash _ => False

def Recovers {P : Platform} (cfg : ScannerConfig) (s t : SystemState P) : Prop :=
  ∃ es, (∀ e ∈ es, IsRecovery e) ∧ run (next P cfg) s es = some t

section recovery

variable {P : Platform} {cfg : ScannerConfig} {s t u : SystemState P}

namespace Recovers

theorem refl (s : SystemState P) : Recovers cfg s s := ⟨[], List.forall_mem_nil _, rfl⟩

theorem trans (h : Recovers cfg s t) (h' : Recovers cfg t u) : Recovers cfg s u := by
  obtain ⟨es, hes, hrun⟩ := h
  obtain ⟨fs, hfs, hrun'⟩ := h'
  refine ⟨es ++ fs, fun e he => ?_, run_append_of hrun hrun'⟩
  rcases List.mem_append.mp he with he | he
  · exact hes e he
  · exact hfs e he

theorem single {e : SystemEvent P} (he : IsRecovery e) (h : next P cfg s e = some t) :
    Recovers cfg s t :=
  ⟨[e], fun _ he' => List.mem_singleton.mp he' ▸ he, (run_singleton s e).trans h⟩

theorem reachable (h : Recovers cfg s t) : Reachable (next P cfg) s t := by
  obtain ⟨es, -, hrun⟩ := h
  exact ⟨es, hrun⟩

theorem act {i : Nat} {a : Answer} {v v' : Thread P} {w : Write} {store : Store}
    (ha : Working a) (hget : s.threads[i]? = some v)
    (hfree : (program P cfg).Free s.threads i v)
    (hact : v.act cfg a s.store = some (v', w)) (hwrite : s.store.write? w = some store) :
    Recovers cfg s ⟨store, s.threads.set i v'⟩ := by
  refine single (e := .act i a) ha ((program P cfg).apply_of_step (.act hget hfree ?_))
  refine (program_next_eq_some P cfg).mpr ⟨w, hact, ?_⟩
  rw [Store.write, hwrite]
  rfl

end Recovers

/-! ### File rows and their locks -/

theorem free_of_needs_nil {i : Nat} {v : Thread P} (h : v.needs = []) :
    (program P cfg).Free s.threads i v := by
  intro u _ r hr
  rw [show (program P cfg).needs v = v.needs from rfl, h] at hr
  cases hr

/-- A file that is no longer `UPLOADING` is not locked between two actions. -/
theorem Consistent.free (hs : Consistent cfg s) {i : Nat} {v : Thread P} {id : UUID} {f : File}
    (hneeds : v.needs = [.file id]) (hget : s.store.files.get? id = some f)
    (hstate : f.state ≠ .uploading) : (program P cfg).Free s.threads i v := by
  intro u hu r hr hheld
  rw [show (program P cfg).needs v = v.needs from rfl, hneeds] at hr
  obtain rfl := List.mem_singleton.mp hr
  obtain ⟨j, -, hj⟩ := List.mem_eraseIdx_iff_getElem?.mp hu
  obtain ⟨f', hf', hstate'⟩ := (hs.ok hj).uploading hheld
  obtain rfl := Option.some.inj (hget.symm.trans hf')
  exact hstate hstate'

/-- No file row is locked. -/
def Unlocked (s : SystemState P) : Prop := ∀ v ∈ s.threads, ∀ id, .file id ∉ v.holds

theorem Unlocked.free (hs : Unlocked s) {i : Nat} {v : Thread P} {id : UUID}
    (hneeds : v.needs = [.file id]) : (program P cfg).Free s.threads i v := by
  intro u hu r hr hheld
  rw [show (program P cfg).needs v = v.needs from rfl, hneeds] at hr
  obtain rfl := List.mem_singleton.mp hr
  exact hs u (List.mem_of_mem_eraseIdx hu) id hheld

theorem Unlocked.set (hs : Unlocked s) {i : Nat} {v : Thread P} {store : Store}
    (hv : ∀ id, .file id ∉ v.holds) : Unlocked ⟨store, s.threads.set i v⟩ := by
  intro u hu
  rcases List.mem_or_eq_of_mem_set hu with hu | rfl
  · exact hs u hu
  · exact hv

theorem Unlocked.append (hs : Unlocked s) {v : Thread P} {store : Store}
    (hv : ∀ id, .file id ∉ v.holds) : Unlocked ⟨store, s.threads ++ [v]⟩ := by
  intro u hu
  rcases List.mem_append.mp hu with hu | hu
  · exact hs u hu
  · exact List.mem_singleton.mp hu ▸ hv

/-! ### Quarantined files -/

/-- Only a claim moves a quarantined file on. -/
theorem Consistent.quarantined_after (hs : Consistent cfg s) {i : Nat} {a : Answer}
    {v v' : Thread P} {w : Write} {store : Store} (hthread : s.threads[i]? = some v)
    (hact : v.act cfg a s.store = some (v', w)) (hwrite : s.store.write? w = some store)
    {id : UUID} {f : File} (hclaim : v ≠ .scanFile id (.running .claim))
    (hget : s.store.files.get? id = some f) (hstate : f.state = .quarantined) :
    store.files.get? id = some f := by
  refine hs.file_kept hthread hact hwrite hget fun u hmove hu => ?_
  cases hmove with
  | provision hstate' =>
      rw [hstate] at hstate'
      cases hstate'
  | settle hmove =>
      rw [hstate] at hmove
      cases hu with
      | mismatch | complete | expire => cases hmove
      | claim => exact hclaim rfl
      | verdict hcurrent hscanning =>
          obtain rfl := Option.some.inj (hget.symm.trans hcurrent)
          rw [hstate] at hscanning
          cases hscanning

/-- Only the commit of a completion quarantines a file. -/
theorem Consistent.quarantined_before (hs : Consistent cfg s) {i : Nat} {a : Answer}
    {v v' : Thread P} {w : Write} {store : Store} (hthread : s.threads[i]? = some v)
    (hact : v.act cfg a s.store = some (v', w)) (hwrite : s.store.write? w = some store)
    {id : UUID} {f : File} (hheld : .file id ∉ v.holds)
    (hget : store.files.get? id = some f) (hstate : f.state = .quarantined) :
    s.store.files.get? id = some f := by
  rcases hs.file_before hthread hact hwrite hget with
    hsame | ⟨-, hnew⟩ | ⟨g, u, hg, hmove, hu, rfl⟩
  · exact hsame
  · rw [hstate] at hnew
    cases hnew
  · exfalso
    cases hmove with
    | provision hstate' =>
        rw [FileUpdate.apply_state, FileUpdate.provision, Option.getD_none, hstate'] at hstate
        cases hstate
    | settle hmove =>
        cases hu with
        | mismatch | claim | expire => cases hstate
        | complete => exact hheld (List.mem_singleton.mpr rfl)
        | verdict =>
            have hterminal := (congrArg FileState.terminal hstate).symm.trans (hs.ok hthread).2
            exact absurd hterminal (by decide)

/-! ### Requests under way finish -/

/-- Only thread `i` acts, ends without locks on file rows, and leaves the
quarantined files alone. -/
structure Released (cfg : ScannerConfig) (s t : SystemState P) (i : Nat) : Prop where
  recovers : Recovers cfg s t
  thread : ∃ v, t.threads = s.threads.set i v ∧ ∀ id, .file id ∉ v.holds
  quarantined : ∀ {id : UUID} {f : File}, s.store.files.get? id = some f →
    f.state = .quarantined → t.store.files.get? id = some f

namespace Released

variable {i : Nat} {v v' : Thread P}

theorem of_holds_nil (hget : s.threads[i]? = some v) (h : v.holds = []) : Released cfg s s i where
  recovers := .refl s
  thread := by
    refine ⟨v, ?_, fun id hid => ?_⟩
    · obtain ⟨hlt, hv⟩ := List.getElem?_eq_some_iff.mp hget
      rw [← hv, List.set_getElem_self]
    · rw [h] at hid
      cases hid
  quarantined hget _ := hget

/-- One action first. -/
theorem of_act {a : Answer} {w : Write} (hs : Consistent cfg s) (ha : Working a)
    (hget : s.threads[i]? = some v) (hneeds : v.needs = [])
    (hact : v.act cfg a s.store = some (v', w))
    (hrest : ∀ store, Consistent cfg ⟨store, s.threads.set i v'⟩ →
      ∃ t, Released cfg ⟨store, s.threads.set i v'⟩ t i) : ∃ t, Released cfg s t i := by
  obtain ⟨store, hwrite⟩ := (Thread.sound hs.wellFormed (hs.ok hget) hact).valid
  have hfirst : Recovers cfg s ⟨store, s.threads.set i v'⟩ :=
    .act ha hget (free_of_needs_nil hneeds) hact hwrite
  obtain ⟨t, hrest⟩ := hrest store (hs.reachable hfirst.reachable)
  obtain ⟨x, hx, hholds⟩ := hrest.thread
  refine ⟨t, hfirst.trans hrest.recovers, ⟨x, ?_, hholds⟩, fun hfile hstate => ?_⟩
  · rw [hx, List.set_set]
  · refine hrest.quarantined (hs.quarantined_after hget hact hwrite ?_ hfile hstate) hstate
    rintro rfl
    cases hneeds

end Released

/-- The answer of a working environment. -/
def workingAnswer (multipartId : Text) (chunks : List Bytes) : Answer where
  fate := .ok
  head := true
  now := 0
  uuid := 0
  attachmentIds := []
  auditId := 0
  multipartId
  content := []
  chunks
  received := clearReply ++ [0]
  patience := none
  redelivered := true

theorem working_workingAnswer (m : Text) (chunks : List Bytes) :
    Working (workingAnswer m chunks) := ⟨rfl, rfl, rfl, rfl⟩

/-- The upload machine inside a thread. -/
structure Embeds (cfg : ScannerConfig) (c : StartCall)
    (embed : Progress StartPc File → Thread P) : Prop where
  act : ∀ {a s pc o}, c.step P a s pc = some o →
    (embed (.running pc)).act cfg a s = some (embed o.progress, o.write)
  needs : ∀ pc, (embed (.running pc)).needs = pc.needs
  holds : ∀ {p}, (∀ pc, p ≠ .running pc) → (embed p).holds = []

theorem StartCall.embeds (c : StartCall) : Embeds cfg c (Thread.startUpload (P := P) c) where
  act h := by simp [Thread.act, Progress.step, h]
  needs _ := rfl
  holds {p} h := by
    cases p with
    | running pc => exact absurd rfl (h pc)
    | returned | raised | crashed => rfl

theorem StartCall.step_list (c : StartCall) {a : Answer} {s : Store} {f : File}
    (ha : a.fate = .ok) :
    (∃ m, c.step P a s (.list f) = some (.goto (.commit f m))) ∨
      ∃ leftovers, c.step P a s (.list f) = some (.goto (.provision f leftovers)) := by
  simp only [step, ha, ne_eq, not_true_eq_false, if_false]
  split
  · exact .inl ⟨_, rfl⟩
  · exact .inr ⟨_, rfl⟩

section release

variable {c : StartCall} {embed : Progress StartPc File → Thread P} {i : Nat} {f : File}

theorem release_commit (he : Embeds cfg c embed) (hs : Consistent cfg s) {m : Text}
    (hget : s.threads[i]? = some (embed (.running (.commit f m)))) :
    ∃ t, Released cfg s t i := by
  refine Released.of_act hs (working_workingAnswer [] []) hget (he.needs _) (he.act rfl) fun store _ => ?_
  refine ⟨_, .of_holds_nil (List.getElem?_set_self (List.getElem?_eq_some_iff.mp hget).1)
    (he.holds fun pc hpc => ?_)⟩
  cases (Outcome.running_commit hpc).1

theorem release_create (he : Embeds cfg c embed) (hs : Consistent cfg s)
    (hget : s.threads[i]? = some (embed (.running (.create f)))) : ∃ t, Released cfg s t i := by
  obtain ⟨m, hm⟩ := Infinite.exists_notMem_finset s.store.storage.issued.toFinset
  rw [List.mem_toFinset] at hm
  refine Released.of_act hs (working_workingAnswer m []) hget (he.needs _) (he.act (if_neg hm))
    fun store hnext => ?_
  exact release_commit he hnext (List.getElem?_set_self (List.getElem?_eq_some_iff.mp hget).1)

theorem release_provision (he : Embeds cfg c embed) (leftovers : List Text)
    (hs : Consistent cfg s)
    (hget : s.threads[i]? = some (embed (.running (.provision f leftovers)))) :
    ∃ t, Released cfg s t i := by
  induction leftovers generalizing s with
  | nil => exact release_create he hs hget
  | cons m rest ih =>
      refine Released.of_act hs (working_workingAnswer [] []) hget (he.needs _) (he.act rfl)
        fun store hnext => ?_
      exact ih hnext (List.getElem?_set_self (List.getElem?_eq_some_iff.mp hget).1)

theorem release_start (he : Embeds cfg c embed) (hs : Consistent cfg s) {pc : StartPc}
    (hget : s.threads[i]? = some (embed (.running pc))) (hheld : pc.holds ≠ []) :
    ∃ t, Released cfg s t i := by
  have hlt := (List.getElem?_eq_some_iff.mp hget).1
  cases pc with
  | select | insert | lock => exact absurd rfl hheld
  | list f =>
      rcases c.step_list (P := P) (a := workingAnswer [] []) (s := s.store) (f := f) rfl with ⟨m, hstep⟩ | ⟨leftovers, hstep⟩
      · refine Released.of_act hs (working_workingAnswer [] []) hget (he.needs _) (he.act hstep)
          fun store hnext => ?_
        exact release_commit he hnext (List.getElem?_set_self hlt)
      · refine Released.of_act hs (working_workingAnswer [] []) hget (he.needs _) (he.act hstep)
          fun store hnext => ?_
        exact release_provision he leftovers hnext (List.getElem?_set_self hlt)
  | abort f leftovers =>
      cases leftovers with
      | nil =>
          refine Released.of_act hs (working_workingAnswer [] []) hget (he.needs _) (he.act rfl)
            fun store hnext => ?_
          exact release_create he hnext (List.getElem?_set_self hlt)
      | cons m rest => exact release_provision he (m :: rest) hs hget
  | create f => exact release_create he hs hget
  | commit f m => exact release_commit he hs hget

end release

/-- The progress of a create call after an action of its current upload. -/
def CreateCall.afterUpload (c : CreateCall P) (current : StartCall)
    (rest : List (AttachmentDeclaration P)) (uploads : List File) :
    Progress StartPc File → Progress (CreatePc P) ImportJobResult
  | .running pc => .running (.upload current rest uploads pc)
  | .returned file => c.next (uploads ++ [file]) rest
  | .raised (.domain e) =>
      if e.code = "FILE_UPLOAD_CONFLICT" then .raised (.domain createConflict)
      else .raised (.domain e)
  | .raised e => .raised e
  | .crashed => .crashed

theorem CreateCall.step_upload {c : CreateCall P} {current : StartCall}
    {rest : List (AttachmentDeclaration P)} {uploads : List File} {a : Answer} {s : Store}
    {pc : StartPc} {o : Outcome StartPc File} (h : current.step P a s pc = some o) :
    c.step a s (.upload current rest uploads pc) =
      some ⟨c.afterUpload current rest uploads o.progress, o.write⟩ := by
  obtain ⟨p, w⟩ := o
  simp only [step, h, Option.map_some]
  cases p with
  | running | returned | crashed => rfl
  | raised e =>
      cases e with
      | domain e =>
          simp only [afterUpload]
          split <;> rfl
      | value | unexpected => rfl

theorem CreateCall.embeds (c : CreateCall P) (current : StartCall)
    (rest : List (AttachmentDeclaration P)) (uploads : List File) :
    Embeds cfg current fun p => Thread.createImport c (c.afterUpload current rest uploads p) where
  act h := by
    simp [Thread.act, Progress.step, afterUpload, step_upload h]
  needs _ := rfl
  holds {p} h := by
    cases p with
    | running pc => exact absurd rfl (h pc)
    | returned file => exact CreateCall.rows_next
    | raised e =>
        cases e with
        | domain e =>
            simp only [Thread.holds, afterUpload]
            split <;> rfl
        | value | unexpected => rfl
    | crashed => rfl

theorem release_settle (hs : Consistent cfg s) {i : Nat} {c : CompleteCall} {f : File}
    {size : Nat} (hget : s.threads[i]? = some (.completeUpload c (.running (.settle f size)))) :
    ∃ t, Released cfg s t i := by
  refine Released.of_act hs (working_workingAnswer [] []) hget rfl rfl fun store _ => ?_
  refine ⟨_, .of_holds_nil (List.getElem?_set_self (List.getElem?_eq_some_iff.mp hget).1) ?_⟩
  rw [List.eq_nil_iff_forall_not_mem]
  intro r hr
  simp only [Thread.holds] at hr
  split at hr
  · cases Outcome.mem_rows_commit hr
  · cases Outcome.mem_rows_commit hr

theorem release_finalize (hs : Consistent cfg s) {i : Nat} {c : CompleteCall} {f : File}
    {m : Text} (hget : s.threads[i]? = some (.completeUpload c (.running (.finalize f m)))) :
    ∃ t, Released cfg s t i := by
  have hlt := (List.getElem?_eq_some_iff.mp hget).1
  refine Released.of_act hs (working_workingAnswer [] []) hget rfl rfl fun store hnext => ?_
  by_cases hopen : (f.objectKey, m) ∉ s.store.storage.uploads
  · simp only [if_pos hopen] at hnext ⊢
    exact ⟨_, .of_holds_nil (List.getElem?_set_self hlt) rfl⟩
  · simp only [if_neg hopen] at hnext ⊢
    exact release_settle hnext (List.getElem?_set_self hlt)

/-- A request that holds a file row can finish on its own. -/
theorem release (hs : Consistent cfg s) {i : Nat} {v : Thread P}
    (hget : s.threads[i]? = some v) {id : UUID} (hheld : .file id ∈ v.holds) :
    ∃ t, Released cfg s t i := by
  cases v with
  | presignPart | download | recoverStaleUploads => cases hheld
  | startUpload c p =>
      cases p with
      | running pc => exact release_start c.embeds hs hget (List.ne_nil_of_mem hheld)
      | returned | raised | crashed => cases hheld
  | completeUpload c p =>
      cases p with
      | running pc =>
          cases pc with
          | resolve | deny | lock | discard | enqueue => cases hheld
          | finalize f m => exact release_finalize hs hget
          | settle f size => exact release_settle hs hget
      | returned | raised | crashed => cases hheld
  | scanFile fileId p =>
      cases p with
      | running pc =>
          cases pc with
          | receive | claim | stream | verdict | discard => cases hheld
          | reconcile pc => exact absurd (List.mem_append_left _ hheld) ReconcilePc.not_mem_rows
      | returned | raised | crashed => cases hheld
  | createImport c p =>
      cases p with
      | running pc =>
          cases pc with
          | begin | deny | existing | persist | insert => cases hheld
          | upload current rest uploads pc =>
              exact release_start (c.embeds current rest uploads) hs hget
                (List.ne_nil_of_mem hheld)
      | returned | raised | crashed => cases hheld
  | submitImport c p =>
      cases p with
      | running pc => exact absurd (List.mem_append_left _ hheld) (SubmitPc.not_mem_rows (c := c))
      | returned | raised | crashed => cases hheld
  | readImport c p =>
      cases p with
      | running pc => exact absurd (List.mem_append_left _ hheld) ReadPc.not_mem_rows
      | returned | raised | crashed => cases hheld

/-- All requests that hold file rows finish, one after the other. -/
theorem release_prefix (hs : Consistent cfg s) {k : Nat} (hk : k ≤ s.threads.length) :
    ∃ t, Recovers cfg s t ∧ t.threads.length = s.threads.length ∧
      (∀ (j : Nat) v, j < k → t.threads[j]? = some v → ∀ id, .file id ∉ v.holds) ∧
      ∀ {id : UUID} {f : File}, s.store.files.get? id = some f → f.state = .quarantined →
        t.store.files.get? id = some f := by
  induction k with
  | zero => exact ⟨s, .refl s, rfl, fun j v hj => absurd hj (Nat.not_lt_zero j), fun h _ => h⟩
  | succ k ih =>
      obtain ⟨t, hrec, hlength, hfree, hquarantined⟩ := ih (by omega)
      have ht := hs.reachable hrec.reachable
      have hlt : k < t.threads.length := by omega
      have hget : t.threads[k]? = some t.threads[k] := List.getElem?_eq_getElem hlt
      by_cases hheld : ∃ id, .file id ∈ t.threads[k].holds
      · obtain ⟨id, hheld⟩ := hheld
        obtain ⟨u, hu⟩ := release ht hget hheld
        obtain ⟨v, hv, hnone⟩ := hu.thread
        refine ⟨u, hrec.trans hu.recovers, by rw [hv, List.length_set, hlength],
          fun j x hj hx => ?_, fun hf hstate => hu.quarantined (hquarantined hf hstate) hstate⟩
        rw [hv] at hx
        rcases getElem?_set_cases hx with ⟨-, rfl⟩ | ⟨hne, hx⟩
        · exact hnone
        · exact hfree j x (by omega) hx
      · refine ⟨t, hrec, hlength, fun j v hj hv => ?_, hquarantined⟩
        rcases Nat.lt_succ_iff_lt_or_eq.mp hj with hj | rfl
        · exact hfree j v hj hv
        · obtain rfl := Option.some.inj (hget.symm.trans hv)
          exact not_exists.mp hheld

theorem unlock (hs : Consistent cfg s) :
    ∃ t, Recovers cfg s t ∧ Unlocked t ∧
      ∀ {id : UUID} {f : File}, s.store.files.get? id = some f → f.state = .quarantined →
        t.store.files.get? id = some f := by
  obtain ⟨t, hrec, hlength, hfree, hquarantined⟩ := release_prefix hs (Nat.le_refl _)
  refine ⟨t, hrec, fun v hv => ?_, hquarantined⟩
  obtain ⟨j, hj⟩ := List.mem_iff_getElem?.mp hv
  exact hfree j v (hlength ▸ (List.getElem?_eq_some_iff.mp hj).1) hj

/-! ### Rounds of the janitor -/

/-- The quarantined files are the same, those with an exceptional id aside. -/
def Calm (x : UUID → Prop) (s t : Store) : Prop :=
  ∀ (id : UUID) (f : File), ¬x id → f.state = .quarantined →
    (t.files.get? id = some f ↔ s.files.get? id = some f)

theorem Calm.refl (x : UUID → Prop) (s : Store) : Calm x s s := fun _ _ _ _ => Iff.rfl

theorem Calm.trans {x : UUID → Prop} {s t u : Store} (h : Calm x s t) (h' : Calm x t u) :
    Calm x s u := fun id f hx hstate => (h' id f hx hstate).trans (h id f hx hstate)

/-- A recovery without locks on file rows and without claims, exceptions aside. -/
structure Quiet (cfg : ScannerConfig) (x : UUID → Prop) (s t : SystemState P) : Prop where
  recovers : Recovers cfg s t
  unlocked : Unlocked t
  calm : Calm x s.store t.store

namespace Quiet

variable {x : UUID → Prop}

theorem refl (hs : Unlocked s) : Quiet cfg x s s := ⟨.refl s, hs, .refl x s.store⟩

theorem trans (h : Quiet cfg x s t) (h' : Quiet cfg x t u) : Quiet cfg x s u :=
  ⟨h.recovers.trans h'.recovers, h'.unlocked, h.calm.trans h'.calm⟩

theorem mono {y : UUID → Prop} (h : Quiet cfg x s t) (hxy : ∀ id, x id → y id) :
    Quiet cfg y s t :=
  ⟨h.recovers, h.unlocked, fun id f hy => h.calm id f fun hx => hy (hxy id hx)⟩

theorem spawn (hs : Unlocked s) {v : Thread P} (hv : IsRecovery (.spawn v))
    (hinitial : v.initial = true) : Quiet cfg x s ⟨s.store, s.threads ++ [v]⟩ where
  recovers := .single hv ((program P cfg).apply_of_step (.spawn hinitial))
  unlocked := hs.append fun id hid => by rw [Thread.holds_of_initial P hinitial] at hid; cases hid
  calm := .refl x s.store

theorem act (hs : Consistent cfg s) (hu : Unlocked s) {i : Nat} {a : Answer} {v v' : Thread P}
    {w : Write} {store : Store} (ha : Working a) (hget : s.threads[i]? = some v)
    (hfree : (program P cfg).Free s.threads i v) (hact : v.act cfg a s.store = some (v', w))
    (hwrite : s.store.write? w = some store)
    (hclaim : ∀ id, ¬x id → v ≠ .scanFile id (.running .claim))
    (hheld : ∀ id, .file id ∉ v'.holds) : Quiet cfg x s ⟨store, s.threads.set i v'⟩ where
  recovers := .act ha hget hfree hact hwrite
  unlocked := hu.set hheld
  calm id f hx hstate := by
    constructor
    · intro hfile
      exact hs.quarantined_before hget hact hwrite (hu v (List.mem_of_getElem? hget) id) hfile
        hstate
    · intro hfile
      exact hs.quarantined_after hget hact hwrite (hclaim id hx) hfile hstate

end Quiet

section janitor

variable {c : RecoverCall} {i : Nat}

/-- One action of a janitor. -/
theorem janitor_act (hs : Consistent cfg s) (hu : Unlocked s) {a : Answer} {pc : RecoverPc}
    {o : Outcome RecoverPc Nat} {p : Progress RecoverPc Nat} (ha : Working a)
    (hget : s.threads[i]? = some (.recoverStaleUploads c (.running pc)))
    (hstep : c.step a s.store pc = some o) (ho : o.progress = p) :
    ∃ t, Quiet cfg (fun _ => False) s t ∧ Consistent cfg t ∧
      t.threads[i]? = some (.recoverStaleUploads c p) ∧
      s.store.write? o.write = some t.store := by
  have hact : Thread.act cfg a s.store (.recoverStaleUploads c (.running pc) : Thread P) =
      some (.recoverStaleUploads c p, o.write) := by
    simp [Thread.act, Progress.step, hstep, ho]
  obtain ⟨store, hwrite⟩ := (Thread.sound hs.wellFormed (hs.ok hget) hact).valid
  have hfree : (program P cfg).Free s.threads i (.recoverStaleUploads c (.running pc)) := by
    cases pc with
    | expire fileId rest n => exact hu.free rfl
    | expireSelect | abort | delete | redispatchSelect | enqueue => exact free_of_needs_nil rfl
  have hquiet : Quiet cfg (fun _ => False) s
      ⟨store, s.threads.set i (.recoverStaleUploads c p)⟩ :=
    .act hs hu ha hget hfree hact hwrite (fun _ _ h => by cases h) fun _ => List.not_mem_nil
  exact ⟨_, hquiet, hs.reachable hquiet.recovers.reachable,
    List.getElem?_set_self (List.getElem?_eq_some_iff.mp hget).1, hwrite⟩

theorem RecoverCall.step_expire (c : RecoverCall) (a : Answer) (s : Store) (id : UUID)
    (rest : List UUID) (n : Nat) (ha : a.fate = .ok) :
    ∃ o pc, c.step a s (.expire id rest n) = some o ∧ o.progress = .running pc ∧
      (pc = .nextExpire n rest ∨ (∃ f m, pc = .abort f m rest (n + 1)) ∨
        ∃ f, pc = .delete f rest (n + 1)) := by
  simp only [step, ha]
  split
  · exact ⟨_, _, rfl, rfl, .inl rfl⟩
  · rename_i f _
    split
    · exact ⟨_, _, rfl, rfl, .inl rfl⟩
    · cases f.multipartId with
      | none => exact ⟨_, _, rfl, rfl, .inr (.inr ⟨f, rfl⟩)⟩
      | some m => exact ⟨_, _, rfl, rfl, .inr (.inl ⟨f, m, rfl⟩)⟩

/-- The loop over the expiry candidates comes to its end. -/
theorem janitor_expire (ids : List UUID) {n : Nat} (hs : Consistent cfg s) (hu : Unlocked s)
    (hget : s.threads[i]? = some (.recoverStaleUploads c (.running (.nextExpire n ids)))) :
    ∃ t n', Quiet cfg (fun _ => False) s t ∧ Consistent cfg t ∧
      t.threads[i]? = some (.recoverStaleUploads c (.running (.redispatchSelect n'))) := by
  induction ids generalizing s n with
  | nil => exact ⟨s, n, .refl hu, hs, hget⟩
  | cons id rest ih =>
      have ha := working_workingAnswer [] []
      have hdelete : ∀ {s : SystemState P} {f : File} {n : Nat}, Consistent cfg s → Unlocked s →
          s.threads[i]? = some (.recoverStaleUploads c (.running (.delete f rest n))) →
          ∃ t n', Quiet cfg (fun _ => False) s t ∧ Consistent cfg t ∧
            t.threads[i]? = some (.recoverStaleUploads c (.running (.redispatchSelect n'))) := by
        intro s f n hs hu hget
        obtain ⟨t, hq, ht, hget', -⟩ := janitor_act hs hu ha hget rfl rfl
        obtain ⟨u, n', hq', hu', hget''⟩ := ih ht hq.unlocked hget'
        exact ⟨u, n', hq.trans hq', hu', hget''⟩
      obtain ⟨o, pc, hstep, ho, hpc⟩ := c.step_expire _ s.store id rest n ha.fate
      obtain ⟨t, hq, ht, hget', -⟩ := janitor_act hs hu ha hget hstep ho
      rcases hpc with rfl | ⟨f, m, rfl⟩ | ⟨f, rfl⟩
      · obtain ⟨u, n', hq', hu', hget''⟩ := ih ht hq.unlocked hget'
        exact ⟨u, n', hq.trans hq', hu', hget''⟩
      · obtain ⟨u, hq', hu', hget'', -⟩ := janitor_act ht hq.unlocked ha hget' rfl rfl
        obtain ⟨v, n', hq'', hv, hlast⟩ := hdelete hu' hq'.unlocked hget''
        exact ⟨v, n', (hq.trans hq').trans hq'', hv, hlast⟩
      · obtain ⟨u, n', hq', hu', hget''⟩ := hdelete ht hq.unlocked hget'
        exact ⟨u, n', hq.trans hq', hu', hget''⟩

theorem RecoverCall.get?_of_mem_candidates {c : RecoverCall} {s : Store} {state : FileState}
    {time : File → Instant} {cutoff : Instant} {id : UUID}
    (h : id ∈ c.candidates s state time cutoff) :
    ∃ f, s.files.get? id = some f ∧ f.state = state := by
  obtain ⟨f, hf, rfl⟩ := List.mem_map.mp h
  have hf := (List.mem_insertionSort _).mp (List.mem_of_mem_take hf)
  obtain ⟨hrow, hcond⟩ := List.mem_filter.mp hf
  exact ⟨f, Table.get?_of_mem hrow, (of_decide_eq_true hcond).1⟩

theorem RecoverCall.candidates_ne_nil {c : RecoverCall} {s : Store} {state : FileState}
    {time : File → Instant} {cutoff : Instant} {id : UUID} {f : File} (hlimit : c.limit = 100)
    (hget : s.files.get? id = some f) (hstate : f.state = state) (htime : time f < cutoff) :
    c.candidates s state time cutoff ≠ [] := by
  have hmem : f ∈ (s.files.rows.filter fun f => decide (f.state = state ∧ time f < cutoff)) :=
    List.mem_filter.mpr ⟨Table.mem_of_get? hget, decide_eq_true ⟨hstate, htime⟩⟩
  intro hnil
  rw [candidates, List.map_eq_nil_iff, List.take_eq_nil_iff, hlimit] at hnil
  rcases hnil with hzero | hnil
  · cases hzero
  · rw [← List.mem_insertionSort fun f g => time f < time g ∨ (time f = time g ∧ f.id ≤ g.id),
      hnil] at hmem
    cases hmem

/-- While a file waits in quarantine, a run of the janitor dispatches one. -/
theorem dispatch (hs : Consistent cfg s) (hu : Unlocked s) {id : UUID} {f : File}
    (hget : s.store.files.get? id = some f) (hstate : f.state = .quarantined) :
    ∃ t g x, Quiet cfg (fun _ => False) s t ∧ Consistent cfg t ∧ g ∈ t.store.queue ∧
      t.store.files.get? g = some x ∧ x.state = .quarantined := by
  have ha := working_workingAnswer [] []
  let c : RecoverCall := ⟨f.updatedAt + scanRetryAge + 1, 100⟩
  have hstart : Quiet cfg (fun _ => False) s
      ⟨s.store, s.threads ++ [.recoverStaleUploads c (.running .expireSelect)]⟩ :=
    .spawn hu rfl (by simp [Thread.initial])
  have hcandidates := hs.reachable hstart.recovers.reachable
  obtain ⟨t₁, hq₁, ht₁, hthread₁, -⟩ := janitor_act (p := .running (.nextExpire 0 _)) hcandidates
    hstart.unlocked ha List.getElem?_concat_length rfl rfl
  obtain ⟨t₂, n, hq₂, ht₂, hthread₂⟩ := janitor_expire _ ht₁ hq₁.unlocked hthread₁
  have hquiet := (hstart.trans hq₁).trans hq₂
  have hget₂ := (hquiet.calm id f not_false hstate).mpr hget
  have hlt : ∀ x y : Int, x < x + y + 1 - y := by omega
  have hcutoff : f.updatedAt < c.reference - scanRetryAge := hlt f.updatedAt scanRetryAge
  obtain ⟨g, rest, hids⟩ := List.exists_cons_of_ne_nil
    (RecoverCall.candidates_ne_nil (c := c) rfl hget₂ hstate hcutoff)
  obtain ⟨x, hx, hquarantined⟩ := RecoverCall.get?_of_mem_candidates (hids ▸ List.mem_cons_self)
  obtain ⟨t₃, hq₃, ht₃, hthread₃, -⟩ :=
    janitor_act (p := RecoverPc.nextEnqueue _ _) ht₂ hq₂.unlocked ha hthread₂ rfl rfl
  rw [hids] at hthread₃
  obtain ⟨t₄, hq₄, ht₄, -, hwrite⟩ := janitor_act ht₃ hq₃.unlocked ha hthread₃ rfl rfl
  refine ⟨t₄, g, x, (hquiet.trans hq₃).trans hq₄, ht₄, ?_,
    ((hq₃.trans hq₄).calm g x not_false hquarantined).mpr hx, hquarantined⟩
  rw [← Option.some.inj hwrite]
  exact List.mem_append_right _ (List.mem_singleton_self g)

end janitor

/-! ### One scan -/

/-- Every object can be read in pieces. -/
theorem exists_isBody (content : Bytes) : ∃ chunks, isBody content chunks = true := by
  refine ⟨slices (64 * 1024) content, ?_⟩
  rw [isBody, Bool.and_eq_true, decide_eq_true_eq, List.all_eq_true]
  refine ⟨flatten_slices (by decide) content, fun c hc => ?_⟩
  obtain ⟨hne, hlength⟩ := mem_slices hc
  exact decide_eq_true ⟨List.length_pos_iff_ne_nil.mpr hne, hlength⟩

section scan

variable {i : Nat} {g : UUID}

/-- One action of a scan attempt, before it reconciles. -/
theorem scan_act (hs : Consistent cfg s) (hu : Unlocked s) {a : Answer} {pc q : ScanPc}
    {o : Outcome ScanPc Unit} (ha : Working a)
    (hget : s.threads[i]? = some (.scanFile g (.running pc)))
    (hneeds : pc.needs g = [] ∨ pc.needs g = [.file g])
    (hstep : pc.step P cfg g a s.store = some o) (ho : o.progress = .running q)
    (hholds : q.holds = []) :
    ∃ t, Quiet cfg (· = g) s t ∧ Consistent cfg t ∧
      t.threads[i]? = some (.scanFile g (.running q)) ∧
      s.store.write? o.write = some t.store := by
  have hact : Thread.act cfg a s.store (.scanFile g (.running pc) : Thread P) =
      some (.scanFile g (.running q), o.write) := by
    simp [Thread.act, Progress.step, hstep, ho]
  obtain ⟨store, hwrite⟩ := (Thread.sound hs.wellFormed (hs.ok hget) hact).valid
  have hfree : (program P cfg).Free s.threads i (.scanFile g (.running pc)) := by
    rcases hneeds with hnil | hrow
    · exact free_of_needs_nil hnil
    · exact hu.free hrow
  have hquiet : Quiet cfg (· = g) s ⟨store, s.threads.set i (.scanFile g (.running q))⟩ := by
    refine .act hs hu ha hget hfree hact hwrite (fun id hne h => ?_) fun id hid => ?_
    · cases h
      exact hne rfl
    · rw [show (Thread.scanFile g (.running q) : Thread P).holds = q.holds from rfl, hholds] at hid
      cases hid
  exact ⟨_, hquiet, hs.reachable hquiet.recovers.reachable,
    List.getElem?_set_self (List.getElem?_eq_some_iff.mp hget).1, hwrite⟩

theorem settle_verdict (hs : Consistent cfg s) (hu : Unlocked s) {file f : File}
    {st : FileState} {result : Text}
    (hthread : s.threads[i]? = some (.scanFile g (.running (.verdict file st result))))
    (hget : s.store.files.get? g = some f) (hstate : f.state = .scanning) :
    ∃ t f', Quiet cfg (· = g) s t ∧ Consistent cfg t ∧ t.store.files.get? g = some f' ∧
      f'.state.terminal = true := by
  have hok := hs.ok hthread
  obtain ⟨t, hq, ht, -, hwrite⟩ := scan_act
    (q := if st = .infected ∨ st = .failed then .discard file.objectKey
      else .reconcile .lookup)
    hs hu (working_workingAnswer [] []) hthread (.inr rfl) rfl
    (by simp only [hget, hstate]; rfl) (by split <;> rfl)
  simp only [hget, hstate] at hwrite
  exact ⟨t, _, hq, ht, Store.get?_updateFile hwrite hget, hok.2⟩

theorem ScanPc.step_stream {a : Answer} {s : Store} {file : File}
    (h : (s.storage.object? file.objectKey).all fun content => isBody content a.chunks) :
    ∃ st result, ScanPc.step P cfg g a s (.stream file) =
      some (.goto (.verdict file st result)) :=
  ⟨_, _, if_pos h⟩

theorem settle_stream (hs : Consistent cfg s) (hu : Unlocked s) {file f : File}
    (hthread : s.threads[i]? = some (.scanFile g (.running (.stream file))))
    (hget : s.store.files.get? g = some f) (hstate : f.state = .scanning) :
    ∃ t f', Quiet cfg (· = g) s t ∧ Consistent cfg t ∧ t.store.files.get? g = some f' ∧
      f'.state.terminal = true := by
  obtain ⟨chunks, hchunks⟩ : ∃ chunks,
      (s.store.storage.object? file.objectKey).all fun content => isBody content chunks := by
    cases s.store.storage.object? file.objectKey with
    | none => exact ⟨[], rfl⟩
    | some content => exact exists_isBody content
  obtain ⟨st, result, hstep⟩ := ScanPc.step_stream (a := workingAnswer [] chunks) hchunks
  obtain ⟨t, hq, ht, hnext, hwrite⟩ := scan_act hs hu (working_workingAnswer [] chunks) hthread
    (.inl rfl) hstep rfl rfl
  have hstore : s.store = t.store := Option.some.inj hwrite
  obtain ⟨u, f', hq', hu', hrest⟩ := settle_verdict ht hq.unlocked hnext (hstore ▸ hget) hstate
  exact ⟨u, f', hq.trans hq', hu', hrest⟩

theorem settle_claim (hs : Consistent cfg s) (hu : Unlocked s) {f : File}
    (hthread : s.threads[i]? = some (.scanFile g (.running .claim)))
    (hget : s.store.files.get? g = some f) (hstate : f.state = .quarantined) :
    ∃ t f', Quiet cfg (· = g) s t ∧ Consistent cfg t ∧ t.store.files.get? g = some f' ∧
      f'.state.terminal = true := by
  obtain ⟨t, hq, ht, hnext, hwrite⟩ := scan_act (q := .stream f) hs hu
    (working_workingAnswer [] []) hthread (.inr rfl) rfl (by simp only [hget, hstate]; rfl) rfl
  simp only [hget, hstate] at hwrite
  obtain ⟨u, f', hq', hu', hrest⟩ := settle_stream ht hq.unlocked hnext
    (Store.get?_updateFile hwrite hget) rfl
  exact ⟨u, f', hq.trans hq', hu', hrest⟩

/-- A delivered scan of a quarantined file comes to a verdict. -/
theorem settle (hs : Consistent cfg s) (hu : Unlocked s) (hqueue : g ∈ s.store.queue) {f : File}
    (hget : s.store.files.get? g = some f) (hstate : f.state = .quarantined) :
    ∃ t f', Quiet cfg (· = g) s t ∧ Consistent cfg t ∧ t.store.files.get? g = some f' ∧
      f'.state.terminal = true := by
  have hstart : Quiet cfg (· = g) s ⟨s.store, s.threads ++ [.scanFile g (.running .receive)]⟩ :=
    .spawn hu trivial (by simp [Thread.initial])
  obtain ⟨t, hq, ht, hthread, hwrite⟩ := scan_act (q := .claim)
    (hs.reachable hstart.recovers.reachable) hstart.unlocked (working_workingAnswer [] [])
    List.getElem?_concat_length (.inl rfl) (if_pos hqueue) rfl rfl
  have hstore : s.store = t.store := Option.some.inj hwrite
  obtain ⟨u, f', hq', hu', hrest⟩ := settle_claim ht hq.unlocked hthread (hstore ▸ hget) hstate
  exact ⟨u, f', (hstart.trans hq).trans hq', hu', hrest⟩

end scan

/-! ### Quarantined files recover -/

def quarantinedIds (s : Store) : Finset UUID :=
  ((s.files.rows.filter fun f => decide (f.state = .quarantined)).map File.id).toFinset

theorem mem_quarantinedIds {s : Store} {id : UUID} :
    id ∈ quarantinedIds s ↔ ∃ f, s.files.get? id = some f ∧ f.state = .quarantined := by
  simp only [quarantinedIds, List.mem_toFinset, List.mem_map, List.mem_filter, decide_eq_true_eq]
  constructor
  · rintro ⟨f, ⟨hrow, hstate⟩, rfl⟩
    exact ⟨f, Table.get?_of_mem hrow, hstate⟩
  · rintro ⟨f, hget, hstate⟩
    exact ⟨f, ⟨Table.mem_of_get? hget, hstate⟩, Table.key_of_get? hget⟩

/-- Each round of the janitor settles one of the quarantined files, and adds none. -/
theorem settle_unlocked {id : UUID} {f : File} (hs : Consistent cfg s) (hu : Unlocked s)
    (hget : s.store.files.get? id = some f) (hstate : f.state = .quarantined) :
    ∃ t f', Recovers cfg s t ∧ t.store.files.get? id = some f' ∧ f'.state.terminal = true := by
  induction hn : (quarantinedIds s.store).card using Nat.strong_induction_on generalizing s with
  | h n ih =>
      obtain ⟨t, g, x, hq, ht, hqueue, hx, hquarantined⟩ := dispatch hs hu hget hstate
      obtain ⟨u, x', hq', hu', hx', hterminal⟩ := settle ht hq.unlocked hqueue hx hquarantined
      have hround : Quiet cfg (· = g) s u := (hq.mono fun _ => False.elim).trans hq'
      by_cases hid : id = g
      · subst hid
        exact ⟨u, x', hround.recovers, hx', hterminal⟩
      · have hfewer : (quarantinedIds u.store).card < n := by
          rw [← hn]
          refine Finset.card_lt_card ((Finset.ssubset_iff_of_subset fun k hk => ?_).mpr ⟨g, ?_, ?_⟩)
          · obtain ⟨y, hy, hystate⟩ := mem_quarantinedIds.mp hk
            have hne : k ≠ g := by
              rintro rfl
              obtain rfl := Option.some.inj (hx'.symm.trans hy)
              rw [hystate] at hterminal
              cases hterminal
            exact mem_quarantinedIds.mpr ⟨y, (hround.calm k y hne hystate).mp hy, hystate⟩
          · exact mem_quarantinedIds.mpr ⟨x, (hq.calm g x not_false hquarantined).mp hx, hquarantined⟩
          · intro hmem
            obtain ⟨y, hy, hystate⟩ := mem_quarantinedIds.mp hmem
            obtain rfl := Option.some.inj (hx'.symm.trans hy)
            rw [hystate] at hterminal
            cases hterminal
        obtain ⟨v, f', hrec, hfile⟩ := ih _ hfewer hu' hq'.unlocked
          ((hround.calm id f hid hstate).mpr hget) rfl
        exact ⟨v, f', hround.recovers.trans hrec, hfile⟩

/-- From every consistent state, every quarantined file can still be scanned. -/
theorem Consistent.recovers {id : UUID} {f : File} (hs : Consistent cfg s)
    (hget : s.store.files.get? id = some f) (hstate : f.state = .quarantined) :
    ∃ t f', Recovers cfg s t ∧ t.store.files.get? id = some f' ∧ f'.state.terminal = true := by
  obtain ⟨t, hrec, hunlocked, hkept⟩ := unlock hs
  obtain ⟨u, f', hrec', hfile⟩ :=
    settle_unlocked (hs.reachable hrec.reachable) hunlocked (hkept hget hstate) hstate
  exact ⟨u, f', hrec.trans hrec', hfile⟩

end recovery

end SuperBoss.Server
