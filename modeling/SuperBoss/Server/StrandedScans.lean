import SuperBoss.Server.FileLifecycle
import SuperBoss.Server.Recovery

/-!
Scans that stop half-way. Between its two commits a scan attempt is all that
keeps a `SCANNING` file alive: neither the redelivered task nor the janitor
takes the file up again.
-/

namespace SuperBoss.Server

open SuperBoss.Core
open SuperBoss.Library
open SuperBoss.Library.Interleaving
open SuperBoss.Library.Transition
open SuperBoss.Files
open SuperBoss.Imports
open SuperBoss.Infrastructure.Clamav

/-- The file of a scan attempt between its two commits. -/
def Thread.attempt {P : Platform} : Thread P → Option UUID
  | .scanFile fileId (.running (.stream _)) => some fileId
  | .scanFile fileId (.running (.verdict _ _ _)) => some fileId
  | _ => none

def Thread.Attempts {P : Platform} (id : UUID) (v : Thread P) : Prop := v.attempt = some id

/-- A scan task of the file is running. -/
def Thread.scans {P : Platform} (id : UUID) : Thread P → Bool
  | .scanFile fileId p => p.isRunning && decide (fileId = id)
  | _ => false

/-- The event stops a scan attempt of the file between its commits: a crash or a
cancellation there, a first commit that raises although it took place, or a
second commit that fails. -/
inductive Strands {P : Platform} (s : SystemState P) (id : UUID) : SystemEvent P → Prop
  | crash {i : Nat} {v : Thread P} (hthread : s.threads[i]? = some v) (hv : v.Attempts id) :
      Strands s id (.crash i)
  | claim {i : Nat} {a : Answer} {f : File}
      (hthread : s.threads[i]? = some (.scanFile id (.running .claim)))
      (hget : s.store.files.get? id = some f) (hstate : f.state = .quarantined)
      (hfate : a.fate = .lost) : Strands s id (.act i a)
  | verdict {i : Nat} {a : Answer} {f : File} {st : FileState} {result : Text}
      (hthread : s.threads[i]? = some (.scanFile id (.running (.verdict f st result))))
      (hfate : a.fate = .error) : Strands s id (.act i a)

section stranded

variable {P : Platform} {cfg : ScannerConfig} {s t : SystemState P} {id : UUID}

/-! ### Attempts of one file -/

theorem Thread.attempts_iff {v : Thread P} : v.Attempts id ↔
    (∃ f, v = .scanFile id (.running (.stream f))) ∨
      ∃ f st result, v = .scanFile id (.running (.verdict f st result)) := by
  constructor
  · intro h
    cases v with
    | scanFile fileId p =>
        cases p with
        | running pc =>
            cases pc with
            | stream f =>
                obtain rfl := Option.some.inj h
                exact .inl ⟨f, rfl⟩
            | verdict f st result =>
                obtain rfl := Option.some.inj h
                exact .inr ⟨f, st, result, rfl⟩
            | receive | claim | discard | reconcile => cases h
        | returned | raised | crashed => cases h
    | startUpload | presignPart | completeUpload | download | recoverStaleUploads | createImport
    | submitImport | readImport => cases h
  · rintro (⟨f, rfl⟩ | ⟨f, st, result, rfl⟩)
    · rfl
    · rfl

theorem Thread.Attempts.running {v : Thread P} (h : v.Attempts id) :
    ∃ pc, v = .scanFile id (.running pc) ∧ pc ≠ .receive := by
  rcases attempts_iff.mp h with ⟨f, rfl⟩ | ⟨f, st, result, rfl⟩
  · exact ⟨_, rfl, ScanPc.noConfusion⟩
  · exact ⟨_, rfl, ScanPc.noConfusion⟩

theorem Thread.not_attempts_of_initial {v : Thread P} (h : v.initial = true) :
    ¬v.Attempts id := by
  intro hv
  obtain ⟨pc, rfl, hpc⟩ := hv.running
  cases of_decide_eq_true h
  exact hpc rfl

theorem Thread.not_attempts_crash {v : Thread P} : ¬v.crash.Attempts id := by
  intro hv
  obtain ⟨pc, hpc, -⟩ := hv.running
  exact crash_ne_scanFile hpc

/-- An attempt goes on from its claim of a quarantined file, or from its stream. -/
theorem Thread.attempts_act {a : Answer} {v v' : Thread P} {w : Write} {st : Store}
    (hact : v.act cfg a st = some (v', w)) (hv : v'.Attempts id) :
    v.Attempts id ∨ v = .scanFile id (.running .claim) ∧
      ∃ f, st.files.get? id = some f ∧ f.state = .quarantined := by
  rcases attempts_iff.mp hv with ⟨f, rfl⟩ | ⟨f, state, result, rfl⟩
  · obtain ⟨pc, o, rfl, hstep, hprogress, -⟩ := Thread.scanFile_of_act hact
    obtain ⟨rfl, hget, hstate⟩ := ScanPc.stream_of_step hstep hprogress
    exact .inr ⟨rfl, f, hget, hstate⟩
  · obtain ⟨pc, o, rfl, hstep, hprogress, -⟩ := Thread.scanFile_of_act hact
    obtain ⟨rfl, -, -⟩ := ScanPc.verdict_of_step hstep hprogress
    exact .inl rfl

/-- A `SCANNING` file was `SCANNING`, or has just been claimed. -/
theorem Consistent.scanning_cases (hs : Consistent cfg s) {i : Nat} {a : Answer}
    {v v' : Thread P} {w : Write} {store : Store} (hthread : s.threads[i]? = some v)
    (hact : v.act cfg a s.store = some (v', w)) (hwrite : s.store.write? w = some store)
    {f : File} (hget : store.files.get? id = some f) (hstate : f.state = .scanning) :
    s.store.files.get? id = some f ∨ v = .scanFile id (.running .claim) ∧
      ∃ g, s.store.files.get? id = some g ∧ g.state = .quarantined := by
  rcases hs.file_before hthread hact hwrite hget with
    hsame | ⟨-, hnew⟩ | ⟨g, u, hg, hmove, hu, rfl⟩
  · exact .inl hsame
  · rw [hstate] at hnew
    cases hnew
  · cases hmove with
    | provision hstate' =>
        rw [FileUpdate.apply_state, FileUpdate.provision, Option.getD_none, hstate'] at hstate
        cases hstate
    | settle hmove =>
        cases hu with
        | mismatch | complete | expire => cases hstate
        | claim hget' hquarantined => exact .inr ⟨rfl, _, hget', hquarantined⟩
        | verdict =>
            have hterminal := (congrArg FileState.terminal hstate).symm.trans (hs.ok hthread).2
            exact absurd hterminal (by decide)

/-- Only the verdict of an attempt moves a `SCANNING` file on. -/
theorem Consistent.scanning_after (hs : Consistent cfg s) {i : Nat} {a : Answer}
    {v v' : Thread P} {w : Write} {store : Store} (hthread : s.threads[i]? = some v)
    (hact : v.act cfg a s.store = some (v', w)) (hwrite : s.store.write? w = some store)
    {f : File} (hget : s.store.files.get? id = some f) (hstate : f.state = .scanning)
    (hv : ¬v.Attempts id) : store.files.get? id = some f := by
  refine hs.file_kept hthread hact hwrite hget fun u hmove hu => ?_
  cases hmove with
  | provision hstate' =>
      rw [hstate] at hstate'
      cases hstate'
  | settle hmove =>
      rw [hstate] at hmove
      cases hu with
      | mismatch =>
          obtain ⟨f', hf', huploading⟩ := (hs.ok hthread).uploading (List.mem_singleton_self _)
          obtain rfl := Option.some.inj (hget.symm.trans hf')
          rw [hstate] at huploading
          cases huploading
      | complete | claim => cases hmove with
          | verdict h => cases h
      | expire hcurrent huploading =>
          obtain rfl := Option.some.inj (hget.symm.trans hcurrent)
          rw [hstate] at huploading
          cases huploading
      | verdict => exact hv rfl

/-! ### Runs in which no attempt is stopped -/

/-- A `SCANNING` file has an attempt that is still running. -/
def Attended (s : SystemState P) (id : UUID) : Prop :=
  ∀ f, s.store.files.get? id = some f → f.state = .scanning → ∃ v ∈ s.threads, v.Attempts id

/-- A file that stays `SCANNING` keeps its attempt, unless the action stops it. -/
theorem Thread.attempts_kept (hs : Consistent cfg s) {i : Nat} {a : Answer} {v v' : Thread P}
    {w : Write} {store : Store} (hthread : s.threads[i]? = some v)
    (hact : v.act cfg a s.store = some (v', w)) (hwrite : s.store.write? w = some store)
    (hsafe : ¬Strands s id (.act i a)) {f : File} (hget : s.store.files.get? id = some f)
    (hget' : store.files.get? id = some f) (hstate : f.state = .scanning)
    (hv : v.Attempts id) : v'.Attempts id := by
  rcases attempts_iff.mp hv with ⟨file, rfl⟩ | ⟨file, st, result, rfl⟩
  · simp only [act, Progress.step, ScanPc.step] at hact
    split at hact
    · cases hact
      rfl
    · cases hact
  · have hok := hs.ok hthread
    rw [act_verdict hget hstate] at hact
    exfalso
    cases hfate : a.fate with
    | error => exact hsafe (.verdict hthread hfate)
    | ok | lost =>
        rw [hfate] at hact
        cases hact
        rw [Store.get?_updateFile hwrite hget] at hget'
        have hst : st = .scanning := (congrArg File.state (Option.some.inj hget')).trans hstate
        have hterminal := (congrArg FileState.terminal hst).symm.trans hok.2
        exact absurd hterminal (by decide)

/-- A claim starts an attempt, unless the action stops it. -/
theorem Thread.attempts_started {i : Nat} {a : Answer} {v' : Thread P} {w : Write} {store : Store}
    (hthread : s.threads[i]? = some (.scanFile id (.running .claim)))
    (hact : Thread.act cfg a s.store (.scanFile id (.running .claim)) = some (v', w))
    (hwrite : s.store.write? w = some store) (hsafe : ¬Strands s id (.act i a)) {f g : File}
    (hget : s.store.files.get? id = some g) (hquarantined : g.state = .quarantined)
    (hget' : store.files.get? id = some f) (hstate : f.state = .scanning) : v'.Attempts id := by
  rw [act_claim hget hquarantined] at hact
  cases hfate : a.fate with
  | ok =>
      rw [hfate] at hact
      cases hact
      rfl
  | lost => exact absurd (.claim hthread hget hquarantined hfate) hsafe
  | error =>
      rw [hfate] at hact
      cases hact
      cases hwrite
      obtain rfl := Option.some.inj (hget.symm.trans hget')
      rw [hquarantined] at hstate
      cases hstate

theorem Attended.step (hs : Consistent cfg s) {e : SystemEvent P} (h : next P cfg s e = some t)
    (hsafe : ¬Strands s id e) (hattended : Attended s id) : Attended t id := by
  intro f hget hstate
  cases hs.happens h with
  | spawn hinitial =>
      obtain ⟨v, hv, hattempts⟩ := hattended f hget hstate
      exact ⟨v, List.mem_append_left _ hv, hattempts⟩
  | crash hthread =>
      obtain ⟨v, hv, hattempts⟩ := hattended f hget hstate
      obtain ⟨j, hj⟩ := List.mem_iff_getElem?.mp hv
      refine ⟨v, List.mem_iff_getElem?.mpr ⟨j, ?_⟩, hattempts⟩
      rw [List.getElem?_set_ne ?_, hj]
      rintro rfl
      exact hsafe (.crash hj hattempts)
  | @act i a v v' w store hthread hfree hact hwrite hsound =>
      have hself : ((s.threads.set i v')[i]? : Option (Thread P)) = some v' :=
        List.getElem?_set_self (List.getElem?_eq_some_iff.mp hthread).1
      rcases hs.scanning_cases hthread hact hwrite hget hstate with hsame | ⟨rfl, g, hg, hgstate⟩
      · obtain ⟨u, hu, hattempts⟩ := hattended f hsame hstate
        obtain ⟨j, hj⟩ := List.mem_iff_getElem?.mp hu
        by_cases hji : i = j
        · subst hji
          obtain rfl := Option.some.inj (hthread.symm.trans hj)
          exact ⟨v', List.mem_of_getElem? hself,
            Thread.attempts_kept hs hthread hact hwrite hsafe hsame hget hstate hattempts⟩
        · refine ⟨u, List.mem_iff_getElem?.mpr ⟨j, ?_⟩, hattempts⟩
          rw [List.getElem?_set_ne hji, hj]
      · exact ⟨v', List.mem_of_getElem? hself,
          Thread.attempts_started hthread hact hwrite hsafe hg hgstate hget hstate⟩

/-- A run in which no step stops an attempt of the file between its commits. -/
def Uninterrupted (P : Platform) (cfg : ScannerConfig) (projects : List UUID)
    (es : List (SystemEvent P)) (id : UUID) : Prop :=
  ∀ es₁ e es₂ u, es = es₁ ++ e :: es₂ →
    run (next P cfg) (initialState P projects) es₁ = some u → ¬Strands u id e

theorem attended_of_run {projects : List UUID} {es : List (SystemEvent P)}
    (hrun : run (next P cfg) (initialState P projects) es = some s)
    (hes : Uninterrupted P cfg projects es id) : Attended s id := by
  revert hes
  refine run_induction (I := fun es s => Uninterrupted P cfg projects es id → Attended s id)
    (fun _ f hget => by cases hget) (fun es s e t hrun ih hstep hes => ?_) hrun
  refine (ih fun es₁ e' es₂ u heq => ?_).step (consistent_of_reachable ⟨es, hrun⟩) hstep
    (hes es e [] s rfl hrun)
  exact hes es₁ e' (es₂ ++ [e]) u (by rw [heq, List.append_assoc, List.cons_append])

/-- No process dies, and every statement and call ends well. -/
def Faultless : SystemEvent P → Prop
  | .spawn _ => True
  | .act _ a => a.fate = .ok
  | .crash _ => False

instance : DecidablePred (Faultless (P := P))
  | .spawn _ => .isTrue trivial
  | .act _ a => inferInstanceAs (Decidable (a.fate = .ok))
  | .crash _ => .isFalse not_false

theorem Faultless.not_strands {e : SystemEvent P} (h : Faultless e) : ¬Strands s id e := by
  intro hstrands
  cases hstrands with
  | crash => exact h
  | claim hthread hget hstate hfate => cases hfate.symm.trans h
  | verdict hthread hfate => cases hfate.symm.trans h

/-! ### Stranded files -/

/-- A `SCANNING` file without a running attempt. -/
structure Stranded (s : SystemState P) (id : UUID) : Prop where
  scanning : ∃ f, s.store.files.get? id = some f ∧ f.state = .scanning
  unattended : ∀ v ∈ s.threads, ¬v.Attempts id

theorem Stranded.step (hs : Consistent cfg s) {e : SystemEvent P} (h : next P cfg s e = some t)
    (hstranded : Stranded s id) : Stranded t id := by
  obtain ⟨f, hf, hscanning⟩ := hstranded.scanning
  constructor
  · cases hs.happens h with
    | spawn | crash => exact ⟨f, hf, hscanning⟩
    | act hthread hfree hact hwrite hsound =>
        exact ⟨f, hs.scanning_after hthread hact hwrite hf hscanning
          (hstranded.unattended _ (List.mem_of_getElem? hthread)), hscanning⟩
  · intro v hv hattempts
    obtain ⟨j, hj⟩ := List.mem_iff_getElem?.mp hv
    rcases (hs.happens h).thread_cases hj with hold | hinitial | ⟨u, -, rfl⟩ |
      ⟨a, u, w, rfl, hu, hact, -⟩
    · exact hstranded.unattended v (List.mem_of_getElem? hold) hattempts
    · exact Thread.not_attempts_of_initial hinitial hattempts
    · exact Thread.not_attempts_crash hattempts
    · rcases Thread.attempts_act hact hattempts with hattempts | ⟨-, g, hg, hstate⟩
      · exact hstranded.unattended u (List.mem_of_getElem? hu) hattempts
      · obtain rfl := Option.some.inj (hf.symm.trans hg)
        rw [hscanning] at hstate
        cases hstate

theorem Stranded.reachable (hs : Consistent cfg s) (hstranded : Stranded s id)
    (h : Reachable (next P cfg) s t) : Stranded t id :=
  h.induction (I := fun u => Stranded u id) hstranded
    fun _ _ _ hu hinv hstep => hinv.step (hs.reachable hu) hstep

end stranded

namespace Sample

/-- A scan attempt that is cancelled while it streams the object. -/
def cancelled : List (SystemEvent platform) :=
  .spawn (.scanFile 10 (.running .receive)) :: List.replicate 2 (.act 2 answer) ++ [.crash 2]

/-- Nothing fails in the sample upload. -/
theorem uninterrupted : Uninterrupted platform scanner [1] uploaded 10 := by
  have hfates : ∀ e ∈ uploaded, Faultless e := by decide
  intro es₁ e es₂ u heq _
  refine (hfates e ?_).not_strands
  rw [heq]
  exact List.mem_append_right _ List.mem_cons_self

end Sample

/-- In a run that never stops a scan attempt of the file between its two
commits, a file that waits in `QUARANTINED` or `SCANNING` with no attempt under
way recovers. -/
theorem scan_recovers (P : Platform) (cfg : ScannerConfig) (projects : List UUID)
    {es : List (SystemEvent P)} {s : SystemState P} {id : UUID} {f : File}
    (hrun : run (next P cfg) (initialState P projects) es = some s)
    (hes : Uninterrupted P cfg projects es id) (hget : s.store.files.get? id = some f)
    (hstate : f.state = .quarantined ∨ f.state = .scanning)
    (hidle : ∀ v ∈ s.threads, ¬v.Attempts id) :
    ∃ t f', Recovers cfg s t ∧ t.store.files.get? id = some f' ∧
      (f'.state = .clean ∨ f'.state = .infected ∨ f'.state = .failed) := by
  rcases hstate with hquarantined | hscanning
  · obtain ⟨t, f', hrec, hf', hterminal⟩ :=
      (consistent_of_reachable ⟨es, hrun⟩).recovers hget hquarantined
    refine ⟨t, f', hrec, hf', ?_⟩
    cases hstate : f'.state with
    | clean => exact .inl rfl
    | infected => exact .inr (.inl rfl)
    | failed => exact .inr (.inr rfl)
    | uploading | quarantined | scanning =>
        rw [hstate] at hterminal
        cases hterminal
  · obtain ⟨v, hv, hattempts⟩ := attended_of_run hrun hes f hget hscanning
    exact absurd hattempts (hidle v hv)

/-- The sample upload is quarantined, and its scan can still be done. -/
theorem scan_recovers_uploaded :
    ∃ s t f, run (next Sample.platform Sample.scanner) (initialState Sample.platform [1])
        Sample.uploaded = some s ∧ Recovers Sample.scanner s t ∧
      t.store.files.get? 10 = some f ∧
      (f.state = .clean ∨ f.state = .infected ∨ f.state = .failed) := by
  have hrun : ((run (next Sample.platform Sample.scanner) (initialState Sample.platform [1])
      Sample.uploaded).bind fun s => (s.store.files.get? 10).map fun f =>
        decide (f.state = .quarantined ∧ ∀ v ∈ s.threads, v.attempt ≠ some 10)) = some true := by
    decide +kernel
  obtain ⟨s, hs, hfile⟩ := Option.bind_eq_some_iff.mp hrun
  obtain ⟨f, hf, hfile⟩ := Option.map_eq_some_iff.mp hfile
  obtain ⟨hstate, hidle⟩ := of_decide_eq_true hfile
  obtain ⟨t, f', hrec, hf'⟩ :=
    scan_recovers _ _ [1] hs Sample.uninterrupted hf (.inl hstate) hidle
  exact ⟨s, t, f', hs, hrec, hf'⟩

/-- After a cancelled scan no attempt is running and the file is `SCANNING`; no
recovery, and nothing else, leads it further. -/
theorem cancelled_scan_stranded :
    ∃ s f, run (next Sample.platform Sample.scanner) (initialState Sample.platform [1])
        (Sample.uploaded ++ Sample.cancelled) = some s ∧
      s.store.files.get? 10 = some f ∧ f.state = .scanning ∧
      (∀ v ∈ s.threads, v.scans 10 = false) ∧
      ¬∃ t f', Recovers Sample.scanner s t ∧ t.store.files.get? 10 = some f' ∧
        (f'.state = .clean ∨ f'.state = .infected ∨ f'.state = .failed) := by
  have hrun : ((run (next Sample.platform Sample.scanner) (initialState Sample.platform [1])
      (Sample.uploaded ++ Sample.cancelled)).bind fun s => (s.store.files.get? 10).map fun f =>
        decide (f.state = .scanning ∧ ∀ v ∈ s.threads, v.scans 10 = false)) = some true := by
    decide +kernel
  obtain ⟨s, hs, hfile⟩ := Option.bind_eq_some_iff.mp hrun
  obtain ⟨f, hf, hfile⟩ := Option.map_eq_some_iff.mp hfile
  obtain ⟨hstate, hidle⟩ := of_decide_eq_true hfile
  refine ⟨s, f, hs, hf, hstate, hidle, ?_⟩
  rintro ⟨t, f', hrec, hf', hterminal⟩
  have hstranded : Stranded s 10 :=
    ⟨⟨f, hf, hstate⟩, fun v hv hattempts => by
      obtain ⟨pc, rfl, -⟩ := hattempts.running
      cases hidle _ hv⟩
  obtain ⟨g, hg, hscanning⟩ :=
    (hstranded.reachable (consistent_of_reachable ⟨_, hs⟩) hrec.reachable).scanning
  obtain rfl := Option.some.inj (hg.symm.trans hf')
  rw [hscanning] at hterminal
  rcases hterminal with h | h | h <;> cases h

end SuperBoss.Server
