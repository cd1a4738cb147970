import SuperBoss.Library.Interleaving
import SuperBoss.Server.Scans

/-!
The server as interleaved requests and tasks over one store. A request starts
with any arguments, acts whenever the rows it has to lock are free, and may die
between any two actions.
-/

namespace SuperBoss.Server

open SuperBoss.Core
open SuperBoss.Library.Interleaving
open SuperBoss.Library.Transition
open SuperBoss.Files
open SuperBoss.Imports
open SuperBoss.Infrastructure.Clamav

inductive Thread (P : Platform)
  | startUpload (c : StartCall) (p : Progress StartPc File)
  | presignPart (c : PresignCall) (p : Progress PresignPc PartUrl)
  | completeUpload (c : CompleteCall) (p : Progress CompletePc File)
  | download (c : DownloadCall) (p : Progress DownloadPc DownloadUrl)
  | scanFile (fileId : UUID) (p : Progress ScanPc Unit)
  | recoverStaleUploads (c : RecoverCall) (p : Progress RecoverPc Nat)
  | createImport (c : CreateCall P) (p : Progress (CreatePc P) ImportJobResult)
  | submitImport (c : SubmitCall) (p : Progress SubmitPc ImportJobResult)
  | readImport (c : ReadCall) (p : Progress ReadPc (ImportJobView P))
  deriving DecidableEq

namespace Progress

variable {Pc Result : Type}

/-- The rows of a program counter; a request that is over has none. -/
def rows (f : Pc → List Row) : Progress Pc Result → List Row
  | running pc => f pc
  | _ => []

def step (f : Pc → Option (Outcome Pc Result)) : Progress Pc Result → Option (Outcome Pc Result)
  | running pc => f pc
  | _ => none

@[simp] theorem rows_crash (f : Pc → List Row) (p : Progress Pc Result) :
    p.crash.rows f = [] := by
  cases p <;> rfl

theorem step_eq_some {f : Pc → Option (Outcome Pc Result)} {p : Progress Pc Result}
    {o : Outcome Pc Result} (h : p.step f = some o) : ∃ pc, p = .running pc ∧ f pc = some o := by
  cases p with
  | running pc => exact ⟨pc, rfl, h⟩
  | returned r => cases h
  | raised e => cases h
  | crashed => cases h

end Progress

namespace Thread

variable {P : Platform} (cfg : ScannerConfig)

def initial : Thread P → Bool
  | startUpload _ p => p = .running .select
  | presignPart c p => p = .running c.begin
  | completeUpload c p => p = .running c.begin
  | download _ p => p = .running .read
  | scanFile _ p => p = .running .receive
  | recoverStaleUploads _ p => p = .running .expireSelect
  | createImport _ p => p = .running .begin
  | submitImport _ p => p = .running .preflight
  | readImport _ p => p = .running .load

def crash : Thread P → Thread P
  | startUpload c p => startUpload c p.crash
  | presignPart c p => presignPart c p.crash
  | completeUpload c p => completeUpload c p.crash
  | download c p => download c p.crash
  | scanFile fileId p => scanFile fileId p.crash
  | recoverStaleUploads c p => recoverStaleUploads c p.crash
  | createImport c p => createImport c p.crash
  | submitImport c p => submitImport c p.crash
  | readImport c p => readImport c p.crash

def holds : Thread P → List Row
  | startUpload _ p => p.rows StartPc.holds
  | completeUpload _ p => p.rows CompletePc.holds
  | scanFile _ p => p.rows ScanPc.holds
  | createImport _ p => p.rows CreatePc.holds
  | submitImport _ p => p.rows SubmitPc.holds
  | readImport _ p => p.rows ReadPc.holds
  | presignPart _ _ | download _ _ | recoverStaleUploads _ _ => []

def needs : Thread P → List Row
  | startUpload _ p => p.rows StartPc.needs
  | presignPart _ p => p.rows PresignPc.needs
  | completeUpload _ p => p.rows CompletePc.needs
  | download _ _ => []
  | scanFile fileId p => p.rows (ScanPc.needs fileId)
  | recoverStaleUploads _ p => p.rows RecoverPc.needs
  | createImport _ p => p.rows CreatePc.needs
  | submitImport c p => p.rows (SubmitPc.needs c)
  | readImport _ p => p.rows ReadPc.needs

/-- The next action: the local state after it and its write. -/
def act (a : Answer) (s : Store) : Thread P → Option (Thread P × Write)
  | startUpload c p =>
      (p.step (c.step P a s)).map fun o => (startUpload c o.progress, o.write)
  | presignPart c p => (p.step (c.step a s)).map fun o => (presignPart c o.progress, o.write)
  | completeUpload c p =>
      (p.step (c.step a s)).map fun o => (completeUpload c o.progress, o.write)
  | download c p => (p.step (c.step a s)).map fun o => (download c o.progress, o.write)
  | scanFile fileId p =>
      (p.step (ScanPc.step P cfg fileId a s)).map fun o => (scanFile fileId o.progress, o.write)
  | recoverStaleUploads c p =>
      (p.step (c.step a s)).map fun o => (recoverStaleUploads c o.progress, o.write)
  | createImport c p => (p.step (c.step a s)).map fun o => (createImport c o.progress, o.write)
  | submitImport c p =>
      (p.step (c.step P a s)).map fun o => (submitImport c o.progress, o.write)
  | readImport c p => (p.step (c.step P a s)).map fun o => (readImport c o.progress, o.write)

/-- A request that ended without raising. -/
def succeeded : Thread P → Bool
  | startUpload _ (.returned _) | presignPart _ (.returned _) | completeUpload _ (.returned _)
  | download _ (.returned _) | scanFile _ (.returned _) | recoverStaleUploads _ (.returned _)
  | createImport _ (.returned _) | submitImport _ (.returned _) | readImport _ (.returned _) =>
      true
  | _ => false

end Thread

namespace Outcome

variable {Pc Result : Type} {f : Pc → List Row} {r : Row}

@[simp] theorem rows_goto (pc : Pc) : (goto pc : Outcome Pc Result).progress.rows f = f pc := rfl

@[simp] theorem rows_done (x : Result) : (done x : Outcome Pc Result).progress.rows f = [] := rfl

@[simp] theorem rows_fail (e : Failure) :
    (fail e : Outcome Pc Result).progress.rows f = [] := rfl

@[simp] theorem rows_reject (e : DomainError) :
    (reject e : Outcome Pc Result).progress.rows f = [] := rfl

@[simp] theorem rows_attempt (fate : Fate) (w : Write) (next : Progress Pc Result) :
    (attempt fate w next).progress.rows f = next.rows f := rfl

theorem mem_rows_read {fate : Fate} {o : Outcome Pc Result}
    (h : r ∈ (read fate o).progress.rows f) : r ∈ o.progress.rows f := by
  rcases read_cases fate o with heq | heq
  · rwa [heq] at h
  · rw [heq] at h
    cases h

theorem mem_rows_commit {s : Store} {fate : Fate} {w : Write} {next : Progress Pc Result}
    (h : r ∈ (commit s fate w next).progress.rows f) : r ∈ next.rows f := by
  rcases commit_cases s fate w next with ⟨-, heq | heq⟩ | heq
  · rwa [heq] at h
  · rw [heq] at h
    cases h
  · rw [heq] at h
    cases h

end Outcome

@[simp] theorem Progress.rows_running {Pc Result : Type} (f : Pc → List Row) (pc : Pc) :
    (running pc : Progress Pc Result).rows f = f pc := rfl

@[simp] theorem Progress.rows_returned {Pc Result : Type} (f : Pc → List Row) (x : Result) :
    (returned x : Progress Pc Result).rows f = [] := rfl

@[simp] theorem Progress.rows_raised {Pc Result : Type} (f : Pc → List Row) (e : Failure) :
    (raised e : Progress Pc Result).rows f = [] := rfl

/-! ### Locks are taken by the action that first holds them -/

section locks

variable {P : Platform} {cfg : ScannerConfig} {a : Answer} {s : Store} {r : Row}

theorem StartPc.holds_provision {file : File} {leftovers : List Text} :
    (StartPc.provision file leftovers).holds = [.file file.id] := by
  cases leftovers <;> rfl

theorem StartCall.rows_reuse {fp : Text} {f : File} :
    (reuse fp f).progress.rows StartPc.holds = [] := by
  unfold reuse
  split <;> rfl

theorem StartCall.holds_step {c : StartCall} {pc : StartPc} {o : Outcome StartPc File}
    (h : c.step P a s pc = some o) (hr : r ∈ o.progress.rows StartPc.holds) :
    r ∈ pc.holds ∨ r ∈ pc.needs := by
  cases pc with
  | select =>
      cases h
      exfalso
      split at hr
      · simp at hr
      · split at hr
        · simp at hr
        · split at hr
          · simp at hr
          · have hr := Outcome.mem_rows_read hr
            split at hr
            · simp [rows_reuse] at hr
            · simp [StartPc.holds] at hr
  | insert =>
      cases h
      exfalso
      split at hr
      · simp at hr
      · split at hr
        · have hr := Outcome.mem_rows_read hr
          simp [rows_reuse] at hr
        · have hr := Outcome.mem_rows_commit hr
          simp [StartPc.holds] at hr
  | lock fileId =>
      cases h
      have hr := Outcome.mem_rows_read hr
      split at hr
      · simp at hr
      · rename_i f hget
        split at hr
        · simp at hr
        · split at hr
          · simp at hr
          · have hid : f.id = fileId := Library.Table.key_of_get? hget
            simpa [StartPc.holds, StartPc.needs, hid] using hr
  | list file =>
      cases h
      left
      split at hr
      · simp at hr
      · split at hr
        · simpa [StartPc.holds] using hr
        · rwa [Outcome.rows_goto, StartPc.holds_provision] at hr
  | abort file leftovers =>
      left
      cases leftovers with
      | nil =>
          cases h
          exact hr
      | cons m rest =>
          cases h
          rwa [Outcome.rows_attempt, Progress.rows_running, StartPc.holds_provision] at hr
  | create file =>
      simp only [step] at h
      split at h
      · cases h
      · cases h
        left
        simp only [Outcome.rows_attempt] at hr
        split at hr
        · exact hr
        · simp at hr
  | commit file multipartId =>
      cases h
      have hr := Outcome.mem_rows_commit hr
      simp at hr

theorem CompleteCall.holds_step {c : CompleteCall} {pc : CompletePc}
    {o : Outcome CompletePc File} (h : c.step a s pc = some o)
    (hr : r ∈ o.progress.rows CompletePc.holds) : r ∈ pc.holds ∨ r ∈ pc.needs := by
  cases pc with
  | resolve =>
      simp only [step] at h
      split at h
      · cases h
      · cases h
        have hr := Outcome.mem_rows_read hr
        split at hr <;> simp [CompletePc.holds] at hr
  | deny error projectId =>
      simp only [step] at h
      split at h
      · cases h
      · cases h
        have hr := Outcome.mem_rows_commit hr
        simp at hr
  | lock uploadId =>
      cases h
      have hr := Outcome.mem_rows_read hr
      split at hr
      · simp at hr
      · rename_i f hget
        split at hr
        · simp at hr
        · split at hr
          · simp at hr
          · split at hr
            · simp at hr
            · split at hr
              · have hid : f.id = uploadId := Library.Table.key_of_get? hget
                simpa [CompletePc.holds, CompletePc.needs, hid] using hr
              · simp at hr
  | finalize file multipartId =>
      cases h
      left
      split at hr
      · simp at hr
      · simp only [Outcome.rows_attempt] at hr
        split at hr
        · exact hr
        · simp at hr
  | settle file sizeBytes =>
      cases h
      split at hr
      · have hr := Outcome.mem_rows_commit hr
        simp [CompletePc.holds] at hr
      · have hr := Outcome.mem_rows_commit hr
        simp [CompletePc.holds] at hr
  | discard objectKey =>
      cases h
      simp at hr
  | enqueue file =>
      cases h
      simp at hr

theorem ReconcilePc.holds_step {fileId : UUID} {pc : ReconcilePc}
    {o : Outcome ReconcilePc Unit} (h : pc.step P fileId a s = some o)
    (hr : r ∈ o.progress.rows ReconcilePc.holds) : r ∈ pc.holds ∨ r ∈ pc.needs := by
  cases pc with
  | lookup =>
      cases h
      have hr := Outcome.mem_rows_read hr
      simp only at hr
      split at hr <;> simp [holds] at hr
  | lock jobIds =>
      cases h
      have hr := Outcome.mem_rows_read hr
      simp only [Outcome.rows_goto, holds, List.mem_map, List.mem_insertionSort,
        List.mem_filter, decide_eq_true_eq] at hr
      obtain ⟨-, ⟨j, ⟨-, hj⟩, rfl⟩, rfl⟩ := hr
      exact .inr (List.mem_map_of_mem hj)
  | observe locked todo staged =>
      cases h
      left
      split at hr
      · exact hr
      · split at hr
        · exact hr
        · have hr := Outcome.mem_rows_read hr
          simp only at hr
          split at hr <;> exact hr
  | commit locked staged =>
      cases h
      have hr := Outcome.mem_rows_commit hr
      simp at hr

theorem SubmitCall.holds_step {c : SubmitCall} {pc : SubmitPc}
    {o : Outcome SubmitPc ImportJobResult} (h : c.step P a s pc = some o)
    (hr : r ∈ o.progress.rows SubmitPc.holds) : r ∈ pc.holds ∨ r ∈ pc.needs c := by
  cases pc with
  | preflight =>
      cases h
      exfalso
      split at hr
      · simp [SubmitPc.holds] at hr
      · have hr := Outcome.mem_rows_read hr
        split at hr
        · simp [SubmitPc.holds] at hr
        · split at hr
          · simp [SubmitPc.holds] at hr
          · split at hr <;> simp [SubmitPc.holds] at hr
  | deny error projectId =>
      cases h
      have hr := Outcome.mem_rows_commit hr
      simp at hr
  | lock projectId =>
      cases h
      have hr := Outcome.mem_rows_read hr
      split at hr
      · simp [SubmitPc.holds] at hr
      · rename_i job hget
        split at hr
        · simp [SubmitPc.holds] at hr
        · split at hr
          · simp [SubmitPc.holds] at hr
          · split at hr
            · simp at hr
            · have hid : job.id = c.jobId := Library.Table.key_of_get? hget
              simpa [SubmitPc.holds, SubmitPc.needs, hid] using hr
  | observe job =>
      cases h
      left
      have hr := Outcome.mem_rows_read hr
      simp only at hr
      split at hr
      · simp [SubmitPc.holds] at hr
      · split at hr
        · simp at hr
        · exact hr
  | commit job t =>
      cases h
      have hr := Outcome.mem_rows_commit hr
      simp at hr

theorem ReadPc.holds_next {projectId : UUID} {fileIds : List UUID} :
    (ReadPc.next projectId fileIds).holds = [] := by
  cases fileIds <;> rfl

theorem ReadCall.holds_step {c : ReadCall} {pc : ReadPc} {o : Outcome ReadPc (ImportJobView P)}
    (h : c.step P a s pc = some o) (hr : r ∈ o.progress.rows ReadPc.holds) :
    r ∈ pc.holds ∨ r ∈ pc.needs := by
  cases pc with
  | load =>
      cases h
      exfalso
      split at hr
      · simp [ReadPc.holds] at hr
      · have hr := Outcome.mem_rows_read hr
        split at hr
        · simp [ReadPc.holds] at hr
        · split at hr
          · simp [ReadPc.holds] at hr
          · split at hr
            · simp [ReadPc.holds] at hr
            · rw [Outcome.rows_goto, ReadPc.holds_next] at hr
              cases hr
  | deny error projectId =>
      cases h
      have hr := Outcome.mem_rows_commit hr
      simp at hr
  | reconcile projectId fileId rest pc =>
      obtain ⟨o', hstep, rfl⟩ := Option.map_eq_some_iff.mp h
      split at hr
      · rename_i pc' hpc
        refine ReconcilePc.holds_step hstep ?_
        rw [hpc]
        exact hr
      · simp [ReadPc.holds_next] at hr
      · simp at hr
      · cases hr
  | view projectId =>
      cases h
      exfalso
      have hr := Outcome.mem_rows_read hr
      split at hr
      · simp [ReadPc.holds] at hr
      · split at hr
        · simp [ReadPc.holds] at hr
        · split at hr
          · simp [ReadPc.holds] at hr
          · split at hr <;> simp at hr

theorem CreateCall.rows_next {c : CreateCall P} {uploads : List File}
    {ds : List (AttachmentDeclaration P)} : (c.next uploads ds).rows CreatePc.holds = [] := by
  cases ds with
  | nil => rfl
  | cons d ds =>
      simp only [next]
      split <;> rfl

theorem CreateCall.rows_replay {c : CreateCall P} {job : ImportJob} :
    (c.replay s job).progress.rows CreatePc.holds = [] := by
  unfold replay
  split <;> rfl

theorem CreateCall.holds_step {c : CreateCall P} {pc : CreatePc P}
    {o : Outcome (CreatePc P) ImportJobResult} (h : c.step a s pc = some o)
    (hr : r ∈ o.progress.rows CreatePc.holds) : r ∈ pc.holds ∨ r ∈ pc.needs := by
  cases pc with
  | begin =>
      cases h
      exfalso
      split at hr
      · simp at hr
      · split at hr
        · simp [CreatePc.holds] at hr
        · have hr := Outcome.mem_rows_read hr
          simp [CreatePc.holds] at hr
  | deny projectId =>
      cases h
      have hr := Outcome.mem_rows_commit hr
      simp at hr
  | existing =>
      cases h
      have hr := Outcome.mem_rows_read hr
      split at hr
      · simp [rows_replay] at hr
      · simp [rows_next] at hr
  | upload current rest uploads pc =>
      obtain ⟨o', hstep, rfl⟩ := Option.map_eq_some_iff.mp h
      split at hr
      · rename_i pc' hpc
        refine StartCall.holds_step hstep ?_
        rw [hpc]
        exact hr
      · simp [rows_next] at hr
      · split at hr <;> simp at hr
      · simp at hr
      · cases hr
  | persist uploads =>
      cases h
      have hr := Outcome.mem_rows_read hr
      split at hr
      · simp [rows_replay] at hr
      · simp [CreatePc.holds] at hr
  | insert uploads =>
      simp only [step] at h
      split at h
      · cases h
        have hr := Outcome.mem_rows_read hr
        simp [rows_replay] at hr
      · split at h
        · cases h
        · cases h
          have hr := Outcome.mem_rows_commit hr
          simp at hr

theorem ScanPc.holds_step {fileId : UUID} {pc : ScanPc} {o : Outcome ScanPc Unit}
    (h : ScanPc.step P cfg fileId a s pc = some o) (hr : r ∈ o.progress.rows ScanPc.holds) :
    r ∈ pc.holds ∨ r ∈ pc.needs fileId := by
  cases pc with
  | receive =>
      simp only [step] at h
      split at h
      · cases h
        simp [holds] at hr
      · cases h
  | claim =>
      cases h
      exfalso
      split at hr
      · have hr := Outcome.mem_rows_read hr
        simp [holds, ReconcilePc.holds] at hr
      · split at hr
        · have hr := Outcome.mem_rows_read hr
          simp [holds, ReconcilePc.holds] at hr
        · have hr := Outcome.mem_rows_commit hr
          simp [holds] at hr
  | stream file =>
      simp only [step] at h
      split at h
      · cases h
        simp [holds] at hr
      · cases h
  | verdict file state scanResult =>
      cases h
      exfalso
      split at hr
      · have hr := Outcome.mem_rows_read hr
        simp [holds, ReconcilePc.holds] at hr
      · split at hr
        · have hr := Outcome.mem_rows_read hr
          simp [holds, ReconcilePc.holds] at hr
        · have hr := Outcome.mem_rows_commit hr
          simp only [Progress.rows_running] at hr
          split at hr <;> simp [holds, ReconcilePc.holds] at hr
  | discard objectKey =>
      cases h
      simp [holds, ReconcilePc.holds] at hr
  | reconcile pc =>
      obtain ⟨o', hstep, rfl⟩ := Option.map_eq_some_iff.mp h
      refine ReconcilePc.holds_step hstep ?_
      cases hp : o'.progress with
      | running pc' => simpa [Outcome.map, Progress.map, hp, holds] using hr
      | returned x => simp [Outcome.map, Progress.map, hp] at hr
      | raised e => simp [Outcome.map, Progress.map, hp] at hr
      | crashed => simp [Outcome.map, Progress.map, hp, Progress.rows] at hr

theorem Thread.holds_act {t t' : Thread P} {w : Write} (h : t.act cfg a s = some (t', w))
    (hr : r ∈ t'.holds) : r ∈ t.holds ∨ r ∈ t.needs := by
  cases t with
  | startUpload c p =>
      obtain ⟨o, hp, heq⟩ := Option.map_eq_some_iff.mp h
      obtain ⟨pc, rfl, hstep⟩ := Progress.step_eq_some hp
      cases heq
      exact c.holds_step hstep hr
  | presignPart c p =>
      obtain ⟨o, -, heq⟩ := Option.map_eq_some_iff.mp h
      cases heq
      cases hr
  | completeUpload c p =>
      obtain ⟨o, hp, heq⟩ := Option.map_eq_some_iff.mp h
      obtain ⟨pc, rfl, hstep⟩ := Progress.step_eq_some hp
      cases heq
      exact c.holds_step hstep hr
  | download c p =>
      obtain ⟨o, -, heq⟩ := Option.map_eq_some_iff.mp h
      cases heq
      cases hr
  | scanFile fileId p =>
      obtain ⟨o, hp, heq⟩ := Option.map_eq_some_iff.mp h
      obtain ⟨pc, rfl, hstep⟩ := Progress.step_eq_some hp
      cases heq
      exact ScanPc.holds_step hstep hr
  | recoverStaleUploads c p =>
      obtain ⟨o, -, heq⟩ := Option.map_eq_some_iff.mp h
      cases heq
      cases hr
  | createImport c p =>
      obtain ⟨o, hp, heq⟩ := Option.map_eq_some_iff.mp h
      obtain ⟨pc, rfl, hstep⟩ := Progress.step_eq_some hp
      cases heq
      exact c.holds_step hstep hr
  | submitImport c p =>
      obtain ⟨o, hp, heq⟩ := Option.map_eq_some_iff.mp h
      obtain ⟨pc, rfl, hstep⟩ := Progress.step_eq_some hp
      cases heq
      exact c.holds_step hstep hr
  | readImport c p =>
      obtain ⟨o, hp, heq⟩ := Option.map_eq_some_iff.mp h
      obtain ⟨pc, rfl, hstep⟩ := Progress.step_eq_some hp
      cases heq
      exact c.holds_step hstep hr

end locks

/-! ### The program -/

section program

variable (P : Platform) (cfg : ScannerConfig)

theorem Thread.holds_of_initial {t : Thread P} (h : t.initial = true) : t.holds = [] := by
  cases t with
  | startUpload c p => cases of_decide_eq_true h; rfl
  | presignPart c p => rfl
  | completeUpload c p =>
      cases of_decide_eq_true h
      simp only [holds, CompleteCall.begin]
      split <;> rfl
  | download c p => rfl
  | scanFile fileId p => cases of_decide_eq_true h; rfl
  | recoverStaleUploads c p => rfl
  | createImport c p => cases of_decide_eq_true h; rfl
  | submitImport c p => cases of_decide_eq_true h; rfl
  | readImport c p => cases of_decide_eq_true h; rfl

theorem Thread.holds_crash (t : Thread P) : t.crash.holds = [] := by
  cases t <;> simp [crash, holds]

def program : Program Store (Thread P) Answer Row where
  initial := Thread.initial
  next a t s := (t.act cfg a s).map fun r => (r.1, s.write r.2)
  crash := Thread.crash
  holds := Thread.holds
  needs := Thread.needs
  holds_initial _ := Thread.holds_of_initial P
  holds_crash := Thread.holds_crash P
  holds_next := by
    intro a t s t' s' h r hr
    obtain ⟨⟨u, w⟩, hact, heq⟩ := Option.map_eq_some_iff.mp h
    cases heq
    exact Thread.holds_act hact hr

abbrev SystemState := State Store (Thread P)
abbrev SystemEvent := Event (Thread P) Answer

/-- The server before its first request. -/
def initialState (projects : List UUID) : SystemState P := .start (.empty projects)

/-- One event of the server. -/
def next : SystemState P → SystemEvent P → Option (SystemState P) := (program P cfg).apply

theorem program_next_eq_some {a : Answer} {t t' : Thread P} {s s' : Store} :
    (program P cfg).next a t s = some (t', s') ↔
      ∃ w, t.act cfg a s = some (t', w) ∧ s' = s.write w := by
  simp only [program, Option.map_eq_some_iff, Prod.exists, Prod.mk.injEq]
  constructor
  · rintro ⟨u, w, h, rfl, rfl⟩
    exact ⟨w, h, rfl⟩
  · rintro ⟨w, h, rfl⟩
    exact ⟨t', w, h, rfl, rfl⟩

end program

end SuperBoss.Server
