import SuperBoss.Files.Models
import SuperBoss.Files.Storage
import SuperBoss.Imports.Models

/-!
What the server's requests and tasks share: the tables, the object storage and
the scan queue. An action of a request makes at most one write, a committed
transaction or one external call.
-/

namespace SuperBoss.Server

open SuperBoss.Core
open SuperBoss.Library
open SuperBoss.Files
open SuperBoss.Imports

structure Store where
  files : FileTable
  jobs : JobTable
  attachments : AttachmentTable
  audit : AuditTable
  projects : List UUID
  storage : Storage
  /-- Scan messages that a worker can still receive. -/
  queue : List UUID

/-- Rows with locks. -/
inductive Row
  | file (id : UUID)
  | job (id : UUID)
  deriving DecidableEq

/-- One status transition of a job, with its audit row. -/
structure Transition where
  jobId : UUID
  update : JobUpdate
  row : AuditLog
  deriving DecidableEq

inductive Write
  | nothing
  | insertFile (file : File)
  | updateFile (id : UUID) (update : FileUpdate) (row : Option AuditLog)
  | insertJob (job : ImportJob) (attachments : List ImportAttachment) (row : AuditLog)
  | transitions (ts : List Transition)
  | record (row : AuditLog)
  | call (call : StorageCall)
  | publish (fileId : UUID)
  | consume (fileId : UUID)
  deriving DecidableEq

namespace Store

def empty (projects : List UUID) : Store := ⟨∅, ∅, ∅, ∅, projects, .empty, []⟩

def recordAudit (s : Store) (row : AuditLog) : Option Store :=
  (s.audit.insert? row).map fun audit => { s with audit }

def recordOptional (s : Store) : Option AuditLog → Option Store
  | none => some s
  | some row => s.recordAudit row

def modifyFile (s : Store) (id : UUID) (u : FileUpdate) : Store :=
  { s with files := s.files.modify id u.apply u.keeps }

def modifyJob (s : Store) (id : UUID) (u : JobUpdate) : Store :=
  { s with jobs := s.jobs.modify id u.apply u.keeps }

/-- The foreign keys of an attachment: its job and its file, in one project. -/
def attachable (s : Store) (a : ImportAttachment) : Bool :=
  (match s.jobs.get? a.jobId with
    | some j => decide (j.projectId = a.projectId)
    | none => false) &&
  (match s.files.get? a.fileId with
    | some f => decide (f.projectId = a.projectId)
    | none => false) &&
  decide (a.uploadId = a.fileId)

def insertAttachment (s : Store) (a : ImportAttachment) : Option Store :=
  if s.attachable a then
    (s.attachments.insert? a).map fun attachments => { s with attachments }
  else none

def insertAttachments (s : Store) : List ImportAttachment → Option Store
  | [] => some s
  | a :: as => (s.insertAttachment a).bind fun s => s.insertAttachments as

/-- One transition; its row has to keep the time order. -/
def transition (s : Store) (t : Transition) : Option Store :=
  match s.jobs.get? t.jobId with
  | none => some s
  | some j =>
      if (t.update.apply j).TimeOrder then (s.modifyJob t.jobId t.update).recordAudit t.row
      else none

def transitions (s : Store) : List Transition → Option Store
  | [] => some s
  | t :: ts => (s.transition t).bind fun s => s.transitions ts

/-- `String(2048)`. -/
def objectKeyMaxLength : Nat := 2048

/-- The effect of a write; `none` where a constraint rejects it. -/
def write? (s : Store) : Write → Option Store
  | .nothing => some s
  | .insertFile file =>
      if file.objectKey.length ≤ objectKeyMaxLength then
        (s.files.insert? file).map fun files => { s with files }
      else none
  | .updateFile id u row => (s.modifyFile id u).recordOptional row
  | .insertJob job attachments row => do
      let jobs ← s.jobs.insert? job
      let s ← { s with jobs }.insertAttachments attachments
      s.recordAudit row
  | .transitions ts => s.transitions ts
  | .record row => s.recordAudit row
  | .call call => some { s with storage := s.storage.perform call }
  | .publish fileId => some { s with queue := s.queue ++ [fileId] }
  | .consume fileId => some { s with queue := s.queue.erase fileId }

def write (s : Store) (w : Write) : Store := (s.write? w).getD s

/-! ### Frames -/

section frames

variable {s s' : Store}

theorem recordAudit_frame {row : AuditLog} (h : s.recordAudit row = some s') :
    s'.files = s.files ∧ s'.jobs = s.jobs ∧ s'.attachments = s.attachments ∧
      s'.projects = s.projects ∧ s'.storage = s.storage ∧ s'.queue = s.queue ∧
      s'.audit.rows = s.audit.rows ++ [row] := by
  obtain ⟨audit, haudit, rfl⟩ := Option.map_eq_some_iff.mp h
  exact ⟨rfl, rfl, rfl, rfl, rfl, rfl, Table.rows_insert? haudit⟩

theorem recordOptional_frame {row : Option AuditLog} (h : s.recordOptional row = some s') :
    s'.files = s.files ∧ s'.jobs = s.jobs ∧ s'.attachments = s.attachments ∧
      s'.projects = s.projects ∧ s'.storage = s.storage ∧ s'.queue = s.queue ∧
      s'.audit.rows = s.audit.rows ++ row.toList := by
  cases row with
  | none =>
      cases h
      simp
  | some row => exact recordAudit_frame h

theorem insertAttachments_frame {as : List ImportAttachment}
    (h : s.insertAttachments as = some s') :
    s'.files = s.files ∧ s'.jobs = s.jobs ∧ s'.audit = s.audit ∧
      s'.projects = s.projects ∧ s'.storage = s.storage ∧ s'.queue = s.queue ∧
      s'.attachments.rows = s.attachments.rows ++ as := by
  induction as generalizing s with
  | nil =>
      cases h
      simp
  | cons a as ih =>
      obtain ⟨u, hu, hrest⟩ := Option.bind_eq_some_iff.mp h
      unfold insertAttachment at hu
      split at hu
      · obtain ⟨attachments, hinsert, rfl⟩ := Option.map_eq_some_iff.mp hu
        obtain ⟨hf, hj, ha, hp, hs, hq, hrows⟩ := ih hrest
        refine ⟨hf, hj, ha, hp, hs, hq, ?_⟩
        rw [hrows, Table.rows_insert? hinsert, List.append_assoc]
        rfl
      · cases hu

theorem attachable_of_insertAttachments {as : List ImportAttachment}
    (h : s.insertAttachments as = some s') : ∀ a ∈ as, s.attachable a = true := by
  induction as generalizing s with
  | nil => exact List.forall_mem_nil _
  | cons a as ih =>
      obtain ⟨u, hu, hrest⟩ := Option.bind_eq_some_iff.mp h
      unfold insertAttachment at hu
      split at hu
      · rename_i hattachable
        obtain ⟨attachments, -, rfl⟩ := Option.map_eq_some_iff.mp hu
        intro b hb
        rcases List.mem_cons.mp hb with rfl | hb
        · exact hattachable
        · exact ih hrest b hb
      · cases hu

/-- An `UPDATE files`, with the audit row of its transaction. -/
theorem write?_updateFile {id : UUID} {u : FileUpdate} {row : Option AuditLog}
    (h : s.write? (.updateFile id u row) = some s') :
    s'.files = s.files.modify id u.apply u.keeps ∧ s'.jobs = s.jobs ∧
      s'.attachments = s.attachments ∧ s'.storage = s.storage ∧ s'.queue = s.queue ∧
      s'.audit.rows = s.audit.rows ++ row.toList := by
  obtain ⟨hf, hj, ha, -, hs, hq, hrows⟩ := recordOptional_frame h
  exact ⟨hf, hj, ha, hs, hq, hrows⟩

theorem get?_updateFile {id : UUID} {u : FileUpdate} {row : Option AuditLog} {f : File}
    (h : s.write? (.updateFile id u row) = some s') (hget : s.files.get? id = some f) :
    s'.files.get? id = some (u.apply f) := by
  rw [(write?_updateFile h).1]
  exact Table.get?_modify_self hget

theorem write?_insertFile {f : File} (h : s.write? (.insertFile f) = some s') :
    ∃ files, s.files.insert? f = some files ∧ s' = { s with files } := by
  simp only [write?] at h
  split at h
  · obtain ⟨files, hinsert, rfl⟩ := Option.map_eq_some_iff.mp h
    exact ⟨files, hinsert, rfl⟩
  · cases h

theorem write?_insertJob {job : ImportJob} {as : List ImportAttachment} {row : AuditLog}
    (h : s.write? (.insertJob job as row) = some s') :
    s.jobs.insert? job = some s'.jobs ∧ s'.files = s.files ∧ s'.storage = s.storage ∧
      s'.queue = s.queue ∧ s'.attachments.rows = s.attachments.rows ++ as ∧
      s'.audit.rows = s.audit.rows ++ [row] ∧
      ∀ a ∈ as, { s with jobs := s'.jobs }.attachable a = true := by
  obtain ⟨jobs, hinsert, h⟩ := Option.bind_eq_some_iff.mp h
  obtain ⟨u, hattach, hrecord⟩ := Option.bind_eq_some_iff.mp h
  obtain ⟨hf, hj, ha, -, hs, hq, hrows⟩ := recordAudit_frame hrecord
  obtain ⟨hf', hj', ha', -, hs', hq', hrows'⟩ := insertAttachments_frame hattach
  have hjobs : s'.jobs = jobs := hj.trans hj'
  rw [hjobs]
  refine ⟨hinsert, hf.trans hf', hs.trans hs', hq.trans hq', by rw [ha, hrows'],
    by rw [hrows, ha'], attachable_of_insertAttachments hattach⟩

/-- A transition of a job that is there: its row keeps the time order. -/
theorem write?_transition {t : Transition} {job : ImportJob}
    (hget : s.jobs.get? t.jobId = some job) (h : s.write? (.transitions [t]) = some s') :
    (t.update.apply job).TimeOrder ∧ s'.jobs = s.jobs.modify t.jobId t.update.apply t.update.keeps ∧
      s'.files = s.files ∧ s'.attachments = s.attachments ∧ s'.storage = s.storage ∧
      s'.queue = s.queue ∧ s'.audit.rows = s.audit.rows ++ [t.row] := by
  obtain ⟨u, htransition, hnil⟩ := Option.bind_eq_some_iff.mp h
  cases hnil
  simp only [transition, hget] at htransition
  split at htransition
  · rename_i horder
    obtain ⟨hf, hj, ha, -, hs, hq, hrows⟩ := recordAudit_frame htransition
    exact ⟨horder, hj, hf, ha, hs, hq, hrows⟩
  · cases htransition

end frames

end Store

end SuperBoss.Server
