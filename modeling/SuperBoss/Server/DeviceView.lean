import SuperBoss.Library.Subtable
import SuperBoss.Server.Ownership

/-!
The store as a device sees it: without the jobs, attachments and files of other
devices. The reads and the writes of the device are the same on both.
-/

namespace SuperBoss.Server

open SuperBoss.Core
open SuperBoss.Library
open SuperBoss.Library.Interleaving
open SuperBoss.Files
open SuperBoss.Imports

/-- The file does not belong to another device. -/
def showsFile (d : UUID) (f : File) : Bool :=
  !(decide (f.uploaderKind = .device) && decide (f.uploaderId ≠ d))

def showsJob (d : UUID) (j : ImportJob) : Bool := decide (j.deviceId = d)

/-- The job of the attachment is one of the device. -/
def Store.showsAttachment (d : UUID) (s : Store) (a : ImportAttachment) : Bool :=
  (s.jobs.get? a.jobId).any (showsJob d)

def Store.view (d : UUID) (s : Store) : Store :=
  { s with
    files := s.files.filter (showsFile d)
    jobs := s.jobs.filter (showsJob d)
    attachments := s.attachments.filter (s.showsAttachment d) }

/-- The new ids of an answer are not those of rows of other devices. -/
structure Fresh (d : UUID) (s : Store) (a : Answer) : Prop where
  file : ∀ f ∈ s.files.rows, showsFile d f = false → f.id ≠ a.uuid
  job : ∀ j ∈ s.jobs.rows, showsJob d j = false → j.id ≠ a.uuid
  attachment : ∀ b ∈ s.attachments.rows, s.showsAttachment d b = false → b.id ∉ a.attachmentIds

section reads

variable {d : UUID} {s : Store} {f : File} {j : ImportJob} {id : UUID}

theorem showsFile_of_device (hkind : f.uploaderKind = .device) :
    showsFile d f = decide (f.uploaderId = d) := by
  simp [showsFile, hkind]

theorem get?_view_file (h : s.files.get? id = some f) (hshows : showsFile d f = true) :
    (s.view d).files.get? id = some f :=
  Table.get?_filter_of_shown h hshows

theorem get?_view_job (h : s.jobs.get? id = some j) (hshows : showsJob d j = true) :
    (s.view d).jobs.get? id = some j :=
  Table.get?_filter_of_shown h hshows

theorem get?_view_job_eq : (s.view d).jobs.get? id = (s.jobs.get? id).filter (showsJob d) :=
  Table.get?_filter id

/-- The attachments that satisfy a condition which only those shown do. -/
theorem filter_view_attachments {p : ImportAttachment → Bool}
    (h : ∀ a ∈ s.attachments.rows, p a = true → s.showsAttachment d a = true) :
    (s.view d).attachments.rows.filter p = s.attachments.rows.filter p := by
  show (s.attachments.rows.filter (s.showsAttachment d)).filter p = _
  rw [List.filter_filter]
  refine List.filter_congr fun a ha => ?_
  cases hp : p a with
  | false => exact Bool.false_and _
  | true => rw [h a ha hp, Bool.and_self]

theorem showsAttachment_of_job {a : ImportAttachment} (h : s.jobs.get? a.jobId = some j)
    (hshows : showsJob d j = true) : s.showsAttachment d a = true := by
  rw [Store.showsAttachment, h]
  exact hshows

theorem attachmentsOf_view (h : s.jobs.get? id = some j) (hshows : showsJob d j = true) :
    (s.view d).attachmentsOf id = s.attachmentsOf id := by
  unfold Store.attachmentsOf
  rw [filter_view_attachments]
  intro a _ ha
  obtain rfl := of_decide_eq_true ha
  exact showsAttachment_of_job h hshows

theorem jobByKey_view {key : Text} : (s.view d).jobByKey d key = s.jobByKey d key := by
  refine Table.find?_filter fun j _ hj => ?_
  have hkey : j.createKey = (d, key) := of_decide_eq_true hj
  exact decide_eq_true (congrArg Prod.fst hkey)

theorem existing_view {c : StartCall} (hkind : c.actor.kind = .device)
    (hdevice : c.actor.subjectId = d) : c.existing (s.view d) = c.existing s := by
  refine Table.find?_filter fun f _ hf => ?_
  have hkey : f.uploadKey = c.uploadKey := of_decide_eq_true hf
  have huploader : f.uploaderKind = c.actor.kind ∧ f.uploaderId = c.actor.subjectId :=
    ⟨congrArg (fun k => k.2.1) hkey, congrArg (fun k => k.2.2.1) hkey⟩
  rw [showsFile_of_device (huploader.1.trans hkind)]
  exact decide_eq_true (huploader.2.trans hdevice)

end reads

/-! ### Files and attachments of the device -/

section owned

variable {P : Platform} {d : UUID} {s : Store} {j : ImportJob} {a : ImportAttachment}

/-- The file of an attachment that is shown is shown. -/
theorem Owned.file_of_attachment (h : Owned P s) (ha : a ∈ s.attachments.rows)
    (hjob : s.jobs.get? a.jobId = some j) (hshows : showsJob d j = true) :
    ∃ f, s.files.get? a.fileId = some f ∧ showsFile d f = true := by
  obtain ⟨j', f, hj', hf, hkind, hdevice⟩ := h.attached a ha
  obtain rfl := Option.some.inj (hjob.symm.trans hj')
  refine ⟨f, hf, ?_⟩
  rw [showsFile_of_device hkind, hdevice]
  exact hshows

/-- An attachment of a file that the device uploaded is shown. -/
theorem Owned.shows_of_file (h : Owned P s) (ha : a ∈ s.attachments.rows) {f : File}
    (hf : s.files.get? a.fileId = some f) (hdevice : f.uploaderId = d) :
    s.showsAttachment d a = true := by
  obtain ⟨j, f', hj, hf', -, hsame⟩ := h.attached a ha
  obtain rfl := Option.some.inj (hf.symm.trans hf')
  refine showsAttachment_of_job hj (decide_eq_true ?_)
  rw [← hsame, hdevice]

theorem Owned.observe_view (h : Owned P s) (ha : a ∈ s.attachments.rows)
    (hjob : s.jobs.get? a.jobId = some j) (hshows : showsJob d j = true) :
    (s.view d).observe a = s.observe a := by
  obtain ⟨f, hf, hfile⟩ := h.file_of_attachment ha hjob hshows
  unfold Store.observe
  rw [hf, get?_view_file hf hfile]

theorem Owned.observations_view (h : Owned P s) {id : UUID} (hjob : s.jobs.get? id = some j)
    (hshows : showsJob d j = true) : (s.view d).fileObservations id = s.fileObservations id := by
  unfold Store.fileObservations
  rw [attachmentsOf_view hjob hshows]
  refine List.filterMap_congr fun a ha => ?_
  obtain ⟨hmem, rfl⟩ := Store.mem_attachmentsOf.mp ha
  exact h.observe_view hmem hjob hshows

end owned

/-! ### Writes -/

section writes

variable {P : Platform} {d : UUID} {s s' : Store}

theorem recordAudit_view (row : AuditLog) :
    (s.view d).recordAudit row = (s.recordAudit row).map (Store.view d) := by
  unfold Store.recordAudit
  rw [Option.map_map]
  rfl

theorem recordOptional_view (row : Option AuditLog) :
    (s.view d).recordOptional row = (s.recordOptional row).map (Store.view d) := by
  cases row with
  | none => rfl
  | some row => exact recordAudit_view row

theorem modifyFile_view (id : UUID) (u : FileUpdate) :
    (s.view d).modifyFile id u = (s.modifyFile id u).view d := by
  have hfiles : (s.files.filter (showsFile d)).modify id u.apply u.keeps =
      (s.files.modify id u.apply u.keeps).filter (showsFile d) :=
    Table.modify_filter fun _ => rfl
  unfold Store.modifyFile Store.view
  rw [hfiles]
  rfl

theorem modifyJob_view (id : UUID) (u : JobUpdate) :
    (s.view d).modifyJob id u = (s.modifyJob id u).view d := by
  have hjobs : (s.jobs.filter (showsJob d)).modify id u.apply u.keeps =
      (s.jobs.modify id u.apply u.keeps).filter (showsJob d) :=
    Table.modify_filter fun _ => rfl
  have hattachments : s.attachments.filter (s.showsAttachment d) =
      s.attachments.filter ((s.modifyJob id u).showsAttachment d) := by
    refine Table.filter_congr fun a _ => ?_
    unfold Store.showsAttachment
    show _ = ((s.jobs.modify id u.apply u.keeps).get? a.jobId).any (showsJob d)
    rw [Table.get?_modify]
    split
    · cases s.jobs.get? a.jobId <;> rfl
    · rfl
  unfold Store.modifyJob Store.view
  simp only
  rw [hjobs, hattachments]
  rfl

/-- The transition of a job of the device. -/
theorem transition_view {t : Transition} {j : ImportJob} (hget : s.jobs.get? t.jobId = some j)
    (hshows : showsJob d j = true) :
    (s.view d).write? (.transitions [t]) = (s.write? (.transitions [t])).map (Store.view d) := by
  have hone : (s.view d).transition t = (s.transition t).map (Store.view d) := by
    unfold Store.transition
    rw [hget, get?_view_job hget hshows]
    simp only
    split
    · rw [modifyJob_view, recordAudit_view]
    · rfl
  show ((s.view d).transition t).bind some = ((s.transition t).bind some).map (Store.view d)
  rw [hone]
  cases s.transition t <;> rfl

theorem updateFile_view (id : UUID) (u : FileUpdate) (row : Option AuditLog) :
    (s.view d).write? (.updateFile id u row) =
      (s.write? (.updateFile id u row)).map (Store.view d) := by
  show ((s.view d).modifyFile id u).recordOptional row = _
  rw [modifyFile_view]
  exact recordOptional_view row

/-- A new file of the device: hidden rows have other ids, keys and object keys. -/
theorem insertFile_view {c : StartCall} {fp : Text} {a : Answer} (howned : Owned P s)
    (hkind : c.actor.kind = .device) (hdevice : c.actor.subjectId = d) (hfresh : Fresh d s a) :
    (s.view d).write? (.insertFile (c.newFile P fp a.uuid a.now)) =
      (s.write? (.insertFile (c.newFile P fp a.uuid a.now))).map (Store.view d) := by
  have hinsert : (s.files.filter (showsFile d)).insert? (c.newFile P fp a.uuid a.now) =
      (s.files.insert? (c.newFile P fp a.uuid a.now)).map fun t => t.filter (showsFile d) := by
    refine Table.insert?_filter ?_ fun f hf hhidden => ?_
    · rw [showsFile_of_device hkind]
      exact decide_eq_true hdevice
    · have hid := hfresh.file f hf hhidden
      refine ⟨hid, fun hkey => ?_, fun hobject => ?_⟩
      · have hfkind : f.uploaderKind = .device :=
          (congrArg (fun k => k.2.1) hkey).trans hkind
        have hfid : f.uploaderId = d := (congrArg (fun k => k.2.2.1) hkey).trans hdevice
        rw [showsFile_of_device hfkind, hfid, decide_eq_true rfl] at hhidden
        cases hhidden
      · obtain ⟨command, hcommand⟩ := howned.objectKey f hf
        exact hid (objectKey_inj (hcommand.symm.trans hobject))
  simp only [Store.write?]
  split
  · show ((s.files.filter (showsFile d)).insert? _).map _ = _
    rw [hinsert, Option.map_map, Option.map_map]
    rfl
  · rfl

/-- The condition for attachments of a new job of the device. -/
structure Attaches (d : UUID) (s : Store) (a : ImportAttachment) : Prop where
  job : ∃ j, s.jobs.get? a.jobId = some j ∧ showsJob d j = true
  file : ∃ f, s.files.get? a.fileId = some f ∧ showsFile d f = true
  hidden : ∀ b ∈ s.attachments.rows, s.showsAttachment d b = false →
    b.id ≠ a.id ∧ ImportAttachment.Distinct b a

theorem attachable_view {a : ImportAttachment} (h : Attaches d s a) :
    (s.view d).attachable a = s.attachable a := by
  obtain ⟨j, hj, hshows⟩ := h.job
  obtain ⟨f, hf, hfile⟩ := h.file
  unfold Store.attachable
  rw [get?_view_job hj hshows, get?_view_file hf hfile, hj, hf]

theorem insertAttachment_view {a : ImportAttachment} (h : Attaches d s a) :
    (s.view d).insertAttachment a = (s.insertAttachment a).map (Store.view d) := by
  obtain ⟨j, hj, hshows⟩ := h.job
  have hinsert : (s.attachments.filter (s.showsAttachment d)).insert? a =
      (s.attachments.insert? a).map fun t => t.filter (s.showsAttachment d) :=
    Table.insert?_filter (showsAttachment_of_job hj hshows) h.hidden
  unfold Store.insertAttachment
  rw [attachable_view h]
  split
  · show ((s.attachments.filter (s.showsAttachment d)).insert? a).map _ = _
    rw [hinsert, Option.map_map, Option.map_map]
    rfl
  · rfl

theorem Attaches.insert {a b : ImportAttachment} (ha : Attaches d s a) (hb : Attaches d s b)
    (h : s.insertAttachment a = some s') : Attaches d s' b := by
  unfold Store.insertAttachment at h
  split at h
  · obtain ⟨attachments, hinsert, rfl⟩ := Option.map_eq_some_iff.mp h
    refine ⟨hb.job, hb.file, fun x hx hhidden => ?_⟩
    rw [Table.rows_insert? hinsert] at hx
    rcases List.mem_append.mp hx with hx | hx
    · exact hb.hidden x hx hhidden
    · obtain ⟨j, hj, hshows⟩ := ha.job
      rw [List.mem_singleton.mp hx] at hhidden
      have hshown : s.showsAttachment d a = true := showsAttachment_of_job hj hshows
      have hsame : s.showsAttachment d a = false := hhidden
      rw [hshown] at hsame
      cases hsame
  · cases h

theorem insertAttachments_view {as : List ImportAttachment} (h : ∀ a ∈ as, Attaches d s a) :
    (s.view d).insertAttachments as = (s.insertAttachments as).map (Store.view d) := by
  induction as generalizing s with
  | nil => rfl
  | cons a as ih =>
      have ha := h a List.mem_cons_self
      simp only [Store.insertAttachments]
      rw [insertAttachment_view ha]
      cases hinsert : s.insertAttachment a with
      | none => rfl
      | some s' =>
          exact ih fun b hb => ha.insert (h b (List.mem_cons_of_mem a hb)) hinsert

/-- The attachments of other jobs do not change hands when a job is inserted. -/
theorem view_insertJob (hs : WellFormed s) {job : ImportJob} {jobs : JobTable}
    (hinsert : s.jobs.insert? job = some jobs) :
    { s with jobs }.view d = { s.view d with jobs := jobs.filter (showsJob d) } := by
  have hattachments : s.attachments.filter ({ s with jobs }.showsAttachment d) =
      s.attachments.filter (s.showsAttachment d) := by
    refine Table.filter_congr fun a ha => ?_
    obtain ⟨j, hj, -⟩ := (hs.attached a ha).job
    unfold Store.showsAttachment
    rw [hj, Table.get?_insert?_of_some hinsert hj]
  unfold Store.view
  simp only
  rw [hattachments]

theorem insertJob_view {job : ImportJob} {as : List ImportAttachment} {row : AuditLog}
    (hs : WellFormed s) (hjob : job.deviceId = d)
    (hfresh : ∀ j ∈ s.jobs.rows, showsJob d j = false → j.id ≠ job.id)
    (hattaches : ∀ jobs, s.jobs.insert? job = some jobs → ∀ a ∈ as,
      Attaches d { s with jobs } a) :
    (s.view d).write? (.insertJob job as row) =
      (s.write? (.insertJob job as row)).map (Store.view d) := by
  have hinsert : (s.jobs.filter (showsJob d)).insert? job =
      (s.jobs.insert? job).map fun t => t.filter (showsJob d) := by
    refine Table.insert?_filter (decide_eq_true hjob) fun j hj hhidden => ?_
    refine ⟨hfresh j hj hhidden, fun hkey => ?_⟩
    have hdevice : j.deviceId = d := (congrArg Prod.fst hkey).trans hjob
    rw [showsJob, decide_eq_true hdevice] at hhidden
    cases hhidden
  show ((s.jobs.filter (showsJob d)).insert? job).bind (fun jobs =>
    ({ s.view d with jobs }.insertAttachments as).bind fun s => s.recordAudit row) = _
  rw [hinsert]
  cases h : s.jobs.insert? job with
  | none => simp [Store.write?, h]
  | some jobs =>
      have hview := view_insertJob (d := d) hs h
      simp only [Option.map_some, Option.bind_some]
      rw [← hview, insertAttachments_view (hattaches jobs h)]
      simp only [Store.write?, h, Option.bind_eq_bind, Option.bind_some]
      cases { s with jobs }.insertAttachments as with
      | none => rfl
      | some s' => exact recordAudit_view row

end writes

end SuperBoss.Server
