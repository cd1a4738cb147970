import SuperBoss.Server.JobLifecycle
import SuperBoss.Server.Writes

/-!
Where job rows come from: every stored job was inserted by a create call, whose
manifest its columns and its attachments still show.
-/

namespace SuperBoss.Server

open SuperBoss.Core
open SuperBoss.Library
open SuperBoss.Library.Interleaving
open SuperBoss.Library.Transition
open SuperBoss.Files
open SuperBoss.Imports
open SuperBoss.Infrastructure.Clamav

section creations

variable {P : Platform}

theorem Effect.insertJob_of_new {s s' : Store} {w : Write} (h : Effect P s w)
    (hw : s.write? w = some s') {id : UUID} {j : ImportJob} (hnone : s.jobs.get? id = none)
    (hget : s'.jobs.get? id = some j) : ∃ attachments row, w = .insertJob j attachments row := by
  have hsame : s'.jobs = s.jobs → False := by
    intro hjobs
    rw [hjobs, hnone] at hget
    cases hget
  cases h with
  | nothing | noTransition | createMultipart | abortMultipart | completeMultipart | deleteObject
  | publish | consume =>
      cases hw
      exact (hsame rfl).elim
  | insertFile =>
      obtain ⟨files, -, rfl⟩ := Store.write?_insertFile hw
      exact (hsame rfl).elim
  | updateFile => exact (hsame (Store.write?_updateFile hw).2.1).elim
  | @insertJob job attachments row =>
      rw [Table.get?_insert? (Store.write?_insertJob hw).1] at hget
      split at hget
      · obtain rfl := Option.some.inj hget
        exact ⟨attachments, row, rfl⟩
      · rw [hnone] at hget
        cases hget
  | transition hjob hstaged =>
      rw [(Store.write?_transition (hstaged.jobId_eq.symm ▸ hjob) hw).2.1, Table.get?_modify] at hget
      split at hget
      · rw [hnone] at hget
        cases hget
      · rw [hnone] at hget
        cases hget
  | record => exact (hsame (Store.recordAudit_frame hw).2.1).elim

variable {cfg : ScannerConfig} {s t : SystemState P} {e : SystemEvent P}

/-- A new job is the one that a create call inserts around its uploads. -/
theorem Happens.created (hs : Consistent cfg s) (h : Happens cfg s e t) {id : UUID}
    {j : ImportJob} (hnone : s.store.jobs.get? id = none) (hget : t.store.jobs.get? id = some j) :
    ∃ (c : CreateCall P) (a : Answer) (uploads : List File),
      j = c.newJob a.uuid a.now ∧
      uploads.length = c.command.attachments.length ∧ a.attachmentIds.length = uploads.length ∧
      (t.store.attachmentsOf j.id).Perm
        (c.newAttachments j.id a.attachmentIds c.command.attachments uploads) := by
  cases h with
  | spawn | crash =>
      rw [hnone] at hget
      cases hget
  | act hthread hfree hact hwrite hsound =>
      obtain ⟨attachments, row, rfl⟩ := hsound.effect.insertJob_of_new hwrite hnone hget
      rcases Thread.act_writes hact with hplain | hwrites
      · exact hplain.elim
      · cases hwrites with
        | @insertJob c uploads job attachments hkey hids hjob hattachments =>
            subst hattachments
            have hok := hs.ok hthread
            refine ⟨c, _, uploads, hjob, hok.2, hids, ?_⟩
            exact hs.wellFormed.attachmentsOf_new hwrite fun a ha =>
              (CreateCall.mem_newAttachments ha).1

/-- The columns and attachments of a job that the call `c` created. -/
structure CreatedBy (c : CreateCall P) (s : Store) (j : ImportJob) : Prop where
  columns : j.identity = (c.newJob j.id j.createdAt).identity
  kinds : ((s.attachmentsOf j.id).map (·.kind)).Perm c.command.kinds

theorem CreateCall.newAttachments_kinds {c : CreateCall P} {jobId : UUID} {ids : List UUID}
    {ds : List (AttachmentDeclaration P)} {fs : List File} (hids : ids.length = ds.length)
    (hfs : fs.length = ds.length) :
    (c.newAttachments jobId ids ds fs).map (·.kind) = ds.map (·.kind) := by
  induction ids, ds, fs using CreateCall.newAttachments.induct with
  | case1 id ids d ds f fs ih =>
      rw [newAttachments, List.map_cons, List.map_cons, ih (Nat.succ.inj hids) (Nat.succ.inj hfs)]
  | case2 ids ds fs hne =>
      cases ds with
      | nil => simp [newAttachments]
      | cons d ds =>
          obtain ⟨id, ids, rfl⟩ := List.exists_cons_of_length_eq_add_one hids
          obtain ⟨f, fs, rfl⟩ := List.exists_cons_of_length_eq_add_one hfs
          exact (hne id ids d ds f fs rfl rfl rfl).elim

theorem JobLe.createdBy {c : CreateCall P} {u v : Store} {j j' : ImportJob} (h : JobLe j j')
    (hattachments : v.attachmentsOf j.id = u.attachmentsOf j.id) (hc : CreatedBy c u j) :
    CreatedBy c v j' := by
  have hid : j'.id = j.id := congrArg (fun i => i.1) h.identity
  have hat : j'.createdAt = j.createdAt := congrArg (fun i => i.2.2.2.2.2.2.2.2.2) h.identity
  refine ⟨?_, ?_⟩
  · rw [h.identity, hid, hat]
    exact hc.columns
  · rw [hid, hattachments]
    exact hc.kinds

/-- Every stored job shows the manifest of the call that created it. -/
theorem createdBy_of_reachable {projects : List UUID}
    (h : Reachable (next P cfg) (initialState P projects) s) (id : UUID) (j : ImportJob)
    (hj : s.store.jobs.get? id = some j) : ∃ c : CreateCall P, CreatedBy c s.store j := by
  revert id j
  refine h.induction (I := fun s => ∀ id j, s.store.jobs.get? id = some j →
    ∃ c : CreateCall P, CreatedBy c s.store j) (fun id j hj => ?_) fun s e t hs hinv hstep id j hj => ?_
  · cases hj
  have hconsistent := consistent_of_reachable hs
  have hhappens := hconsistent.happens hstep
  cases hold : s.store.jobs.get? id with
  | none =>
      obtain ⟨c, a, uploads, rfl, huploads, hids, hperm⟩ := hhappens.created hconsistent hold hj
      refine ⟨c, rfl, ?_⟩
      have hkinds := hperm.map (·.kind)
      rw [CreateCall.newAttachments_kinds (hids.trans huploads) huploads] at hkinds
      exact hkinds
  | some j₀ =>
      obtain ⟨c, hc⟩ := hinv id j₀ hold
      obtain ⟨j', hj', hle⟩ := hhappens.evolves.jobs hold
      obtain rfl := Option.some.inj (hj'.symm.trans hj)
      refine ⟨c, hle.createdBy ?_ hc⟩
      obtain rfl : j₀.id = id := Table.key_of_get? hold
      exact hhappens.evolves.attachments hold

/-- Rows keep the time order that their table checks. -/
theorem timeOrder_of_reachable {projects : List UUID}
    (h : Reachable (next P cfg) (initialState P projects) s) (id : UUID) (j : ImportJob)
    (hj : s.store.jobs.get? id = some j) : j.TimeOrder := by
  revert id j
  refine h.induction (I := fun s => ∀ id j, s.store.jobs.get? id = some j → j.TimeOrder)
    (fun id j hj => ?_) fun s e t hs hinv hstep id j hj => ?_
  · cases hj
  have hconsistent := consistent_of_reachable hs
  have hhappens := hconsistent.happens hstep
  cases hold : s.store.jobs.get? id with
  | none =>
      obtain ⟨c, a, uploads, rfl, -⟩ := hhappens.created hconsistent hold hj
      exact ⟨le_rfl, fun t ht => by cases ht⟩
  | some j₀ =>
      cases hhappens with
      | spawn | crash => exact hinv id j hj
      | act hthread hfree hact hwrite hsound =>
          rcases hsound.effect.job_cases hwrite id with
            ⟨hsame, -⟩ | ⟨j', hnone, -⟩ | ⟨j', u, rfl, hj', hstaged, hj'', -⟩
          · exact hinv id j (hsame.symm.trans hj)
          · rw [hold] at hnone
            cases hnone
          · obtain rfl : u.update.apply j' = j := Option.some.inj (hj''.symm.trans hj)
            have hid : u.jobId = id := hstaged.jobId_eq.trans (Table.key_of_get? hj')
            exact (Store.write?_transition (hid.symm ▸ hj') hwrite).1

end creations

end SuperBoss.Server
