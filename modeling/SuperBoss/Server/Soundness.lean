import Mathlib.Data.List.Dedup
import SuperBoss.Server.Annotation

/-!
Every action of the server is sound, one lemma for each kind of request.
-/

namespace SuperBoss.Server

open SuperBoss.Core
open SuperBoss.Library
open SuperBoss.Library.Interleaving
open SuperBoss.Library.Transition
open SuperBoss.Files
open SuperBoss.Imports
open SuperBoss.Infrastructure.Clamav

section machines

variable {P : Platform} {cfg : ScannerConfig} {a : Answer} {s : Store}

/-! ### Uploads -/

theorem StartPc.ok_provision {f : File} (h : Unprovisioned s f) (leftovers : List Text) :
    (StartPc.provision f leftovers).Ok s := by
  cases leftovers <;> exact h

theorem StartCall.sound_reuse {rows : List Row} {fp : Text} {f : File} :
    Sound P s rows StartPc.Ok Uploaded (reuse fp f) := by
  unfold reuse
  split
  · exact .reject
  · exact .goto trivial

theorem StartCall.sound {c : StartCall} {pc : StartPc} {o : Outcome StartPc File}
    (hs : WellFormed s) (hok : pc.Ok s) (h : c.step P a s pc = some o) :
    Sound P s (pc.holds ++ pc.needs) StartPc.Ok Uploaded o := by
  cases pc with
  | select =>
      cases h
      split
      · exact .reject
      · split
        · exact .fail
        · split
          · exact .fail
          · refine .read ?_
            split
            · exact sound_reuse
            · exact .goto trivial
  | insert =>
      cases h
      split
      · exact .fail
      · split
        · exact .read sound_reuse
        · exact .commit (.insertFile rfl rfl) (List.forall_mem_nil _) fun _ _ => trivial
  | lock fileId =>
      cases h
      refine .read ?_
      split
      · exact .reject
      · rename_i f hget
        have hid : f.id = fileId := Table.key_of_get? hget
        split
        · exact .reject
        · rename_i hstate
          split
          · rename_i hm
            exact .done ⟨hm, f, hid ▸ hget, .refl f⟩
          · rename_i hm
            exact .goto (A := StartPc.Ok)
              ⟨hid ▸ hget, not_not.mp hstate, not_not.mp hm⟩
  | list file =>
      cases h
      split
      · exact .reject
      · split
        · rename_i m hlist
          refine .goto (A := StartPc.Ok) ⟨hok, hs.issued (file.objectKey, m) ?_⟩
          rw [← Storage.mem_listMultipartUploads, hlist]
          exact List.mem_singleton.mpr rfl
        · exact .goto (A := StartPc.Ok) (StartPc.ok_provision hok _)
  | abort file leftovers =>
      cases leftovers with
      | nil =>
          cases h
          exact .goto (A := StartPc.Ok) hok
      | cons m rest =>
          cases h
          refine .attempt .abortMultipart (StartPc.ok_provision hok rest)
            fun s' hs' => ?_
          have hnext : Unprovisioned s' file := by
            cases hs'
            exact ⟨hok.get, hok.state, hok.multipart⟩
          exact StartPc.ok_provision hnext rest
  | create file =>
      simp only [step] at h
      split at h
      · cases h
      · rename_i hfresh
        cases h
        by_cases hfate : a.fate = .ok
        · rw [if_pos hfate, hfate]
          refine ⟨⟨_, rfl⟩, .createMultipart hfresh, List.forall_mem_nil _, fun s' hs' => ?_⟩
          cases hs'
          exact ⟨⟨hok.get, hok.state, hok.multipart⟩,
            List.mem_append_right _ (List.mem_singleton.mpr rfl)⟩
        · rw [if_neg hfate]
          exact .attempt (.createMultipart hfresh) trivial fun _ _ => trivial
  | commit file m =>
      cases h
      obtain ⟨hun, hissued⟩ := hok
      refine .commit (.updateFile hun.get (.provision hun.state hun.multipart) ?_
        fun _ hr => by cases hr) ?_ fun s' hs' => ?_
      · intro m' hm'
        rwa [← Option.some.inj hm']
      · intro r hr
        exact List.mem_append_left _ hr
      · exact ⟨Option.some_ne_none m, _, Store.get?_updateFile hs' hun.get, rfl, .refl _,
          fun _ hm => hm⟩

theorem CompleteCall.sound {c : CompleteCall} {pc : CompletePc} {o : Outcome CompletePc File}
    (hok : pc.Ok s) (h : c.step a s pc = some o) :
    Sound P s (pc.holds ++ pc.needs) CompletePc.Ok (fun _ _ => True) o := by
  cases pc with
  | resolve =>
      simp only [step] at h
      split at h
      · cases h
      · cases h
        refine .read ?_
        split <;> exact .goto trivial
  | deny error projectId =>
      simp only [step] at h
      split at h
      · cases h
      · cases h
        exact .deny rfl
  | lock uploadId =>
      cases h
      refine .read ?_
      split
      · exact .reject
      · rename_i f hget
        have hid : f.id = uploadId := Table.key_of_get? hget
        split
        · exact .reject
        · split
          · exact .done trivial
          · rename_i hstate
            split
            · exact .reject
            · rename_i m hm
              split
              · exact .goto (A := CompletePc.Ok) ⟨⟨hid ▸ hget, not_not.mp hstate⟩, hm⟩
              · exact .fail
  | finalize file m =>
      cases h
      split
      · exact .reject
      · by_cases hfinished : a.fate = .ok ∧ a.head = true
        · rw [if_pos hfinished]
          refine .attempt .completeMultipart hok.1 fun s' hs' => ?_
          cases hs'
          exact ⟨hok.1.get, hok.1.state⟩
        · rw [if_neg hfinished]
          exact .attempt .completeMultipart trivial fun _ _ => trivial
  | settle file size =>
      cases h
      split
      · refine .commit (.settle hok.get (hok.state ▸ .fail))
          (fun r hr => List.mem_append_left _ hr) fun s' hs' => ?_
        exact ⟨_, _, Store.get?_updateFile hs' hok.get, rfl, .inr rfl⟩
      · refine .commit (.updateFile hok.get (.settle (hok.state ▸ .quarantine))
          (fun _ hm => by cases hm) ?_)
          (fun r hr => List.mem_append_left _ hr) fun _ _ => trivial
        intro r hr
        obtain ⟨requestId, -, rfl⟩ := Option.map_eq_some_iff.mp hr
        rfl
  | discard key =>
      cases h
      exact .attempt (.deleteObject hok) trivial fun _ _ => trivial
  | enqueue file =>
      cases h
      exact .attempt .publish trivial fun _ _ => trivial

theorem PresignCall.sound {c : PresignCall} {pc : PresignPc} {o : Outcome PresignPc PartUrl}
    (h : c.step a s pc = some o) :
    Sound P s pc.needs (fun _ _ => True) (fun _ _ => True) o := by
  cases pc with
  | resolve =>
      simp only [step] at h
      split at h
      · cases h
      · cases h
        refine .read ?_
        split <;> exact .goto trivial
  | deny error projectId =>
      simp only [step] at h
      split at h
      · cases h
      · cases h
        exact .deny rfl
  | lock uploadId =>
      cases h
      split
      · exact .fail
      · refine .read ?_
        split
        · exact .reject
        · split
          · exact .reject
          · split
            · exact .reject
            · split
              · exact .reject
              · exact .done trivial

theorem DownloadCall.sound {c : DownloadCall} {pc : DownloadPc}
    {o : Outcome DownloadPc DownloadUrl} (h : c.step a s pc = some o) :
    Sound P s [] (fun _ _ => True) (fun _ _ => True) o := by
  cases pc with
  | read =>
      cases h
      refine .read ?_
      split
      · exact .reject
      · split
        · exact .reject
        · exact .reject
        · exact .done trivial

/-! ### Import jobs -/

theorem exists_earlier {l l' : List FileObservation} (h : List.Forall₂ ObservationLe l l')
    {o' : FileObservation} (ho' : o' ∈ l') : ∃ o ∈ l, ObservationLe o o' := by
  induction h with
  | nil => cases ho'
  | cons hle _ ih =>
      rcases List.mem_cons.mp ho' with rfl | ho'
      · exact ⟨_, List.mem_cons_self, hle⟩
      · obtain ⟨o, ho, hle⟩ := ih ho'
        exact ⟨o, List.mem_cons_of_mem _ ho, hle⟩

/-- The files of a job that has left `UPLOADING` have left it too. -/
theorem WellFormed.observations_ne_uploading (hs : WellFormed s) {job : ImportJob}
    (hget : s.jobs.get? job.id = some job) (hstatus : job.status ≠ .uploading) :
    ∀ o ∈ s.fileObservations job.id, o.state ≠ .uploading := by
  obtain ⟨observations, hobs, hstates, -⟩ := (hs.jobs hget).justified hstatus
  intro o ho
  obtain ⟨o', ho', hle⟩ := exists_earlier hobs ho
  exact hle.state.ne_uploading (hstates o' ho')

theorem Staged.of_evaluation {job : ImportJob} {observations : List FileObservation}
    {action : String} {kind : ActorKind} {actorId : Option UUID} {requestId : UUID} {now : Instant}
    {auditId : UUID} (hobs : Observed s job.id observations)
    (hstates : ∀ o ∈ observations, o.state ≠ .uploading)
    (haction : action ∈ ["import.submit", "import.reconcile"])
    (hmoves : job.status = .uploading ∨ (job.status = .scanning ∧
      (evaluateFiles job.baseSha256 observations).status ≠ .scanning)) :
    Staged P s job (applyTransition P job (evaluateFiles job.baseSha256 observations) action kind
      actorId requestId now auditId) :=
  ⟨⟨observations, action, kind, actorId, requestId, now, auditId, rfl, haction, hobs, hstates⟩,
    hmoves⟩

theorem ReconcilePc.Locked.stage {locked : List UUID} {todo : List ImportJob}
    {staged : List Transition} {job : ImportJob} {t : Transition}
    (h : Locked P s locked todo staged) (hlocked : job.id ∈ locked)
    (hget : s.jobs.get? job.id = some job) (ht : Staged P s job t)
    (hsettled : t.update.status ≠ .scanning) (hsingle : todo.length + staged.length + 1 ≤ 1) :
    Locked P s locked todo (staged ++ [t]) where
  snapshots := h.snapshots
  transitions t' ht' := by
    rcases List.mem_append.mp ht' with ht' | ht'
    · exact h.transitions t' ht'
    · obtain rfl := List.mem_singleton.mp ht'
      exact ⟨job, hlocked, hget, ht⟩
  settled t' ht' := by
    rcases List.mem_append.mp ht' with ht' | ht'
    · exact h.settled t' ht'
    · exact List.mem_singleton.mp ht' ▸ hsettled
  single := by
    rw [List.length_append, List.length_singleton]
    omega

theorem ReconcilePc.sound {fileId : UUID} {pc : ReconcilePc} {o : Outcome ReconcilePc Unit}
    (hs : WellFormed s) (hok : pc.Ok P s) (h : pc.step P fileId a s = some o) :
    Sound P s (pc.holds ++ pc.needs) (ReconcilePc.Ok P) (fun _ _ => True) o := by
  cases pc with
  | lookup =>
      cases h
      refine .read ?_
      have hlength : (((s.attachments.rows.filter fun t => decide (t.fileId = fileId)).map
          (·.jobId)).dedup.insertionSort fun i j : UUID => i.text ≤ j.text).length ≤ 1 := by
        rw [List.length_insertionSort]
        refine (List.dedup_sublist _).length_le.trans ?_
        rw [List.length_map]
        refine Table.length_filter_le_one fun {r x} hdist hr => ?_
        rw [decide_eq_true_eq] at hr
        rw [decide_eq_false_iff_not]
        exact fun hx => hdist.2.1 (hr.trans hx.symm)
      simp only
      split
      · exact .done trivial
      · rename_i jobIds hids
        exact .goto (A := ReconcilePc.Ok P) hlength
  | lock jobIds =>
      cases h
      refine .read (.goto (A := ReconcilePc.Ok P) ⟨fun job hjob => ⟨List.mem_map_of_mem hjob, ?_⟩,
        List.forall_mem_nil _, List.forall_mem_nil _, ?_⟩)
      · rw [List.mem_insertionSort] at hjob
        exact Table.get?_of_mem (List.mem_of_mem_filter hjob)
      · rw [List.length_insertionSort, List.length_nil, Nat.add_zero]
        exact Table.length_filter_mem_le.trans hok
  | observe locked todo staged =>
      cases h
      cases todo with
      | nil => exact .goto (A := ReconcilePc.Ok P) hok
      | cons job todo =>
          have hsingle : todo.length + 1 + staged.length ≤ 1 := hok.single
          have hrest : Locked P s locked todo staged :=
            ⟨fun j hj => hok.snapshots j (List.mem_cons_of_mem job hj), hok.transitions,
              hok.settled, by omega⟩
          obtain ⟨hlocked, hget⟩ := hok.snapshots job List.mem_cons_self
          simp only
          split
          · exact .goto (A := ReconcilePc.Ok P) hrest
          · rename_i hstatus
            have hscanning : job.status = .scanning := not_not.mp hstatus
            refine .read ?_
            split
            · exact .goto (A := ReconcilePc.Ok P) hrest
            · rename_i hmoved
              have hleft : job.status ≠ .uploading := hscanning ▸ ImportStatus.noConfusion
              have hstates := hs.observations_ne_uploading hget hleft
              refine .goto (A := ReconcilePc.Ok P) (hrest.stage hlocked hget ?_ hmoved ?_)
              · exact .of_evaluation (.now s job.id) hstates (by simp) (.inr ⟨hscanning, hmoved⟩)
              · omega
  | commit locked staged =>
      cases h
      obtain ⟨-, htransitions, -, hsingle⟩ := hok
      cases staged with
      | nil => exact .commit .noTransition (List.forall_mem_nil _) fun _ _ => trivial
      | cons t rest =>
          obtain rfl : rest = [] := by
            rw [List.length_cons, List.length_nil] at hsingle
            exact List.length_eq_zero_iff.mp (by omega)
          obtain ⟨job, hlocked, hget, hstaged⟩ := htransitions t List.mem_cons_self
          refine .commit (.transition hget hstaged) (fun r hr => ?_) fun _ _ => trivial
          obtain rfl := List.mem_singleton.mp hr
          refine List.mem_append_left _ (List.mem_map.mpr ⟨t.jobId, ?_, rfl⟩)
          rwa [hstaged.jobId_eq]

theorem SubmitCall.sound {c : SubmitCall} {pc : SubmitPc} {o : Outcome SubmitPc ImportJobResult}
    (hs : WellFormed s) (hok : pc.Ok P s) (h : c.step P a s pc = some o) :
    Sound P s (pc.holds ++ pc.needs c) (SubmitPc.Ok P) (fun _ _ => True) o := by
  cases pc with
  | preflight =>
      cases h
      split
      · exact .goto trivial
      · refine .read ?_
        split
        · exact .goto trivial
        · split
          · exact .goto trivial
          · split <;> exact .goto trivial
  | deny error projectId =>
      cases h
      exact .deny rfl
  | lock projectId =>
      cases h
      refine .read ?_
      split
      · exact .goto trivial
      · rename_i job hget
        have hid : job.id = c.jobId := Table.key_of_get? hget
        split
        · exact .goto trivial
        · split
          · exact .goto trivial
          · split
            · exact .done trivial
            · rename_i hterminal
              exact .goto (A := SubmitPc.Ok P) ⟨hid ▸ hget, Bool.not_eq_true _ ▸ hterminal⟩
  | observe job =>
      cases h
      obtain ⟨hget, hterminal⟩ := hok
      refine .read ?_
      simp only
      split
      · exact .goto trivial
      · rename_i hcomplete
        split
        · exact .done trivial
        · rename_i hmoved
          refine .goto (A := SubmitPc.Ok P) ⟨hget,
            .of_evaluation (.now s job.id) ?_ (by simp) ?_⟩
          · by_cases hstatus : job.status = .uploading
            · exact fun o ho hstate => hcomplete ⟨hstatus, o, ho, hstate⟩
            · exact hs.observations_ne_uploading hget hstatus
          · cases hstatus : job.status with
            | uploading => exact .inl rfl
            | scanning => exact .inr ⟨rfl, fun he => hmoved ⟨hstatus, he⟩⟩
            | received => rw [hstatus] at hterminal; cases hterminal
            | rejected => rw [hstatus] at hterminal; cases hterminal
            | conflict => rw [hstatus] at hterminal; cases hterminal
  | commit job t =>
      cases h
      obtain ⟨hget, hstaged⟩ := hok
      refine .commit (.transition hget hstaged) (fun r hr => ?_) fun _ _ => trivial
      obtain rfl := List.mem_singleton.mp hr
      exact List.mem_append_left _ (List.mem_singleton.mpr (congrArg Row.job hstaged.jobId_eq))

theorem ReadPc.ok_next {projectId : UUID} {fileIds : List UUID} :
    (ReadPc.next projectId fileIds).Ok P s := by
  cases fileIds <;> trivial

theorem ReadCall.sound {c : ReadCall} {pc : ReadPc} {o : Outcome ReadPc (ImportJobView P)}
    (hs : WellFormed s) (hok : pc.Ok P s) (h : c.step P a s pc = some o) :
    Sound P s (pc.holds ++ pc.needs) (ReadPc.Ok P) (fun _ _ => True) o := by
  cases pc with
  | load =>
      cases h
      split
      · exact .goto trivial
      · refine .read ?_
        split
        · exact .goto trivial
        · split
          · exact .goto trivial
          · split
            · exact .goto trivial
            · exact .goto (A := ReadPc.Ok P) ReadPc.ok_next
  | deny error projectId =>
      cases h
      exact .deny rfl
  | reconcile projectId fileId rest pc =>
      obtain ⟨o', hstep, rfl⟩ := Option.map_eq_some_iff.mp h
      have hsound := ReconcilePc.sound hs hok hstep
      obtain ⟨hvalid, heffect, htouches, hafter⟩ := hsound
      split
      · rename_i pc' hpc
        refine ⟨hvalid, heffect, htouches, fun s' hs' => ?_⟩
        have hpost := hafter s' hs'
        rw [hpc] at hpost
        exact hpost
      · exact ⟨hvalid, heffect, htouches, fun _ _ => ReadPc.ok_next⟩
      · exact ⟨hvalid, heffect, htouches, fun _ _ => trivial⟩
      · exact ⟨hvalid, heffect, htouches, fun _ _ => trivial⟩
  | view projectId =>
      cases h
      refine .read ?_
      split
      · exact .goto trivial
      · split
        · exact .goto trivial
        · split
          · exact .goto trivial
          · split
            · exact .fail
            · exact .done trivial

/-! ### Creating import jobs -/

theorem Store.get?_of_jobByKey {deviceId : UUID} {key : Text} {j : ImportJob}
    (h : s.jobByKey deviceId key = some j) :
    s.jobs.get? j.id = some j ∧ j.createKey = (deviceId, key) :=
  ⟨Table.get?_of_mem (List.mem_of_find?_eq_some h),
    of_decide_eq_true (List.find?_some (p := fun j : ImportJob =>
      decide (j.createKey = (deviceId, key))) h)⟩

theorem CreateCall.sound_replay {rows : List Row} {c : CreateCall P} {j : ImportJob}
    (h : s.jobByKey c.actor.subjectId c.idempotencyKey = some j) :
    Sound P s rows (CreatePc.Ok c) (Created c) (c.replay s j) := by
  obtain ⟨hget, hkey⟩ := Store.get?_of_jobByKey h
  unfold replay matchingResult
  split
  · exact .reject
  · rename_i r hmatch
    split at hmatch
    · cases hmatch
    · rename_i hfp
      cases hmatch
      exact .done ⟨⟨j, hget, hkey, not_not.mp hfp⟩, .refl _⟩

theorem CreateCall.holds_next {c : CreateCall P} {uploads : List File}
    {ds : List (AttachmentDeclaration P)} (huploads : ∀ f ∈ uploads, Uploaded s f)
    (hlength : uploads.length + ds.length = c.command.attachments.length) :
    (c.next uploads ds).Holds (CreatePc.Ok c s) (Created c s) := by
  cases ds with
  | nil => exact ⟨huploads, hlength⟩
  | cons d ds =>
      simp only [next]
      split
      · trivial
      · refine ⟨trivial, huploads, ?_⟩
        rw [List.length_cons] at hlength
        omega

theorem CreateCall.mem_newAttachments {c : CreateCall P} {jobId : UUID} {ids : List UUID}
    {ds : List (AttachmentDeclaration P)} {fs : List File} {t : ImportAttachment}
    (h : t ∈ c.newAttachments jobId ids ds fs) : t.jobId = jobId ∧ ∃ f ∈ fs, t.fileId = f.id := by
  induction ids, ds, fs using CreateCall.newAttachments.induct with
  | case1 id ids d ds f fs ih =>
      rcases List.mem_cons.mp h with rfl | h
      · exact ⟨rfl, f, List.mem_cons_self, rfl⟩
      · obtain ⟨hjob, g, hg, hfile⟩ := ih h
        exact ⟨hjob, g, List.mem_cons_of_mem f hg, hfile⟩
  | case2 ids ds fs hne =>
      rw [newAttachments] at h
      · cases h
      · exact hne

theorem CreateCall.newAttachments_ne_nil {c : CreateCall P} {jobId : UUID} {ids : List UUID}
    {ds : List (AttachmentDeclaration P)} {fs : List File} (hids : ids ≠ []) (hds : ds ≠ [])
    (hfs : fs ≠ []) : c.newAttachments jobId ids ds fs ≠ [] := by
  cases ids with
  | nil => exact absurd rfl hids
  | cons id ids =>
      cases ds with
      | nil => exact absurd rfl hds
      | cons d ds =>
          cases fs with
          | nil => exact absurd rfl hfs
          | cons f fs => simp [newAttachments]

/-- The attachments of a new job are the inserted rows. -/
theorem WellFormed.attachmentsOf_new (hs : WellFormed s) {s' : Store} {job : ImportJob}
    {as : List ImportAttachment} {row : AuditLog}
    (hw : s.write? (.insertJob job as row) = some s') (has : ∀ t ∈ as, t.jobId = job.id) :
    (s'.attachmentsOf job.id).Perm as := by
  obtain ⟨hinsert, -, -, -, hrows, -, -⟩ := Store.write?_insertJob hw
  have hnew : job.id ∉ s.jobs.rows.map ImportJob.id := (Table.insert?_eq_some_iff.mp hinsert).1
  have hold : s.attachments.rows.filter (fun t => decide (t.jobId = job.id)) = [] := by
    rw [List.filter_eq_nil_iff]
    intro t ht hjob
    obtain ⟨j, hj, -⟩ := (hs.attached t ht).job
    rw [of_decide_eq_true hjob] at hj
    exact hnew (List.mem_map.mpr ⟨j, Table.mem_of_get? hj, Table.key_of_get? hj⟩)
  have hadded : as.filter (fun t => decide (t.jobId = job.id)) = as := by
    rw [List.filter_eq_self]
    intro t ht
    exact decide_eq_true (has t ht)
  unfold Store.attachmentsOf
  rw [hrows, List.filter_append, hold, hadded, List.nil_append]
  exact List.perm_insertionSort _ as

theorem CreateCall.sound {c : CreateCall P} {pc : CreatePc P}
    {o : Outcome (CreatePc P) ImportJobResult} (hs : WellFormed s) (hok : pc.Ok c s)
    (h : c.step a s pc = some o) :
    Sound P s (pc.holds ++ pc.needs) (CreatePc.Ok c) (Created c) o := by
  cases pc with
  | begin =>
      cases h
      split
      · exact .fail
      · split
        · exact .goto trivial
        · exact .read (.goto trivial)
  | deny projectId =>
      cases h
      exact .deny rfl
  | existing =>
      cases h
      refine .read ?_
      split
      · exact sound_replay ‹_›
      · exact .still (holds_next (List.forall_mem_nil _) (Nat.zero_add _))
  | upload current rest uploads pc =>
      obtain ⟨hpc, huploads, hlength⟩ := hok
      obtain ⟨o', hstep, rfl⟩ := Option.map_eq_some_iff.mp h
      have hsound := StartCall.sound hs hpc hstep
      have hev : ∀ {s'}, s.write? o'.write = some s' → Evolves s s' := hsound.effect.evolves
      obtain ⟨hvalid, heffect, htouches, hafter⟩ := hsound
      split
      · rename_i pc' hpc'
        refine ⟨hvalid, heffect, htouches, fun s' hs' => ⟨?_, fun f hf =>
          (huploads f hf).evolve (hev hs'), hlength⟩⟩
        have hpost := hafter s' hs'
        rw [hpc'] at hpost
        exact hpost
      · rename_i f hf
        refine ⟨hvalid, heffect, htouches, fun s' hs' => holds_next (fun g hg => ?_) ?_⟩
        · rcases List.mem_append.mp hg with hg | hg
          · exact (huploads g hg).evolve (hev hs')
          · obtain rfl := List.mem_singleton.mp hg
            have hpost := hafter s' hs'
            rw [hf] at hpost
            exact hpost
        · rw [List.length_append, List.length_singleton]
          exact hlength
      · split <;> exact ⟨hvalid, heffect, htouches, fun _ _ => trivial⟩
      · exact ⟨hvalid, heffect, htouches, fun _ _ => trivial⟩
      · exact ⟨hvalid, heffect, htouches, fun _ _ => trivial⟩
  | persist uploads =>
      cases h
      refine .read ?_
      split
      · exact sound_replay ‹_›
      · exact .goto (A := CreatePc.Ok c) hok
  | insert uploads =>
      obtain ⟨huploads, hlength⟩ := hok
      simp only [step] at h
      split at h
      · cases h
        exact .read (sound_replay ‹_›)
      · split at h
        · cases h
        · rename_i hids
          cases h
          have hids : a.attachmentIds.length = uploads.length := not_not.mp hids
          have hpos : 0 < c.command.attachments.length :=
            List.length_pos_iff.mpr c.command.attachments_ne_nil
          have hnew : ∀ t ∈ c.newAttachments a.uuid a.attachmentIds c.command.attachments uploads,
              t.jobId = a.uuid ∧ ∃ f, s.files.get? t.fileId = some f ∧ f.multipartId ≠ none := by
            intro t ht
            obtain ⟨hjob, f, hf, hfile⟩ := mem_newAttachments ht
            obtain ⟨f', hf', hle⟩ := (huploads f hf).later
            exact ⟨hjob, f', hfile ▸ hf', hle.multipart_ne_none (huploads f hf).multipart⟩
          refine .commit (.insertJob rfl rfl rfl ?_ hnew rfl ⟨c.command, rfl⟩)
            (List.forall_mem_nil _) fun s' hs' => ?_
          · refine newAttachments_ne_nil ?_ c.command.attachments_ne_nil ?_ <;>
              rw [← List.length_pos_iff] <;> omega
          · have hinsert := (Store.write?_insertJob hs').1
            refine ⟨⟨c.newJob a.uuid a.now, ?_, rfl, rfl⟩, ?_⟩
            · rw [Table.get?_insert? hinsert]
              exact if_pos rfl
            · exact ((hs.attachmentsOf_new hs' fun t ht => (hnew t ht).1).symm).map _

/-! ### Background work -/

theorem scanVerdict_terminal {sha : Text}
    {r : Except Session (Session × ScanVerdict)} : (scanVerdict P sha r).1.terminal = true := by
  unfold scanVerdict
  split
  · rfl
  · split
    · rfl
    · split <;> rfl

theorem ScanPc.sound {fileId : UUID} {pc : ScanPc} {o : Outcome ScanPc Unit}
    (hs : WellFormed s) (hok : pc.Ok P s fileId)
    (h : ScanPc.step P cfg fileId a s pc = some o) :
    Sound P s (pc.holds ++ pc.needs fileId) (fun s => ScanPc.Ok P s fileId) (fun _ _ => True)
      o := by
  cases pc with
  | receive =>
      simp only [step] at h
      split at h
      · cases h
        split
        · exact .still trivial
        · exact ⟨⟨_, rfl⟩, .consume, List.forall_mem_nil _, fun _ _ => trivial⟩
      · cases h
  | claim =>
      cases h
      split
      · exact .read (.goto trivial)
      · rename_i file hget
        split
        · exact .read (.goto trivial)
        · rename_i hstate
          have hquarantined : file.state = .quarantined := not_not.mp hstate
          refine .commit (.settle hget (hquarantined ▸ .claim))
            (fun r hr => hr) fun s' hs' => ?_
          exact ⟨_, Store.get?_updateFile hs' hget, rfl⟩
  | stream file =>
      simp only [step] at h
      split at h
      · cases h
        exact .goto (A := fun s => ScanPc.Ok P s fileId) ⟨hok, scanVerdict_terminal⟩
      · cases h
  | verdict file st result =>
      cases h
      obtain ⟨hscanning, hterminal⟩ := hok
      split
      · exact .read (.goto trivial)
      · rename_i current hget
        split
        · exact .read (.goto trivial)
        · rename_i hstate
          have hcurrent : current.state = .scanning := not_not.mp hstate
          refine .commit (.settle hget (hcurrent ▸ .verdict hterminal))
            (fun r hr => hr) fun s' hs' => ?_
          split
          · rename_i hbad
            obtain ⟨f', hf', hid⟩ := hscanning.later
            obtain rfl : current = f' := Option.some.inj (hget.symm.trans hf')
            exact ⟨_, _, Store.get?_updateFile hs' hget, congrArg (fun i => i.2.2.2.2.2.1) hid,
              hbad⟩
          · trivial
  | discard key =>
      cases h
      exact .attempt (.deleteObject hok) trivial fun _ _ => trivial
  | reconcile pc =>
      obtain ⟨o', hstep, rfl⟩ := Option.map_eq_some_iff.mp h
      obtain ⟨hvalid, heffect, htouches, hafter⟩ := ReconcilePc.sound hs hok hstep
      refine ⟨hvalid, heffect, htouches, fun s' hs' => ?_⟩
      have hpost := hafter s' hs'
      simp only [Outcome.map]
      cases hp : o'.progress with
      | running pc' =>
          rw [hp] at hpost
          exact hpost
      | returned r => trivial
      | raised e => trivial
      | crashed => trivial

theorem RecoverPc.ok_nextExpire {n : Nat} {ids : List UUID} :
    (RecoverPc.nextExpire n ids).Ok s := by
  cases ids <;> trivial

theorem RecoverPc.holds_nextEnqueue {n : Nat} {ids : List UUID} :
    (RecoverPc.nextEnqueue n ids).Holds (RecoverPc.Ok s) fun _ => True := by
  cases ids <;> trivial

theorem RecoverCall.sound {c : RecoverCall} {pc : RecoverPc} {o : Outcome RecoverPc Nat}
    (hok : pc.Ok s) (h : c.step a s pc = some o) :
    Sound P s pc.needs RecoverPc.Ok (fun _ _ => True) o := by
  cases pc with
  | expireSelect =>
      cases h
      split
      · exact .fail
      · exact .read (.goto RecoverPc.ok_nextExpire)
  | expire fileId rest n =>
      cases h
      simp only
      split
      · exact .read (.goto RecoverPc.ok_nextExpire)
      · rename_i f hget
        split
        · exact .read (.goto RecoverPc.ok_nextExpire)
        · rename_i hexpired
          have hstate : f.state = .uploading := not_not.mp fun h => hexpired (.inl h)
          refine .commit (.settle hget (hstate ▸ .fail))
            (fun r hr => hr) fun s' hs' => ?_
          have hdiscarded : Discarded s' f.objectKey :=
            ⟨_, _, Store.get?_updateFile hs' hget, rfl, .inr rfl⟩
          split <;> exact hdiscarded
  | abort f m rest n =>
      cases h
      refine .attempt .abortMultipart hok fun s' hs' => ?_
      cases hs'
      exact hok
  | delete f rest n =>
      cases h
      exact .attempt (.deleteObject hok) RecoverPc.ok_nextExpire
        fun _ _ => RecoverPc.ok_nextExpire
  | redispatchSelect n =>
      cases h
      exact .read (.still RecoverPc.holds_nextEnqueue)
  | enqueue fileId rest n =>
      cases h
      exact .attempt .publish RecoverPc.holds_nextEnqueue
        fun _ _ => RecoverPc.holds_nextEnqueue

end machines

end SuperBoss.Server
