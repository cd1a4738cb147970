import SuperBoss.Server.FileLifecycle
import SuperBoss.Server.Updates

/-!
Completions whose outcome the service did not learn. The storage closes the
upload id with the first completion, every later one finds `NoSuchUpload`, and
nobody looks at the finished object: the row stays `UPLOADING` until it expires.
-/

namespace SuperBoss.Server

open SuperBoss.Core
open SuperBoss.Library
open SuperBoss.Library.Interleaving
open SuperBoss.Library.Transition
open SuperBoss.Files
open SuperBoss.Imports
open SuperBoss.Infrastructure.Clamav

section replay

variable {P : Platform} {cfg : ScannerConfig} {s t : SystemState P} {e : SystemEvent P}

/-- The upload that the next action of a completion asks the storage to finish. -/
def Thread.finalizes : Thread P → Option (File × Text)
  | completeUpload _ (.running (.finalize f m)) => some (f, m)
  | _ => none

/-- The file whose finished upload the next action of a completion commits. -/
def Thread.settles : Thread P → Option UUID
  | completeUpload _ (.running (.settle f _)) => some f.id
  | _ => none

/-- The reference time of a janitor. -/
def Thread.janitor : Thread P → Option Instant
  | recoverStaleUploads c _ => some c.reference
  | _ => none

/-- No completion is between its storage call and its commit for the file. -/
def Unlearned (s : SystemState P) (id : UUID) : Prop := ∀ u ∈ s.threads, u.settles ≠ some id

/-- No janitor with a reference time past the expiry of the upload was started. -/
def Unexpired (s : SystemState P) (f : File) : Prop :=
  ∀ u ∈ s.threads, ∀ r ∈ u.janitor, r - expiryAge ≤ f.createdAt

instance (s : SystemState P) (id : UUID) : Decidable (Unlearned s id) :=
  inferInstanceAs (Decidable (∀ u ∈ s.threads, u.settles ≠ some id))

instance (s : SystemState P) (f : File) : Decidable (Unexpired s f) :=
  inferInstanceAs (Decidable (∀ u ∈ s.threads, ∀ r ∈ u.janitor, r - expiryAge ≤ f.createdAt))

/-- The upload id of an `UPLOADING` row is closed in the storage, and nobody is
about to settle the row. -/
structure Stuck (s : SystemState P) (f : File) (m : Text) : Prop where
  get : s.store.files.get? f.id = some f
  state : f.state = .uploading
  multipart : f.multipartId = some m
  issued : m ∈ s.store.storage.issued
  closed : (f.objectKey, m) ∉ s.store.storage.uploads
  unlearned : Unlearned s f.id

theorem Thread.act_complete {a : Answer} {s : Store} {c : CompleteCall}
    {p : Progress CompletePc File} {t : Thread P} {w : Write}
    (h : Thread.act cfg a s (.completeUpload c p : Thread P) = some (t, w)) :
    ∃ o, p.step (c.step a s) = some o ∧ t = .completeUpload c o.progress ∧ w = o.write := by
  obtain ⟨o, hp, heq⟩ := Option.map_eq_some_iff.mp h
  obtain ⟨rfl, rfl⟩ := Prod.mk.inj heq
  exact ⟨o, hp, rfl, rfl⟩

theorem Thread.janitor_act {a : Answer} {s : Store} {u t : Thread P} {w : Write}
    (h : u.act cfg a s = some (t, w)) : t.janitor = u.janitor := by
  cases u with
  | startUpload | presignPart | completeUpload | download | scanFile | recoverStaleUploads
  | createImport | submitImport | readImport =>
      obtain ⟨o, -, heq⟩ := Option.map_eq_some_iff.mp h
      cases heq
      rfl

theorem Thread.janitor_crash (t : Thread P) : t.crash.janitor = t.janitor := by
  cases t <;> rfl

theorem mem_set_of_getElem? {l : List (Thread P)} {i : Nat} {u v : Thread P}
    (h : l[i]? = some u) : v ∈ l.set i v :=
  List.mem_set (List.getElem?_eq_some_iff.mp h).1 v

/-- Threads never disappear. -/
theorem Unexpired.before {f : File} (ht : Unexpired t f) (h : Happens cfg s e t) :
    Unexpired s f := by
  intro u hu r hr
  obtain ⟨j, hj⟩ := List.mem_iff_getElem?.mp hu
  cases h with
  | spawn => exact ht u (List.mem_append_left _ hu) r hr
  | @act i a v v' w store hthread hfree hact hwrite hsound =>
      by_cases hij : i = j
      · subst hij
        obtain rfl := Option.some.inj (hj.symm.trans hthread)
        exact ht v' (mem_set_of_getElem? hthread) r (Thread.janitor_act hact ▸ hr)
      · exact ht u (List.mem_of_getElem? ((List.getElem?_set_ne hij).trans hj)) r hr
  | @crash i v hthread =>
      by_cases hij : i = j
      · subst hij
        obtain rfl := Option.some.inj (hj.symm.trans hthread)
        exact ht _ (mem_set_of_getElem? hthread) r (u.janitor_crash ▸ hr)
      · exact ht u (List.mem_of_getElem? ((List.getElem?_set_ne hij).trans hj)) r hr

/-- Only a completion that finds its upload id open gets to the commit. -/
theorem CompleteCall.settle_of_step {c : CompleteCall} {a : Answer} {s : Store} {pc : CompletePc}
    {o : Outcome CompletePc File} {f : File} {size : Nat} (h : c.step a s pc = some o)
    (ho : o.progress = .running (.settle f size)) :
    ∃ m, pc = .finalize f m ∧ (f.objectKey, m) ∈ s.storage.uploads := by
  cases pc with
  | resolve =>
      simp only [step] at h
      split at h
      · cases h
      · cases h
        have ho := Outcome.running_read ho
        split at ho <;> cases ho
  | deny error projectId =>
      simp only [step] at h
      split at h
      · cases h
      · cases h
        cases (Outcome.running_commit ho).1
  | lock uploadId =>
      cases h
      have ho := Outcome.running_read ho
      split at ho
      · cases ho
      · split at ho
        · cases ho
        · split at ho
          · cases ho
          · split at ho
            · cases ho
            · split at ho <;> cases ho
  | finalize file m =>
      cases h
      split at ho
      · cases ho
      · rename_i hopen
        simp only [Outcome.attempt] at ho
        split at ho
        · obtain ⟨rfl, -⟩ := CompletePc.settle.inj (Progress.running.inj ho)
          exact ⟨m, rfl, not_not.mp hopen⟩
        · cases ho
  | settle file size =>
      cases h
      split at ho
      · cases (Outcome.running_commit ho).1
      · cases (Outcome.running_commit ho).1
  | discard key =>
      cases h
      cases ho
  | enqueue file =>
      cases h
      cases ho

theorem Thread.settles_eq_some {u : Thread P} {id : UUID} (h : u.settles = some id) :
    ∃ c f size, u = .completeUpload c (.running (.settle f size)) ∧ f.id = id := by
  unfold settles at h
  split at h
  · exact ⟨_, _, _, rfl, Option.some.inj h⟩
  · cases h

theorem Thread.finalizes_eq_some {u : Thread P} {f : File} {m : Text}
    (h : u.finalizes = some (f, m)) : ∃ c, u = .completeUpload c (.running (.finalize f m)) := by
  unfold finalizes at h
  split at h
  · obtain ⟨rfl, rfl⟩ := Prod.mk.inj (Option.some.inj h)
    exact ⟨_, rfl⟩
  · cases h

/-- A completion at its storage call has the locked row. -/
theorem Stuck.finalizes {f g : File} {m m' : Text} {i : Nat} {c : CompleteCall}
    (hs : Consistent cfg s) (hstuck : Stuck s f m)
    (hthread : s.threads[i]? = some (.completeUpload c (.running (.finalize g m'))))
    (hid : g.id = f.id) : g = f ∧ m' = m := by
  obtain ⟨hcompleting, hm'⟩ : CompletePc.Ok s.store (.finalize g m') := hs.ok hthread
  have hg := hcompleting.get
  rw [hid, hstuck.get] at hg
  obtain rfl := Option.some.inj hg
  exact ⟨rfl, Option.some.inj (hm'.symm.trans hstuck.multipart)⟩

theorem Stuck.unlearned_step {f : File} {m : Text} (hs : Consistent cfg s) (hstuck : Stuck s f m)
    (h : Happens cfg s e t) : Unlearned t f.id := by
  intro v hv hsettles
  obtain ⟨j, hget⟩ := List.mem_iff_getElem?.mp hv
  obtain ⟨c, g, size, rfl, hid⟩ := Thread.settles_eq_some hsettles
  rcases h.thread_cases hget with hold | hinitial | ⟨u, -, hcrash⟩ | ⟨a, u, w, -, hu, hact, -⟩
  · exact hstuck.unlearned _ (List.mem_of_getElem? hold) hsettles
  · have hpc := of_decide_eq_true hinitial
    unfold CompleteCall.begin at hpc
    split at hpc <;> cases hpc
  · exact Thread.crash_ne_completeUpload hcrash.symm
  · obtain ⟨pc, o, rfl, hstep, hprogress, -⟩ := Thread.completeUpload_of_act hact
    obtain ⟨m', rfl, hopen⟩ := CompleteCall.settle_of_step hstep hprogress
    obtain ⟨rfl, rfl⟩ := hstuck.finalizes hs hu hid
    exact hstuck.closed hopen

/-- No action updates the row, up to the janitor that finds it expired. -/
theorem Stuck.not_updated {f : File} {m : Text} (hstuck : Stuck s f m)
    (hunexpired : Unexpired s f) {i : Nat} {a : Answer} {u : Thread P} {v : FileUpdate}
    (hthread : s.threads[i]? = some u) (hmove : FileMove f v) :
    ¬Updates s.store a u f.id v := by
  intro h
  generalize hid : f.id = id at h
  have hget := hstuck.get
  rw [hid] at hget
  cases h with
  | start | create =>
      cases hmove with
      | provision hstate hm =>
          rw [hstuck.multipart] at hm
          cases hm
  | mismatch | complete =>
      exact hstuck.unlearned _ (List.mem_of_getElem? hthread) (congrArg some hid.symm)
  | claim hget' hstate' =>
      obtain rfl := Option.some.inj (hget.symm.trans hget')
      rw [hstuck.state] at hstate'
      cases hstate'
  | verdict hget' hstate' =>
      obtain rfl := Option.some.inj (hget.symm.trans hget')
      rw [hstuck.state] at hstate'
      cases hstate'
  | expire hget' hstate' hage =>
      obtain rfl := Option.some.inj (hget.symm.trans hget')
      exact absurd hage (Int.not_lt.mpr (hunexpired _ (List.mem_of_getElem? hthread) _ rfl))

theorem Stuck.step {f : File} {m : Text} (hs : Consistent cfg s) (hstuck : Stuck s f m)
    (hunexpired : Unexpired s f) (h : Happens cfg s e t) : Stuck t f m := by
  have hget : t.store.files.get? f.id = some f := by
    cases h with
    | spawn | crash => exact hstuck.get
    | act hthread hfree hact hwrite hsound =>
        exact hs.file_kept hthread hact hwrite hstuck.get fun _ =>
          hstuck.not_updated hunexpired hthread
  refine ⟨hget, hstuck.state, hstuck.multipart, h.evolves.issued hstuck.issued, ?_,
    hstuck.unlearned_step hs h⟩
  exact hs.upload_closed ⟨[e], (run_singleton s e).trans h.next⟩ hstuck.issued hstuck.closed

theorem Stuck.run {f : File} {m : Text} (hs : Consistent cfg s) (hstuck : Stuck s f m)
    (h : Reachable (next P cfg) s t) (hunexpired : Unexpired t f) : Stuck t f m := by
  refine h.induction (I := fun u => Unexpired u f → Stuck u f m) (fun _ => hstuck)
    (fun u e v hu hinv hnext hv => ?_) hunexpired
  have hcon := hs.reachable hu
  have hhappens := hcon.happens hnext
  have hbefore := hv.before hhappens
  exact (hinv hbefore).step hcon hbefore hhappens

/-- The completion of an upload that the storage has closed is pending. -/
theorem Stuck.replay {f g : File} {m m' : Text} (hs : Consistent cfg s) (hstuck : Stuck s f m)
    {j : Nat} {c : CompleteCall} {a : Answer} {o : Outcome CompletePc File}
    (hthread : s.threads[j]? = some (.completeUpload c (.running (.finalize g m'))))
    (hid : g.id = f.id) (h : c.step a s.store (.finalize g m') = some o) :
    o = .reject fileCompletionPendingError := by
  obtain ⟨rfl, rfl⟩ := hstuck.finalizes hs hthread hid
  simp only [CompleteCall.step, if_pos hstuck.closed] at h
  exact (Option.some.inj h).symm

end replay

/-! ### Lost completions -/

/-- In the run `es` the storage finalizes the upload of a file, and at its end
the service has neither learnt nor committed it. -/
structure LostCompletion (P : Platform) (cfg : ScannerConfig) (projects : List UUID)
    (es : List (SystemEvent P)) (s : SystemState P) (f : File) : Prop where
  reached : run (next P cfg) (initialState P projects) es = some s
  finalized : ∃ es₁ i a es₂ u g m, es = es₁ ++ .act i a :: es₂ ∧
    run (next P cfg) (initialState P projects) es₁ = some u ∧
    u.threads[i]?.bind Thread.finalizes = some (g, m) ∧ g.id = f.id ∧
    (g.objectKey, m) ∈ u.store.storage.uploads ∧ a.fate.applied = true
  uncommitted : s.store.files.get? f.id = some f ∧ f.state = .uploading
  unlearned : Unlearned s f.id

section lost

variable {P : Platform} {cfg : ScannerConfig} {projects : List UUID}

theorem closed_of_finalize {c : CompleteCall} {s s' : Store} {a : Answer} {g : File} {m : Text}
    {o : Outcome CompletePc File} (h : c.step a s (.finalize g m) = some o)
    (hopen : (g.objectKey, m) ∈ s.storage.uploads) (happlied : a.fate.applied = true)
    (hw : s.write? o.write = some s') : (g.objectKey, m) ∉ s'.storage.uploads := by
  simp only [CompleteCall.step, not_not.mpr hopen, if_false, Outcome.attempt, happlied,
    if_true] at h
  cases h
  cases hw
  simp [Storage.perform, hopen, Storage.closeUpload, Storage.removeObject]

theorem LostCompletion.stuck {es : List (SystemEvent P)} {s : SystemState P} {f : File}
    (h : LostCompletion P cfg projects es s f) : ∃ m, Stuck s f m := by
  obtain ⟨es₁, i, a, es₂, u, g, m, rfl, hrun, hfinalizes, hid, hopen, happlied⟩ := h.finalized
  obtain ⟨v, hthread, hv⟩ := Option.bind_eq_some_iff.mp hfinalizes
  obtain ⟨c, rfl⟩ := Thread.finalizes_eq_some hv
  have hu : Consistent cfg u := consistent_of_reachable ⟨es₁, hrun⟩
  have hrest := h.reached
  rw [run_append, hrun, Option.bind_some, run_cons] at hrest
  obtain ⟨v, hstep, hrest⟩ := Option.bind_eq_some_iff.mp hrest
  obtain ⟨hcompleting, hm⟩ : CompletePc.Ok u.store (.finalize g m) := hu.ok hthread
  have hissued : m ∈ u.store.storage.issued := hu.wellFormed.issued _ hopen
  have hv := hu.step hstep
  have hclosed : (g.objectKey, m) ∉ v.store.storage.uploads := by
    cases hu.happens hstep with
    | act hget hfree hact hwrite hsound =>
        obtain rfl := Option.some.inj (hthread.symm.trans hget)
        obtain ⟨o, hp, -, rfl⟩ := Thread.act_complete hact
        exact closed_of_finalize (c := c) hp hopen happlied hwrite
  have hreach : Reachable (next P cfg) v s := ⟨es₂, hrest⟩
  have hissued' := (hu.happens hstep).evolves.issued hissued
  obtain ⟨f', hf', hle⟩ := ((hu.happens hstep).evolves.trans (hv.evolves hreach)).files
    hcompleting.get
  obtain rfl : f = f' := by
    rw [hid, h.uncommitted.1] at hf'
    exact Option.some.inj hf'
  refine ⟨m, h.uncommitted.1, h.uncommitted.2, hle.multipart m hm,
    (hv.evolves hreach).issued hissued', ?_, h.unlearned⟩
  rw [hle.objectKey_eq]
  exact hv.upload_closed hreach hissued' hclosed

end lost

namespace Sample

/-- An upload and a completion, up to its call of the storage. -/
def finalizing : List (SystemEvent platform) :=
  .spawn (.startUpload upload (.running .select)) :: List.replicate 6 (.act 0 answer) ++
    [.spawn (.completeUpload completion (.running completion.begin)), .act 1 answer]

/-- The storage finalizes the upload without the service learning it. -/
def lost : List (SystemEvent platform) := finalizing ++ [.act 1 { answer with fate := .lost }]

/-- The same parts are completed again. -/
def replayed : List (SystemEvent platform) :=
  [.spawn (.completeUpload completion (.running completion.begin)), .act 2 answer]

theorem lost_completion :
    ∃ s f t, LostCompletion platform scanner [1] lost s f ∧
      s.store.storage.object? f.objectKey = some content ∧ f.sizeBytes = content.length ∧
      run (next platform scanner) s replayed = some t ∧ Unexpired t f := by
  have hlost : ((run (next platform scanner) (initialState platform [1]) lost).bind fun s =>
      (s.store.files.get? 10).bind fun f => (run (next platform scanner) s replayed).map fun t =>
        decide (f.id = 10 ∧ f.state = .uploading ∧ Unlearned s 10 ∧
          s.store.storage.object? f.objectKey = some content ∧ f.sizeBytes = content.length ∧
          Unexpired t f)) = some true := by decide +kernel
  have hfinalizing : ((run (next platform scanner) (initialState platform [1]) finalizing).bind
      fun u => (u.threads[1]?.bind Thread.finalizes).map fun (g, m) =>
        decide (g.id = 10 ∧ (g.objectKey, m) ∈ u.store.storage.uploads)) = some true := by
    decide +kernel
  obtain ⟨s, hs, hlost⟩ := Option.bind_eq_some_iff.mp hlost
  obtain ⟨f, hf, hlost⟩ := Option.bind_eq_some_iff.mp hlost
  obtain ⟨t, ht, hlost⟩ := Option.map_eq_some_iff.mp hlost
  obtain ⟨hid, hstate, hunlearned, hobject, hsize, hunexpired⟩ := of_decide_eq_true hlost
  obtain ⟨u, hu, hfinalizing⟩ := Option.bind_eq_some_iff.mp hfinalizing
  obtain ⟨⟨g, m⟩, hg, hfinalizing⟩ := Option.map_eq_some_iff.mp hfinalizing
  obtain ⟨hgid, hopen⟩ := of_decide_eq_true hfinalizing
  exact ⟨s, f, t,
    { reached := hs
      finalized := ⟨finalizing, 1, { answer with fate := .lost }, [], u, g, m, rfl, hu, hg,
        hgid.trans hid.symm, hopen, rfl⟩
      uncommitted := ⟨by rw [hid]; exact hf, hstate⟩
      unlearned := by rw [hid]; exact hunlearned },
    hobject, hsize, ht, hunexpired⟩

end Sample

/-- After a lost completion nothing the service does before the expiry of the
upload moves its file: it stays `UPLOADING`, and every replay is answered with
`FILE_COMPLETION_PENDING`. -/
theorem completion_replay (P : Platform) (cfg : ScannerConfig) (projects : List UUID)
    {es : List (SystemEvent P)} {s t : SystemState P} {f : File}
    (h : LostCompletion P cfg projects es s f) (ht : Reachable (next P cfg) s t)
    (hunexpired : Unexpired t f) :
    (∃ f', t.store.files.get? f.id = some f' ∧ f'.state = .uploading) ∧
    ∀ {j : Nat} {c : CompleteCall} {g : File} {m : Text} {a : Answer}
      {o : Outcome CompletePc File},
      t.threads[j]? = some (.completeUpload c (.running (.finalize g m))) → g.id = f.id →
      c.step a t.store (.finalize g m) = some o → o = .reject fileCompletionPendingError := by
  obtain ⟨m, hstuck⟩ := h.stuck
  have hs : Consistent cfg s := consistent_of_reachable ⟨es, h.reached⟩
  have hstuck' := hstuck.run hs ht hunexpired
  exact ⟨⟨f, hstuck'.get, hstuck'.state⟩,
    fun hthread hid hstep => hstuck'.replay (hs.reachable ht) hthread hid hstep⟩

/-- The sample file is still `UPLOADING` when its completion is replayed. -/
theorem completion_replay_sample :
    ∃ s f t f', LostCompletion Sample.platform Sample.scanner [1] Sample.lost s f ∧
      run (next Sample.platform Sample.scanner) s Sample.replayed = some t ∧
      t.store.files.get? f.id = some f' ∧ f'.state = .uploading := by
  obtain ⟨s, f, t, hlost, -, -, ht, hunexpired⟩ := Sample.lost_completion
  obtain ⟨⟨f', hf', hstate⟩, -⟩ := completion_replay _ _ _ hlost ⟨_, ht⟩ hunexpired
  exact ⟨s, f, t, f', hlost, ht, hf', hstate⟩

/-- The finished object has the declared size, and yet no run leads its file to
`QUARANTINED` or `FAILED` before the upload expires. -/
theorem completion_never_converges :
    ∃ s f, LostCompletion Sample.platform Sample.scanner [1] Sample.lost s f ∧
      s.store.storage.object? f.objectKey = some Sample.content ∧
      f.sizeBytes = Sample.content.length ∧
      ¬∃ t f', Reachable (next Sample.platform Sample.scanner) s t ∧ Unexpired t f ∧
        t.store.files.get? f.id = some f' ∧
        (f'.state = .quarantined ∨ f'.state = .failed) := by
  obtain ⟨s, f, -, hlost, hobject, hsize, -, -⟩ := Sample.lost_completion
  refine ⟨s, f, hlost, hobject, hsize, ?_⟩
  rintro ⟨t, f', ht, hunexpired, hf', hstate⟩
  obtain ⟨m, hstuck⟩ := hlost.stuck
  have hstuck' := hstuck.run (consistent_of_reachable ⟨_, hlost.reached⟩) ht hunexpired
  obtain rfl := Option.some.inj (hstuck'.get.symm.trans hf')
  rw [hstuck'.state] at hstate
  rcases hstate with hstate | hstate <;> cases hstate

end SuperBoss.Server
