import SuperBoss.Server.CreateIdempotency
import SuperBoss.Server.WakeUp

/-!
Two schedules of the scans of one job. The status of the job does not depend on
the order; its result code does when the files end both `INFECTED` and `FAILED`.
-/

namespace SuperBoss.Server

open SuperBoss.Core
open SuperBoss.Library
open SuperBoss.Library.Transition
open SuperBoss.Files
open SuperBoss.Imports
open SuperBoss.Infrastructure.Clamav

/-! ### Evaluations of a part of the verdicts -/

theorem mem_states_of_le {l l' : List FileObservation} (h : List.Forall₂ ObservationLe l l')
    (st : FileState) (hst : st ∈ l.map (·.state)) (hterminal : st.terminal = true) :
    st ∈ l'.map (·.state) := by
  induction h with
  | nil => exact hst
  | @cons a b l l' hle _ ih =>
      rcases List.mem_cons.mp hst with hst | hst
      · have hhead : st = a.state := hst
        subst hhead
        rw [List.map_cons, hle.state.eq_of_terminal hterminal]
        exact List.mem_cons_self
      · exact List.mem_cons_of_mem _ (ih hst)

theorem eq_of_le_of_terminal {l l' : List FileObservation}
    (h : List.Forall₂ ObservationLe l l') (hterminal : ∀ o ∈ l, o.state.terminal = true) :
    l' = l := by
  induction h with
  | nil => rfl
  | @cons a b l l' hle _ ih =>
      have hstate := hle.state.eq_of_terminal (hterminal a List.mem_cons_self)
      have hhead : b = a := by
        cases a
        cases b
        simp only [FileObservation.mk.injEq]
        exact ⟨hle.kind, hstate, hle.sha256⟩
      rw [hhead, ih fun o ho => hterminal o (List.mem_cons_of_mem a ho)]

section evaluations

variable {base : Option Text} {l l' : List FileObservation}

/-- The verdicts of which one schedule may see the one and another the other first. -/
def Mixed (l : List FileObservation) : Prop :=
  .infected ∈ l.map (·.state) ∧ .failed ∈ l.map (·.state)

/-- A job that an earlier evaluation closed has the outcome of the last evaluation. -/
theorem evaluateFiles_of_le (h : List.Forall₂ ObservationLe l l')
    (hclosed : (evaluateFiles base l).status ≠ .scanning) (hmixed : ¬Mixed l') :
    evaluateFiles base l = evaluateFiles base l' := by
  have hinfected := mem_states_of_le h .infected
  have hfailed := mem_states_of_le h .failed
  by_cases hinf : .infected ∈ l.map (·.state)
  · simp only [evaluateFiles, hinf, hinfected hinf rfl, if_true]
  by_cases hfail : .failed ∈ l.map (·.state)
  · have hinf' : .infected ∉ l'.map (·.state) := fun hinf' => hmixed ⟨hinf', hfailed hfail rfl⟩
    simp only [evaluateFiles, hinf, hfail, hinf', hfailed hfail rfl, if_true, if_false]
  · -- Without a bad verdict the evaluation waited for all files.
    have hterminal : ∀ o ∈ l, o.state.terminal = true := by
      intro o ho
      by_contra hopen
      have hne : ∃ st ∈ l.map (·.state), st ≠ FileState.clean := by
        refine ⟨o.state, List.mem_map_of_mem ho, ?_⟩
        intro hclean
        rw [hclean] at hopen
        exact hopen rfl
      simp only [evaluateFiles, hinf, hfail, if_false, if_pos (Or.inr hne), ne_eq,
        not_true_eq_false] at hclosed
    rw [eq_of_le_of_terminal h hterminal]

theorem evaluateFiles_of_mixed (h : List.Forall₂ ObservationLe l l')
    (hclosed : (evaluateFiles base l).status ≠ .scanning) (hmixed : Mixed l') :
    (evaluateFiles base l).status = .rejected ∧ (evaluateFiles base l).resultCode ∈
      [some "ATTACHMENT_INFECTED", some "ATTACHMENT_SCAN_FAILED"] := by
  by_cases hinf : .infected ∈ l.map (·.state)
  · simp [evaluateFiles, hinf]
  by_cases hfail : .failed ∈ l.map (·.state)
  · simp [evaluateFiles, hinf, hfail]
  · exfalso
    have hopen : ∃ st ∈ l.map (·.state), st ≠ FileState.clean := by
      by_contra hclean
      have hterminal : ∀ o ∈ l, o.state.terminal = true := by
        intro o ho
        have hstate : o.state = .clean :=
          by_contra fun hne => hclean ⟨_, List.mem_map_of_mem ho, hne⟩
        rw [hstate]
        rfl
      rw [eq_of_le_of_terminal h hterminal] at hmixed
      exact hinf hmixed.1
    simp only [evaluateFiles, hinf, hfail, if_false, if_pos (Or.inr hopen), ne_eq,
      not_true_eq_false] at hclosed

end evaluations

section confluence

variable {P : Platform} {cfg : ScannerConfig} {projects : List UUID}

/-- A submitted job whose files have their verdicts and whose scan tasks have returned. -/
structure Finished (s : SystemState P) (j : ImportJob) : Prop where
  stored : s.store.jobs.get? j.id = some j
  submitted : j.status ≠ .uploading
  returned : ∀ x ∈ s.store.attachmentsOf j.id, ∀ p, .scanFile x.fileId p ∈ s.threads →
    p = .returned ()
  verdicts : ∀ x ∈ s.store.attachmentsOf j.id, ∀ f, s.store.files.get? x.fileId = some f →
    f.state.terminal = true

theorem Finished.of_settled {s : SystemState P} {j : ImportJob}
    (hj : s.store.jobs.get? j.id = some j) (hsubmitted : j.status ≠ .uploading)
    (hthreads : ∀ v ∈ s.threads, v.succeeded = true)
    (hfiles : ∀ f ∈ s.store.files.rows, f.state.terminal = true) : Finished s j where
  stored := hj
  submitted := hsubmitted
  returned x _ p hp := by
    cases p with
    | returned r => rfl
    | running | raised | crashed => cases hthreads _ hp
  verdicts x _ f hf := hfiles f (Table.mem_of_get? hf)

theorem Finished.evaluated {s : SystemState P} {j : ImportJob} (h : Finished s j)
    (hs : Reachable (next P cfg) (initialState P projects) s) :
    ∃ l, List.Forall₂ ObservationLe l (s.store.fileObservations j.id) ∧
      evaluateFiles j.baseSha256 l = ⟨j.status, j.resultCode⟩ ∧ j.status ≠ .scanning := by
  obtain ⟨l, hl, -, heval⟩ :=
    ((consistent_of_reachable hs).wellFormed.jobs h.stored).justified h.submitted
  exact ⟨l, hl, heval,
    (wakes_of_reachable hs).not_scanning h.stored h.returned h.verdicts⟩

theorem fileObservations_eq {s t u : Store} {i : ImportJob} (hs : WellFormed s)
    (ht : Evolves s t) (hu : Evolves s u) (hi : s.jobs.get? i.id = some i)
    (hsame : ∀ x ∈ s.attachmentsOf i.id, ∀ f g, t.files.get? x.fileId = some f →
      u.files.get? x.fileId = some g → f.state = g.state) :
    t.fileObservations i.id = u.fileObservations i.id := by
  unfold Store.fileObservations
  rw [ht.attachments hi, hu.attachments hi]
  apply List.filterMap_congr
  intro x hx
  have hattached := hs.attached x (Store.mem_attachmentsOf.mp hx).1
  obtain ⟨f₀, hf₀, -⟩ := hattached.file
  obtain ⟨f, hf, hobs⟩ := (hattached.evolve ht).observe
  obtain ⟨g, hg, hobs'⟩ := (hattached.evolve hu).observe
  obtain ⟨f', hf', hle⟩ := ht.files hf₀
  obtain ⟨g', hg', hle'⟩ := hu.files hf₀
  obtain rfl := Option.some.inj (hf'.symm.trans hf)
  obtain rfl := Option.some.inj (hg'.symm.trans hg)
  rw [hobs, hobs', hsame x hx f' g' hf hg, hle.sha256_eq, hle'.sha256_eq]

/-- Once both schedules have finished, the job has one status. It has one result
code unless its files ended both `INFECTED` and `FAILED`; then it is rejected with
one of the two codes for these in each schedule. -/
theorem scan_outcomes_confluent {s t u : SystemState P}
    (hs : Reachable (next P cfg) (initialState P projects) s)
    (ht : Reachable (next P cfg) s t) (hu : Reachable (next P cfg) s u)
    {i j k : ImportJob} (hi : s.store.jobs.get? i.id = some i) (hj : Finished t j)
    (hk : Finished u k) (hij : j.id = i.id) (hik : k.id = i.id)
    (hsame : ∀ x ∈ s.store.attachmentsOf i.id, ∀ f g, t.store.files.get? x.fileId = some f →
      u.store.files.get? x.fileId = some g → f.state = g.state) :
    j.status = k.status ∧
      (¬Mixed (t.store.fileObservations i.id) → j.resultCode = k.resultCode) ∧
      (Mixed (t.store.fileObservations i.id) → j.status = .rejected ∧
        j.resultCode ∈ [some "ATTACHMENT_INFECTED", some "ATTACHMENT_SCAN_FAILED"] ∧
        k.resultCode ∈ [some "ATTACHMENT_INFECTED", some "ATTACHMENT_SCAN_FAILED"]) := by
  have hcons := consistent_of_reachable hs
  have het := hcons.evolves ht
  have heu := hcons.evolves hu
  have hobs := fileObservations_eq hcons.wellFormed het heu hi hsame
  have hbase : ∀ {v : SystemState P} {l : ImportJob}, Evolves s.store v.store →
      v.store.jobs.get? l.id = some l → l.id = i.id → l.baseSha256 = i.baseSha256 := by
    intro v l he hl hid
    obtain ⟨l', hl', hle⟩ := he.jobs hi
    rw [hid] at hl
    obtain rfl := Option.some.inj (hl'.symm.trans hl)
    exact hle.baseSha256_eq
  obtain ⟨l, hl, hevalj, hnej⟩ := hj.evaluated (hs.trans ht)
  obtain ⟨m, hm, hevalk, hnek⟩ := hk.evaluated (hs.trans hu)
  rw [hbase het hj.stored hij] at hevalj
  rw [hbase heu hk.stored hik] at hevalk
  rw [hij] at hl
  rw [hik, ← hobs] at hm
  have hclosedj : (evaluateFiles i.baseSha256 l).status ≠ .scanning := hevalj ▸ hnej
  have hclosedk : (evaluateFiles i.baseSha256 m).status ≠ .scanning := hevalk ▸ hnek
  by_cases hmixed : Mixed (t.store.fileObservations i.id)
  · have hjmixed := evaluateFiles_of_mixed hl hclosedj hmixed
    have hkmixed := evaluateFiles_of_mixed hm hclosedk hmixed
    rw [hevalj] at hjmixed
    rw [hevalk] at hkmixed
    exact ⟨hjmixed.1.trans hkmixed.1.symm, fun h => absurd hmixed h,
      fun _ => ⟨hjmixed.1, hjmixed.2, hkmixed.2⟩⟩
  · have heq := (evaluateFiles_of_le hl hclosedj hmixed).trans
      (evaluateFiles_of_le hm hclosedk hmixed).symm
    rw [hevalj, hevalk] at heq
    exact ⟨congrArg (·.status) heq, fun _ => congrArg (·.resultCode) heq,
      fun h => absurd h hmixed⟩

end confluence

/-! ### Two schedules of the pair -/

namespace Sample

/-- The completions of both files and the submission of their job. -/
def pairSubmitted : List (SystemEvent hashed) :=
  .spawn (.completeUpload ⟨.attachment 20 30, device, [⟨1, Text.ofString "etag"⟩], some 41⟩
      (.running .resolve)) :: List.replicate 5 (.act 1 { answer with auditId := 1 }) ++
    .spawn (.completeUpload ⟨.attachment 20 31, device, [⟨1, Text.ofString "etag"⟩], some 42⟩
      (.running .resolve)) :: List.replicate 5 (.act 2 { answer with auditId := 2 }) ++
    .spawn (.submitImport ⟨device, 20, 43⟩ (.running .preflight)) ::
      List.replicate 4 (.act 3 { answer with auditId := 3 })

/-- The scan of file 10, which clamd finds infected. -/
def infectedScan (i : Nat) : List (SystemEvent hashed) :=
  .spawn (.scanFile 10 (.running .receive)) :: List.replicate 10
    (.act i { answer with received := ascii "stream: Eicar FOUND" ++ [0], auditId := 4 })

/-- The scan of file 11, while clamd does not answer. -/
def failedScan (i : Nat) : List (SystemEvent hashed) :=
  .spawn (.scanFile 11 (.running .receive)) ::
    List.replicate 10 (.act i { answer with patience := some 0, auditId := 5 })

/-- The job and its end in a finished state. -/
def outcome (s : SystemState hashed) : Option (ImportJob × List FileState) :=
  if ∀ v ∈ s.threads, v.succeeded = true then
    (s.store.jobs.get? 20).map fun j => (j, s.store.files.rows.map (·.state))
  else none

/-- Both schedules from the submitted job, with their outcomes. -/
def schedules : Option (SystemState hashed × SystemState hashed × SystemState hashed) := do
  let s ← run (next hashed scanner) (initialState hashed [1]) (pairCreated ++ pairSubmitted)
  let t ← run (next hashed scanner) s (infectedScan 4 ++ failedScan 5)
  let u ← run (next hashed scanner) s (failedScan 4 ++ infectedScan 5)
  some (s, t, u)

theorem outcome_eq_some {s : SystemState hashed} {j : ImportJob} {states : List FileState}
    (h : outcome s = some (j, states)) :
    (∀ v ∈ s.threads, v.succeeded = true) ∧ s.store.jobs.get? 20 = some j ∧
      s.store.files.rows.map (·.state) = states := by
  unfold outcome at h
  split at h
  · rename_i hthreads
    obtain ⟨j', hj, heq⟩ := Option.map_eq_some_iff.mp h
    cases heq
    exact ⟨hthreads, hj, rfl⟩
  · cases h

theorem finished_of_outcome {s : SystemState hashed} {j : ImportJob} {states : List FileState}
    (h : outcome s = some (j, states)) (hstates : ∀ st ∈ states, st.terminal = true)
    (hsubmitted : j.status ≠ .uploading) : Finished s j := by
  obtain ⟨hthreads, hj, rfl⟩ := outcome_eq_some h
  have hid : j.id = 20 := Table.key_of_get? hj
  rw [← hid] at hj
  exact .of_settled hj hsubmitted hthreads fun f hf => hstates _ (List.mem_map_of_mem hf)

theorem schedules_eq_some : ∃ s t u i j k,
    run (next hashed scanner) (initialState hashed [1]) (pairCreated ++ pairSubmitted) = some s ∧
      Reachable (next hashed scanner) s t ∧ Reachable (next hashed scanner) s u ∧
      s.store.jobs.get? 20 = some i ∧ Finished t j ∧ Finished u k ∧ j.id = 20 ∧ k.id = 20 ∧
      (∀ id f g, t.store.files.get? id = some f → u.store.files.get? id = some g →
        f.state = g.state) ∧
      j.resultCode = some "ATTACHMENT_INFECTED" ∧
      k.resultCode = some "ATTACHMENT_SCAN_FAILED" := by
  have hrun : (schedules.bind fun x => (x.1.store.jobs.get? 20).bind fun _ =>
      (outcome x.2.1).bind fun o => (outcome x.2.2).map fun o' =>
        decide (o.2 = [.infected, .failed] ∧ o'.2 = [.infected, .failed] ∧
          o.1.status ≠ .uploading ∧ o'.1.status ≠ .uploading ∧
          o.1.resultCode = some "ATTACHMENT_INFECTED" ∧
          o'.1.resultCode = some "ATTACHMENT_SCAN_FAILED" ∧
          x.2.1.store.files.rows.map (fun f => (f.id, f.state)) =
            x.2.2.store.files.rows.map (fun f => (f.id, f.state)))) = some true := by
    decide +kernel
  obtain ⟨⟨s, t, u⟩, hschedules, hrun⟩ := Option.bind_eq_some_iff.mp hrun
  obtain ⟨i, hi, hrun⟩ := Option.bind_eq_some_iff.mp hrun
  obtain ⟨⟨j, states⟩, hj, hrun⟩ := Option.bind_eq_some_iff.mp hrun
  obtain ⟨⟨k, states'⟩, hk, hchecks⟩ := Option.map_eq_some_iff.mp hrun
  obtain ⟨hstates, hstates', hup, hup', hcode, hcode', hrows⟩ :
      states = [.infected, .failed] ∧ states' = [.infected, .failed] ∧ j.status ≠ .uploading ∧
        k.status ≠ .uploading ∧ j.resultCode = some "ATTACHMENT_INFECTED" ∧
        k.resultCode = some "ATTACHMENT_SCAN_FAILED" ∧
        t.store.files.rows.map (fun f => (f.id, f.state)) =
          u.store.files.rows.map (fun f => (f.id, f.state)) := of_decide_eq_true hchecks
  simp only [schedules, Option.bind_eq_bind, Option.bind_eq_some_iff, Option.some.injEq]
    at hschedules
  obtain ⟨s', hs, t', ht, u', hu, heq⟩ := hschedules
  cases heq
  have hst : Reachable (next hashed scanner) s t := ⟨infectedScan 4 ++ failedScan 5, ht⟩
  have hsu : Reachable (next hashed scanner) s u := ⟨failedScan 4 ++ infectedScan 5, hu⟩
  have hterminal : ∀ st ∈ [FileState.infected, .failed], st.terminal = true := by decide
  refine ⟨s, t, u, i, j, k, hs, hst, hsu, hi,
    finished_of_outcome hj (hstates ▸ hterminal) hup,
    finished_of_outcome hk (hstates' ▸ hterminal) hup', Table.key_of_get? (outcome_eq_some hj).2.1,
    Table.key_of_get? (outcome_eq_some hk).2.1, fun id f g hf hg => ?_, hcode, hcode'⟩
  have hmem : (f.id, f.state) ∈ u.store.files.rows.map (fun f => (f.id, f.state)) := by
    rw [← hrows]
    exact List.mem_map_of_mem (Table.mem_of_get? hf)
  obtain ⟨g', hg', heq⟩ := List.mem_map.mp hmem
  obtain ⟨hid, hstate⟩ := Prod.mk.inj heq
  have hget : u.store.files.get? id = some g' := by
    rw [← Table.key_of_get? hf, ← hid]
    exact Table.get?_of_mem hg'
  rw [← hstate, Option.some.inj (hget.symm.trans hg)]

end Sample

/-- Both schedules of the pair end in one status. -/
theorem scan_outcomes_confluent_pair :
    ∃ s t u j k, run (next Sample.hashed Sample.scanner) (initialState Sample.hashed [1])
        (Sample.pairCreated ++ Sample.pairSubmitted) = some s ∧
      Reachable (next Sample.hashed Sample.scanner) s t ∧
      Reachable (next Sample.hashed Sample.scanner) s u ∧ Finished t j ∧ Finished u k ∧
      j.status = k.status := by
  obtain ⟨s, t, u, i, j, k, hs, ht, hu, hi, hj, hk, hjid, hkid, hsame, -, -⟩ :=
    Sample.schedules_eq_some
  have hid : i.id = 20 := Table.key_of_get? hi
  rw [← hid] at hi hjid hkid
  exact ⟨s, t, u, j, k, hs, ht, hu, hj, hk, (scan_outcomes_confluent ⟨_, hs⟩ ht hu hi hj hk hjid
    hkid fun x _ f g => hsame x.fileId f g).1⟩

/-- The schedules give one job two result codes, with the same verdict on every file. -/
theorem scan_order_decides_code :
    ∃ s t u j k, run (next Sample.hashed Sample.scanner) (initialState Sample.hashed [1])
        (Sample.pairCreated ++ Sample.pairSubmitted) = some s ∧
      Reachable (next Sample.hashed Sample.scanner) s t ∧
      Reachable (next Sample.hashed Sample.scanner) s u ∧ Finished t j ∧ Finished u k ∧
      j.id = k.id ∧
      (∀ id f g, t.store.files.get? id = some f → u.store.files.get? id = some g →
        f.state = g.state) ∧
      j.resultCode ≠ k.resultCode := by
  obtain ⟨s, t, u, i, j, k, hs, ht, hu, hi, hj, hk, hjid, hkid, hsame, hcode, hcode'⟩ :=
    Sample.schedules_eq_some
  refine ⟨s, t, u, j, k, hs, ht, hu, hj, hk, hjid.trans hkid.symm, hsame, ?_⟩
  rw [hcode, hcode']
  decide

end SuperBoss.Server
