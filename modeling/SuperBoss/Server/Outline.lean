import SuperBoss.Server.Soundness

/-!
The proof outline applied to runs: in every state the server can reach, the
store is well formed, every request's assertion holds, and no row is locked
twice. A step from such a state is one of three things, and an action writes
one of the listed effects.
-/

namespace SuperBoss.Server

open SuperBoss.Core
open SuperBoss.Library
open SuperBoss.Library.Interleaving
open SuperBoss.Library.Transition
open SuperBoss.Files
open SuperBoss.Imports
open SuperBoss.Infrastructure.Clamav

variable {P : Platform} {cfg : ScannerConfig}

/-! ### One action of a thread -/

/-- The write of an action, and the assertion it leaves behind. -/
structure ActSound (s : Store) (t t' : Thread P) (w : Write) : Prop where
  valid : ∃ s', s.write? w = some s'
  effect : Effect P s w
  touches : ∀ r ∈ w.touches, r ∈ t.holds ++ t.needs
  after : ∀ s', s.write? w = some s' → t'.Ok s'

theorem Thread.sound {a : Answer} {s : Store} {t t' : Thread P} {w : Write} (hs : WellFormed s)
    (hok : t.Ok s) (h : t.act cfg a s = some (t', w)) : ActSound s t t' w := by
  cases t with
  | startUpload c p =>
      obtain ⟨o, hp, heq⟩ := Option.map_eq_some_iff.mp h
      obtain ⟨pc, rfl, hstep⟩ := Progress.step_eq_some hp
      cases heq
      have hsound := StartCall.sound hs hok hstep
      exact ⟨hsound.valid, hsound.effect, hsound.touches, hsound.after⟩
  | presignPart c p =>
      obtain ⟨o, hp, heq⟩ := Option.map_eq_some_iff.mp h
      obtain ⟨pc, rfl, hstep⟩ := Progress.step_eq_some hp
      cases heq
      have hsound := PresignCall.sound (P := P) hstep
      exact ⟨hsound.valid, hsound.effect, hsound.touches, fun _ _ => trivial⟩
  | completeUpload c p =>
      obtain ⟨o, hp, heq⟩ := Option.map_eq_some_iff.mp h
      obtain ⟨pc, rfl, hstep⟩ := Progress.step_eq_some hp
      cases heq
      have hsound := CompleteCall.sound (P := P) hok hstep
      exact ⟨hsound.valid, hsound.effect, hsound.touches, hsound.after⟩
  | download c p =>
      obtain ⟨o, hp, heq⟩ := Option.map_eq_some_iff.mp h
      obtain ⟨pc, rfl, hstep⟩ := Progress.step_eq_some hp
      cases heq
      have hsound := DownloadCall.sound (P := P) hstep
      exact ⟨hsound.valid, hsound.effect, hsound.touches, fun _ _ => trivial⟩
  | scanFile fileId p =>
      obtain ⟨o, hp, heq⟩ := Option.map_eq_some_iff.mp h
      obtain ⟨pc, rfl, hstep⟩ := Progress.step_eq_some hp
      cases heq
      have hsound := ScanPc.sound hs hok hstep
      exact ⟨hsound.valid, hsound.effect, hsound.touches, hsound.after⟩
  | recoverStaleUploads c p =>
      obtain ⟨o, hp, heq⟩ := Option.map_eq_some_iff.mp h
      obtain ⟨pc, rfl, hstep⟩ := Progress.step_eq_some hp
      cases heq
      have hsound := RecoverCall.sound (P := P) hok hstep
      exact ⟨hsound.valid, hsound.effect, hsound.touches, hsound.after⟩
  | createImport c p =>
      obtain ⟨o, hp, heq⟩ := Option.map_eq_some_iff.mp h
      obtain ⟨pc, rfl, hstep⟩ := Progress.step_eq_some hp
      cases heq
      have hsound := CreateCall.sound hs hok hstep
      exact ⟨hsound.valid, hsound.effect, hsound.touches, hsound.after⟩
  | submitImport c p =>
      obtain ⟨o, hp, heq⟩ := Option.map_eq_some_iff.mp h
      obtain ⟨pc, rfl, hstep⟩ := Progress.step_eq_some hp
      cases heq
      have hsound := SubmitCall.sound hs hok hstep
      exact ⟨hsound.valid, hsound.effect, hsound.touches, hsound.after⟩
  | readImport c p =>
      obtain ⟨o, hp, heq⟩ := Option.map_eq_some_iff.mp h
      obtain ⟨pc, rfl, hstep⟩ := Progress.step_eq_some hp
      cases heq
      have hsound := ReadCall.sound hs hok hstep
      exact ⟨hsound.valid, hsound.effect, hsound.touches, hsound.after⟩

theorem ActSound.write {s : Store} {t t' : Thread P} {w : Write} (h : ActSound s t t' w) :
    s.write? w = some (s.write w) := by
  obtain ⟨s', hs'⟩ := h.valid
  rw [Store.write, hs']
  rfl

/-! ### The outline -/

theorem Thread.ok_of_initial {s : Store} {t : Thread P} (h : t.initial = true) : t.Ok s := by
  cases t with
  | startUpload c p => cases of_decide_eq_true h; trivial
  | presignPart c p => trivial
  | completeUpload c p =>
      cases of_decide_eq_true h
      simp only [Ok, CompleteCall.begin]
      split <;> trivial
  | download c p => trivial
  | scanFile fileId p => cases of_decide_eq_true h; trivial
  | recoverStaleUploads c p => cases of_decide_eq_true h; trivial
  | createImport c p => cases of_decide_eq_true h; trivial
  | submitImport c p => cases of_decide_eq_true h; trivial
  | readImport c p => cases of_decide_eq_true h; trivial

theorem Progress.Holds.crash {Pc Result : Type} {ok : Pc → Prop} {post : Result → Prop}
    {p : Progress Pc Result} (h : p.Holds ok post) : p.crash.Holds ok post := by
  cases p with
  | running pc => trivial
  | returned r => exact h
  | raised e => trivial
  | crashed => trivial

theorem Thread.Ok.crash {s : Store} {t : Thread P} (h : t.Ok s) : t.crash.Ok s := by
  cases t with
  | presignPart | download => trivial
  | startUpload | completeUpload | scanFile | recoverStaleUploads | createImport | submitImport
  | readImport => exact Progress.Holds.crash h

theorem outline (P : Platform) (cfg : ScannerConfig) :
    Program.Outline (program P cfg) WellFormed fun t s => t.Ok s where
  spawn _ h := Thread.ok_of_initial h
  crash _ h := h.crash
  own hs hok h := by
    obtain ⟨w, hact, rfl⟩ := (program_next_eq_some P cfg).mp h
    have hsound := Thread.sound hs hok hact
    exact ⟨hsound.effect.wellFormed hs hsound.write, hsound.after _ hsound.write⟩
  other {a t s t' s' u} hs hok hu h hdisjoint := by
    obtain ⟨w, hact, rfl⟩ := (program_next_eq_some P cfg).mp h
    have hsound := Thread.sound hs hok hact
    have huntouched : ∀ r ∈ u.holds, r ∉ w.touches := by
      intro r hr htouch
      rcases List.mem_append.mp (hsound.touches r htouch) with hheld | hneeded
      · exact (hdisjoint r hr).1 hheld
      · exact (hdisjoint r hr).2 hneeded
    exact hu.stable hs
      { evolves := hsound.effect.evolves hsound.write
        file := fun hr hget => hsound.effect.file_unchanged hsound.write (huntouched _ hr) hget
        job := fun hr hget => hsound.effect.job_unchanged hsound.write (huntouched _ hr) hget }

/-! ### Consistent states -/

/-- The invariant of the server. -/
structure Consistent (cfg : ScannerConfig) (s : SystemState P) : Prop where
  exclusive : (program P cfg).Exclusive s.threads
  wellFormed : WellFormed s.store
  ok : ∀ {i : Nat} {t}, s.threads[i]? = some t → t.Ok s.store

theorem wellFormed_empty (projects : List UUID) : WellFormed (.empty projects) where
  issued := List.forall_mem_nil _
  attached := List.forall_mem_nil _
  attachments h := by cases h
  jobs h := by cases h

theorem Consistent.initial (projects : List UUID) :
    Consistent cfg (initialState P projects) where
  exclusive i j t u h := by cases h
  wellFormed := wellFormed_empty projects
  ok h := by cases h

/-- What an event does to a consistent state. -/
inductive Happens (cfg : ScannerConfig) (s : SystemState P) :
    SystemEvent P → SystemState P → Prop
  | spawn {t : Thread P} (hinitial : t.initial = true) :
      Happens cfg s (.spawn t) ⟨s.store, s.threads ++ [t]⟩
  | act {i : Nat} {a : Answer} {t t' : Thread P} {w : Write} {store : Store}
      (hget : s.threads[i]? = some t) (hfree : (program P cfg).Free s.threads i t)
      (hact : t.act cfg a s.store = some (t', w)) (hwrite : s.store.write? w = some store)
      (hsound : ActSound s.store t t' w) :
      Happens cfg s (.act i a) ⟨store, s.threads.set i t'⟩
  | crash {i : Nat} {t : Thread P} (hget : s.threads[i]? = some t) :
      Happens cfg s (.crash i) ⟨s.store, s.threads.set i t.crash⟩

theorem Consistent.happens {s t : SystemState P} {e : SystemEvent P} (hs : Consistent cfg s)
    (h : next P cfg s e = some t) : Happens cfg s e t := by
  cases (program P cfg).step_of_apply h with
  | spawn hinitial => exact .spawn hinitial
  | act hget hfree hnext =>
      obtain ⟨w, hact, rfl⟩ := (program_next_eq_some P cfg).mp hnext
      have hsound := Thread.sound hs.wellFormed (hs.ok hget) hact
      exact .act hget hfree hact hsound.write hsound
  | crash hget => exact .crash hget

theorem Happens.next {s t : SystemState P} {e : SystemEvent P} (h : Happens cfg s e t) :
    next P cfg s e = some t := by
  refine (program P cfg).apply_of_step ?_
  cases h with
  | spawn hinitial => exact .spawn hinitial
  | act hget hfree hact hwrite hsound =>
      refine .act hget hfree ((program_next_eq_some P cfg).mpr ⟨_, hact, ?_⟩)
      exact Option.some.inj (hwrite.symm.trans hsound.write)
  | crash hget => exact .crash hget

theorem Consistent.step {s t : SystemState P} {e : SystemEvent P} (hs : Consistent cfg s)
    (h : next P cfg s e = some t) : Consistent cfg t := by
  have hstep := (program P cfg).step_of_apply h
  have hannotated := (outline P cfg).step hs.exclusive ⟨hs.wellFormed, fun _ _ => hs.ok⟩ hstep
  exact ⟨hs.exclusive.step hstep, hannotated.1, fun hget => hannotated.2 _ _ hget⟩

theorem Consistent.reachable {s t : SystemState P} (hs : Consistent cfg s)
    (h : Reachable (next P cfg) s t) : Consistent cfg t :=
  h.preserves (fun _ _ _ hu hstep => hu.step hstep) hs

/-- Every state the server can reach is consistent. -/
theorem consistent_of_reachable {projects : List UUID} {s : SystemState P}
    (h : Reachable (next P cfg) (initialState P projects) s) : Consistent cfg s :=
  (Consistent.initial projects).reachable h

/-- The rows of a consistent state only move forward. -/
theorem Happens.evolves {s t : SystemState P} {e : SystemEvent P} (h : Happens cfg s e t) :
    Evolves s.store t.store := by
  cases h with
  | spawn | crash => exact .refl _
  | act hget hfree hact hwrite hsound => exact hsound.effect.evolves hwrite

theorem Consistent.evolves {s t : SystemState P} (hs : Consistent cfg s)
    (h : Reachable (next P cfg) s t) : Evolves s.store t.store := by
  refine h.induction (I := fun u => Evolves s.store u.store) (.refl s.store)
    fun u e v hu he hstep => he.trans ?_
  exact ((hs.reachable hu).happens hstep).evolves

/-- Where a thread of the next state comes from. -/
theorem Happens.thread_cases {s t : SystemState P} {e : SystemEvent P} (h : Happens cfg s e t)
    {j : Nat} {v : Thread P} (hget : t.threads[j]? = some v) :
    s.threads[j]? = some v ∨ v.initial = true ∨
      (∃ u, s.threads[j]? = some u ∧ v = u.crash) ∨
      ∃ a u w, e = .act j a ∧ s.threads[j]? = some u ∧ u.act cfg a s.store = some (v, w) ∧
        s.store.write? w = some t.store := by
  cases h with
  | spawn hinitial =>
      rcases getElem?_append_cases hget with ⟨-, rfl⟩ | hget
      · exact .inr (.inl hinitial)
      · exact .inl hget
  | act hthread hfree hact hwrite hsound =>
      rcases getElem?_set_cases hget with ⟨rfl, rfl⟩ | ⟨-, hget⟩
      · exact .inr (.inr (.inr ⟨_, _, _, rfl, hthread, hact, hwrite⟩))
      · exact .inl hget
  | crash hthread =>
      rcases getElem?_set_cases hget with ⟨rfl, rfl⟩ | ⟨-, hget⟩
      · exact .inr (.inr (.inl ⟨_, hthread, rfl⟩))
      · exact .inl hget

theorem Consistent.upload_closed {s t : SystemState P} (hs : Consistent cfg s)
    (h : Reachable (next P cfg) s t) {key m : Text} (hissued : m ∈ s.store.storage.issued)
    (hclosed : (key, m) ∉ s.store.storage.uploads) : (key, m) ∉ t.store.storage.uploads := by
  refine h.induction (I := fun u => (key, m) ∉ u.store.storage.uploads) hclosed
    fun u e v hu hinv hstep => ?_
  cases (hs.reachable hu).happens hstep with
  | spawn | crash => exact hinv
  | act hget hfree hact hwrite hsound =>
      exact hsound.effect.upload_closed hwrite ((hs.evolves hu).issued hissued) hinv

end SuperBoss.Server
