import SuperBoss.Files.Models

/-!
The lifecycle of a file: its moves, and the order in which they lead.
-/

namespace SuperBoss.Files

open SuperBoss.Core

namespace FileState

/-- The moves that the service makes. -/
inductive Move : FileState → FileState → Prop
  | quarantine : Move .uploading .quarantined
  | fail : Move .uploading .failed
  | claim : Move .quarantined .scanning
  | verdict {st : FileState} (h : st.terminal = true) : Move .scanning st

/-- `b` is `a` or lies behind it. -/
def Le (a b : FileState) : Prop := a = b ∨ a.rank < b.rank

variable {a b c : FileState}

theorem Le.refl (a : FileState) : Le a a := .inl rfl

theorem Le.trans (h : Le a b) (h' : Le b c) : Le a c := by
  rcases h with rfl | h
  · exact h'
  · rcases h' with rfl | h'
    · exact .inr h
    · exact .inr (h.trans h')

theorem rank_le (a : FileState) : a.rank ≤ 3 := by cases a <;> decide

theorem terminal_iff_rank : a.terminal = true ↔ a.rank = 3 := by cases a <;> decide

theorem Le.eq_of_terminal (h : Le a b) (ha : a.terminal = true) : b = a := by
  rcases h with rfl | h
  · rfl
  · have := terminal_iff_rank.mp ha
    have := rank_le b
    omega

theorem Le.rank_le (h : Le a b) : a.rank ≤ b.rank := by
  rcases h with rfl | h
  · exact le_rfl
  · exact h.le

theorem ne_uploading_iff : a ≠ .uploading ↔ 1 ≤ a.rank := by cases a <;> decide

theorem Le.ne_uploading (h : Le a b) (ha : a ≠ .uploading) : b ≠ .uploading :=
  ne_uploading_iff.mpr ((ne_uploading_iff.mp ha).trans h.rank_le)

theorem Move.rank_lt (h : Move a b) : a.rank < b.rank := by
  cases h with
  | quarantine => decide
  | fail => decide
  | claim => decide
  | verdict h => rw [terminal_iff_rank.mp h]; decide

theorem Move.le (h : Move a b) : Le a b := .inr h.rank_lt

theorem Move.not_terminal (h : Move a b) : a.terminal = false := by
  cases h <;> rfl

theorem Move.ne (h : Move a b) : a ≠ b := fun he => by
  have := h.rank_lt
  rw [he] at this
  omega

end FileState

/-- A later version of a row: the same file, further in its lifecycle. -/
structure FileLe (f f' : File) : Prop where
  identity : f'.identity = f.identity
  state : f.state.Le f'.state
  multipart : ∀ m, f.multipartId = some m → f'.multipartId = some m

namespace FileLe

variable {f f' f'' : File}

theorem refl (f : File) : FileLe f f := ⟨rfl, .refl _, fun _ => id⟩

theorem trans (h : FileLe f f') (h' : FileLe f' f'') : FileLe f f'' :=
  ⟨h'.identity.trans h.identity, h.state.trans h'.state,
    fun m hm => h'.multipart m (h.multipart m hm)⟩

theorem id_eq (h : FileLe f f') : f'.id = f.id := congrArg Prod.fst h.identity

theorem projectId_eq (h : FileLe f f') : f'.projectId = f.projectId :=
  congrArg (fun i => i.2.1) h.identity

theorem objectKey_eq (h : FileLe f f') : f'.objectKey = f.objectKey :=
  congrArg (fun i => i.2.2.2.2.2.1) h.identity

theorem sizeBytes_eq (h : FileLe f f') : f'.sizeBytes = f.sizeBytes :=
  congrArg (fun i => i.2.2.2.2.2.2.1) h.identity

theorem sha256_eq (h : FileLe f f') : f'.sha256 = f.sha256 :=
  congrArg (fun i => i.2.2.2.2.2.2.2.1) h.identity

theorem multipart_ne_none (h : FileLe f f') (hm : f.multipartId ≠ none) :
    f'.multipartId ≠ none := by
  obtain ⟨m, hm⟩ := Option.ne_none_iff_exists'.mp hm
  rw [h.multipart m hm]
  exact Option.some_ne_none m

end FileLe

/-- The updates that the service commits on a row as it is at that moment. -/
inductive FileMove (f : File) : FileUpdate → Prop
  | provision {m : Text} {now : Instant} (hstate : f.state = .uploading)
      (hm : f.multipartId = none) : FileMove f (.provision m now)
  | settle {st : FileState} {result : Option Text} {now : Instant} (h : f.state.Move st) :
      FileMove f (.settle st result now)

theorem FileMove.le {f : File} {u : FileUpdate} (h : FileMove f u) : FileLe f (u.apply f) := by
  cases h with
  | provision hstate hm =>
      refine ⟨rfl, .inl rfl, fun m hsome => ?_⟩
      rw [hm] at hsome
      cases hsome
  | settle h => exact ⟨rfl, h.le, fun m hm => hm⟩

end SuperBoss.Files
