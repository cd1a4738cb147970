import SuperBoss.Files.Models
import SuperBoss.Imports.Models

/-!
The verdict on an import job from the states of its files.
-/

namespace SuperBoss.Imports

open SuperBoss.Core
open SuperBoss.Files

structure FileObservation where
  kind : AttachmentKind
  state : FileState
  sha256 : Text
  deriving DecidableEq

structure ImportEvaluation where
  status : ImportStatus
  resultCode : Option String
  deriving DecidableEq

/-- `_evaluate_files`, for a job with base digest `baseSha256`. -/
def evaluateFiles (baseSha256 : Option Text) (observations : List FileObservation) :
    ImportEvaluation :=
  let states := observations.map (·.state)
  if .infected ∈ states then ⟨.rejected, some "ATTACHMENT_INFECTED"⟩
  else if .failed ∈ states then ⟨.rejected, some "ATTACHMENT_SCAN_FAILED"⟩
  else if observations = [] ∨ ∃ st ∈ states, st ≠ .clean then ⟨.scanning, none⟩
  else
    match baseSha256, observations.find? fun o => o.kind == .original with
    | some base, some original =>
        if original.sha256 ≠ base then ⟨.conflict, some "BASE_SHA256_MISMATCH"⟩
        else ⟨.received, none⟩
    | _, _ => ⟨.received, none⟩

section evaluation

variable {base : Option Text} {observations : List FileObservation}

theorem evaluateFiles_status_ne_uploading :
    (evaluateFiles base observations).status ≠ .uploading := by
  unfold evaluateFiles
  grind

/-- The evaluation meets the result-state constraint. -/
theorem evaluateFiles_resultState (base : Option Text) (observations : List FileObservation) :
    ((evaluateFiles base observations).status ∈ [ImportStatus.scanning, .received] ∧
        (evaluateFiles base observations).resultCode = none) ∨
      ((evaluateFiles base observations).status ∈ [ImportStatus.rejected, .conflict] ∧
        (evaluateFiles base observations).resultCode ≠ none) := by
  unfold evaluateFiles
  grind

/-- The result codes that the API can show. -/
def resultCodes : List String :=
  ["ATTACHMENT_INFECTED", "ATTACHMENT_SCAN_FAILED", "BASE_SHA256_MISMATCH"]

theorem evaluateFiles_resultCode {code : String}
    (h : (evaluateFiles base observations).resultCode = some code) : code ∈ resultCodes := by
  unfold evaluateFiles at h
  simp only [resultCodes, List.mem_cons, List.not_mem_nil, or_false]
  grind

/-- The verdict is open while some file is neither clean nor lost. -/
theorem evaluateFiles_eq_scanning
    (h : (evaluateFiles base observations).status = .scanning) :
    observations = [] ∨ ∃ o ∈ observations, o.state.terminal = false := by
  simp only [evaluateFiles, List.mem_map] at h
  split at h
  · cases h
  · rename_i hinf
    split at h
    · cases h
    · rename_i hfail
      split at h
      · rename_i hopen
        rcases hopen with hnil | ⟨st, hst, hne⟩
        · exact .inl hnil
        obtain ⟨o, ho, rfl⟩ := List.mem_map.mp hst
        refine .inr ⟨o, ho, ?_⟩
        cases hstate : o.state with
        | clean => exact absurd hstate hne
        | infected => exact absurd ⟨o, ho, hstate⟩ hinf
        | failed => exact absurd ⟨o, ho, hstate⟩ hfail
        | uploading => rfl
        | quarantined => rfl
        | scanning => rfl
      · split at h
        · split at h <;> cases h
        · cases h

end evaluation

end SuperBoss.Imports
