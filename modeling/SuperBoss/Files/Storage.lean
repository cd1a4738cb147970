import SuperBoss.Core.Values
import Mathlib.Data.List.Lex

/-!
The object storage: open multipart uploads, the upload ids issued so far and
the finished objects. Completing or aborting an upload closes its id for good.
-/

namespace SuperBoss.Files

open SuperBoss.Core

instance : LawfulBEq (Text × Text) := inferInstance

/-- How an external effect ends: done and acknowledged, done without the caller
learning it, or not done. -/
inductive Fate
  | ok
  | lost
  | error
  deriving DecidableEq

def Fate.applied : Fate → Bool
  | .ok | .lost => true
  | .error => false

structure Storage where
  /-- Open multipart uploads, as object key and upload id. -/
  uploads : List (Text × Text)
  issued : List Text
  objects : List (Text × Bytes)

namespace Storage

def empty : Storage := ⟨[], [], []⟩

def object? (s : Storage) (key : Text) : Option Bytes :=
  (s.objects.find? fun o => decide (o.1 = key)).map Prod.snd

/-- `list_multipart_uploads`: the sorted ids of the open uploads of a key. -/
def listMultipartUploads (s : Storage) (key : Text) : List Text :=
  ((s.uploads.filter fun u => decide (u.1 = key)).map Prod.snd).insertionSort (· ≤ ·)

end Storage

inductive StorageCall
  | createMultipart (key multipartId : Text)
  | abortMultipart (key multipartId : Text)
  /-- `content` is what the uploaded parts add up to. -/
  | completeMultipart (key multipartId : Text) (content : Bytes)
  | deleteObject (key : Text)
  deriving DecidableEq

namespace Storage

def closeUpload (s : Storage) (key multipartId : Text) : Storage :=
  { s with uploads := s.uploads.filter fun u => decide (u ≠ (key, multipartId)) }

def removeObject (s : Storage) (key : Text) : Storage :=
  { s with objects := s.objects.filter fun o => decide (o.1 ≠ key) }

def perform (s : Storage) : StorageCall → Storage
  | .createMultipart key multipartId =>
      { s with
        uploads := s.uploads ++ [(key, multipartId)]
        issued := s.issued ++ [multipartId] }
  | .abortMultipart key multipartId => s.closeUpload key multipartId
  | .completeMultipart key multipartId content =>
      if (key, multipartId) ∈ s.uploads then
        let s := (s.closeUpload key multipartId).removeObject key
        { s with objects := (key, content) :: s.objects }
      else s
  | .deleteObject key => s.removeObject key

variable (s : Storage)

theorem mem_listMultipartUploads {key m : Text} :
    m ∈ s.listMultipartUploads key ↔ (key, m) ∈ s.uploads := by
  simp only [listMultipartUploads, List.mem_insertionSort, List.mem_map, List.mem_filter,
    decide_eq_true_eq, Prod.exists]
  constructor
  · rintro ⟨k, n, ⟨hmem, rfl⟩, rfl⟩
    exact hmem
  · intro h
    exact ⟨key, m, ⟨h, rfl⟩, rfl⟩

theorem mem_uploads_perform {call : StorageCall} {u : Text × Text}
    (h : u ∈ (s.perform call).uploads) :
    u ∈ s.uploads ∨ ∃ key multipartId, call = .createMultipart key multipartId ∧
      u = (key, multipartId) := by
  cases call with
  | createMultipart key multipartId =>
      rcases List.mem_append.mp h with h | h
      · exact .inl h
      · exact .inr ⟨key, multipartId, rfl, List.mem_singleton.mp h⟩
  | abortMultipart key multipartId => exact .inl (List.mem_of_mem_filter h)
  | completeMultipart key multipartId content =>
      simp only [perform] at h
      split at h
      · exact .inl (List.mem_of_mem_filter h)
      · exact .inl h
  | deleteObject key => exact .inl h

theorem issued_subset_perform (call : StorageCall) : s.issued ⊆ (s.perform call).issued := by
  cases call with
  | createMultipart key multipartId => exact List.subset_append_left _ _
  | abortMultipart key multipartId => exact List.Subset.refl _
  | completeMultipart key multipartId content =>
      simp only [perform]
      split
      · exact List.Subset.refl _
      · exact List.Subset.refl _
  | deleteObject key => exact List.Subset.refl _

end Storage

end SuperBoss.Files
