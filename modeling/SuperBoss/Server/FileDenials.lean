import SuperBoss.Server.FileLifecycle

/-!
What the file operations tell an actor who may not use them. Presigning a part
looks at the state of the file before it asks whether the actor may.
-/

namespace SuperBoss.Server

open SuperBoss.Core
open SuperBoss.Library
open SuperBoss.Library.Interleaving
open SuperBoss.Library.Transition
open SuperBoss.Files

/-! ### Operations on a file -/

/-- The operations of the file service on a file that is there. -/
inductive FileOperation
  | presignPart (uploadId : UUID) (partNumber : Int)
  | completeUpload (uploadId : UUID) (parts : List CompletedPart) (requestId : Option UUID)
  | presignDownload (fileId : UUID)
  | presignImportPart (uploadId : UUID) (partNumber : Int)
  | completeImportUpload (uploadId : UUID) (parts : List CompletedPart) (requestId : Option UUID)
  deriving DecidableEq

/-- What an action makes known: what it raised, if it did, and its write. A URL
is presigned by an action that raises nothing. -/
structure Reply where
  raised : Option Failure
  write : Write
  deriving DecidableEq

def Outcome.reply {Pc Result : Type} (o : Outcome Pc Result) : Reply where
  raised :=
    match o.progress with
    | .raised e => some e
    | _ => none
  write := o.write

namespace FileOperation

def fileId : FileOperation → UUID
  | presignPart id _ | completeUpload id _ _ | presignDownload id | presignImportPart id _
  | completeImportUpload id _ _ => id

/-- The check of the operation on the project of the file. -/
def authorize (actor : Actor) (projectId : UUID) : FileOperation → Except DomainError Unit
  | presignPart _ _ | completeUpload _ _ _ => authorizeUploadOperation actor projectId false
  | presignImportPart _ _ | completeImportUpload _ _ _ =>
      authorizeUploadOperation actor projectId true
  | presignDownload _ => requireProjectAccess actor projectId

/-- The action of an operation that reads the file. An attachment's operation has
resolved its upload by then. -/
def reply (actor : Actor) (a : Answer) (s : Store) : FileOperation → Option Reply
  | presignPart id n =>
      ((⟨.upload id, actor, n, none⟩ : PresignCall).step a s (.lock id)).map Outcome.reply
  | completeUpload id parts requestId =>
      ((⟨.upload id, actor, parts, requestId⟩ : CompleteCall).step a s (.lock id)).map
        Outcome.reply
  | presignDownload id =>
      ((⟨actor, id⟩ : DownloadCall).step a s .read).map Outcome.reply
  | presignImportPart id n =>
      ((⟨.attachment id id, actor, n, none⟩ : PresignCall).step a s (.lock id)).map Outcome.reply
  | completeImportUpload id parts requestId =>
      ((⟨.attachment id id, actor, parts, requestId⟩ : CompleteCall).step a s (.lock id)).map
        Outcome.reply

/-- The operation presigns a part with a valid number. -/
def presigns : FileOperation → Bool
  | presignPart _ n | presignImportPart _ n => 1 ≤ n && n ≤ 10000
  | _ => false

end FileOperation

/-! ### States that an actor must not tell apart -/

/-- The file with another state, multipart id and scan result. -/
def File.turned (state : FileState) (multipartId scanResult : Option Text) (f : File) : File :=
  { f with state, multipartId, scanResult }

theorem File.turned_keeps (state : FileState) (multipartId scanResult : Option Text) :
    Table.Keeps File.id File.Distinct (File.turned state multipartId scanResult) :=
  ⟨fun _ => rfl, fun h => ⟨h, h⟩⟩

/-- The store with that file in the place of the one it has. -/
def Store.turned (s : Store) (id : UUID) (state : FileState)
    (multipartId scanResult : Option Text) : Store :=
  { s with
    files := s.files.modify id (File.turned state multipartId scanResult)
      (File.turned_keeps state multipartId scanResult) }

/-- An operation replies with one error in both stores, and calls no storage. -/
structure SameDenial (op : FileOperation) (actor : Actor) (a : Answer) (s s' : Store) : Prop where
  denied : ∃ e, op.reply actor a s = some ⟨some e, .nothing⟩
  same : op.reply actor a s' = op.reply actor a s

section denials

variable {op : FileOperation} {actor : Actor} {a : Answer} {s s' : Store} {f : File}

theorem Store.get?_turned {id : UUID} {state : FileState} {multipartId scanResult : Option Text}
    (h : s.files.get? id = some f) :
    (s.turned id state multipartId scanResult).files.get? id =
      some (File.turned state multipartId scanResult f) := by
  show (s.files.modify id (File.turned state multipartId scanResult)
    (File.turned_keeps state multipartId scanResult)).get? id = _
  exact Table.get?_modify_self h

theorem reply_read {Pc Result : Type} {fate : Fate} {o : Outcome Pc Result} :
    (Outcome.read fate o).reply = if fate = .ok then o.reply else ⟨some .unexpected, .nothing⟩ := by
  unfold Outcome.read
  split <;> rfl

/-- What a denied actor is told. -/
def denial (op : FileOperation) (a : Answer) (f : File) (e : DomainError) : Failure :=
  match op with
  | .presignPart _ n | .presignImportPart _ n =>
      if !(1 ≤ n && n ≤ 10000) then .value "invalid part number"
      else if a.fate ≠ .ok then .unexpected
      else if f.state ≠ .uploading then .domain uploadNotActive
      else .domain e
  | _ => if a.fate ≠ .ok then .unexpected else .domain e

theorem presign_denied {c : PresignCall} {id : UUID} {e : DomainError}
    (hget : s.files.get? id = some f)
    (h : authorizeUploadOperation c.actor f.projectId c.target.importing = .error e) :
    (c.step a s (.lock id)).map Outcome.reply =
      some ⟨some (if !(1 ≤ c.partNumber && c.partNumber ≤ 10000) then
          .value "invalid part number"
        else if a.fate ≠ .ok then .unexpected
        else if f.state ≠ .uploading then .domain uploadNotActive else .domain e), .nothing⟩ := by
  simp only [PresignCall.step, hget, h, Option.map_some]
  congr 1
  split
  · rfl
  · rw [reply_read]
    by_cases hfate : a.fate = .ok
    · rw [if_pos hfate, if_neg (not_not.mpr hfate)]
      split <;> rfl
    · rw [if_neg hfate, if_pos hfate]

theorem complete_denied {c : CompleteCall} {id : UUID} {e : DomainError}
    (hget : s.files.get? id = some f)
    (h : authorizeUploadOperation c.actor f.projectId c.target.importing = .error e) :
    (c.step a s (.lock id)).map Outcome.reply =
      some ⟨some (if a.fate ≠ .ok then .unexpected else .domain e), .nothing⟩ := by
  simp only [CompleteCall.step, hget, h, Option.map_some]
  congr 1
  rw [reply_read]
  by_cases hfate : a.fate = .ok
  · rw [if_pos hfate, if_neg (not_not.mpr hfate)]
    rfl
  · rw [if_neg hfate, if_pos hfate]

theorem download_denied {c : DownloadCall} {e : DomainError}
    (hget : s.files.get? c.fileId = some f)
    (h : requireProjectAccess c.actor f.projectId = .error e) :
    (c.step a s .read).map Outcome.reply =
      some ⟨some (if a.fate ≠ .ok then .unexpected else .domain e), .nothing⟩ := by
  simp only [DownloadCall.step, hget, h, Option.map_some]
  congr 1
  rw [reply_read]
  by_cases hfate : a.fate = .ok
  · rw [if_pos hfate, if_neg (not_not.mpr hfate)]
    rfl
  · rw [if_neg hfate, if_pos hfate]

/-- The reply to a denied actor, for each operation. -/
theorem reply_denied {e : DomainError} (hget : s.files.get? op.fileId = some f)
    (h : op.authorize actor f.projectId = .error e) :
    op.reply actor a s = some ⟨some (denial op a f e), .nothing⟩ := by
  cases op with
  | presignPart id n => exact presign_denied (c := ⟨.upload id, actor, n, none⟩) hget h
  | presignImportPart id n =>
      exact presign_denied (c := ⟨.attachment id id, actor, n, none⟩) hget h
  | completeUpload id parts requestId =>
      exact complete_denied (c := ⟨.upload id, actor, parts, requestId⟩) hget h
  | completeImportUpload id parts requestId =>
      exact complete_denied (c := ⟨.attachment id id, actor, parts, requestId⟩) hget h
  | presignDownload id => exact download_denied (c := ⟨actor, id⟩) hget h

theorem ne_uploadNotActive {projectId : UUID} {e : DomainError}
    (h : op.authorize actor projectId = .error e) : e ≠ uploadNotActive := by
  have haccess : ∀ {e}, requireProjectAccess actor projectId = .error e → e ≠ uploadNotActive := by
    intro e h
    simp only [requireProjectAccess] at h
    split at h
    · cases h
      decide
    · split at h
      · cases h
      · split at h
        · cases h
        · cases h
          decide
  have hupload : ∀ {importing e}, authorizeUploadOperation actor projectId importing = .error e →
      e ≠ uploadNotActive := by
    intro importing e h
    unfold authorizeUploadOperation at h
    split at h
    · exact haccess h
    · split at h
      · cases h
      · cases h
        decide
  cases op with
  | presignPart | completeUpload | presignImportPart | completeImportUpload => exact hupload h
  | presignDownload => exact haccess h

theorem denial_eq_iff {f' : File} {e : DomainError} (he : e ≠ uploadNotActive) :
    denial op a f' e = denial op a f e ↔
      (op.presigns = true → a.fate = .ok → (f.state = .uploading ↔ f'.state = .uploading)) := by
  have hpresign : ∀ n : Int,
      ((if !(1 ≤ n && n ≤ 10000) then .value "invalid part number"
        else if a.fate ≠ .ok then .unexpected
        else if f'.state ≠ .uploading then .domain uploadNotActive else .domain e : Failure) =
      (if !(1 ≤ n && n ≤ 10000) then .value "invalid part number"
        else if a.fate ≠ .ok then .unexpected
        else if f.state ≠ .uploading then .domain uploadNotActive else .domain e : Failure)) ↔
      ((1 ≤ n && n ≤ 10000) = true → a.fate = .ok →
        (f.state = .uploading ↔ f'.state = .uploading)) := by
    intro n
    by_cases hn : (1 ≤ n && n ≤ 10000) = true
    · by_cases hfate : a.fate = .ok
      · by_cases hf : f.state = .uploading
        · by_cases hf' : f'.state = .uploading
          · simp [hn, hfate, hf, hf']
          · simp [hn, hfate, hf, hf', he.symm]
        · by_cases hf' : f'.state = .uploading
          · simp [hn, hfate, hf, hf', he]
          · simp [hn, hfate, hf, hf']
      · simp [hn, hfate]
    · simp [hn]
  cases op with
  | presignPart id n => exact hpresign n
  | presignImportPart id n => exact hpresign n
  | completeUpload | presignDownload | completeImportUpload =>
      exact ⟨fun _ h => (by cases h), fun _ => rfl⟩

end denials

/-- A denied actor cannot tell two states of a file apart, unless it presigns a
part and just one of them is `UPLOADING`. -/
theorem denial_hides_iff {op : FileOperation} {actor : Actor} {a : Answer} {s : Store} {f : File}
    {state : FileState} {multipartId scanResult : Option Text}
    (hget : s.files.get? op.fileId = some f)
    (hdenied : op.authorize actor f.projectId ≠ .ok ()) :
    SameDenial op actor a s (s.turned op.fileId state multipartId scanResult) ↔
      (op.presigns = true → a.fate = .ok → (f.state = .uploading ↔ state = .uploading)) := by
  obtain ⟨e, herror⟩ : ∃ e, op.authorize actor f.projectId = .error e := by
    cases h : op.authorize actor f.projectId with
    | ok _ => exact absurd h hdenied
    | error e => exact ⟨e, rfl⟩
  have hreply := reply_denied (a := a) hget herror
  have hturned : (s.turned op.fileId state multipartId scanResult).files.get? op.fileId =
      some (File.turned state multipartId scanResult f) := Store.get?_turned hget
  have hreply' := reply_denied (a := a) hturned herror
  have hiff : denial op a (File.turned state multipartId scanResult f) e = denial op a f e ↔
      (op.presigns = true → a.fate = .ok → (f.state = .uploading ↔ state = .uploading)) :=
    denial_eq_iff (ne_uploadNotActive herror)
  constructor
  · rintro ⟨-, hsame⟩
    rw [hreply, hreply'] at hsame
    refine hiff.mp ?_
    injection hsame with hsame
    injection hsame with hsame
    exact Option.some.inj hsame
  · intro h
    exact ⟨⟨_, hreply⟩, by rw [hreply, hreply', hiff.mpr h]⟩

/-! ### A foreign actor and two states -/

namespace Sample

/-- A member of the staff without projects. -/
def stranger : Actor := ⟨.user, 9, some .staff, [], []⟩

/-- The sample file, as it was started. -/
def uploadingStore : Store :=
  (Store.empty [1]).write (.insertFile (upload.newFile platform digest 10 0))

end Sample

theorem denial_hides_completion :
    SameDenial (.completeUpload 10 [] none) Sample.stranger Sample.answer Sample.uploadingStore
      (Sample.uploadingStore.turned 10 .quarantined (some (Text.ofString "m")) none) := by
  have hget : Sample.uploadingStore.files.get? 10 =
      some (Sample.upload.newFile Sample.platform Sample.digest 10 0) := by
    decide +kernel
  have hget' : Sample.uploadingStore.files.get?
      (FileOperation.fileId (.completeUpload 10 [] none)) = _ := hget
  exact (denial_hides_iff hget' (by decide)).mpr fun h => by cases h

/-- Presigning a part tells a foreign actor whether the file is still uploading. -/
theorem presign_discloses :
    ¬∀ (op : FileOperation) (actor : Actor) (a : Answer) (s : Store) (f : File)
      (state : FileState) (multipartId scanResult : Option Text),
      s.files.get? op.fileId = some f → op.authorize actor f.projectId ≠ .ok () →
        SameDenial op actor a s (s.turned op.fileId state multipartId scanResult) := by
  intro h
  have hget : Sample.uploadingStore.files.get? 10 =
      some (Sample.upload.newFile Sample.platform Sample.digest 10 0) := by
    decide +kernel
  have hsame := (h (.presignPart 10 1) Sample.stranger Sample.answer Sample.uploadingStore _
    .quarantined (some (Text.ofString "m")) none hget (by decide)).same
  have hdiffer : (FileOperation.presignPart 10 1).reply Sample.stranger Sample.answer
      (Sample.uploadingStore.turned 10 .quarantined (some (Text.ofString "m")) none) ≠
      (FileOperation.presignPart 10 1).reply Sample.stranger Sample.answer Sample.uploadingStore := by
    decide +kernel
  exact hdiffer hsame

end SuperBoss.Server
