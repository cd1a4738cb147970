import SuperBoss.Core.Platform
import SuperBoss.Server.Outline

/-!
The lifecycle of file rows over whole runs: which states follow each other, who
writes a verdict, and which objects may be deleted.
-/

namespace SuperBoss.Server

open SuperBoss.Core
open SuperBoss.Library
open SuperBoss.Library.Interleaving
open SuperBoss.Library.Transition
open SuperBoss.Files
open SuperBoss.Imports
open SuperBoss.Infrastructure.Clamav

section lifecycle

variable {P : Platform} {cfg : ScannerConfig} {s t u : SystemState P} {e : SystemEvent P}

/-! ### One step -/

/-- A file row after one step: as it was, new, or moved on. -/
theorem Happens.file_cases (h : Happens cfg s e t) {id : UUID} {f' : File}
    (hget : t.store.files.get? id = some f') :
    (s.store.files.get? id = none ∧ f'.state = .uploading) ∨
      ∃ f, s.store.files.get? id = some f ∧ (f'.state = f.state ∨ f.state.Move f'.state) := by
  cases h with
  | spawn | crash => exact .inr ⟨f', hget, .inl rfl⟩
  | act hthread hfree hact hwrite hsound =>
      rcases hsound.effect.file_cases hwrite hget with
        hsame | ⟨hnone, -, hstate, -⟩ | ⟨f, v, row, hf, -, hmove, rfl⟩
      · exact .inr ⟨f', hsame, .inl rfl⟩
      · exact .inl ⟨hnone, hstate⟩
      · refine .inr ⟨f, hf, ?_⟩
        cases hmove with
        | provision => exact .inl rfl
        | settle hmove => exact .inr hmove

theorem Consistent.file_step (hs : Consistent cfg s) (h : next P cfg s e = some t) {id : UUID}
    {f : File} (hget : s.store.files.get? id = some f) :
    ∃ f', t.store.files.get? id = some f' ∧ (f'.state = f.state ∨ f.state.Move f'.state) := by
  have hhappens := hs.happens h
  obtain ⟨f', hget', -⟩ := hhappens.evolves.files hget
  rcases hhappens.file_cases hget' with ⟨hnone, -⟩ | ⟨g, hg, hmove⟩
  · rw [hget] at hnone
    cases hnone
  · obtain rfl : f = g := Option.some.inj (hget.symm.trans hg)
    exact ⟨f', hget', hmove⟩

theorem Consistent.file_terminal (hs : Consistent cfg s) (h : Reachable (next P cfg) s t)
    {id : UUID} {f : File} (hget : s.store.files.get? id = some f)
    (hterminal : f.state.terminal = true) :
    ∃ f', t.store.files.get? id = some f' ∧ f'.state = f.state := by
  obtain ⟨f', hget', hle⟩ := (hs.evolves h).files hget
  exact ⟨f', hget', hle.state.eq_of_terminal hterminal⟩

/-! ### Verdicts and deletions -/

/-- The event is a scan attempt's write of a verdict. -/
def WritesVerdict (cfg : ScannerConfig) (s : SystemState P) (e : SystemEvent P)
    (fileId : UUID) : Prop :=
  ∃ (i : Nat) (a : Answer) (p : Progress ScanPc Unit) (t' : Thread P) (v : FileUpdate)
    (row : Option AuditLog) (st : FileState),
    e = .act i a ∧ s.threads[i]? = some (.scanFile fileId p) ∧
      (Thread.scanFile fileId p).act cfg a s.store = some (t', .updateFile fileId v row) ∧
      v.state = some st ∧ st.terminal = true

/-- The key that the thread's next action asks the storage to delete. -/
def Thread.nextDelete : Thread P → Option Text
  | completeUpload _ (.running (.discard key)) => some key
  | scanFile _ (.running (.discard key)) => some key
  | recoverStaleUploads _ (.running (.delete f _ _)) => some f.objectKey
  | _ => none

/-- The next action of a thread asks the storage to delete an object. The
request itself may fail. -/
def Thread.Deletes (cfg : ScannerConfig) (s : Store) (t : Thread P) (key : Text) : Prop :=
  t.nextDelete = some key ∨ ∃ a t', t.act cfg a s = some (t', .call (.deleteObject key))

theorem Thread.Ok.discarded_of_nextDelete {s : Store} {t : Thread P} {key : Text} (h : t.Ok s)
    (hkey : t.nextDelete = some key) : Discarded s key := by
  unfold nextDelete at hkey
  split at hkey
  · obtain rfl := Option.some.inj hkey
    exact h
  · obtain rfl := Option.some.inj hkey
    exact h
  · obtain rfl := Option.some.inj hkey
    exact h
  · cases hkey

theorem Consistent.discarded (hs : Consistent cfg s) {i : Nat} {v : Thread P} {key : Text}
    (hthread : s.threads[i]? = some v) (h : v.Deletes cfg s.store key) :
    Discarded s.store key := by
  rcases h with hkey | ⟨a, v', hact⟩
  · exact (hs.ok hthread).discarded_of_nextDelete hkey
  · cases (Thread.sound hs.wellFormed (hs.ok hthread) hact).effect with
    | deleteObject h => exact h

/-- Object keys are unique, so a discarded object belongs to no other file. -/
theorem Discarded.state_of_objectKey {s : Store} {key : Text} (h : Discarded s key) {id : UUID}
    {f : File} (hget : s.files.get? id = some f) (hkey : f.objectKey = key) :
    f.state = .infected ∨ f.state = .failed := by
  obtain ⟨id', g, hg, hgkey, hstate⟩ := h
  have hsame : f = g := Table.eq_of_not_distinct (Table.mem_of_get? hget) (Table.mem_of_get? hg)
    (fun hdistinct => hdistinct.2 (hkey.trans hgkey.symm))
    (fun hdistinct => hdistinct.2 (hgkey.trans hkey.symm))
  exact hsame ▸ hstate

/-- After a verdict the row of its file is never written again. -/
theorem Consistent.no_second_verdict (hs : Consistent cfg s) (h : next P cfg s e = some t)
    {fileId : UUID} (hverdict : WritesVerdict cfg s e fileId)
    (hreach : Reachable (next P cfg) t u) {e' : SystemEvent P} :
    ¬WritesVerdict cfg u e' fileId := by
  obtain ⟨i, a, p, t', v, row, st, rfl, hthread, hact, hst, hterminal⟩ := hverdict
  rintro ⟨j, b, q, u', v', row', st', -, hthread', hact', hst', -⟩
  have hu : Consistent cfg u := (hs.step h).reachable hreach
  cases hs.happens h with
  | act hget hfree hact₀ hwrite hsound =>
      obtain rfl := Option.some.inj (hthread.symm.trans hget)
      obtain ⟨rfl, rfl⟩ := Prod.mk.inj (Option.some.inj (hact.symm.trans hact₀))
      cases hsound.effect with
      | @updateFile _ f _ _ hf hmove hissued hrow =>
          have hf' := Store.get?_updateFile hwrite hf
          have hstate : (v.apply f).state = st := by
            rw [FileUpdate.apply_state, hst]
            rfl
          obtain ⟨g, hg, hsame⟩ := (hs.step h).file_terminal hreach hf' (hstate ▸ hterminal)
          cases (Thread.sound hu.wellFormed (hu.ok hthread') hact').effect with
          | updateFile hg' hmove' hissued' hrow' =>
              obtain rfl := Option.some.inj (hg.symm.trans hg')
              have hgterminal : g.state.terminal = true := by rw [hsame, hstate, hterminal]
              cases hmove' with
              | provision => cases hst'
              | settle hmove' =>
                  rw [hmove'.not_terminal] at hgterminal
                  cases hgterminal

end lifecycle

/-! ### A sample run -/

namespace Sample

/-- SHA-256 of `abc`. -/
def digest : Text :=
  Text.ofString "ba7816bf8f01cfea414140de5dae2223b00361a396177a9cb410ff61f20015ad"

def content : Bytes := ascii "abc"

/-- SHA-256 on the bytes that the sample runs hash. -/
def sha256 (b : Bytes) : Text :=
  if b = content then digest
  else Text.ofString "f2d756e9777426a7a679ed15c4cf43b2aa5b091748fe19c92a36ea1ac305cb7d"

def platform : Platform :=
  asciiPlatform sha256 (fun t => BitVec.ofNat 128 t.length) 0
    (Text.ofString "1970-01-01T00:00:00Z") (by decide)

def scanner : ScannerConfig := ⟨64 * 1024, 25 * 1024 * 1024, 512, by decide, by decide, by decide⟩

def owner : Actor := ⟨.user, 7, some .owner, [], []⟩

def upload : StartCall where
  actor := owner
  command := ⟨1, Text.ofString "scan.bin", 3, digest, Text.ofString "K3", 19782,
    Text.ofString "text/plain", by decide, by decide, by decide, by decide, by decide,
    by decide⟩
  idempotencyKey := Text.ofString "upload-key-00000001"
  importing := false

/-- Everything works, and clamd finds nothing. -/
def answer : Answer where
  fate := .ok
  head := true
  now := 0
  uuid := 10
  attachmentIds := []
  auditId := 0
  multipartId := Text.ofString "m"
  content := content
  chunks := [content]
  received := ascii "stream: OK" ++ [0]
  patience := none
  redelivered := false

def completion : CompleteCall := ⟨.upload 10, owner, [⟨1, Text.ofString "etag"⟩], none⟩

/-- An upload and its completion. -/
def uploaded : List (SystemEvent platform) :=
  .spawn (.startUpload upload (.running .select)) :: List.replicate 6 (.act 0 answer) ++
    .spawn (.completeUpload completion (.running completion.begin)) ::
      List.replicate 4 (.act 1 answer)

/-- The scan that follows. -/
def scanned : List (SystemEvent platform) :=
  .spawn (.scanFile 10 (.running .receive)) :: List.replicate 5 (.act 2 answer)

end Sample

/-! ### The lifecycle -/

/-- The lifecycle of every file in every run: states only move along
`FileState.Move`, new files are `UPLOADING`, terminal states stay, a verdict is
written at most once, and no action deletes the object of a file that is
`QUARANTINED`, `SCANNING` or `CLEAN`. -/
theorem file_lifecycle (P : Platform) (cfg : ScannerConfig) (projects : List UUID)
    {s : SystemState P} (hs : Reachable (next P cfg) (initialState P projects) s) :
    (∀ {e t id f}, next P cfg s e = some t → s.store.files.get? id = some f →
      ∃ f', t.store.files.get? id = some f' ∧ (f'.state = f.state ∨ f.state.Move f'.state)) ∧
    (∀ {e t id f}, next P cfg s e = some t → s.store.files.get? id = none →
      t.store.files.get? id = some f → f.state = .uploading) ∧
    (∀ {t id f}, Reachable (next P cfg) s t → s.store.files.get? id = some f →
      f.state.terminal = true → ∃ f', t.store.files.get? id = some f' ∧ f'.state = f.state) ∧
    (∀ {e t u fileId e'}, next P cfg s e = some t → WritesVerdict cfg s e fileId →
      Reachable (next P cfg) t u → ¬WritesVerdict cfg u e' fileId) ∧
    ∀ {i : Nat} {t key id f}, s.threads[i]? = some t → t.Deletes cfg s.store key →
      s.store.files.get? id = some f → f.objectKey = key →
        f.state ∉ [FileState.quarantined, .scanning, .clean] := by
  have hcon : Consistent cfg s := consistent_of_reachable hs
  refine ⟨fun hnext => hcon.file_step hnext, fun hnext hnone hget => ?_,
    fun hreach => hcon.file_terminal hreach,
    fun hnext hverdict hreach => hcon.no_second_verdict hnext hverdict hreach,
    fun hthread hdeletes hget hkey => ?_⟩
  · rcases (hcon.happens hnext).file_cases hget with ⟨-, hstate⟩ | ⟨f, hf, -⟩
    · exact hstate
    · rw [hnone] at hf
      cases hf
  · rcases (hcon.discarded hthread hdeletes).state_of_objectKey hget hkey with hstate | hstate <;>
      rw [hstate] <;> decide

/-- A clean file stays clean whatever happens next. -/
theorem file_lifecycle_scanned :
    ∃ s, run (next Sample.platform Sample.scanner) (initialState Sample.platform [1])
        (Sample.uploaded ++ Sample.scanned) = some s ∧
      (∃ f, s.store.files.get? 10 = some f ∧ f.state = .clean) ∧
      ∀ t, Reachable (next Sample.platform Sample.scanner) s t →
        ∃ f, t.store.files.get? 10 = some f ∧ f.state = .clean := by
  have hrun : ((run (next Sample.platform Sample.scanner) (initialState Sample.platform [1])
      (Sample.uploaded ++ Sample.scanned)).bind fun s =>
        (s.store.files.get? 10).map (·.state)) = some .clean := by decide +kernel
  obtain ⟨s, hs, hstate⟩ := Option.bind_eq_some_iff.mp hrun
  obtain ⟨f, hf, hclean⟩ := Option.map_eq_some_iff.mp hstate
  refine ⟨s, hs, ⟨f, hf, hclean⟩, fun t ht => ?_⟩
  obtain ⟨f', hf', hsame⟩ := (file_lifecycle _ _ [1] ⟨_, hs⟩).2.2.1 ht hf (by rw [hclean]; rfl)
  exact ⟨f', hf', hsame.trans hclean⟩

end SuperBoss.Server
