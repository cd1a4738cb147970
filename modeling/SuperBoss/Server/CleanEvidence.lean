import SuperBoss.Server.FileLifecycle
import SuperBoss.Server.Updates

/-!
What a `CLEAN` file has behind it: one scan attempt of the run that read the
stored object to its end, sent all of it to clamd, found the declared digest
and got the clean reply.
-/

namespace SuperBoss.Server

open SuperBoss.Core
open SuperBoss.Library
open SuperBoss.Library.Interleaving
open SuperBoss.Library.Transition
open SuperBoss.Files
open SuperBoss.Imports
open SuperBoss.Infrastructure.Clamav

/-! ### One attempt -/

/-- A scan of the object of `f` that nothing cut short: the chunks are the
whole object, the conversation carried all of it, the digest is the declared
one, and the reply is the clean reply. -/
structure CleanScan (P : Platform) (cfg : ScannerConfig) (s : Store) (f : File) (a : Answer)
    (content : Bytes) (session : Session) : Prop where
  object : s.storage.object? f.objectKey = some content
  body : a.chunks.flatten = content
  returned : scan cfg (some a.chunks) a.received a.patience = .ok (session, .clean)
  streamed : session.streamed = content
  sent : Instream session.written content
  digest : P.sha256 content = f.sha256
  reply : readReply cfg a.received = some clearReply

theorem eq_clean_of_scanVerdict {P : Platform} {sha : Text}
    {r : Except Session (Session × ScanVerdict)} (h : (scanVerdict P sha r).1 = .clean) :
    ∃ session, r = .ok (session, .clean) ∧ P.sha256 session.streamed = sha := by
  unfold scanVerdict at h
  split at h
  · cases h
  · rename_i session verdict
    split at h
    · cases h
    · rename_i hdigest
      split at h
      · exact ⟨session, rfl, not_not.mp hdigest⟩
      · cases h

theorem cleanScan_of_scanVerdict {P : Platform} {cfg : ScannerConfig} {s : Store} {f : File}
    {a : Answer}
    (hbody : (s.storage.object? f.objectKey).all fun content => isBody content a.chunks)
    (h : (scanVerdict P f.sha256 (scanObject cfg s f a)).1 = .clean) :
    ∃ content session, CleanScan P cfg s f a content session := by
  obtain ⟨session, hscan, hdigest⟩ := eq_clean_of_scanVerdict h
  obtain ⟨chunks, hchunks, hstreamed, hsent, reply, hreply, hparse⟩ := scan_ok hscan
  obtain ⟨content, hobject, rfl⟩ := Option.map_eq_some_iff.mp hchunks
  rw [hobject, Option.all_some, isBody, Bool.and_eq_true, decide_eq_true_eq] at hbody
  obtain rfl := parseResponse_clean hparse
  rw [scanObject, streamObject, hobject] at hscan
  rw [hbody.1] at hstreamed hsent
  exact ⟨content, session, hobject, hbody.1, hscan, hstreamed, hsent, hstreamed ▸ hdigest, hreply⟩

/-! ### Evidence in a run -/

section history

variable (P : Platform) (cfg : ScannerConfig) (projects : List UUID)

/-- In the run `es` the scan attempt `i` scanned the object of `f`, with
nothing found. -/
def ScannedIn (es : List (SystemEvent P)) (i : Nat) (id : UUID) (f : File) : Prop :=
  ∃ es₁ a es₂ s, es = es₁ ++ .act i a :: es₂ ∧
    run (next P cfg) (initialState P projects) es₁ = some s ∧
    s.threads[i]? = some (.scanFile id (.running (.stream f))) ∧
    ∃ content session, CleanScan P cfg s.store f a content session

/-- In the run `es` a scan attempt found nothing in the object of the file, and
then wrote `CLEAN`. -/
def CleanedIn (es : List (SystemEvent P)) (id : UUID) (f : File) : Prop :=
  ∃ es₁ i a es₂ s file result, es = es₁ ++ .act i a :: es₂ ∧
    run (next P cfg) (initialState P projects) es₁ = some s ∧
    s.threads[i]? = some (.scanFile id (.running (.verdict file .clean result))) ∧
    ScannedIn P cfg projects es₁ i id file ∧
    file.objectKey = f.objectKey ∧ file.sha256 = f.sha256

variable {P cfg projects}

theorem ScannedIn.append {es fs : List (SystemEvent P)} {i : Nat} {id : UUID} {f : File}
    (h : ScannedIn P cfg projects es i id f) : ScannedIn P cfg projects (es ++ fs) i id f := by
  obtain ⟨es₁, a, es₂, s, rfl, hrun, hthread, hscan⟩ := h
  exact ⟨es₁, a, es₂ ++ fs, s, by rw [List.append_assoc, List.cons_append], hrun, hthread, hscan⟩

theorem CleanedIn.append {es fs : List (SystemEvent P)} {id : UUID} {f : File}
    (h : CleanedIn P cfg projects es id f) : CleanedIn P cfg projects (es ++ fs) id f := by
  obtain ⟨es₁, i, a, es₂, s, file, result, rfl, hrest⟩ := h
  exact ⟨es₁, i, a, es₂ ++ fs, s, file, result, by rw [List.append_assoc, List.cons_append], hrest⟩

theorem CleanedIn.of_identity {es : List (SystemEvent P)} {id : UUID} {f f' : File}
    (h : CleanedIn P cfg projects es id f) (hid : f'.identity = f.identity) :
    CleanedIn P cfg projects es id f' := by
  obtain ⟨es₁, i, a, es₂, s, file, result, hes, hrun, hthread, hscanned, hkey, hsha⟩ := h
  have hkey' : f'.objectKey = f.objectKey := congrArg (fun i => i.2.2.2.2.2.1) hid
  have hsha' : f'.sha256 = f.sha256 := congrArg (fun i => i.2.2.2.2.2.2.2.1) hid
  exact ⟨es₁, i, a, es₂, s, file, result, hes, hrun, hthread, hscanned, hkey.trans hkey'.symm,
    hsha.trans hsha'.symm⟩

/-- Attempts about to write `CLEAN` have scanned, and clean files were cleaned. -/
structure Evidence (P : Platform) (cfg : ScannerConfig) (projects : List UUID)
    (es : List (SystemEvent P)) (s : SystemState P) : Prop where
  verdicts : ∀ {i : Nat} {id : UUID} {f : File} {result : Text},
    s.threads[i]? = some (.scanFile id (.running (.verdict f .clean result))) →
      ScannedIn P cfg projects es i id f
  files : ∀ {id : UUID} {f : File}, s.store.files.get? id = some f → f.state = .clean →
    CleanedIn P cfg projects es id f

/-- A thread that reaches the write of `CLEAN` has just scanned. -/
theorem Evidence.of_act {es : List (SystemEvent P)} {s : SystemState P} {i : Nat} {a : Answer}
    {t : Thread P} {w : Write} {id : UUID} {f : File} {result : Text}
    (hrun : run (next P cfg) (initialState P projects) es = some s)
    (hthread : s.threads[i]? = some t)
    (hact : t.act cfg a s.store =
      some (.scanFile id (.running (.verdict f .clean result)), w)) :
    ScannedIn P cfg projects (es ++ [.act i a]) i id f := by
  obtain ⟨pc, o, rfl, hstep, hprogress, -⟩ := Thread.scanFile_of_act hact
  obtain ⟨rfl, hbody, hverdict⟩ := ScanPc.verdict_of_step hstep hprogress
  refine ⟨es, a, [], s, rfl, hrun, hthread, cleanScan_of_scanVerdict hbody ?_⟩
  rw [hverdict]

/-- The only write of `CLEAN` is that of a verdict. -/
theorem clean_of_updates {s : Store} {t : Thread P} {a : Answer} {id : UUID} {f : File}
    {u : FileUpdate} (hok : t.Ok s) (hmove : FileMove f u) (h : Updates s a t id u)
    (hget : s.files.get? id = some f) (hclean : (u.apply f).state = .clean) :
    ∃ file result, t = .scanFile id (.running (.verdict file .clean result)) ∧
      f.identity = file.identity := by
  cases h with
  | start | create =>
      cases hmove with
      | provision hstate =>
          rw [FileUpdate.apply_state, FileUpdate.provision, Option.getD_none, hstate] at hclean
          cases hclean
  | mismatch | complete | claim | expire => cases hclean
  | @verdict id file current st result hcurrent hscanning =>
      obtain rfl : st = .clean := hclean
      obtain ⟨f', hf', hid⟩ := hok.1.later
      obtain rfl : f = f' := Option.some.inj (hget.symm.trans hf')
      exact ⟨file, result, rfl, hid⟩

/-- A download URL is issued for a clean file only. -/
theorem DownloadCall.clean_of_returned {c : DownloadCall} {s : Store} {a : Answer}
    {o : Outcome DownloadPc DownloadUrl} {url : DownloadUrl} (h : c.step a s .read = some o)
    (ho : o.progress = .returned url) :
    ∃ f, s.files.get? c.fileId = some f ∧ f.state = .clean ∧ url.objectKey = f.objectKey := by
  cases h
  have ho := Outcome.returned_read ho
  split at ho
  · cases ho
  · rename_i f hget
    split at ho
    · cases ho
    · cases ho
    · rename_i hready
      cases ho
      refine ⟨f, hget, ?_, rfl⟩
      unfold ensureDownloadable at hready
      split at hready
      · cases hready
      · split at hready
        · cases hready
        · split at hready
          · cases hready
          · exact not_not.mp ‹_›

theorem Evidence.step {es : List (SystemEvent P)} {s t : SystemState P} {e : SystemEvent P}
    (hrun : run (next P cfg) (initialState P projects) es = some s)
    (hev : Evidence P cfg projects es s)
    (hnext : next P cfg s e = some t) :
    Evidence P cfg projects (es ++ [e]) t := by
  have hcon : Consistent cfg s := consistent_of_reachable ⟨es, hrun⟩
  cases hcon.happens hnext with
  | spawn hinitial =>
      refine ⟨fun hthread => ?_, fun hget hclean => (hev.files hget hclean).append⟩
      rcases getElem?_append_cases hthread with ⟨-, rfl⟩ | hthread
      · simp [Thread.initial] at hinitial
      · exact (hev.verdicts hthread).append
  | crash hget =>
      refine ⟨fun hthread => ?_, fun hfile hclean => (hev.files hfile hclean).append⟩
      rcases getElem?_set_cases hthread with ⟨rfl, hcrash⟩ | ⟨-, hthread⟩
      · exact absurd hcrash.symm Thread.crash_ne_scanFile
      · exact (hev.verdicts hthread).append
  | act hget hfree hact hwrite hsound =>
      refine ⟨fun hthread => ?_, fun hfile hclean => ?_⟩
      · rcases getElem?_set_cases hthread with ⟨rfl, rfl⟩ | ⟨-, hthread⟩
        · exact of_act hrun hget hact
        · exact (hev.verdicts hthread).append
      · rcases hcon.file_before hget hact hwrite hfile with
          hsame | ⟨-, hstate⟩ | ⟨f, u, hf, hmove, hupdates, rfl⟩
        · exact (hev.files hsame hclean).append
        · rw [hclean] at hstate
          cases hstate
        · obtain ⟨file, result, rfl, hid⟩ :=
            clean_of_updates (hcon.ok hget) hmove hupdates hf hclean
          have hkey : file.objectKey = f.objectKey :=
            congrArg (fun i => i.2.2.2.2.2.1) hid.symm
          have hsha : file.sha256 = f.sha256 :=
            congrArg (fun i => i.2.2.2.2.2.2.2.1) hid.symm
          exact ⟨es, _, _, [], s, file, result, rfl, hrun, hget, hev.verdicts hget, hkey, hsha⟩

theorem evidence_of_run {es : List (SystemEvent P)} {s : SystemState P}
    (h : run (next P cfg) (initialState P projects) es = some s) :
    Evidence P cfg projects es s := by
  refine run_induction ⟨fun hthread => ?_, fun hget => ?_⟩
    (fun es s e t hrun hev hnext => hev.step hrun hnext) h
  · cases hthread
  · cases hget

end history

end SuperBoss.Server
