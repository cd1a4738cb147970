import SuperBoss.Library.Transition
import SuperBoss.Web.Uploads

/-!
The uploads of an uploader: the bodies of their `PUT`s are consecutive slices of the
file, at most three of them are under way, and an upload is completed at most once,
with all of its parts.
-/

namespace SuperBoss.Web

open SuperBoss.Core
open SuperBoss.Library.Transition

/-! ### Slices of a file -/

/-- The slices follow on each other from `start` to `stop`, and none is empty. -/
def Consecutive (start stop : Nat) : List Slice → Prop
  | [] => start = stop
  | slice :: rest => slice.start = start ∧ start < slice.stop ∧ Consecutive slice.stop stop rest

/-- The parts of a file, with their numbers. -/
def parts (size : Nat) : List (Nat × Slice) :=
  (List.range' 1 (partCount size)).map fun i => (i, partSlice size i)

theorem lt_partCount {size i : Nat} : i < partCount size ↔ i * uploadPartSize < size := by
  unfold partCount uploadPartSize
  omega

theorem min_partCount (size : Nat) : min (partCount size * uploadPartSize) size = size := by
  have hnot : ¬partCount size * uploadPartSize < size := fun hlt =>
    Nat.lt_irrefl (partCount size) (lt_partCount.mpr hlt)
  omega

theorem length_parts (size : Nat) : (parts size).length = partCount size := by
  rw [parts, List.length_map, List.length_range']

theorem getElem?_parts {size i : Nat} (h : i < partCount size) :
    (parts size)[i]? = some (i + 1, partSlice size (i + 1)) := by
  rw [parts, List.getElem?_map, List.getElem?_range' h, Nat.one_mul, Nat.add_comm 1 i]
  rfl

theorem fst_take_parts {size m : Nat} (h : m ≤ partCount size) :
    ((parts size).take m).map Prod.fst = List.range' 1 m := by
  have hfst : (parts size).map Prod.fst = List.range' 1 (partCount size) := by
    rw [parts, List.map_map]
    exact List.map_id _
  obtain ⟨d, hd⟩ := Nat.exists_eq_add_of_le h
  rw [List.map_take, hfst, hd, ← List.range'_append_1, List.take_left' List.length_range']

/-- The parts cut the file into consecutive slices. -/
theorem consecutive_parts (size : Nat) : Consecutive 0 size ((parts size).map Prod.snd) := by
  have htail : ∀ m i, i + m = partCount size → Consecutive (min (i * uploadPartSize) size) size
      ((List.range' (i + 1) m).map (partSlice size)) := by
    intro m
    induction m with
    | zero =>
        intro i hi
        obtain rfl : i = partCount size := hi
        exact min_partCount size
    | succ m ih =>
        intro i hi
        have hlt : i * uploadPartSize < size := lt_partCount.mp (by omega)
        have hsucc : (i + 1) * uploadPartSize = i * uploadPartSize + uploadPartSize :=
          Nat.succ_mul i uploadPartSize
        have hpos : 0 < uploadPartSize := by decide
        have hrest := ih (i + 1) (by omega)
        rw [List.range'_succ, List.map_cons]
        refine ⟨?_, ?_, ?_⟩
        · change (i + 1 - 1) * uploadPartSize = _
          rw [Nat.add_sub_cancel, Nat.min_eq_left (Nat.le_of_lt hlt)]
        · change _ < min ((i + 1 - 1) * uploadPartSize + uploadPartSize) size
          rw [Nat.add_sub_cancel]
          omega
        · change Consecutive (min ((i + 1 - 1) * uploadPartSize + uploadPartSize) size) size _
          rwa [Nat.add_sub_cancel, ← hsucc]
  have hall := htail (partCount size) 0 (Nat.zero_add _)
  rw [Nat.zero_mul, Nat.min_eq_left (Nat.zero_le _)] at hall
  rwa [parts, List.map_map]

theorem start_lt_of_consecutive {start stop : Nat} {slices : List Slice}
    (h : Consecutive start stop slices) : ∀ slice ∈ slices, start ≤ slice.start := by
  induction slices generalizing start with
  | nil => exact List.forall_mem_nil _
  | cons slice rest ih =>
      obtain ⟨hstart, hlt, hrest⟩ := h
      intro other hother
      rcases List.mem_cons.mp hother with rfl | hother
      · exact hstart.ge
      · exact hlt.le.trans (ih hrest other hother)

/-- Consecutive slices are distinct. -/
theorem nodup_of_consecutive {start stop : Nat} {slices : List Slice}
    (h : Consecutive start stop slices) : slices.Nodup := by
  induction slices generalizing start with
  | nil => exact List.nodup_nil
  | cons slice rest ih =>
      obtain ⟨hstart, hlt, hrest⟩ := h
      rw [List.nodup_cons]
      refine ⟨fun hmem => ?_, ih hrest⟩
      have hle := start_lt_of_consecutive hrest slice hmem
      omega

/-! ### The actions of an upload -/

/-- The numbers and the bodies of the `PUT`s. -/
def puts (actions : List UploadAction) : List (Nat × Slice) :=
  actions.filterMap fun
    | .put _ partNumber body => some (partNumber, body)
    | _ => none

/-- The numbers of the `PUT`s that have settled. -/
def settled (actions : List UploadAction) : List Nat :=
  actions.filterMap fun
    | .stored partNumber _ => some partNumber
    | .refused partNumber => some partNumber
    | _ => none

def reports (actions : List UploadAction) : List Nat :=
  actions.filterMap fun
    | .progress uploadedBytes => some uploadedBytes
    | _ => none

/-- The lists of parts that `complete` was called with. -/
def completions (actions : List UploadAction) : List (List FilePart) :=
  actions.filterMap fun
    | .complete _ listed => some listed
    | _ => none

/-- The numbers of the `PUT`s that have not settled. -/
def inFlight (actions : List UploadAction) : List Nat :=
  ((puts actions).map Prod.fst).filter fun partNumber => partNumber ∉ settled actions

section

variable (actions more : List UploadAction)

@[simp] theorem puts_append : puts (actions ++ more) = puts actions ++ puts more :=
  List.filterMap_append

@[simp] theorem settled_append : settled (actions ++ more) = settled actions ++ settled more :=
  List.filterMap_append

@[simp] theorem reports_append : reports (actions ++ more) = reports actions ++ reports more :=
  List.filterMap_append

@[simp] theorem completions_append :
    completions (actions ++ more) = completions actions ++ completions more :=
  List.filterMap_append

end

theorem completions_append_eq_nil {actions more : List UploadAction}
    (h : completions actions = []) (h' : completions more = []) :
    completions (actions ++ more) = [] := by
  rw [completions_append, h, h']
  rfl

theorem not_mem_of_completions {actions : List UploadAction} (h : completions actions = [])
    (uploadId : JsString) (listed : List FilePart) : .complete uploadId listed ∉ actions :=
  fun hmem => by
    have := List.filterMap_eq_nil_iff.mp h _ hmem
    cases this

/-- An action that is not among the later ones is among the earlier ones. -/
theorem split_of_append {α : Type} {l more pre post : List α} {a : α}
    (h : l ++ more = pre ++ a :: post) (ha : a ∉ more) : ∃ post', l = pre ++ a :: post' := by
  rcases List.append_eq_append_iff.mp h with ⟨c, -, hmore⟩ | ⟨c, hl, hmore⟩
  · refine absurd ?_ ha
    rw [hmore]
    exact List.mem_append_right c List.mem_cons_self
  · cases c with
    | nil =>
        refine absurd ?_ ha
        rw [← List.nil_append more, ← hmore]
        exact List.mem_cons_self
    | cons b c =>
        obtain ⟨rfl, -⟩ := List.cons_eq_cons.mp hmore
        exact ⟨c, hl⟩

/-- An action that is not among the earlier ones is the last one. -/
theorem last_of_append {α : Type} {l pre post : List α} {a b : α}
    (h : l ++ [b] = pre ++ a :: post) (ha : a ∉ l) : pre = l ∧ a = b := by
  rcases List.eq_nil_or_concat post with rfl | ⟨post', c, rfl⟩
  · obtain ⟨hl, hb⟩ := List.append_inj' h rfl
    exact ⟨hl.symm, (List.cons_eq_cons.mp hb).1.symm⟩
  · have h' : l ++ [b] = (pre ++ a :: post') ++ [c] := by
      rw [h, List.append_assoc, List.cons_append, List.concat_eq_append]
    obtain ⟨hl, -⟩ := List.append_inj' h' rfl
    refine absurd ?_ ha
    rw [hl]
    exact List.mem_append_right pre List.mem_cons_self

namespace Upload

/-! ### The invariant -/

/-- No `PUT` is under way, and `m` parts have been put. -/
structure Quiet (size : Nat) (actions : List UploadAction) (m : Nat) : Prop where
  le : m ≤ partCount size
  puts : puts actions = (parts size).take m
  settled : ∀ i, i ∈ settled actions ↔ 1 ≤ i ∧ i ≤ m

/-- The parts of a batch are those behind the `k` completed ones. -/
def Prepared (size k : Nat) (prepared : List PreparedPart) : Prop :=
  prepared.map (fun part => (part.partNumber, part.body)) =
    ((parts size).drop k).take prepared.length

/-- The `PUT`s of a batch behind `k` completed parts. -/
structure Putting (size k : Nat) (actions : List UploadAction) (batchEnd : Nat)
    (prepared : List PreparedPart) (results : List (Option (Except UploadFailure JsString))) :
    Prop where
  batch : k + prepared.length = batchEnd
  le : batchEnd ≤ partCount size
  parallel : prepared.length ≤ maxParallelPuts
  bodies : Prepared size k prepared
  length : results.length = prepared.length
  puts : puts actions = (parts size).take batchEnd
  settled : ∀ i, i ∈ settled actions ↔ (1 ≤ i ∧ i ≤ k) ∨
    ∃ index result, results[index]? = some (some result) ∧ i = k + index + 1
  stored : ∀ index etag, results[index]? = some (some (.ok etag)) →
    .stored (k + index + 1) etag ∈ actions

/-- The last report is about the `k` completed parts. -/
def Reported (size k : Nat) (actions : List UploadAction) : Prop :=
  (reports actions).getLast? = some (min (k * uploadPartSize) size)

/-- What holds while the upload awaits. -/
def Waits (u : Upload) : UploadPoint → Prop
  | .hashing | .keying _ | .starting => u.completed.length = 0 ∧ Quiet u.size u.actions 0 ∧
      reports u.actions = [] ∧ completions u.actions = []
  | .presigning _ batchEnd partNumber prepared =>
      Quiet u.size u.actions u.completed.length ∧
        Reported u.size u.completed.length u.actions ∧ completions u.actions = [] ∧
        batchEnd = min (u.completed.length + maxParallelPuts) (partCount u.size) ∧
        partNumber = u.completed.length + prepared.length + 1 ∧ partNumber ≤ batchEnd ∧
        Prepared u.size u.completed.length prepared
  | .putting _ batchEnd prepared results =>
      Putting u.size u.completed.length u.actions batchEnd prepared results ∧
        Reported u.size u.completed.length u.actions ∧ completions u.actions = []
  | .completing | .finished none =>
      Quiet u.size u.actions (partCount u.size) ∧ u.completed.length = partCount u.size ∧
        Reported u.size u.completed.length u.actions
  | .finished (some _) => ∃ m, Quiet u.size u.actions m

/-- What holds where `complete` is called behind `pre`. -/
structure Lists (size : Nat) (pre : List UploadAction) (listed : List FilePart) : Prop where
  first : ∀ uploadId listed', .complete uploadId listed' ∉ pre
  notAborted : .abort ∉ pre
  numbers : listed.map (·.partNumber) =
    (List.range' 1 (partCount size)).map fun (i : Nat) => (i : Int)
  stored : ∀ part ∈ listed,
    isEtag part.etag = true ∧ .stored part.partNumber.toNat part.etag ∈ pre

/-- What holds of the parts and the actions of an upload. -/
structure Ledger (u : Upload) : Prop where
  aborted : .abort ∈ u.actions → u.aborted = true
  numbers : u.completed.map (·.partNumber) =
    (List.range' 1 u.completed.length).map fun (i : Nat) => (i : Int)
  stored : ∀ part ∈ u.completed,
    isEtag part.etag = true ∧ .stored part.partNumber.toNat part.etag ∈ u.actions
  settled : (settled u.actions).Nodup
  ordered : (reports u.actions).Pairwise (· ≤ ·)
  bounded : ∀ b ∈ reports u.actions, b ≤ min (u.completed.length * uploadPartSize) u.size
  complete : ∀ pre uploadId listed post, u.actions = pre ++ .complete uploadId listed :: post →
    Lists u.size pre listed

/-- The invariant of an upload. -/
def Sound (u : Upload) : Prop := u.Ledger ∧ u.Waits u.point

/-! ### Actions -/

variable {u : Upload} {size k m : Nat} {actions more : List UploadAction}

theorem Quiet.append (h : Quiet size actions m) (hputs : Web.puts more = [])
    (hsettled : Web.settled more = []) : Quiet size (actions ++ more) m where
  le := h.le
  puts := by rw [puts_append, hputs, List.append_nil, h.puts]
  settled i := by rw [settled_append, hsettled, List.append_nil, h.settled]

theorem Reported.append (h : Reported size k actions) (hreports : reports more = []) :
    Reported size k (actions ++ more) := by
  rw [Reported, reports_append, hreports, List.append_nil]
  exact h

theorem Putting.append {batchEnd : Nat} {prepared : List PreparedPart}
    {results : List (Option (Except UploadFailure JsString))}
    (h : Putting size k actions batchEnd prepared results) (hputs : Web.puts more = [])
    (hsettled : Web.settled more = []) :
    Putting size k (actions ++ more) batchEnd prepared results where
  batch := h.batch
  le := h.le
  parallel := h.parallel
  bodies := h.bodies
  length := h.length
  puts := by rw [puts_append, hputs, List.append_nil, h.puts]
  settled i := by rw [settled_append, hsettled, List.append_nil, h.settled]
  stored index etag hindex := List.mem_append_left _ (h.stored index etag hindex)

/-- Later actions that do not complete the upload. -/
theorem Ledger.extend {v : Upload} (h : u.Ledger) (hsize : v.size = u.size)
    (hcompleted : v.completed = u.completed) (hactions : v.actions = u.actions ++ more)
    (haborted : .abort ∈ v.actions → v.aborted = true)
    (hcomplete : completions more = [])
    (hsettled : (Web.settled u.actions ++ Web.settled more).Nodup)
    (hordered : (reports u.actions ++ reports more).Pairwise (· ≤ ·))
    (hbounded : ∀ b ∈ reports more, b ≤ min (u.completed.length * uploadPartSize) u.size) :
    v.Ledger where
  aborted := haborted
  numbers := by
    rw [hcompleted]
    exact h.numbers
  stored := by
    rw [hcompleted, hactions]
    exact fun part hpart =>
      ⟨(h.stored part hpart).1, List.mem_append_left _ (h.stored part hpart).2⟩
  settled := by
    rw [hactions, settled_append]
    exact hsettled
  ordered := by
    rw [hactions, reports_append]
    exact hordered
  bounded := by
    rw [hactions, reports_append, hcompleted, hsize]
    intro b hb
    exact (List.mem_append.mp hb).elim (h.bounded b) (hbounded b)
  complete := by
    rw [hactions, hsize]
    intro pre uploadId listed post heq
    obtain ⟨post', hpost⟩ := split_of_append heq (not_mem_of_completions hcomplete uploadId listed)
    exact h.complete pre uploadId listed post' hpost

/-- Actions that neither settle, report, abort nor complete. -/
theorem Ledger.act (h : u.Ledger) (habort : .abort ∉ more)
    (hcomplete : completions more = []) (hsettled : Web.settled more = []) (hreports : reports more = []) : (u.act more).Ledger := by
  refine h.extend rfl rfl rfl ?_ hcomplete ?_ ?_ ?_
  · intro hmem
    exact (List.mem_append.mp hmem).elim h.aborted fun hmem => absurd hmem habort
  · rw [hsettled, List.append_nil]
    exact h.settled
  · rw [hreports, List.append_nil]
    exact h.ordered
  · rw [hreports]
    exact List.forall_mem_nil _

theorem Ledger.goto (h : u.Ledger) (point : UploadPoint) : (u.goto point).Ledger :=
  ⟨h.aborted, h.numbers, h.stored, h.settled, h.ordered, h.bounded, h.complete⟩

theorem Ledger.abort (h : u.Ledger) : u.abort.Ledger := by
  refine h.extend rfl rfl rfl (fun _ => rfl) rfl ?_ ?_ (List.forall_mem_nil _)
  · change (Web.settled u.actions ++ []).Nodup
    rw [List.append_nil]
    exact h.settled
  · change (reports u.actions ++ []).Pairwise (· ≤ ·)
    rw [List.append_nil]
    exact h.ordered

/-- A report about the completed parts. -/
theorem Ledger.report (h : u.Ledger) (onProgress : Callback) :
    (u.report (min (u.completed.length * uploadPartSize) u.size) onProgress).Ledger := by
  have hact : (u.act [.progress (min (u.completed.length * uploadPartSize) u.size)]).Ledger := by
    refine h.extend rfl rfl rfl ?_ rfl ?_ ?_ ?_
    · intro hmem
      rcases List.mem_append.mp hmem with hmem | hmem
      · exact h.aborted hmem
      · cases List.mem_singleton.mp hmem
    · change (Web.settled u.actions ++ []).Nodup
      rw [List.append_nil]
      exact h.settled
    · rw [List.pairwise_append]
      refine ⟨h.ordered, List.pairwise_singleton _ _, fun b hb c hc => ?_⟩
      rw [List.mem_singleton.mp hc]
      exact h.bounded b hb
    · intro b hb
      exact (List.mem_singleton.mp hb).le
  unfold Upload.report
  split
  · exact hact.abort
  · exact hact

theorem putAnswer_spec (part : PreparedPart) (result : Except UploadFailure JsString) :
    Web.puts [putAnswer part result] = [] ∧
      Web.settled [putAnswer part result] = [part.partNumber] ∧
      reports [putAnswer part result] = [] ∧ completions [putAnswer part result] = [] := by
  cases result with
  | ok etag => exact ⟨rfl, rfl, rfl, rfl⟩
  | error failure => exact ⟨rfl, rfl, rfl, rfl⟩

/-- A `PUT` that had not settled. -/
theorem Ledger.answer (h : u.Ledger) {part : PreparedPart} (hnew : part.partNumber ∉
    Web.settled u.actions) (result : Except UploadFailure JsString) :
    (u.act [putAnswer part result]).Ledger := by
  obtain ⟨-, hone, hnone, hcomplete⟩ := putAnswer_spec part result
  refine h.extend rfl rfl rfl ?_ hcomplete ?_ ?_ ?_
  · intro hmem
    rcases List.mem_append.mp hmem with hmem | hmem
    · exact h.aborted hmem
    · cases result with
      | ok etag => cases List.mem_singleton.mp hmem
      | error failure => cases List.mem_singleton.mp hmem
  · rw [hone]
    exact List.nodup_append.mpr ⟨h.settled, List.nodup_singleton _, fun i hi j hj heq => by
      rw [heq, List.mem_singleton.mp hj] at hi
      exact hnew hi⟩
  · rw [hnone, List.append_nil]
    exact h.ordered
  · rw [hnone]
    exact List.forall_mem_nil _

/-- The call of `complete`, when all parts are completed. -/
theorem Ledger.call (h : u.Ledger) (haborted : u.aborted = false)
    (hall : u.completed.length = partCount u.size) (hfirst : completions u.actions = [])
    (uploadId : JsString) : (u.act [.complete uploadId u.completed]).Ledger where
  aborted hmem := by
    rcases List.mem_append.mp hmem with hmem | hmem
    · exact h.aborted hmem
    · cases List.mem_singleton.mp hmem
  numbers := h.numbers
  stored part hpart :=
    ⟨(h.stored part hpart).1, List.mem_append_left _ (h.stored part hpart).2⟩
  settled := by
    change (Web.settled (u.actions ++ _)).Nodup
    rw [settled_append]
    exact (List.append_nil _).symm ▸ h.settled
  ordered := by
    change (reports (u.actions ++ _)).Pairwise (· ≤ ·)
    rw [reports_append]
    exact (List.append_nil _).symm ▸ h.ordered
  bounded b hb := by
    refine h.bounded b ?_
    change b ∈ reports (u.actions ++ _) at hb
    rw [reports_append] at hb
    exact (List.append_nil (reports u.actions)) ▸ hb
  complete pre uploadId' listed post heq := by
    change u.actions ++ [.complete uploadId u.completed] = _ at heq
    have hnot := not_mem_of_completions hfirst
    obtain ⟨rfl, hcall⟩ := last_of_append heq (hnot uploadId' listed)
    obtain ⟨-, rfl⟩ := UploadAction.complete.inj hcall
    refine ⟨hnot, fun habort => ?_, ?_, h.stored⟩
    · rw [h.aborted habort] at haborted
      cases haborted
    · change _ = (List.range' 1 (partCount u.size)).map _
      rw [← hall]
      exact h.numbers

/-! ### Turns -/

theorem Sound.of_fail (h : u.Ledger) (hquiet : Quiet u.size u.actions m)
    (failure : UploadFailure) : (u.fail failure).Sound :=
  ⟨h.goto _, m, hquiet⟩

/-- Behind a batch the next one begins, or the upload is completed. -/
theorem Ledger.nextBatch (h : u.Ledger) (hquiet : Quiet u.size u.actions u.completed.length)
    (hreported : Reported u.size u.completed.length u.actions)
    (hfirst : completions u.actions = []) (uploadId : JsString) :
    (u.nextBatch uploadId (u.completed.length + 1)).Sound := by
  unfold Upload.nextBatch
  split
  · exact .of_fail h hquiet .contract
  · rename_i haborted
    rw [Bool.not_eq_true] at haborted
    split
    · rename_i hle
      refine ⟨(h.act ?_ rfl rfl rfl).goto _, hquiet.append rfl rfl, hreported.append rfl,
        completions_append_eq_nil hfirst rfl, rfl, rfl, ?_, rfl⟩
      · intro hmem
        cases List.mem_singleton.mp hmem
      · change u.completed.length + 1 ≤
          min (u.completed.length + maxParallelPuts) (partCount u.size)
        have hparallel : maxParallelPuts = 3 := rfl
        omega
    · rename_i hlast
      have hall : u.completed.length = partCount u.size := by
        have hle := hquiet.le
        omega
      rw [hall] at hquiet
      exact ⟨(h.call haborted hall hfirst uploadId).goto _, hquiet.append rfl rfl, hall,
        hreported.append rfl⟩

/-- A report behind a batch, and what follows it. -/
theorem Ledger.advance (h : u.Ledger) (hquiet : Quiet u.size u.actions u.completed.length)
    (hfirst : completions u.actions = []) (uploadId : JsString) (onProgress : Callback) :
    (u.advance uploadId (u.completed.length + 1)
      (min (u.completed.length * uploadPartSize) u.size) onProgress).Sound := by
  have hledger := h.report onProgress
  obtain ⟨bytes, hbytes⟩ : ∃ b, b = min (u.completed.length * uploadPartSize) u.size := ⟨_, rfl⟩
  rw [← hbytes] at hledger ⊢
  have hsize : (u.report bytes onProgress).size = u.size := by
    unfold Upload.report
    split <;> rfl
  have hcompleted : (u.report bytes onProgress).completed = u.completed := by
    unfold Upload.report
    split <;> rfl
  have hactions : ∃ more, (u.report bytes onProgress).actions = u.actions ++ .progress bytes :: more ∧
      Web.puts more = [] ∧ Web.settled more = [] ∧ reports more = [] ∧ completions more = [] := by
    unfold Upload.report
    split
    · exact ⟨[.abort], List.append_assoc _ _ _, rfl, rfl, rfl, rfl⟩
    · exact ⟨[], rfl, rfl, rfl, rfl, rfl⟩
  obtain ⟨more, hactions, hputs, hsettled, hreports, hcompletions⟩ := hactions
  have hquiet' : Quiet u.size (u.actions ++ .progress bytes :: more) u.completed.length :=
    hquiet.append hputs hsettled
  have hreported : Reported u.size u.completed.length (u.actions ++ .progress bytes :: more) := by
    have hmore : reports (.progress bytes :: more) = [bytes] := congrArg (bytes :: ·) hreports
    rw [Reported, reports_append, hmore, List.getLast?_concat, hbytes]
  have hfirst' : completions (u.actions ++ .progress bytes :: more) = [] :=
    completions_append_eq_nil hfirst hcompletions
  rw [← hsize, ← hcompleted, ← hactions] at hquiet' hreported
  rw [← hactions] at hfirst'
  unfold Upload.advance
  dsimp only
  split
  · exact .of_fail hledger hquiet' .other
  · rw [← hcompleted]
    exact hledger.nextBatch hquiet' hreported hfirst' uploadId

/-- All `PUT`s of a batch have settled. -/
theorem Putting.quiet {batchEnd : Nat} {prepared : List PreparedPart}
    {results : List (Option (Except UploadFailure JsString))}
    (h : Putting size k actions batchEnd prepared results)
    (hall : results.all Option.isSome = true) : Quiet size actions batchEnd where
  le := h.le
  puts := h.puts
  settled i := by
    have hbatch := h.batch
    have hlength := h.length
    rw [h.settled]
    constructor
    · rintro (⟨hpos, hle⟩ | ⟨index, result, hindex, rfl⟩)
      · omega
      · have hlt := (List.getElem?_eq_some_iff.mp hindex).1
        omega
    · rintro ⟨hpos, hle⟩
      by_cases hk : i ≤ k
      · exact .inl ⟨hpos, hk⟩
      · have hlt : i - k - 1 < results.length := by omega
        have hsome := List.all_eq_true.mp hall _ (List.getElem_mem hlt)
        obtain ⟨result, hresult⟩ := Option.isSome_iff_exists.mp hsome
        refine .inr ⟨i - k - 1, result, ?_, by omega⟩
        rw [List.getElem?_eq_getElem hlt, hresult]

/-- The parts that a batch adds. -/
theorem collect_spec {prepared : List PreparedPart}
    {results : List (Option (Except UploadFailure JsString))} {listed : List FilePart}
    (h : collect prepared results = some listed) :
    listed.map (·.partNumber) = prepared.map (fun part => (part.partNumber : Int)) ∧
      ∀ part ∈ listed, isEtag part.etag = true ∧
        ∃ (index : Nat) (item : PreparedPart), prepared[index]? = some item ∧
        part.partNumber = item.partNumber ∧ results[index]? = some (some (.ok part.etag)) := by
  induction prepared generalizing results listed with
  | nil =>
      cases results with
      | nil =>
          cases h
          exact ⟨rfl, List.forall_mem_nil _⟩
      | cons result results => cases h
  | cons item prepared ih =>
      cases results with
      | nil => cases h
      | cons result results =>
          obtain ⟨first, hfirst, h⟩ := Option.bind_eq_some_iff.mp h
          obtain ⟨others, hothers, h⟩ := Option.bind_eq_some_iff.mp h
          cases h
          obtain ⟨hnumbers, hothers⟩ := ih hothers
          unfold completedPart at hfirst
          split at hfirst
          · rename_i etag
            split at hfirst
            · rename_i hetag
              cases hfirst
              refine ⟨?_, ?_⟩
              · rw [List.map_cons, List.map_cons, hnumbers]
              · intro part hpart
                rcases List.mem_cons.mp hpart with rfl | hpart
                · exact ⟨hetag, 0, item, rfl, rfl, rfl⟩
                · obtain ⟨hetag, index, item, hitem⟩ := hothers part hpart
                  exact ⟨hetag, index + 1, item, hitem⟩
            · cases hfirst
          · cases hfirst

/-- The numbers of the prepared parts. -/
theorem Prepared.number {prepared : List PreparedPart} (h : Prepared size k prepared)
    {index : Nat} {item : PreparedPart} (hitem : prepared[index]? = some item) :
    item.partNumber = k + index + 1 ∧ item.body = partSlice size (k + index + 1) := by
  have hlt := (List.getElem?_eq_some_iff.mp hitem).1
  have hget : ((parts size).drop k)[index]? = some (item.partNumber, item.body) := by
    rw [← List.getElem?_take_of_lt hlt, ← h, List.getElem?_map, hitem]
    rfl
  rw [List.getElem?_drop] at hget
  have hcount : k + index < partCount size := by
    rw [← length_parts]
    exact (List.getElem?_eq_some_iff.mp hget).1
  rw [getElem?_parts hcount, Option.some.injEq, Prod.mk.injEq] at hget
  exact ⟨hget.1.symm, hget.2.symm⟩

theorem Prepared.numbers {prepared : List PreparedPart} (h : Prepared size k prepared) :
    prepared.map (fun part => (part.partNumber : Int)) =
      (List.range' (1 + k) prepared.length).map fun (i : Nat) => (i : Int) := by
  refine List.ext_getElem? fun index => ?_
  rw [List.getElem?_map, List.getElem?_map]
  cases hitem : prepared[index]? with
  | none =>
      have hle := List.getElem?_eq_none_iff.mp hitem
      rw [List.getElem?_eq_none_iff.mpr (hle.trans' List.length_range'.le)]
      rfl
  | some item =>
      have hlt := (List.getElem?_eq_some_iff.mp hitem).1
      rw [List.getElem?_range' hlt, Option.map_some, Option.map_some, (h.number hitem).1,
        Nat.one_mul]
      refine congrArg (fun (i : Nat) => some (i : Int)) ?_
      omega

theorem Prepared.concat {prepared : List PreparedPart} (h : Prepared size k prepared)
    (hlt : k + prepared.length < partCount size) (url : JsString) :
    Prepared size k (prepared ++
      [⟨partSlice size (k + prepared.length + 1), k + prepared.length + 1, url⟩]) := by
  rw [Prepared, List.length_append, List.length_singleton, List.take_add_one, List.map_append,
    List.getElem?_drop, getElem?_parts hlt, h]
  rfl

/-- The turn behind `Promise.allSettled`. -/
theorem Ledger.settle (h : u.Ledger) {batchEnd : Nat} {prepared : List PreparedPart}
    {results : List (Option (Except UploadFailure JsString))}
    (hputting : Putting u.size u.completed.length u.actions batchEnd prepared results)
    (hfirst : completions u.actions = []) (hall : results.all Option.isSome = true)
    (uploadId : JsString) (onProgress : Callback) :
    (u.settle uploadId batchEnd prepared results onProgress).Sound := by
  have hquiet := hputting.quiet hall
  unfold Upload.settle
  split
  · exact .of_fail h hquiet .contract
  · split
    · exact .of_fail h hquiet .contract
    · rename_i listed hlisted
      obtain ⟨hnumbers, hstored⟩ := collect_spec hlisted
      have hlength : (u.completed ++ listed).length = batchEnd := by
        have hlisted := congrArg List.length hnumbers
        rw [List.length_map, List.length_map] at hlisted
        rw [List.length_append, hlisted, hputting.batch]
      have hledger : Ledger { u with completed := u.completed ++ listed } := by
        refine ⟨h.aborted, ?_, ?_, h.settled, h.ordered, ?_, h.complete⟩
        · change (u.completed ++ listed).map _ =
            (List.range' 1 (u.completed ++ listed).length).map _
          rw [hlength, ← hputting.batch, ← List.range'_append_1, List.map_append, List.map_append,
            ← h.numbers, ← hputting.bodies.numbers, hnumbers]
        · intro part hpart
          rcases List.mem_append.mp hpart with hpart | hpart
          · exact h.stored part hpart
          · obtain ⟨hetag, index, item, hitem, hnumber, hresult⟩ := hstored part hpart
            refine ⟨hetag, ?_⟩
            rw [hnumber, Int.toNat_natCast, (hputting.bodies.number hitem).1]
            exact hputting.stored index part.etag hresult
        · intro b hb
          refine (h.bounded b hb).trans ?_
          change _ ≤ min ((u.completed ++ listed).length * uploadPartSize) u.size
          have hle : u.completed.length * uploadPartSize ≤
              (u.completed ++ listed).length * uploadPartSize :=
            Nat.mul_le_mul_right _ (by rw [List.length_append]; exact Nat.le_add_right _ _)
          omega
      dsimp only
      rw [← hlength]
      rw [← hlength] at hquiet
      exact hledger.advance hquiet hfirst uploadId onProgress

theorem putActions_spec (prepared : List PreparedPart) :
    Web.puts (prepared.map putAction) =
        prepared.map (fun part => (part.partNumber, part.body)) ∧
      Web.settled (prepared.map putAction) = [] ∧ reports (prepared.map putAction) = [] ∧
      completions (prepared.map putAction) = [] := by
  induction prepared with
  | nil => exact ⟨rfl, rfl, rfl, rfl⟩
  | cons part prepared ih =>
      obtain ⟨hputs, hrest⟩ := ih
      exact ⟨congrArg (List.cons (part.partNumber, part.body)) hputs, hrest⟩

/-- The `PUT`s of a batch are issued. -/
theorem Quiet.putting {prepared : List PreparedPart} (h : Quiet size actions k)
    (hprepared : Prepared size k prepared) (hle : k + prepared.length ≤ partCount size)
    (hparallel : prepared.length ≤ maxParallelPuts) :
    Putting size k (actions ++ prepared.map putAction) (k + prepared.length) prepared
      (prepared.map fun _ => none) := by
  obtain ⟨hputs, hsettled, -, -⟩ := putActions_spec prepared
  have hnone : ∀ (index : Nat) (r : Except UploadFailure JsString), (prepared.map fun _ =>
      (none : Option (Except UploadFailure JsString)))[index]? = some (some r) → False := by
    intro index r hindex
    rw [List.getElem?_map] at hindex
    obtain ⟨item, -, hitem⟩ := Option.map_eq_some_iff.mp hindex
    cases hitem
  refine ⟨rfl, hle, hparallel, hprepared, List.length_map _, ?_, fun i => ?_, ?_⟩
  · rw [puts_append, hputs, h.puts, hprepared, List.take_add]
  · rw [settled_append, hsettled, List.append_nil, h.settled]
    constructor
    · exact .inl
    · rintro (hrange | ⟨index, result, hindex, -⟩)
      · exact hrange
      · exact (hnone index result hindex).elim
  · intro index etag hindex
    exact (hnone index _ hindex).elim

/-- The turn behind `filesApi.partUrl`. -/
theorem Ledger.presigned (h : u.Ledger) {uploadId : JsString} {batchEnd partNumber : Nat}
    {prepared : List PreparedPart}
    (hwaits : u.Waits (.presigning uploadId batchEnd partNumber prepared)) (url : JsString) :
    (u.presigned uploadId batchEnd partNumber prepared url).Sound := by
  obtain ⟨hquiet, hreported, hfirst, hbatch, hnumber, hle, hprepared⟩ := hwaits
  have hparallel : maxParallelPuts = 3 := rfl
  have hlt : u.completed.length + prepared.length < partCount u.size := by omega
  have hnext : Prepared u.size u.completed.length
      (prepared ++ [⟨partSlice u.size partNumber, partNumber, url⟩]) := by
    rw [hnumber]
    exact hprepared.concat hlt url
  unfold Upload.presigned
  dsimp only
  split
  · exact .of_fail h hquiet .contract
  · split
    · rename_i hmore
      refine ⟨(h.act ?_ rfl rfl rfl).goto _, hquiet.append rfl rfl, hreported.append rfl,
        completions_append_eq_nil hfirst rfl, hbatch, ?_, hmore, hnext⟩
      · intro hmem
        cases List.mem_singleton.mp hmem
      · change partNumber + 1 = u.completed.length + (prepared ++ [_]).length + 1
        rw [List.length_append, List.length_singleton]
        omega
    · rename_i hlast
      obtain ⟨batch, hbatch'⟩ : ∃ l : List PreparedPart,
          l = prepared ++ [⟨partSlice u.size partNumber, partNumber, url⟩] := ⟨_, rfl⟩
      have hlength : batch.length = prepared.length + 1 := by
        rw [hbatch', List.length_append, List.length_singleton]
      have hend : batchEnd = u.completed.length + batch.length := by omega
      rw [← hbatch'] at hnext ⊢
      have hputting := hquiet.putting hnext (by omega) (by omega)
      rw [← hend] at hputting
      obtain ⟨-, hsettled, hreports, hcompletions⟩ := putActions_spec batch
      refine ⟨(h.act ?_ hcompletions hsettled hreports).goto _, hputting,
        hreported.append hreports, completions_append_eq_nil hfirst hcompletions⟩
      intro hmem
      obtain ⟨part, -, hpart⟩ := List.mem_map.mp hmem
      cases hpart

/-- A `PUT` of the batch settles. -/
theorem Ledger.put (h : u.Ledger) {uploadId : JsString} {batchEnd index : Nat}
    {prepared : List PreparedPart} {results : List (Option (Except UploadFailure JsString))}
    {part : PreparedPart} (hwaits : u.Waits (.putting uploadId batchEnd prepared results))
    (hpart : prepared[index]? = some part) (hpending : results[index]? = some none)
    (result : Except UploadFailure JsString) :
    ((u.act [putAnswer part result]).goto
      (.putting uploadId batchEnd prepared (results.set index (some result)))).Sound := by
  obtain ⟨hputting, hreported, hfirst⟩ := hwaits
  have hnumber := (hputting.bodies.number hpart).1
  have hindex := (List.getElem?_eq_some_iff.mp hpending).1
  have hself : (results.set index (some result))[index]? = some (some result) := by
    rw [List.getElem?_set_self hindex]
  have hother : ∀ j : Nat, index ≠ j → (results.set index (some result))[j]? = results[j]? :=
    fun j hj => List.getElem?_set_ne hj
  have hnew : part.partNumber ∉ Web.settled u.actions := by
    rw [hputting.settled, hnumber]
    rintro (⟨-, hle⟩ | ⟨j, r, hj, heq⟩)
    · omega
    · obtain rfl : index = j := by omega
      rw [hpending] at hj
      cases hj
  obtain ⟨hputs, hsettled, hreports, hcompletions⟩ := putAnswer_spec part result
  refine ⟨(h.answer hnew result).goto _, ⟨hputting.batch, hputting.le, hputting.parallel,
    hputting.bodies, ?_, ?_, fun i => ?_, ?_⟩, hreported.append hreports,
    completions_append_eq_nil hfirst hcompletions⟩
  · rw [List.length_set]
    exact hputting.length
  · change Web.puts (u.actions ++ _) = _
    rw [puts_append, hputs, List.append_nil]
    exact hputting.puts
  · change i ∈ Web.settled (u.actions ++ _) ↔ _
    rw [settled_append, hsettled, List.mem_append, hputting.settled, List.mem_singleton, hnumber]
    constructor
    · rintro ((hrange | ⟨j, r, hj, heq⟩) | heq)
      · exact .inl hrange
      · have hne : index ≠ j := by
          rintro rfl
          rw [hpending] at hj
          cases hj
        exact .inr ⟨j, r, (hother j hne).trans hj, heq⟩
      · exact .inr ⟨index, result, hself, heq⟩
    · rintro (hrange | ⟨j, r, hj, heq⟩)
      · exact .inl (.inl hrange)
      · by_cases hne : index = j
        · subst hne
          exact .inr heq
        · rw [hother j hne] at hj
          exact .inl (.inr ⟨j, r, hj, heq⟩)
  · intro j etag hj
    change .stored (u.completed.length + j + 1) etag ∈ u.actions ++ _
    by_cases hne : index = j
    · subst hne
      rw [hself, Option.some.injEq, Option.some.injEq] at hj
      rw [hj, ← hnumber]
      exact List.mem_append_right _ (List.mem_singleton.mpr rfl)
    · rw [hother j hne] at hj
      exact List.mem_append_left _ (hputting.stored j etag hj)

/-- An abort changes nothing that the upload waits with. -/
theorem Waits.abort {point : UploadPoint} (h : u.Waits point) : u.abort.Waits point := by
  cases point with
  | hashing | keying sha256 | starting =>
      obtain ⟨hnone, hquiet, hreports, hfirst⟩ := h
      refine ⟨hnone, hquiet.append rfl rfl, ?_, completions_append_eq_nil hfirst rfl⟩
      change reports (u.actions ++ _) = []
      rw [reports_append, hreports]
      rfl
  | presigning uploadId batchEnd partNumber prepared =>
      obtain ⟨hquiet, hreported, hfirst, hbatch⟩ := h
      exact ⟨hquiet.append rfl rfl, hreported.append rfl, completions_append_eq_nil hfirst rfl,
        hbatch⟩
  | putting uploadId batchEnd prepared results =>
      obtain ⟨hputting, hreported, hfirst⟩ := h
      exact ⟨hputting.append rfl rfl, hreported.append rfl, completions_append_eq_nil hfirst rfl⟩
  | completing =>
      obtain ⟨hquiet, hall, hreported⟩ := h
      exact ⟨hquiet.append rfl rfl, hall, hreported.append rfl⟩
  | finished failure =>
      cases failure with
      | none =>
          obtain ⟨hquiet, hall, hreported⟩ := h
          exact ⟨hquiet.append rfl rfl, hall, hreported.append rfl⟩
      | some failure =>
          obtain ⟨m, hquiet⟩ := h
          exact ⟨m, hquiet.append rfl rfl⟩

theorem Sound.abort (h : u.Sound) : u.abort.Sound := ⟨h.1.abort, Waits.abort h.2⟩

/-- Outside of a batch no `PUT` is under way. -/
theorem Waits.exists_quiet {point : UploadPoint} (h : u.Waits point)
    (hbatch : ∀ uploadId batchEnd prepared results,
      point ≠ .putting uploadId batchEnd prepared results) :
    ∃ m, Quiet u.size u.actions m := by
  cases point with
  | hashing | keying sha256 | starting => exact ⟨0, h.2.1⟩
  | presigning uploadId batchEnd partNumber prepared => exact ⟨_, h.1⟩
  | putting uploadId batchEnd prepared results => exact absurd rfl (hbatch _ _ _ _)
  | completing => exact ⟨_, h.1⟩
  | finished failure =>
      cases failure with
      | none => exact ⟨_, h.1⟩
      | some failure => exact h

/-- A promise that is awaited outside of a batch is rejected. -/
theorem Sound.fail {point : UploadPoint} (h : u.Ledger) (hwaits : u.Waits point)
    (hbatch : ∀ uploadId batchEnd prepared results,
      point ≠ .putting uploadId batchEnd prepared results) (failure : UploadFailure) :
    (u.fail failure).Sound := by
  obtain ⟨m, hquiet⟩ := hwaits.exists_quiet hbatch
  exact .of_fail h hquiet failure

/-- A step keeps the invariant. -/
theorem Sound.step {v : Upload} {digest : Bytes → Vector UInt8 32} {answer : UploadAnswer}
    (h : u.Sound) (hstep : u.step digest answer = some v) : v.Sound := by
  obtain ⟨hledger, hwaits⟩ := h
  unfold Upload.step at hstep
  split at hstep
  · rename_i sha256 hpoint
    rw [hpoint] at hwaits
    obtain ⟨hnone, hquiet, hreports, hfirst⟩ := hwaits
    obtain rfl := Option.some.inj hstep
    split
    · exact ⟨hledger.goto _, hnone, hquiet, hreports, hfirst⟩
    · exact .of_fail hledger hquiet .contract
  · rename_i sha256 hpoint
    rw [hpoint] at hwaits
    obtain ⟨hnone, hquiet, hreports, hfirst⟩ := hwaits
    obtain rfl := Option.some.inj hstep
    split
    · exact .of_fail hledger hquiet .contract
    · refine ⟨(hledger.act ?_ rfl rfl rfl).goto _, hnone, hquiet.append rfl rfl, ?_,
        completions_append_eq_nil hfirst rfl⟩
      · intro hmem
        cases List.mem_singleton.mp hmem
      · change reports (u.actions ++ _) = []
        rw [reports_append, hreports]
        rfl
  · rename_i uploadId onProgress hpoint
    rw [hpoint] at hwaits
    obtain ⟨hnone, hquiet, hreports, hfirst⟩ := hwaits
    obtain rfl := Option.some.inj hstep
    rw [← hnone] at hquiet
    have hadvance := hledger.advance hquiet hfirst uploadId onProgress
    rw [hnone, Nat.zero_mul, Nat.zero_min] at hadvance
    exact hadvance
  · rename_i uploadId batchEnd partNumber prepared url hpoint
    rw [hpoint] at hwaits
    obtain rfl := Option.some.inj hstep
    exact hledger.presigned hwaits url
  · rename_i uploadId batchEnd prepared results index result hpoint
    rw [hpoint] at hwaits
    split at hstep
    · rename_i part hpart hpending
      obtain rfl := Option.some.inj hstep
      exact hledger.put hwaits hpart hpending result
    · cases hstep
  · rename_i uploadId batchEnd prepared results onProgress hpoint
    rw [hpoint] at hwaits
    obtain ⟨hputting, hreported, hfirst⟩ := hwaits
    split at hstep
    · rename_i hall
      obtain rfl := Option.some.inj hstep
      exact hledger.settle hputting hfirst hall uploadId onProgress
    · cases hstep
  · rename_i hpoint
    rw [hpoint] at hwaits
    obtain rfl := Option.some.inj hstep
    exact ⟨hledger.goto _, hwaits⟩
  · rename_i failure hpoint
    obtain rfl := Option.some.inj hstep
    rw [hpoint] at hwaits
    exact .fail hledger hwaits (fun _ _ _ _ => nofun) failure
  · rename_i sha256 failure hpoint
    obtain rfl := Option.some.inj hstep
    rw [hpoint] at hwaits
    exact .fail hledger hwaits (fun _ _ _ _ => nofun) failure
  · rename_i failure onProgress hpoint
    obtain rfl := Option.some.inj hstep
    rw [hpoint] at hwaits
    exact .fail hledger hwaits (fun _ _ _ _ => nofun) failure
  · rename_i uploadId batchEnd partNumber prepared failure hpoint
    obtain rfl := Option.some.inj hstep
    rw [hpoint] at hwaits
    exact .fail hledger hwaits (fun _ _ _ _ => nofun) failure
  · rename_i failure hpoint
    obtain rfl := Option.some.inj hstep
    rw [hpoint] at hwaits
    exact .fail hledger hwaits (fun _ _ _ _ => nofun) failure
  · cases hstep

theorem Quiet.inFlight (h : Quiet size actions m) : inFlight actions = [] := by
  refine List.filter_eq_nil_iff.mpr fun i hi => ?_
  rw [h.puts, fst_take_parts h.le, List.mem_range'_1] at hi
  rw [decide_eq_true_eq, not_not, h.settled]
  omega

theorem Putting.inFlight {batchEnd : Nat} {prepared : List PreparedPart}
    {results : List (Option (Except UploadFailure JsString))}
    (h : Putting size k actions batchEnd prepared results) : (inFlight actions).length ≤ 3 := by
  have hbatch := h.batch
  have hparallel : prepared.length ≤ 3 := h.parallel
  have hsplit : List.range' 1 batchEnd =
      List.range' 1 k ++ List.range' (1 + k) prepared.length := by
    rw [← hbatch, List.range'_append_1]
  have hsettled : (List.range' 1 k).filter (fun i => i ∉ Web.settled actions) = [] := by
    refine List.filter_eq_nil_iff.mpr fun i hi => ?_
    rw [List.mem_range'_1] at hi
    rw [decide_eq_true_eq, not_not, h.settled]
    omega
  rw [Web.inFlight, h.puts, fst_take_parts h.le, hsplit, List.filter_append, hsettled,
    List.nil_append]
  refine (List.length_filter_le _ _).trans ?_
  rw [List.length_range']
  exact hparallel

theorem Sound.inFlight (h : u.Sound) : (inFlight u.actions).length ≤ 3 := by
  by_cases hbatch : ∀ uploadId batchEnd prepared results,
      u.point ≠ .putting uploadId batchEnd prepared results
  · obtain ⟨m, hquiet⟩ := Waits.exists_quiet h.2 hbatch
    rw [hquiet.inFlight]
    exact Nat.zero_le 3
  · push Not at hbatch
    obtain ⟨uploadId, batchEnd, prepared, results, hpoint⟩ := hbatch
    have hwaits := h.2
    rw [hpoint] at hwaits
    exact hwaits.1.inFlight

/-- What has been put is the first parts of the file. -/
theorem Sound.puts (h : u.Sound) :
    puts u.actions <+: parts u.size ∧
      ∀ i ∈ settled u.actions, i ∈ (puts u.actions).map Prod.fst := by
  by_cases hbatch : ∀ uploadId batchEnd prepared results,
      u.point ≠ .putting uploadId batchEnd prepared results
  · obtain ⟨m, hquiet⟩ := Waits.exists_quiet h.2 hbatch
    rw [hquiet.puts]
    refine ⟨List.take_prefix m _, fun i hi => ?_⟩
    rw [fst_take_parts hquiet.le, List.mem_range'_1]
    have hrange := (hquiet.settled i).mp hi
    omega
  · push Not at hbatch
    obtain ⟨uploadId, batchEnd, prepared, results, hpoint⟩ := hbatch
    have hputting := h.2
    rw [hpoint] at hputting
    obtain ⟨hputting, -⟩ := hputting
    have hbatchEnd := hputting.batch
    have hlength := hputting.length
    rw [hputting.puts]
    refine ⟨List.take_prefix batchEnd _, fun i hi => ?_⟩
    rw [fst_take_parts hputting.le, List.mem_range'_1]
    rcases (hputting.settled i).mp hi with hrange | ⟨index, result, hindex, rfl⟩
    · omega
    · have hlt := (List.getElem?_eq_some_iff.mp hindex).1
      omega

/-- What the actions of an upload satisfy: its `PUT`s are the first parts of the file,
no two of them have one body, each settles once, `complete` is called once at most and behind all parts, and the
reports grow up to the size. -/
structure Correct (u : Upload) : Prop where
  puts : puts u.actions <+: parts u.size ∧ ((Web.puts u.actions).map Prod.snd).Nodup
  settled : (settled u.actions).Nodup ∧
    ∀ i ∈ Web.settled u.actions, i ∈ (Web.puts u.actions).map Prod.fst
  parallel : (inFlight u.actions).length ≤ 3
  complete : ∀ pre uploadId listed post, u.actions = pre ++ .complete uploadId listed :: post →
    (∀ uploadId' listed', .complete uploadId' listed' ∉ pre) ∧ .abort ∉ pre ∧
      listed.map (·.partNumber) =
        (List.range' 1 (partCount u.size)).map (fun (i : Nat) => (i : Int)) ∧
      ∀ part ∈ listed, isEtag part.etag = true ∧ .stored part.partNumber.toNat part.etag ∈ pre
  progress : (reports u.actions).Pairwise (· ≤ ·) ∧ ∀ b ∈ reports u.actions, b ≤ u.size
  success : u.point = .finished none → (reports u.actions).getLast? = some u.size

theorem Sound.correct (h : u.Sound) : u.Correct where
  puts := by
    refine ⟨h.puts.1, ?_⟩
    have hnodup := nodup_of_consecutive (consecutive_parts u.size)
    exact hnodup.sublist (h.puts.1.map Prod.snd).sublist
  settled := ⟨h.1.settled, h.puts.2⟩
  parallel := h.inFlight
  complete pre uploadId listed post heq := by
    obtain ⟨hfirst, haborted, hnumbers, hstored⟩ := h.1.complete pre uploadId listed post heq
    exact ⟨hfirst, haborted, hnumbers, hstored⟩
  progress := ⟨h.1.ordered, fun b hb => (h.1.bounded b hb).trans (Nat.min_le_right _ _)⟩
  success hpoint := by
    have hwaits := h.2
    rw [hpoint] at hwaits
    obtain ⟨-, hall, hreported⟩ := hwaits
    rw [Reported, hall, min_partCount] at hreported
    exact hreported

end Upload

/-! ### The uploader -/

namespace Uploader

variable {dateParse : Text → Option Int} {digest : Bytes → Vector UInt8 32}

theorem begin_sound (command : UploadCommand) : (begin dateParse command).Sound := by
  have hledger : ∀ command point, Upload.Ledger ⟨command, false, [], point, []⟩ := by
    intro command point
    refine ⟨nofun, rfl, List.forall_mem_nil _, List.nodup_nil, .nil, List.forall_mem_nil _, ?_⟩
    intro pre uploadId listed post heq
    cases pre with
    | nil => cases heq
    | cons a pre => cases heq
  have hquiet : ∀ size, Upload.Quiet size [] 0 := fun size =>
    ⟨Nat.zero_le _, rfl, fun i => ⟨nofun, fun hi => absurd hi (by omega)⟩⟩
  unfold begin
  split
  · exact ⟨hledger _ _, 0, hquiet _⟩
  · exact ⟨hledger _ _, rfl, hquiet _, rfl, rfl⟩

/-- Every upload is sound, and the past ones have finished. -/
structure Sound (s : Uploader) : Prop where
  past : ∀ u ∈ s.past, u.Sound ∧ ∃ failure, u.point = .finished failure
  active : ∀ u ∈ s.active, u.Sound

theorem Sound.next {s t : Uploader} {e : UploaderEvent} (h : s.Sound)
    (hnext : next dateParse digest s e = some t) : t.Sound := by
  cases e with
  | upload command =>
      dsimp only [Uploader.next] at hnext
      split at hnext
      · obtain rfl := Option.some.inj hnext
        exact h
      · obtain rfl := Option.some.inj hnext
        refine ⟨h.past, fun u hu => ?_⟩
        obtain rfl := Option.some.inj hu
        exact begin_sound command
  | cancel =>
      dsimp only [Uploader.next] at hnext
      split at hnext
      · rename_i u hactive
        obtain rfl := Option.some.inj hnext
        refine ⟨h.past, fun v hv => ?_⟩
        obtain rfl := Option.some.inj hv
        exact (h.active u hactive).abort
      · obtain rfl := Option.some.inj hnext
        exact h
  | answer a =>
      obtain ⟨u, hactive, hstep⟩ := Option.bind_eq_some_iff.mp hnext
      obtain ⟨v, hv, rfl⟩ := Option.map_eq_some_iff.mp hstep
      refine ⟨h.past, fun w hw => ?_⟩
      obtain rfl := Option.some.inj hw
      exact (h.active u hactive).step hv
  | release =>
      dsimp only [Uploader.next] at hnext
      split at hnext
      · rename_i u hactive
        split at hnext
        · rename_i failure hpoint
          obtain rfl := Option.some.inj hnext
          refine ⟨fun v hv => ?_, nofun⟩
          rcases List.mem_append.mp hv with hv | hv
          · exact h.past v hv
          · rw [List.mem_singleton.mp hv]
            exact ⟨h.active u hactive, failure, hpoint⟩
        · cases hnext
      · cases hnext

/-- In every state of the uploader the parts of a file are consecutive slices that cut it
from its start to its end, each of its uploads is correct, and at most three `PUT`s are
under way. -/
theorem uploads_correct {s : Uploader} (h : Reachable (next dateParse digest) init s) :
    (∀ size, Consecutive 0 size ((parts size).map Prod.snd)) ∧
      (∀ u ∈ s.past ++ s.active.toList, u.Correct) ∧
      ((s.past ++ s.active.toList).flatMap fun u => inFlight u.actions).length ≤ 3 := by
  have hsound : s.Sound :=
    h.preserves (fun _ _ _ hs hstep => hs.next hstep) ⟨List.forall_mem_nil _, nofun⟩
  refine ⟨consecutive_parts, fun u hu => ?_, ?_⟩
  · rcases List.mem_append.mp hu with hpast | hactive
    · exact (hsound.past u hpast).1.correct
    · exact (hsound.active u (Option.mem_toList.mp hactive)).correct
  · have hpast : (s.past.flatMap fun u => inFlight u.actions) = [] := by
      refine List.flatMap_eq_nil_iff.mpr fun u hu => ?_
      obtain ⟨hu, failure, hpoint⟩ := hsound.past u hu
      have hbatch : ∀ uploadId batchEnd prepared results,
          u.point ≠ .putting uploadId batchEnd prepared results := by
        intro uploadId batchEnd prepared results hputting
        rw [hpoint] at hputting
        cases hputting
      obtain ⟨m, hquiet⟩ := Upload.Waits.exists_quiet hu.2 hbatch
      exact hquiet.inFlight
    rw [List.flatMap_append, hpast, List.nil_append]
    cases hactive : s.active with
    | none => exact Nat.zero_le 3
    | some u =>
        have hu := hsound.active u hactive
        rw [Option.toList_some, List.flatMap_singleton]
        exact hu.inFlight

/-- 25 MiB in four parts; the second `PUT` settles first. -/
def sampleRun : List UploaderEvent :=
  let text (s : String) : Except UploadFailure JsString := .ok (JsString.ofString s)
  [.upload (sampleCommand (JsString.ofString "K3") (25 * 1024 * 1024)),
    .answer (.hashed (.ok sampleSha256)), .answer (.keyed (.ok ())),
    .answer (.started (text "u") ⟨false, false⟩),
    .answer (.presigned (text "/1")), .answer (.presigned (text "/2")),
    .answer (.presigned (text "/3")), .answer (.put 1 (text "b")), .answer (.put 0 (text "a")),
    .answer (.put 2 (text "c")), .answer (.allSettled ⟨false, false⟩),
    .answer (.presigned (text "/4")), .answer (.put 0 (text "d")),
    .answer (.allSettled ⟨false, false⟩), .answer (.completed (.ok ())), .release]

def sampleEnd : Option Uploader :=
  run (next utcMidnight fun _ => sampleKeyDigest) init sampleRun

theorem uploads_correct_sample :
    ∃ s, sampleEnd = some s ∧ ∃ u, s.past = [u] ∧ u.Correct ∧ u.point = .finished none ∧
      (puts u.actions).length = 4 ∧ (completions u.actions).length = 1 := by
  have hfinished : sampleEnd.any (fun s => s.past.length == 1 && s.past.all fun u =>
      u.point == .finished none && (puts u.actions).length == 4 &&
        (completions u.actions).length == 1) = true := by
    decide +kernel
  obtain ⟨s, hs, hpast⟩ := (Option.any_eq_true _ _).mp hfinished
  rw [Bool.and_eq_true, beq_iff_eq] at hpast
  obtain ⟨u, hu⟩ := List.length_eq_one_iff.mp hpast.1
  have hend := List.all_eq_true.mp hpast.2 u (by simp [hu])
  rw [Bool.and_eq_true, Bool.and_eq_true, beq_iff_eq, beq_iff_eq, beq_iff_eq] at hend
  have hcorrect := (uploads_correct ⟨sampleRun, hs⟩).2.1 u (by simp [hu])
  exact ⟨s, hs, u, hu, hcorrect, hend.1.1, hend.1.2, hend.2⟩

end Uploader

end SuperBoss.Web
