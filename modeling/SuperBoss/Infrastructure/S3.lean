import Mathlib.Data.List.Dedup
import Mathlib.Data.List.Lex
import Mathlib.Data.List.Sort
import Mathlib.Order.RelClasses
import SuperBoss.Files.Storage

/-!
`Boto3ObjectStorage.list_multipart_uploads`: the pages of a listing are asked for one by
one until a page is final, or one brings no new marker.
-/

namespace SuperBoss.Infrastructure.S3

open SuperBoss.Core

/-- A `KeyMarker` with its `UploadIdMarker`. -/
abbrev Marker := Text × Text

/-- The arguments of a call of the client. -/
structure PageRequest where
  keyPrefix : Text
  marker : Option Marker
  deriving DecidableEq

/-- An element of `Uploads`. -/
structure UploadEntry where
  key : Option Text
  uploadId : Option Text
  deriving DecidableEq

/-- The fields of an answer that are read; a marker that is no string is none. -/
structure UploadsPage where
  uploads : List UploadEntry
  isTruncated : Bool
  nextKeyMarker : Option Text
  nextUploadIdMarker : Option Text
  deriving DecidableEq

/-- A call returns a page, or it raises. -/
inductive Answer
  | page (page : UploadsPage)
  | raised
  deriving DecidableEq

/-- How a listing ends. -/
inductive Outcome
  | listed (multipartIds : List Text)
  | paginationError
  | raised
  deriving DecidableEq

/-- What the provider answers may depend on all that it was asked before. -/
abbrev Provider := List (PageRequest × Answer) → PageRequest → Answer

/-- The variables of the loop, and the calls so far with their answers. -/
structure Listing where
  multipartIds : List Text
  seenMarkers : List Marker
  keyMarker : Option Text
  uploadIdMarker : Option Text
  log : List (PageRequest × Answer)

/-- `_list_multipart_uploads_page`. -/
def listMultipartUploadsPage (objectKey : Text) (keyMarker uploadIdMarker : Option Text) :
    PageRequest :=
  match keyMarker, uploadIdMarker with
  | some key, some uploadId => ⟨objectKey, some (key, uploadId)⟩
  | _, _ => ⟨objectKey, none⟩

namespace UploadsPage

/-- The upload ids that are added to `multipart_ids`. -/
def multipartIds (page : UploadsPage) (objectKey : Text) : List Text :=
  page.uploads.filterMap fun upload =>
    if upload.key = some objectKey then upload.uploadId else none

/-- `next_markers`, where both are strings. -/
def markers (page : UploadsPage) : Option Marker :=
  match page.nextKeyMarker, page.nextUploadIdMarker with
  | some key, some uploadId => some (key, uploadId)
  | _, _ => none

end UploadsPage

/-- `sorted` of a set. -/
def sortedSet (ids : List Text) : List Text := ids.dedup.insertionSort (· ≤ ·)

namespace Listing

def init : Listing := ⟨[], [], none, none, []⟩

def request (s : Listing) (objectKey : Text) : PageRequest :=
  listMultipartUploadsPage objectKey s.keyMarker s.uploadIdMarker

/-- The body of the loop behind the call. -/
def turn (s : Listing) (objectKey : Text) (page : UploadsPage) : Except Outcome Listing :=
  let multipartIds := s.multipartIds ++ page.multipartIds objectKey
  if page.isTruncated = false then .error (.listed (sortedSet multipartIds))
  else
    match page.markers with
    | none => .error .paginationError
    | some next =>
        if next ∈ s.seenMarkers then .error .paginationError
        else
          .ok { s with
            multipartIds
            seenMarkers := s.seenMarkers ++ [next]
            keyMarker := some next.1
            uploadIdMarker := some next.2 }

/-- An iteration. -/
def iterate (provider : Provider) (objectKey : Text) (s : Listing) : Listing × Option Outcome :=
  let request := s.request objectKey
  let answer := provider s.log request
  let s := { s with log := s.log ++ [(request, answer)] }
  match answer with
  | .raised => (s, some .raised)
  | .page page =>
      match s.turn objectKey page with
      | .error outcome => (s, some outcome)
      | .ok t => (t, none)

/-- `while True`, for `n` iterations at most. -/
def run (provider : Provider) (objectKey : Text) : Nat → Listing → Listing × Option Outcome
  | 0, s => (s, none)
  | n + 1, s =>
      match s.iterate provider objectKey with
      | (t, none) => run provider objectKey n t
      | (t, some outcome) => (t, some outcome)

end Listing

/-- `list_multipart_uploads`, for `n` iterations at most. -/
def listMultipartUploads (provider : Provider) (objectKey : Text) (n : Nat) :
    Listing × Option Outcome :=
  Listing.run provider objectKey n .init

/-! ### Iterations -/

theorem mem_sortedSet {ids : List Text} {id : Text} : id ∈ sortedSet ids ↔ id ∈ ids := by
  rw [sortedSet, List.mem_insertionSort, List.mem_dedup]

theorem pairwise_sortedSet (ids : List Text) : (sortedSet ids).Pairwise (· < ·) := by
  have hnodup : (sortedSet ids).Nodup :=
    (List.perm_insertionSort (· ≤ ·) ids.dedup).nodup_iff.mpr (List.nodup_dedup ids)
  have hsorted : (sortedSet ids).Pairwise (· ≤ ·) :=
    List.pairwise_insertionSort (· ≤ ·) ids.dedup
  exact (hsorted.and hnodup).imp fun ⟨hle, hne⟩ => lt_of_le_of_ne hle hne

theorem sortedSet_congr {ids ids' : List Text} (h : ∀ id, id ∈ ids ↔ id ∈ ids') :
    sortedSet ids = sortedSet ids' := by
  have hperm : (sortedSet ids).Perm (sortedSet ids') := by
    refine (List.perm_ext_iff_of_nodup ?_ ?_).mpr fun id => ?_
    · exact (pairwise_sortedSet ids).imp fun hlt => hlt.ne
    · exact (pairwise_sortedSet ids').imp fun hlt => hlt.ne
    · rw [mem_sortedSet, mem_sortedSet, h]
  exact hperm.eq_of_pairwise' ((pairwise_sortedSet ids).imp le_of_lt)
    ((pairwise_sortedSet ids').imp le_of_lt)

namespace Listing

variable {provider : Provider} {objectKey : Text} {s t : Listing}

/-- What an iteration does, by the answer of the provider. -/
inductive Iterated (provider : Provider) (objectKey : Text) (s : Listing) :
    Listing → Option Outcome → Prop
  | raised (h : provider s.log (s.request objectKey) = .raised) :
      Iterated provider objectKey s
        { s with log := s.log ++ [(s.request objectKey, .raised)] } (some .raised)
  | final (page : UploadsPage) (h : provider s.log (s.request objectKey) = .page page)
      (hfinal : page.isTruncated = false) :
      Iterated provider objectKey s
        { s with log := s.log ++ [(s.request objectKey, .page page)] }
        (some (.listed (sortedSet (s.multipartIds ++ page.multipartIds objectKey))))
  | stuck (page : UploadsPage) (h : provider s.log (s.request objectKey) = .page page)
      (htruncated : page.isTruncated = true)
      (hmarkers : ∀ m, page.markers = some m → m ∈ s.seenMarkers) :
      Iterated provider objectKey s
        { s with log := s.log ++ [(s.request objectKey, .page page)] } (some .paginationError)
  | more (page : UploadsPage) (m : Marker)
      (h : provider s.log (s.request objectKey) = .page page)
      (htruncated : page.isTruncated = true) (hmarkers : page.markers = some m)
      (hnew : m ∉ s.seenMarkers) :
      Iterated provider objectKey s
        { multipartIds := s.multipartIds ++ page.multipartIds objectKey
          seenMarkers := s.seenMarkers ++ [m]
          keyMarker := some m.1
          uploadIdMarker := some m.2
          log := s.log ++ [(s.request objectKey, .page page)] } none

theorem iterated (provider : Provider) (objectKey : Text) (s : Listing) :
    Iterated provider objectKey s (s.iterate provider objectKey).1
      (s.iterate provider objectKey).2 := by
  unfold iterate
  dsimp only
  split
  · rename_i hanswer
    rw [hanswer]
    exact .raised hanswer
  · rename_i page hanswer
    rw [hanswer]
    unfold turn
    dsimp only
    split
    · rename_i outcome hturn
      split at hturn
      · rename_i hfinal
        obtain rfl := Except.error.inj hturn
        exact .final page hanswer hfinal
      · rename_i htruncated
        rw [Bool.not_eq_false] at htruncated
        split at hturn
        · rename_i hmarkers
          obtain rfl := Except.error.inj hturn
          refine .stuck page hanswer htruncated fun m hm => ?_
          rw [hmarkers] at hm
          cases hm
        · rename_i next hmarkers
          split at hturn
          · rename_i hseen
            obtain rfl := Except.error.inj hturn
            refine .stuck page hanswer htruncated fun m hm => ?_
            rw [hmarkers] at hm
            obtain rfl := Option.some.inj hm
            exact hseen
          · cases hturn
    · rename_i t hturn
      split at hturn
      · cases hturn
      · rename_i htruncated
        rw [Bool.not_eq_false] at htruncated
        split at hturn
        · cases hturn
        · rename_i next hmarkers
          split at hturn
          · cases hturn
          · rename_i hnew
            obtain rfl := Except.ok.inj hturn
            exact .more page next hanswer htruncated hmarkers hnew

/-! ### The calls -/

/-- The ids that the pages name for the key. -/
def found (objectKey : Text) (log : List (PageRequest × Answer)) : List Text :=
  log.flatMap fun entry =>
    match entry.2 with
    | .page page => page.multipartIds objectKey
    | .raised => []

/-- The calls so far: each is answered with a page that hands out the markers of the next
call, and no markers are handed out twice. -/
structure Asked (provider : Provider) (objectKey : Text) (s : Listing) : Prop where
  requests : s.log.map Prod.fst ++ [s.request objectKey] =
    (none :: s.seenMarkers.map some).map (PageRequest.mk objectKey)
  seen : s.seenMarkers.Nodup
  answers : ∀ i request answer, s.log[i]? = some (request, answer) →
    answer = provider (s.log.take i) request ∧ ∃ page m, answer = .page page ∧
      page.isTruncated = true ∧ page.markers = some m ∧ s.seenMarkers[i]? = some m
  ids : s.multipartIds = found objectKey s.log

theorem found_concat (log : List (PageRequest × Answer)) (request : PageRequest)
    (page : UploadsPage) : found objectKey (log ++ [(request, .page page)]) =
      found objectKey log ++ page.multipartIds objectKey := by
  rw [found, List.flatMap_append, List.flatMap_singleton]
  rfl

theorem asked_init : Asked provider objectKey init where
  requests := rfl
  seen := List.nodup_nil
  answers i request answer h := by cases h
  ids := rfl

theorem Asked.length (h : Asked provider objectKey s) :
    s.seenMarkers.length = s.log.length := by
  have hlength := congrArg List.length h.requests
  rw [List.length_append, List.length_singleton, List.length_map, List.length_map,
    List.length_cons, List.length_map] at hlength
  exact (Nat.succ.inj hlength).symm

/-- An entry of a list with one more element. -/
theorem getElem?_concat {α : Type} {l : List α} {a b : α} {i : Nat}
    (h : (l ++ [a])[i]? = some b) : (i < l.length ∧ l[i]? = some b) ∨ (i = l.length ∧ a = b) := by
  rcases Nat.lt_trichotomy i l.length with hlt | heq | hgt
  · rw [List.getElem?_append_left hlt] at h
    exact .inl ⟨hlt, h⟩
  · rw [heq, List.getElem?_concat_length] at h
    exact .inr ⟨heq, Option.some.inj h⟩
  · rw [List.getElem?_eq_none (by rw [List.length_append, List.length_singleton]; omega)] at h
    cases h

theorem Asked.more (h : Asked provider objectKey s) (ht : Iterated provider objectKey s t none) :
    Asked provider objectKey t := by
  have hlength := h.length
  cases ht with
  | more page m hanswer htruncated hmarkers hnew =>
      refine ⟨?_, ?_, ?_, ?_⟩
      · change (s.log ++ [_]).map Prod.fst ++ [⟨objectKey, some m⟩] = _
        rw [List.map_append, List.map_singleton, h.requests, List.map_append,
          ← List.cons_append, List.map_append]
        rfl
      · rw [List.nodup_append]
        refine ⟨h.seen, List.nodup_singleton m, fun a ha b hb heq => hnew ?_⟩
        rw [← List.mem_singleton.mp hb, ← heq]
        exact ha
      · intro i request answer hi
        change (s.log ++ [_])[i]? = _ at hi
        change answer = provider ((s.log ++ [_]).take i) request ∧ _
        rcases getElem?_concat hi with ⟨hlt, hi⟩ | ⟨rfl, hentry⟩
        · obtain ⟨hprovider, page', m', hpage, htr, hm', hseen⟩ := h.answers i request answer hi
          rw [List.take_append_of_le_length hlt.le]
          refine ⟨hprovider, page', m', hpage, htr, hm', ?_⟩
          rw [List.getElem?_append_left (hlength ▸ hlt)]
          exact hseen
        · obtain ⟨rfl, rfl⟩ := Prod.mk.inj hentry
          rw [List.take_left]
          refine ⟨hanswer.symm, page, m, rfl, htruncated, hmarkers, ?_⟩
          rw [← hlength]
          exact List.getElem?_concat_length
      · change s.multipartIds ++ _ = found objectKey (s.log ++ [_])
        rw [found_concat, h.ids]

/-- The calls of a listing with their answers: no markers are asked for twice, and the loop
goes on only behind a page that is truncated and hands out the next markers. -/
structure Calls (provider : Provider) (objectKey : Text) (log : List (PageRequest × Answer)) :
    Prop where
  nodup : (log.map Prod.fst).Nodup
  first : ∀ entry ∈ log.head?, entry.1 = ⟨objectKey, none⟩
  answers : ∀ i request answer, log[i]? = some (request, answer) →
    answer = provider (log.take i) request
  next : ∀ i request answer request' answer', log[i]? = some (request, answer) →
    log[i + 1]? = some (request', answer') →
    ∃ page m, answer = .page page ∧ page.isTruncated = true ∧ page.markers = some m ∧
      request' = ⟨objectKey, some m⟩

theorem Calls.of_concat {log : List (PageRequest × Answer)} {entry : PageRequest × Answer}
    (h : Calls provider objectKey (log ++ [entry])) : Calls provider objectKey log := by
  have hget : ∀ {i : Nat} {e : PageRequest × Answer}, log[i]? = some e →
      i < log.length ∧ (log ++ [entry])[i]? = some e := by
    intro i e hi
    have hlt := (List.getElem?_eq_some_iff.mp hi).1
    exact ⟨hlt, (List.getElem?_append_left hlt).trans hi⟩
  refine ⟨?_, ?_, ?_, ?_⟩
  · have hnodup := h.nodup
    rw [List.map_append] at hnodup
    exact hnodup.of_append_left
  · intro e he
    refine h.first e ?_
    rw [List.head?_append, Option.mem_def.mp he]
    rfl
  · intro i request answer hi
    obtain ⟨hlt, hi'⟩ := hget hi
    rw [h.answers i request answer hi', List.take_append_of_le_length hlt.le]
  · intro i request answer request' answer' hi hi'
    exact h.next i request answer request' answer' (hget hi).2 (hget hi').2

/-- With the call that is due. -/
theorem Asked.calls (h : Asked provider objectKey s) :
    Calls provider objectKey
      (s.log ++ [(s.request objectKey, provider s.log (s.request objectKey))]) := by
  have hfst : (s.log ++ [(s.request objectKey, provider s.log (s.request objectKey))]).map
      Prod.fst = (none :: s.seenMarkers.map some).map (PageRequest.mk objectKey) := by
    rw [List.map_append, List.map_singleton]
    exact h.requests
  have hget : ∀ {i : Nat} {request : PageRequest} {answer : Answer},
      (s.log ++ [(s.request objectKey, provider s.log (s.request objectKey))])[i]? =
        some (request, answer) →
      ((none :: s.seenMarkers.map some).map (PageRequest.mk objectKey))[i]? = some request := by
    intro i request answer hi
    rw [← hfst, List.getElem?_map, hi]
    rfl
  refine ⟨?_, ?_, ?_, ?_⟩
  · rw [hfst]
    refine List.Nodup.map (fun a b hab => (PageRequest.mk.inj hab).2) ?_
    refine List.nodup_cons.mpr ⟨?_, h.seen.map (Option.some_injective _)⟩
    rw [List.mem_map]
    rintro ⟨m, -, hm⟩
    cases hm
  · intro entry hentry
    rw [Option.mem_def, List.head?_eq_getElem?] at hentry
    exact (Option.some.inj (hget hentry)).symm
  · intro i request answer hi
    rcases getElem?_concat hi with ⟨hlt, hi⟩ | ⟨rfl, hentry⟩
    · rw [List.take_append_of_le_length hlt.le]
      exact (h.answers i request answer hi).1
    · obtain ⟨rfl, rfl⟩ := Prod.mk.inj hentry
      rw [List.take_left]
  · intro i request answer request' answer' hi hi'
    rcases getElem?_concat hi with ⟨hlt, hi⟩ | ⟨rfl, -⟩
    · obtain ⟨-, page, m, hpage, htruncated, hm, hseen⟩ := h.answers i request answer hi
      refine ⟨page, m, hpage, htruncated, hm, ?_⟩
      have hnext := hget hi'
      rw [List.getElem?_map, List.getElem?_cons_succ, List.getElem?_map, hseen] at hnext
      exact (Option.some.inj hnext).symm
    · have hlt := (List.getElem?_eq_some_iff.mp hi').1
      rw [List.length_append, List.length_singleton] at hlt
      omega

/-- How a listing ends, by the answer to its last call. -/
inductive Ended (objectKey : Text) (log : List (PageRequest × Answer)) (answer : Answer) :
    Outcome → Prop
  | raised (h : answer = .raised) : Ended objectKey log answer .raised
  | listed (page : UploadsPage) (h : answer = .page page) (hfinal : page.isTruncated = false) :
      Ended objectKey log answer (.listed (sortedSet (found objectKey log)))
  | paginationError (page : UploadsPage) (h : answer = .page page)
      (htruncated : page.isTruncated = true)
      (hmarkers : ∀ m, page.markers = some m → ⟨objectKey, some m⟩ ∈ log.map Prod.fst) :
      Ended objectKey log answer .paginationError

/-- The calls of a run, and its end; a run that has not ended has just been handed new
markers. -/
structure Traced (provider : Provider) (objectKey : Text) (s : Listing)
    (outcome : Option Outcome) : Prop where
  calls : Calls provider objectKey s.log
  unfinished : outcome = none → ∀ request answer, s.log.getLast? = some (request, answer) →
    ∃ page m, answer = .page page ∧ page.isTruncated = true ∧ page.markers = some m ∧
      ⟨objectKey, some m⟩ ∉ s.log.map Prod.fst
  ended : ∀ o, outcome = some o → ∃ request answer,
    s.log.getLast? = some (request, answer) ∧ Ended objectKey s.log answer o

theorem Asked.unfinished (h : Asked provider objectKey s) (request : PageRequest)
    (answer : Answer) (hlast : s.log.getLast? = some (request, answer)) :
    ∃ page m, answer = .page page ∧ page.isTruncated = true ∧ page.markers = some m ∧
      ⟨objectKey, some m⟩ ∉ s.log.map Prod.fst := by
  have hlength := h.length
  rw [List.getLast?_eq_getElem?] at hlast
  have hlt := (List.getElem?_eq_some_iff.mp hlast).1
  obtain ⟨-, page, m, hpage, htruncated, hm, hseen⟩ := h.answers _ request answer hlast
  refine ⟨page, m, hpage, htruncated, hm, ?_⟩
  have hnodup := h.calls.nodup
  have hdue : s.request objectKey = ⟨objectKey, some m⟩ := by
    have hget := congrArg (fun l => l[s.log.length]?) h.requests
    have hindex : s.log.length = (s.log.length - 1) + 1 := by omega
    rw [List.getElem?_append_right (List.length_map _).le, List.length_map, Nat.sub_self,
      List.getElem?_cons_zero, List.getElem?_map, hindex, List.getElem?_cons_succ,
      List.getElem?_map, hseen] at hget
    exact Option.some.inj hget
  rw [List.map_append, List.nodup_append] at hnodup
  intro hmem
  exact hnodup.2.2 _ hmem _ (List.mem_singleton.mpr rfl) hdue.symm

theorem Asked.traced {outcome : Outcome} (h : Asked provider objectKey s)
    (ht : Iterated provider objectKey s t (some outcome)) :
    Traced provider objectKey t (some outcome) := by
  have hcalls := h.calls
  have hlast : ∀ answer, (s.log ++ [(s.request objectKey, answer)]).getLast? =
      some (s.request objectKey, answer) := fun answer => List.getLast?_concat
  cases ht with
  | raised hanswer =>
      rw [hanswer] at hcalls
      refine ⟨hcalls, nofun, fun o ho => ?_⟩
      obtain rfl := Option.some.inj ho
      exact ⟨_, _, hlast _, .raised rfl⟩
  | final page hanswer hfinal =>
      rw [hanswer] at hcalls
      refine ⟨hcalls, nofun, fun o ho => ?_⟩
      obtain rfl := Option.some.inj ho
      refine ⟨_, _, hlast _, ?_⟩
      have hfound : found objectKey (s.log ++ [(s.request objectKey, .page page)]) =
          s.multipartIds ++ page.multipartIds objectKey := by
        rw [found_concat, h.ids]
      rw [← hfound]
      exact .listed page rfl hfinal
  | stuck page hanswer htruncated hmarkers =>
      rw [hanswer] at hcalls
      refine ⟨hcalls, nofun, fun o ho => ?_⟩
      obtain rfl := Option.some.inj ho
      refine ⟨_, _, hlast _, .paginationError page rfl htruncated fun m hm => ?_⟩
      rw [List.map_append, List.map_singleton, h.requests, List.map_cons, List.map_map]
      exact List.mem_cons_of_mem _ (List.mem_map.mpr ⟨m, hmarkers m hm, rfl⟩)

theorem Asked.run (h : Asked provider objectKey s) (n : Nat) :
    Traced provider objectKey (run provider objectKey n s).1 (run provider objectKey n s).2 := by
  induction n generalizing s with
  | zero => exact ⟨h.calls.of_concat, fun _ => h.unfinished, nofun⟩
  | succ n ih =>
      have ht := iterated provider objectKey s
      unfold Listing.run
      split
      · rename_i t hiterate
        rw [hiterate] at ht
        exact ih (h.more ht)
      · rename_i t outcome hiterate
        rw [hiterate] at ht
        exact h.traced ht

/-! ### Termination -/

/-- The loop goes on only with new markers. -/
theorem Asked.length_of_run {markers : List Marker} {n : Nat} (h : Asked provider objectKey s)
    (hmarkers : ∀ log request page m, provider log request = .page page →
      page.isTruncated = true → page.markers = some m → m ∈ markers)
    (hseen : s.seenMarkers ⊆ markers) (hrun : (Listing.run provider objectKey n s).2 = none) :
    s.seenMarkers.length + n ≤ markers.length := by
  induction n generalizing s with
  | zero => exact (List.subperm_of_subset h.seen hseen).length_le
  | succ n ih =>
      have ht := iterated provider objectKey s
      unfold Listing.run at hrun
      split at hrun
      · rename_i t hiterate
        rw [hiterate] at ht
        have hmore := h.more ht
        cases ht with
        | more page m hanswer htruncated hm hnew =>
            have hle := ih hmore (by
              intro a ha
              rcases List.mem_append.mp ha with ha | ha
              · exact hseen ha
              · rw [List.mem_singleton.mp ha]
                exact hmarkers _ _ page m hanswer htruncated hm) hrun
            rw [List.length_append, List.length_singleton] at hle
            omega
      · cases hrun

/-! ### Correct pagers -/

/-- The upload comes behind the markers. -/
def Behind (before : Marker → Marker → Prop) (marker : Option Marker) (upload : Marker) : Prop :=
  ∀ m ∈ marker, before m upload

/-- The provider pages through `uploads`, pairs of a key and an upload id: in the order
`before` a page lists the uploads of the prefix behind the markers of the request, the
final one all of them, a truncated one those up to the markers that it hands out. It hands
out later and later markers, each one of `stops`. -/
structure Pages (provider : Provider) (before : Marker → Marker → Prop) (stops : List Marker)
    (uploads : List Marker) : Prop where
  page : ∀ log request, ∃ page, provider log request = .page page ∧
    (page.isTruncated = true → ∃ m ∈ stops, page.markers = some m ∧
      Behind before request.marker m) ∧
    ∀ key id, ⟨some key, some id⟩ ∈ page.uploads ↔
      (key, id) ∈ uploads ∧ request.keyPrefix <+: key ∧ Behind before request.marker (key, id) ∧
        (page.isTruncated = true → ∀ m, page.markers = some m → ¬before m (key, id))

theorem mem_multipartIds {page : UploadsPage} {id : Text} :
    id ∈ page.multipartIds objectKey ↔ ⟨some objectKey, some id⟩ ∈ page.uploads := by
  rw [UploadsPage.multipartIds, List.mem_filterMap]
  constructor
  · rintro ⟨⟨key, uploadId⟩, hmem, hid⟩
    split at hid
    · rename_i hkey
      have hkey' : key = some objectKey := hkey
      have hid' : uploadId = some id := hid
      rwa [hkey', hid'] at hmem
    · cases hid
  · intro hmem
    exact ⟨_, hmem, if_pos rfl⟩

/-- The markers that the next call asks for. -/
def marker (s : Listing) (objectKey : Text) : Option Marker := (s.request objectKey).marker

/-- All uploads of the key up to the markers are found, and the markers handed out so far
come before them. -/
structure Paged (before : Marker → Marker → Prop) (uploads : List Marker) (objectKey : Text)
    (s : Listing) : Prop where
  ids : ∀ id, id ∈ s.multipartIds ↔
    (objectKey, id) ∈ uploads ∧ ¬Behind before (s.marker objectKey) (objectKey, id)
  seen : ∀ m ∈ s.seenMarkers, ∃ last, s.marker objectKey = some last ∧ (m = last ∨ before m last)

theorem paged_init (before : Marker → Marker → Prop) (uploads : List Marker) :
    Paged before uploads objectKey init where
  ids _ := ⟨nofun, fun h => absurd nofun h.2⟩
  seen := nofun

variable {before : Marker → Marker → Prop} {stops uploads : List Marker}

theorem keyPrefix_request (s : Listing) (objectKey : Text) :
    (s.request objectKey).keyPrefix = objectKey := by
  unfold request listMultipartUploadsPage
  split <;> rfl

/-- An iteration with a correct pager ends with all uploads of the key, or it goes on. -/
theorem Paged.iterate [IsStrictOrder Marker before] {outcome : Option Outcome}
    (h : Paged before uploads objectKey s) (hpages : Pages provider before stops uploads)
    (ht : Iterated provider objectKey s t outcome) :
    (outcome = none ∧ Paged before uploads objectKey t) ∨
      ∃ ids : List Text, outcome = some (.listed (sortedSet ids)) ∧
        ∀ id, id ∈ ids ↔ (objectKey, id) ∈ uploads := by
  obtain ⟨page', hanswer', hnext, hlisted⟩ := hpages.page s.log (s.request objectKey)
  have hids : ∀ id, id ∈ page'.multipartIds objectKey ↔ (objectKey, id) ∈ uploads ∧
      Behind before (s.marker objectKey) (objectKey, id) ∧
        (page'.isTruncated = true → ∀ m, page'.markers = some m → ¬before m (objectKey, id)) := by
    intro id
    rw [mem_multipartIds, hlisted, keyPrefix_request]
    exact and_congr_right fun _ => and_iff_right (List.prefix_refl objectKey)
  cases ht with
  | raised hanswer =>
      rw [hanswer'] at hanswer
      cases hanswer
  | final page hanswer hfinal =>
      obtain rfl : page' = page := Answer.page.inj (hanswer'.symm.trans hanswer)
      refine .inr ⟨_, rfl, fun id => ?_⟩
      rw [List.mem_append, h.ids, hids]
      constructor
      · rintro (⟨hmem, -⟩ | ⟨hmem, -⟩)
        · exact hmem
        · exact hmem
      · intro hmem
        by_cases hbehind : Behind before (s.marker objectKey) (objectKey, id)
        · refine .inr ⟨hmem, hbehind, fun htruncated => ?_⟩
          rw [hfinal] at htruncated
          cases htruncated
        · exact .inl ⟨hmem, hbehind⟩
  | stuck page hanswer htruncated hmarkers =>
      obtain rfl : page' = page := Answer.page.inj (hanswer'.symm.trans hanswer)
      obtain ⟨m, -, hm, hbehind⟩ := hnext htruncated
      obtain ⟨last, hlast, hle⟩ := h.seen m (hmarkers m hm)
      have hbefore : before last m := hbehind last hlast
      rcases hle with rfl | hle
      · exact absurd hbefore (irrefl m)
      · exact absurd (trans_of before hle hbefore) (irrefl m)
  | more page m hanswer htruncated hmarkers hnew =>
      obtain rfl : page' = page := Answer.page.inj (hanswer'.symm.trans hanswer)
      obtain ⟨m', -, hm', hbehind⟩ := hnext htruncated
      obtain rfl : m' = m := Option.some.inj (hm'.symm.trans hmarkers)
      refine .inl ⟨rfl, ⟨fun id => ?_, fun m hm => ?_⟩⟩
      · change id ∈ s.multipartIds ++ _ ↔ _ ∧ ¬Behind before (some m') _
        rw [List.mem_append, h.ids, hids]
        constructor
        · rintro (⟨hmem, hnot⟩ | ⟨hmem, -, hupTo⟩)
          · refine ⟨hmem, fun hm => hnot fun last hlast => ?_⟩
            exact trans_of before (hbehind last hlast) (hm m' rfl)
          · exact ⟨hmem, fun hm => hupTo htruncated m' hmarkers (hm m' rfl)⟩
        · rintro ⟨hmem, hnot⟩
          by_cases hlast : Behind before (s.marker objectKey) (objectKey, id)
          · refine .inr ⟨hmem, hlast, fun _ m hm hbefore => hnot fun m'' hm'' => ?_⟩
            rw [hmarkers, Option.some.injEq] at hm
            obtain rfl := Option.some.inj hm''
            rw [hm]
            exact hbefore
          · exact .inl ⟨hmem, hlast⟩
      · refine ⟨m', rfl, ?_⟩
        rcases List.mem_append.mp hm with hm | hm
        · obtain ⟨last, hlast, hle⟩ := h.seen m hm
          have hbefore : before last m' := hbehind last hlast
          rcases hle with rfl | hle
          · exact .inr hbefore
          · exact .inr (trans_of before hle hbefore)
        · exact .inl (List.mem_singleton.mp hm)

/-- A run with a correct pager that ends has found all uploads of the key. -/
theorem Paged.run [IsStrictOrder Marker before] {outcome : Outcome} {n : Nat}
    (h : Paged before uploads objectKey s) (hpages : Pages provider before stops uploads)
    (hrun : (run provider objectKey n s).2 = some outcome) :
    ∃ ids : List Text, outcome = .listed (sortedSet ids) ∧
      ∀ id, id ∈ ids ↔ (objectKey, id) ∈ uploads := by
  induction n generalizing s with
  | zero => cases hrun
  | succ n ih =>
      have ht := iterated provider objectKey s
      unfold Listing.run at hrun
      split at hrun
      · rename_i t hiterate
        rw [hiterate] at ht
        rcases h.iterate hpages ht with ⟨-, hmore⟩ | ⟨ids, hsome, -⟩
        · exact ih hmore hrun
        · cases hsome
      · rename_i t o hiterate
        rw [hiterate] at ht
        obtain rfl := Option.some.inj hrun
        rcases h.iterate hpages ht with ⟨hnone, -⟩ | ⟨ids, hsome, hids⟩
        · cases hnone
        · exact ⟨ids, Option.some.inj hsome, hids⟩

theorem stops_of_pages (hpages : Pages provider before stops uploads)
    {log : List (PageRequest × Answer)} {request : PageRequest} {page : UploadsPage} {m : Marker}
    (h : provider log request = .page page) (htruncated : page.isTruncated = true)
    (hm : page.markers = some m) : m ∈ stops := by
  obtain ⟨page', hanswer, hnext, -⟩ := hpages.page log request
  obtain rfl : page' = page := Answer.page.inj (hanswer.symm.trans h)
  obtain ⟨m', hstop, hm', -⟩ := hnext htruncated
  obtain rfl : m' = m := Option.some.inj (hm'.symm.trans hm)
  exact hstop

/-- With finitely many markers the loop ends. -/
theorem ends (objectKey : Text) {markers : List Marker}
    (h : ∀ log request page m, provider log request = .page page → page.isTruncated = true →
      page.markers = some m → m ∈ markers) {n : Nat} (hn : markers.length < n) :
    (listMultipartUploads provider objectKey n).2.isSome = true := by
  cases hrun : (listMultipartUploads provider objectKey n).2 with
  | some outcome => rfl
  | none =>
      have hle := asked_init.length_of_run h (List.nil_subset markers) hrun
      exact absurd (hle.trans_lt hn) (by omega)

/-- With a correct pager the loop ends with the upload ids of the key. -/
theorem exact_of_pages [IsStrictOrder Marker before]
    (h : Pages provider before stops uploads) {named : List Text}
    (hnamed : ∀ id, id ∈ named ↔ (objectKey, id) ∈ uploads) {n : Nat} (hn : stops.length < n) :
    (listMultipartUploads provider objectKey n).2 = some (.listed (sortedSet named)) := by
  obtain ⟨outcome, houtcome⟩ := Option.isSome_iff_exists.mp
    (ends objectKey (fun _ _ _ _ => stops_of_pages h) hn)
  obtain ⟨ids, rfl, hids⟩ := (paged_init before uploads).run h houtcome
  rw [houtcome, sortedSet_congr fun id => (hids id).trans (hnamed id).symm]

end Listing

/-- The listing of a store that is paged through is the one that the upload flows read. -/
theorem listed_of_storage {provider : Provider} {before : Marker → Marker → Prop}
    [IsStrictOrder Marker before] {stops : List Marker} {storage : Files.Storage}
    (h : Listing.Pages provider before stops storage.uploads) (hnodup : storage.uploads.Nodup)
    (objectKey : Text) {n : Nat} (hn : stops.length < n) :
    (listMultipartUploads provider objectKey n).2 =
      some (.listed (storage.listMultipartUploads objectKey)) := by
  have hids : ((storage.uploads.filter fun u => decide (u.1 = objectKey)).map Prod.snd).Nodup := by
    refine (hnodup.filter _).map_on fun a ha b hb heq => Prod.ext ?_ heq
    have hkey := of_decide_eq_true (List.mem_filter.mp ha).2
    rw [hkey, of_decide_eq_true (List.mem_filter.mp hb).2]
  have hnamed : ∀ id, id ∈ (storage.uploads.filter fun u => decide (u.1 = objectKey)).map Prod.snd ↔
      (objectKey, id) ∈ storage.uploads := by
    intro id
    rw [← storage.mem_listMultipartUploads, Files.Storage.listMultipartUploads,
      List.mem_insertionSort]
  rw [Listing.exact_of_pages h hnamed hn, sortedSet, List.dedup_eq_self.mpr hids]
  rfl

/-- A listing asks for no markers twice and ends at the first page that is final, lacks a
marker or repeats one; it ends after as many calls as there are markers, and one more; and
a provider that pages through finitely many uploads makes it return the sorted ids of
those whose key is the object key. -/
theorem listing_correct (objectKey : Text) :
    (∀ provider n, Listing.Traced provider objectKey (listMultipartUploads provider objectKey n).1
      (listMultipartUploads provider objectKey n).2) ∧
    (∀ (provider : Provider) (markers : List Marker),
      (∀ log request page m, provider log request = .page page → page.isTruncated = true →
        page.markers = some m → m ∈ markers) →
      ∀ n, markers.length < n → (listMultipartUploads provider objectKey n).2.isSome = true) ∧
    ∀ (provider : Provider) (before : Marker → Marker → Prop) (stops uploads : List Marker),
      IsStrictOrder Marker before → Listing.Pages provider before stops uploads →
      ∃ ids : List Text, ids.Pairwise (· < ·) ∧ (∀ id, id ∈ ids ↔ (objectKey, id) ∈ uploads) ∧
        ∀ n, stops.length < n →
          (listMultipartUploads provider objectKey n).2 = some (.listed ids) := by
  refine ⟨fun provider n => Listing.asked_init.run n,
    fun provider markers hmarkers n hn => Listing.ends objectKey hmarkers hn, ?_⟩
  intro provider before stops uploads horder hpages
  obtain ⟨named, hnamed⟩ : ∃ named : List Text, ∀ id, id ∈ named ↔ (objectKey, id) ∈ uploads := by
    refine ⟨(uploads.filter fun u => u.1 = objectKey).map Prod.snd, fun id => ?_⟩
    rw [List.mem_map]
    constructor
    · rintro ⟨⟨key, id'⟩, hfilter, rfl⟩
      obtain ⟨hmem, hkey⟩ := List.mem_filter.mp hfilter
      have hkey' : key = objectKey := of_decide_eq_true hkey
      rwa [hkey'] at hmem
    · exact fun hmem => ⟨_, List.mem_filter.mpr ⟨hmem, decide_eq_true rfl⟩, rfl⟩
  exact ⟨sortedSet named, pairwise_sortedSet named, fun id => mem_sortedSet.trans (hnamed id),
    fun n hn => Listing.exact_of_pages hpages hnamed hn⟩

/-! ### A pager -/

/-- In a list in order the first `size` ones are those that the last of them does not
come before. -/
theorem mem_take_of_sorted {before : Marker → Marker → Prop} [IsStrictOrder Marker before] {rest : List Marker} {size : Nat}
    {m u : Marker} (h : rest.Pairwise before) (hlast : (rest.take size).getLast? = some m) :
    u ∈ rest.take size ↔ u ∈ rest ∧ ¬before m u := by
  obtain ⟨init, hinit⟩ := List.getLast?_eq_some_iff.mp hlast
  rw [← List.take_append_drop size rest, List.pairwise_append] at h
  obtain ⟨htake, -, hdrop⟩ := h
  constructor
  · refine fun hu => ⟨List.mem_of_mem_take hu, fun hbefore => ?_⟩
    rw [hinit] at hu htake
    rcases List.mem_append.mp hu with hu | hu
    · have hm := (List.pairwise_append.mp htake).2.2 u hu m (List.mem_singleton.mpr rfl)
      exact irrefl m (trans_of before hbefore hm)
    · rw [List.mem_singleton.mp hu] at hbefore
      exact irrefl m hbefore
  · rintro ⟨hu, hnot⟩
    rw [← List.take_append_drop size rest] at hu
    rcases List.mem_append.mp hu with hu | hu
    · exact hu
    · refine absurd (hdrop m ?_ u hu) hnot
      rw [hinit]
      exact List.mem_append_right init (List.mem_singleton.mpr rfl)

section

variable (before : Marker → Marker → Prop) [DecidableRel before]

/-- The uploads that a request leaves. -/
def remaining (uploads : List Marker) (request : PageRequest) : List Marker :=
  uploads.filter fun u => request.keyPrefix.isPrefixOf u.1 &&
    request.marker.all fun m => before m u

/-- Pages of `size` uploads, in the order of the list. -/
def pager (size : Nat) (uploads : List Marker) : Provider := fun _ request =>
  let rest := remaining before uploads request
  let last := (rest.take size).getLast?
  .page {
    uploads := (rest.take size).map fun u => ⟨some u.1, some u.2⟩
    isTruncated := size < rest.length
    nextKeyMarker := last.map Prod.fst
    nextUploadIdMarker := last.map Prod.snd }

variable {before}

theorem mem_remaining {uploads : List Marker} {request : PageRequest} {u : Marker} :
    u ∈ remaining before uploads request ↔
      u ∈ uploads ∧ request.keyPrefix <+: u.1 ∧ Listing.Behind before request.marker u := by
  rw [remaining, List.mem_filter, Bool.and_eq_true, List.isPrefixOf_iff_prefix, Option.all_eq_true]
  refine and_congr_right fun _ => and_congr_right fun _ => ?_
  constructor
  · exact fun h m hm => of_decide_eq_true (h m hm)
  · exact fun h m hm => decide_eq_true (h m hm)

/-- The pager pages through its uploads. -/
theorem pages_pager [IsStrictOrder Marker before] {size : Nat} {uploads : List Marker}
    (hsize : 0 < size) (h : uploads.Pairwise before) :
    Listing.Pages (pager before size uploads) before uploads uploads where
  page log request := by
    obtain ⟨rest, hrest⟩ : ∃ rest, rest = remaining before uploads request := ⟨_, rfl⟩
    have hsorted : rest.Pairwise before := by
      rw [hrest]
      exact h.filter _
    have hmem : ∀ u, u ∈ rest ↔ u ∈ uploads ∧ request.keyPrefix <+: u.1 ∧
        Listing.Behind before request.marker u := by
      intro u
      rw [hrest]
      exact mem_remaining
    have hlast : size < rest.length → ∃ m, (rest.take size).getLast? = some m := by
      intro hlt
      cases htake : (rest.take size).getLast? with
      | some m => exact ⟨m, rfl⟩
      | none =>
          have hlength := congrArg List.length (List.getLast?_eq_none_iff.mp htake)
          rw [List.length_take, List.length_nil] at hlength
          omega
    refine ⟨_, rfl, ?_, ?_⟩
    · intro htruncated
      rw [← hrest] at htruncated ⊢
      obtain ⟨m, hm⟩ := hlast (of_decide_eq_true htruncated)
      have hin := (hmem m).mp (List.mem_of_mem_take (List.mem_of_getLast? hm))
      refine ⟨m, hin.1, ?_, hin.2.2⟩
      rw [hm]
      rfl
    · intro key id
      rw [← hrest]
      have hpage : (⟨some key, some id⟩ : UploadEntry) ∈
          (rest.take size).map (fun u => ⟨some u.1, some u.2⟩) ↔ (key, id) ∈ rest.take size := by
        rw [List.mem_map]
        constructor
        · rintro ⟨u, hu, hentry⟩
          cases hentry
          exact hu
        · exact fun hu => ⟨_, hu, rfl⟩
      rw [← and_assoc, ← and_assoc, and_assoc (a := _ ∈ uploads), ← hmem (key, id)]
      refine hpage.trans ?_
      by_cases hlt : size < rest.length
      · obtain ⟨m, hm⟩ := hlast hlt
        rw [mem_take_of_sorted hsorted hm, hm]
        refine and_congr_right fun _ => ⟨fun hnot _ m' hm' => ?_, fun hall => ?_⟩
        · obtain rfl : m = m' := Option.some.inj hm'
          exact hnot
        · exact hall (decide_eq_true hlt) m rfl
      · rw [List.take_of_length_le (not_lt.mp hlt)]
        exact (and_iff_left fun htruncated => absurd (of_decide_eq_true htruncated) hlt).symm

/-- Keys first, then upload ids. -/
def lexBefore (a b : Marker) : Prop := a.1 < b.1 ∨ a.1 = b.1 ∧ a.2 < b.2

instance : DecidableRel lexBefore := fun a b =>
  inferInstanceAs (Decidable (a.1 < b.1 ∨ a.1 = b.1 ∧ a.2 < b.2))

instance : IsStrictOrder Marker lexBefore where
  irrefl a h := by
    rcases h with h | ⟨-, h⟩
    · exact lt_irrefl _ h
    · exact lt_irrefl _ h
  trans a b c h h' := by
    rcases h with h | ⟨heq, h⟩
    · rcases h' with h' | ⟨heq', -⟩
      · exact .inl (h.trans h')
      · exact .inl (heq' ▸ h)
    · rcases h' with h' | ⟨heq', h'⟩
      · exact .inl (heq ▸ h')
      · exact .inr ⟨heq.trans heq', h.trans h'⟩

end

def sampleUploads : List Marker :=
  [("files/a", "u1"), ("files/a", "u3"), ("files/a-b", "u2"), ("files/b", "u0")].map fun u =>
    (Text.ofString u.1, Text.ofString u.2)

theorem listing_correct_sample :
    (listMultipartUploads (pager lexBefore 1 sampleUploads) (Text.ofString "files/a") 5).2 =
      some (.listed [Text.ofString "u1", Text.ofString "u3"]) := by
  have hpages : Listing.Pages (pager lexBefore 1 sampleUploads) lexBefore sampleUploads
      sampleUploads := pages_pager (by decide) (by decide)
  obtain ⟨ids, hsorted, hids, hend⟩ := (listing_correct (Text.ofString "files/a")).2.2
    (pager lexBefore 1 sampleUploads) lexBefore sampleUploads sampleUploads inferInstance hpages
  rw [hend 5 (by decide)]
  have hsample : [Text.ofString "u1", Text.ofString "u3"].Pairwise (· < ·) := by decide
  have hperm : ids.Perm [Text.ofString "u1", Text.ofString "u3"] := by
    refine (List.perm_ext_iff_of_nodup (hsorted.imp fun hlt => hlt.ne) (by decide)).mpr fun id => ?_
    rw [hids]
    simp [sampleUploads, Text.ofString]
  rw [hperm.eq_of_pairwise' (hsorted.imp le_of_lt) (hsample.imp le_of_lt)]

end SuperBoss.Infrastructure.S3
