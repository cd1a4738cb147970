import SuperBoss.Connector.Pairing

/-!
Sessions of the connector: any commands one after another on one origin, each of
which can be stopped before any of its calls.
-/

namespace SuperBoss.Connector

open SuperBoss.Core
open SuperBoss.Files
open SuperBoss.Imports
open SuperBoss.Library
open SuperBoss.Library.Framing

variable {P : Platform} {A : Type} [DecidableEq A] {T : Timestamps P} {C : UrlContext A}
  {origin : Text} {w : Workstation}

/-! ### Starting and retrying -/

/-- The first entry of an operation. -/
theorem entry_of_prepared {fs : FileSystem} {path : Text} {m : PreparedManifest P} {now : Moment}
    {e : OutboxEntry} (hm : prepareManifest P fs path = .ok m)
    (he : validatedInitialEntry T origin m now = .ok e) :
    e.Ok ∧ e.normalizedOrigin = origin ∧ e.idempotencyKey = m.idempotencyKey ∧ e.phase = .create ∧
      e.manifestFingerprint = P.sha256 m.server.canonicalBytes ∧
        ∀ history, Backed P C history e := by
  obtain ⟨rfl, hok⟩ := OutboxEntry.ok_of_validate (e := initialEntry origin m now.val)
    now.property he
  refine ⟨hok, rfl, rfl, rfl, (prepared_of_prepareManifest hm).fingerprint, fun history a ha => ?_⟩
  obtain ⟨stored, hstored, rfl⟩ := List.mem_map.mp ha
  obtain ⟨prepared, hprepared, rfl⟩ := List.mem_map.mp hstored
  refine ⟨((hashed_of_prepareManifest hm).attachments prepared hprepared).content, fun p hp => ?_⟩
  cases hp

theorem preparedForRetry_eq_ok {fs : FileSystem} {e : OutboxEntry} {m : PreparedManifest P}
    (h : preparedForRetry P fs e = .ok m) :
    P.sha256 m.server.canonicalBytes = e.manifestFingerprint := by
  unfold preparedForRetry at h
  split at h
  · cases h
  · cases h
  · rename_i m' hm
    split at h
    · cases h
    · rename_i hsame
      obtain ⟨_, -, rfl⟩ := map_eq_ok.mp h
      rw [← (prepared_of_prepareManifest hm).fingerprint]
      exact not_not.mp (not_or.mp (not_or.mp hsame).2).1

/-- A refresh and the resumption behind it. -/
theorem Workstation.Active.keeping_refreshed {e : OutboxEntry} (h : w.Active T C origin e)
    {m : PreparedManifest P} (hm : P.sha256 m.server.canonicalBytes = e.manifestFingerprint)
    (hphase : e.phase ≠ .evidence) :
    Keeping T C origin
      (fun v w' => ∃ e', w'.Active T C origin e' ∧ e'.idempotencyKey = e.idempotencyKey ∧
        e'.evidence = some v)
      (Workstation.Halted T C origin e.idempotencyKey)
      (do
        let accessToken ← Connector.refresh P
        resume T C accessToken (pathFor P e.idempotencyKey) m e) w := by
  refine Procedure.pre_bind.mpr (((settled_active e).keeping_refresh h).mono
    (fun accessToken w' hw' => hw'.keeping_resume hm hphase) fun f w' hfailed => ?_)
  exact hfailed.2.halted hfailed.1

/-- What `submit`, `status` and `retry` leave of a pairing. -/
theorem Workstation.Inv.keeping_unpaired {α : Type} (h : w.Inv T C origin)
    {Q : α → Workstation → Prop} {p : Command α}
    (hp : ∀ w' : Workstation, w'.Quiet T C origin → Keeping T C origin Q (fun _ _ => True) p w') :
    Keeping T C origin Q (fun _ _ => True)
      (do
        rejectPendingInitialPair
        let _ ← recoverReplacement P false
        p) w := by
  refine Procedure.pre_bind.mpr (h.keeping_rejectPending.mono (fun _ w₁ hrejected => ?_)
    fun _ _ h => h)
  obtain ⟨h₁, hnone⟩ := hrejected
  refine Procedure.pre_bind.mpr ((h₁.keeping_recoverReplacement false).mono
    (fun durable w₂ hrecovered => hp w₂ ?_) fun _ _ h => h)
  rw [Bool.and_false, if_neg Bool.false_ne_true] at hrecovered
  exact ⟨hrecovered.1, hrecovered.2.1, hrecovered.2.2 hnone⟩

/-! ### The commands -/

theorem Workstation.Inv.keeping_submit (h : w.Inv T C origin) {manifestPath : Text} :
    Keeping T C origin (fun _ w' => w'.Quiet T C origin) (fun _ _ => True)
      (submit T C origin manifestPath) w := by
  refine Procedure.pre_bind.mpr (keeping_observe rfl h (fun i fs _ => ?_) fun _ _ _ => trivial)
  refine Procedure.pre_bind.mpr (Procedure.pre_ofExcept.mpr ⟨fun m hm => ?_, fun _ _ => trivial⟩)
  have h₀ : (w.push ⟨.look, .ok fs⟩).Inv T C origin := h.observe rfl
  refine h₀.keeping_unpaired fun w₁ h₁ => ?_
  refine Procedure.pre_bind.mpr (keeping_observe rfl h₁.inv (fun i found hload => ?_)
    fun _ _ _ => trivial)
  cases found with
  | some found => exact trivial
  | none =>
      have hready : w₁.Ready :=
        ⟨h₁.inv.loaded_none (ok_of_mapError (ok_of_guarded hload)), h₁.unmarked.replacement,
          h₁.unmarked.pairCompletion⟩
      have h₂ := hready.observe ⟨.loadOptional, .ok none⟩ rfl
      refine Procedure.pre_bind.mpr (keeping_observe rfl h₂.inv (fun i now _ => ?_)
        fun _ _ _ => trivial)
      have h₃ := h₂.observe ⟨.now, .ok now⟩ rfl
      refine Procedure.pre_bind.mpr (Procedure.pre_ofExcept.mpr ⟨fun e he => ?_,
        fun _ _ => trivial⟩)
      obtain ⟨hok, horigin, hkey, hphase, hfingerprint, hbacked⟩ :=
        entry_of_prepared (C := C) hm (construct_eq_ok he)
      rw [← hkey]
      refine Procedure.pre_bind.mpr (h₃.keeping_save hok horigin hphase (hbacked _)
        (fun now' w₄ h₄ => ?_) fun _ _ => trivial)
      have hcreate : (e.stamp now').phase ≠ .evidence := by
        change e.phase ≠ .evidence
        rw [hphase]
        decide
      refine Procedure.pre_bind.mpr ((keeping_discardOnFileChange
        (h₄.keeping_refreshed hfingerprint.symm hcreate)).mono (fun v w₅ hdone => ?_)
        fun _ _ h => h)
      obtain ⟨e', h₅, hkey', hv⟩ := hdone
      rw [← show e'.idempotencyKey = e.idempotencyKey from hkey']
      exact (h₅.keeping_print hv).mono (fun _ _ hready => ⟨hready.inv, hready.toUnmarked⟩)
        fun _ _ h => h

theorem Workstation.Inv.keeping_status (h : w.Inv T C origin) {jobId : UUID} :
    Keeping T C origin (fun _ w' => w'.Quiet T C origin) (fun _ _ => True)
      (status P jobId) w := by
  refine h.keeping_unpaired fun w₁ h₁ => ?_
  refine Procedure.pre_bind.mpr ((settled_quiet.keeping_refresh h₁).mono
    (fun accessToken w₂ h₂ => ?_) fun _ _ _ => trivial)
  refine Procedure.pre_bind.mpr ((settled_quiet.keeping_request h₂ rfl rfl).mono
    (fun payload w₃ h₃ => ?_) fun _ _ _ => trivial)
  refine Procedure.pre_bind.mpr (Procedure.pre_ofExcept.mpr ⟨fun result _ => ?_,
    fun _ _ => trivial⟩)
  exact keeping_observe rfl h₃.inv (fun _ _ _ => settled_quiet.observe h₃ rfl) fun _ _ _ => trivial

theorem Workstation.Inv.keeping_retry (h : w.Inv T C origin) :
    Keeping T C origin (fun _ w' => w'.Quiet T C origin) (fun _ _ => True) (retry T C) w := by
  refine h.keeping_unpaired fun w₁ h₁ => ?_
  refine Procedure.pre_bind.mpr (keeping_observe rfl h₁.inv (fun i found hload => ?_)
    fun _ _ _ => trivial)
  cases found with
  | none => exact trivial
  | some found =>
      obtain ⟨name, e⟩ := found
      obtain ⟨hoperates, rfl⟩ := h₁.inv.loaded (ok_of_mapError (ok_of_guarded hload))
      have hactive : w₁.Active T C origin e :=
        ⟨hoperates, h₁.unmarked.replacement, h₁.unmarked.pairCompletion⟩
      have h₂ := hactive.observe ⟨.loadOptional, .ok (some (pathFor P e.idempotencyKey, e))⟩ rfl
      dsimp only
      split
      · split
        · exact trivial
        · rename_i v hv
          exact (h₂.keeping_print hv).mono (fun _ _ hready => ⟨hready.inv, hready.toUnmarked⟩)
            fun _ _ h => h
      · rename_i hphase
        have hresumed : Keeping T C origin
            (fun v w' => ∃ e', w'.Active T C origin e' ∧ e'.idempotencyKey = e.idempotencyKey ∧
              e'.evidence = some v)
            (Workstation.Halted T C origin e.idempotencyKey)
            (do
              let fs ← call .look
              let prepared ← Procedure.ofExcept (preparedForRetry P fs e)
              let accessToken ← Connector.refresh P
              resume T C accessToken (pathFor P e.idempotencyKey) prepared e)
            (w₁.push ⟨.loadOptional, .ok (some (pathFor P e.idempotencyKey, e))⟩) := by
          refine Procedure.pre_bind.mpr (keeping_observe rfl h₂.inv (fun i fs _ => ?_)
            fun i f hf => by cases hf)
          refine Procedure.pre_bind.mpr (Procedure.pre_ofExcept.mpr ⟨fun m hm => ?_,
            fun f hf => ?_⟩)
          · exact (h₂.observe ⟨.look, .ok fs⟩ rfl).keeping_refreshed (preparedForRetry_eq_ok hm)
              hphase
          · refine h₂.halted_changed rfl (.manifest fs fun m hm => ?_)
            rw [hf] at hm
            cases hm
        refine Procedure.pre_bind.mpr ((keeping_discardOnFileChange hresumed).mono
          (fun v w₃ hdone => ?_) fun _ _ h => h)
        obtain ⟨e', h₃, hkey, hv⟩ := hdone
        rw [← hkey]
        exact (h₃.keeping_print hv).mono (fun _ _ hready => ⟨hready.inv, hready.toUnmarked⟩)
          fun _ _ h => h

/-! ### Sessions -/

/-- No file can be read. -/
def FileSystem.unreadable : FileSystem :=
  { resolve := fun _ => none
    parent := id
    name := id
    isAbsolute := fun _ => false
    isSymlink := fun _ => false
    join := fun base _ => base
    isRelativeTo := fun _ _ => false
    readManifest := fun _ => none
    loads := fun _ => none
    readAttachment := fun _ => none
    guessType := fun _ => none }

theorem epoch_valid : Instant.min ≤ 0 ∧ (0 : Instant) ≤ Instant.max := by decide

/-- The operating system does its part, and nothing else is there. -/
def Chance.alone : Chance A :=
  { fails := false
    stored := false
    now := ⟨0, epoch_valid⟩
    outcome := .failed
    check := fun _ _ => none
    connect := fun _ _ => none
    network := fun _ => .refused
    files := .unreadable
    slice := none }

/-- A command of the tool, behind `normalize_origin`. -/
inductive Invocation
  | pair (code name : Text)
  | submit (manifestPath : Text)
  | status (jobId : UUID)
  | retry

section sessions

variable (T C origin)

def Invocation.command : Invocation → Command Unit
  | .pair code name => Connector.pair P code name
  | .submit manifestPath => Connector.submit T C origin manifestPath
  | .status jobId => Connector.status P jobId
  | .retry => Connector.retry T C

/-- An origin that no command has used. -/
def Workstation.unused (credential : Option Text) : Workstation :=
  { documents := []
    replacement := none
    pairCompletion := none
    credential := credential
    history := [] }

variable (credential : Option Text) (invocations : List (Invocation × List (Chance A)))

/-- The origin behind commands each of which has ended, or was stopped before a call. -/
def runs : Workstation :=
  Procedure.session (fun c (i : Chance A) w => Workstation.answer T C origin c i w)
    (invocations.map fun x => (x.1.command T C origin, x.2)) (.unused credential)

/-- What is left of a further command, and the origin, after as many calls as it has chances. -/
def further (last : Invocation) (chances : List (Chance A)) : Command Unit × Workstation :=
  (last.command T C origin).after
    (fun c (i : Chance A) w => Workstation.answer T C origin c i w) chances
    (runs T C origin credential invocations)

/-- Behind the other commands, a further one is about to make a call. -/
def AboutToCall (last : Invocation) (chances : List (Chance A)) (c : Call) (w : Workstation) :
    Prop :=
  ∃ next, further T C origin credential invocations last chances = (.call c next, w)

end sessions

section guarantees

variable {credential : Option Text} {invocations : List (Invocation × List (Chance A))}
  {last : Invocation} {chances : List (Chance A)}

theorem Workstation.inv_unused : (Workstation.unused credential).Inv T C origin where
  outbox := .inl ⟨rfl, nofun⟩
  replacement := nofun
  pairCompletion := nofun

theorem Invocation.keeping (x : Invocation) (h : w.Inv T C origin) :
    Keeping T C origin (fun _ w' => w'.Quiet T C origin) (fun _ _ => True)
      (x.command T C origin) w := by
  cases x with
  | pair code name => exact h.keeping_pair
  | submit manifestPath => exact h.keeping_submit
  | status jobId => exact h.keeping_status
  | retry => exact h.keeping_retry

variable (T C origin credential invocations) in
theorem inv_runs : (runs T C origin credential invocations).Inv T C origin := by
  refine Procedure.session_invariant (G := Workstation.Keeps T C origin)
    (fun _ _ _ _ hkeeps => hkeeps.2) (fun p hp w hw => ?_) Workstation.inv_unused
  obtain ⟨x, -, rfl⟩ := List.mem_map.mp hp
  exact ⟨_, _, x.1.keeping hw⟩

/-- Every call of a session is allowed where it is made. -/
theorem AboutToCall.allowed {c : Call}
    (h : AboutToCall T C origin credential invocations last chances c w) :
    w.Allowed T C origin c := by
  obtain ⟨next, hnext⟩ := h
  exact ((last.keeping (inv_runs T C origin credential invocations)).next_call hnext .alone).1

/-- The end of a command without an error. -/
theorem further_returned {u : Unit}
    (h : further T C origin credential invocations last chances = (.ret u, w)) :
    w.Quiet T C origin :=
  (last.keeping (inv_runs T C origin credential invocations)).returned h

end guarantees

/-! ### The outbox -/

variable (T C origin) (credential : Option Text)

/-- Wherever the commands are stopped, the outbox holds at most one document, that of an
accepted entry of the origin under the name of its key, which is loaded again unless it is longer
than the reader's limit. A save is accepted by the validators as it is, and carries on the entry
that the outbox holds. -/
theorem outbox_of_session (invocations : List (Invocation × List (Chance A))) :
    ((runs T C origin credential invocations).documents = [] ∨
      ∃ e b, (runs T C origin credential invocations).Holds T origin e ∧
        (runs T C origin credential invocations).documents =
          [(pathFor P e.idempotencyKey, b)] ∧
        loadOptional P origin (runs T C origin credential invocations).documents =
          if b.length ≤ localStateMaxBytes then .ok (some (pathFor P e.idempotencyKey, e))
          else .error outboxInvalid) ∧
    ∀ last chances name e' w,
      AboutToCall T C origin credential invocations last chances (.save name e') w →
        (∀ now, OutboxEntry.validate P ((e'.stamp now).dump T) = .ok (e'.stamp now)) ∧
          name = pathFor P e'.idempotencyKey ∧
          (w.documents = [] ∧ e'.phase = .create ∨ ∃ e, w.Holds T origin e ∧ e.Advances e') := by
  refine ⟨?_, fun last chances name e' w h => ?_⟩
  · rcases (inv_runs T C origin credential invocations).outbox with hidle | ⟨e, he⟩
    · exact .inl hidle.documents
    · obtain ⟨b, -, hdocuments⟩ := he.documents
      exact .inr ⟨e, b, he.toHolds, hdocuments, he.toHolds.load hdocuments⟩
  · obtain ⟨hok, hname, -, houtbox⟩ := h.allowed
    refine ⟨fun now => OutboxEntry.validate_dump T Json.reorders_id (hok.stamp now), hname, ?_⟩
    rcases houtbox with ⟨hidle, hphase⟩ | ⟨e, he, hadvances⟩
    · exact .inl ⟨hidle.documents, hphase⟩
    · exact .inr ⟨e, he.toHolds, hadvances⟩

/-- A document is removed when its evidence has just been printed, when a local file has just
been seen to have changed, or behind a pairing that has stored a credential since the marker of
the document was written. -/
theorem removal_of_session {invocations : List (Invocation × List (Chance A))} {last : Invocation}
    {chances : List (Chance A)} {name : Text} {w : Workstation}
    (h : AboutToCall T C origin credential invocations last chances (.delete name) w) :
    w.Removable T origin :=
  h.allowed

/-- All requests about an operation since the last removal are about the entry of the outbox, and
so is the next one. -/
theorem requests_of_session (invocations : List (Invocation × List (Chance A))) :
    (∀ r answer,
      ⟨.request r, answer⟩ ∈ sinceRemoval (runs T C origin credential invocations).history →
        r.isOperation = true →
          ∃ e, (runs T C origin credential invocations).Holds T origin e ∧ r.Concerns P e) ∧
    ∀ last chances r w, AboutToCall T C origin credential invocations last chances (.request r) w →
      r.isOperation = true → ∃ e, w.Holds T origin e ∧ r.Concerns P e ∧
        ∀ r' answer, ⟨.request r', answer⟩ ∈ sinceRemoval w.history → r'.Concerns P e := by
  refine ⟨fun r answer hr hoperation => ?_, fun last chances r w h hoperation => ?_⟩
  · rcases (inv_runs T C origin credential invocations).outbox with hidle | ⟨e, he⟩
    · rw [hidle.requests r answer hr] at hoperation
      cases hoperation
    · exact ⟨e, he.toHolds, he.requests r answer hr⟩
  · obtain ⟨-, -, hconcerns⟩ := h.allowed
    obtain ⟨e, he, hr⟩ := hconcerns hoperation
    exact ⟨e, he.toHolds, hr, he.requests⟩

/-! ### Markers -/

/-- A code is redeemed, and its token stored, only while a marker records the credential that
there is. Every other request, and every rotation of the credential, is made without a marker, and
a command that ends without an error leaves none. -/
theorem markers_of_session (invocations : List (Invocation × List (Chance A)))
    (last : Invocation) (chances : List (Chance A)) :
    (∀ r w, AboutToCall T C origin credential invocations last chances (.request r) w →
      if r.isPair = true then w.Recording P origin else w.Unmarked) ∧
    (∀ grant t w,
      AboutToCall T C origin credential invocations last chances (.saveRefresh grant t) w →
        if grant = .pairing then w.Recording P origin else w.Unmarked) ∧
    (∀ w, AboutToCall T C origin credential invocations last chances .deleteReplacementMarker w →
      ∃ sha256, (∃ name, replacementBytes origin sha256 name = w.replacement) ∧
        w.Concluded P origin sha256 (w.documents = [])) ∧
    (∀ w,
      AboutToCall T C origin credential invocations last chances .deletePairCompletionMarker w →
        ∃ sha256, pairCompletionBytes origin sha256 = w.pairCompletion ∧
          w.Concluded P origin sha256 True) ∧
    ∀ w, further T C origin credential invocations last chances = (.ret (), w) → w.Unmarked := by
  refine ⟨fun r w h => ?_, fun grant t w h => ?_, fun w h => ?_, fun w h => ?_,
    fun w h => (further_returned h).unmarked⟩
  · obtain ⟨hpair, hother, -⟩ := h.allowed
    split
    · rename_i hr
      exact hpair hr
    · rename_i hr
      exact hother (Bool.eq_false_of_not_eq_true hr)
  · cases grant with
    | pairing => exact h.allowed
    | rotation => exact h.allowed
  · obtain ⟨sha256, name, b, hb, hbytes, hconcluded⟩ := h.allowed
    exact ⟨sha256, ⟨name, hbytes.trans hb.symm⟩, hconcluded⟩
  · obtain ⟨sha256, b, hb, hbytes, hconcluded⟩ := h.allowed
    exact ⟨sha256, hbytes.trans hb.symm, hconcluded⟩

/-! ### Contents -/

variable {T C origin credential}

theorem partNumber_of_numbers {parts : List CompletedPart} {k i : Nat}
    (h : parts.map (·.partNumber) = List.range' 1 k) (hi : i < parts.length) :
    parts[i].partNumber = 1 + i := by
  have hk : parts.length = k := by
    have hcount := congrArg List.length h
    rwa [List.length_map, List.length_range'] at hcount
  have hget := congrArg (fun l => l[i]?) h
  simp only [List.getElem?_map, List.getElem?_eq_getElem hi, Option.map_some] at hget
  rw [List.getElem?_range' (hk ▸ hi), Nat.one_mul] at hget
  exact Option.some.inj hget

theorem partSize_pos : 0 < partSize := by decide

/-- Parts that were uploaded as an attachment declares them are the slices of its content, if the
digest tells byte strings apart. -/
theorem uploaded_slices {history : List Event} {jobId attachmentId : UUID} {a : AttachmentState}
    {content : Bytes} {parts : List CompletedPart} (ha : a.Ok) (hdeclares : a.Declares P content)
    (hnumbers : parts.map (·.partNumber) = List.range' 1 a.totalParts)
    (huploaded : ∀ p ∈ parts, ∃ bytes, Uploaded P C history jobId attachmentId a p bytes)
    (hinjective : ∀ b b' : Bytes, P.sha256 b = P.sha256 b' → b = b') :
    List.Forall₂ (fun p bytes => Uploaded P C history jobId attachmentId a p bytes) parts
      (slices partSize content) := by
  have hlength : parts.length = (slices partSize content).length := by
    have hcount := ha.consistent.2.2.2.2.1
    rw [hdeclares.2, List.length_map] at hcount
    have hparts := congrArg List.length hnumbers
    rwa [List.length_map, List.length_range', ← hcount] at hparts
  rw [List.forall₂_iff_get]
  refine ⟨hlength, fun i hi hi' => ?_⟩
  obtain ⟨bytes, hbytes⟩ := huploaded _ (List.getElem_mem hi)
  have hsha256 := hbytes.sha256
  rw [partNumber_of_numbers hnumbers hi, Nat.add_sub_cancel_left, hdeclares.2, List.getElem?_map,
    List.getElem?_eq_getElem hi'] at hsha256
  obtain rfl := hinjective _ _ (Option.some.inj hsha256)
  exact hbytes

/-- The content has the declared size. -/
theorem length_of_uploaded {history : List Event} {jobId attachmentId : UUID} {a : AttachmentState}
    {content : Bytes} {parts : List CompletedPart} (ha : a.Ok) (hdeclares : a.Declares P content)
    (hnumbers : parts.map (·.partNumber) = List.range' 1 a.totalParts)
    (hall : List.Forall₂ (fun p bytes => Uploaded P C history jobId attachmentId a p bytes) parts
      (slices partSize content)) : content.length = a.sizeBytes := by
  have hcount : (slices partSize content).length = (a.sizeBytes + partSize - 1) / partSize := by
    have hdigests := ha.consistent.2.2.2.2.1
    rwa [hdeclares.2, List.length_map] at hdigests
  refine length_eq_of_slices partSize_pos hcount fun i s hs => ?_
  obtain ⟨hi, rfl⟩ := List.getElem?_eq_some_iff.mp hs
  obtain ⟨hlength, hget⟩ := List.forall₂_iff_get.mp hall
  have hi' : i < parts.length := hlength ▸ hi
  have hpart := (hget i hi' hi).length
  simp only [List.get_eq_getElem] at hpart
  rwa [partNumber_of_numbers hnumbers hi', Nat.add_sub_cancel_left] at hpart

variable (T C origin credential)

/-- The parts are the slices of one content, with the size and the digest that the outbox has
for the attachment; each was put to a URL that the server had given for it. -/
def Workstation.Completes (w : Workstation) (jobId attachmentId : UUID)
    (parts : List CompletedPart) : Prop :=
  ∃ e a content, w.Holds T origin e ∧ e.jobId = some jobId ∧ a ∈ e.attachments ∧
    a.attachmentId = some attachmentId ∧ P.sha256 content = a.sha256 ∧
    content.length = a.sizeBytes ∧
    parts.map (·.partNumber) = List.range' 1 a.totalParts ∧
    List.Forall₂ (fun p bytes => Uploaded P C w.history jobId attachmentId a p bytes) parts
      (slices partSize content)

namespace Sample

open SuperBoss.Server.Sample (content k3Result)

/-- A successful answer with an object. -/
def answering (fields : List (Text × Json)) : Chance Unit :=
  { (Chance.alone : Chance Unit) with
    outcome := .answered ⟨200, none, none, [((Json.obj fields).jsonBytes Json.compact).getD []]⟩ }

def textField (name value : String) : Text × Json := Json.field name (.str (Text.ofString value))

def idField (name : String) (id : UUID) : Text × Json := Json.field name (uuidJson id)

/-- The files of the single manifest are there. -/
def atHome : Chance Unit :=
  { (Chance.alone : Chance Unit) with
    files := within (Text.ofString "/home/user/K3/") single
    slice := some content }

def tokenAnswer : Chance Unit :=
  answering [textField "access_token" "access", textField "refresh_token" "refresh",
    textField "token_type" "Bearer", textField "expires_at" "00",
    textField "refresh_expires_at" "00"]

def attachmentFields (state : String) : List (Text × Json) :=
  [idField "id" 11, idField "file_id" 12, idField "upload_id" 13, textField "kind" "K3_RAW",
    textField "file_state" state]

def jobAnswer : Chance Unit :=
  answering [idField "id" 10, idField "project_id" 1, textField "local_task_id" "task",
    Json.field "external_document_reference" .null, Json.field "base_sha256" .null,
    textField "status" "UPLOADING", Json.field "result_code" .null,
    Json.field "k3_result" k3Result.dump, Json.field "submitted_at" .null,
    textField "created_at" "00", textField "updated_at" "00",
    Json.field "attachments" (.arr [.obj (attachmentFields "UPLOADING")])]

def partUrlAnswer : Chance Unit := answering [textField "url" "https://uploads.example/part"]

def putAnswer : Chance Unit :=
  { (Chance.alone : Chance Unit) with
    check := fun _ _ => some [Text.ofString "93.184.216.34"]
    connect := fun _ _ => some [Text.ofString "93.184.216.34"]
    network := fun _ => .answered 200 (some (Text.ofString "etag")) }

def submitAnswer : Chance Unit :=
  answering [idField "id" 10, textField "status" "SCANNING", Json.field "result_code" .null,
    textField "submitted_at" "00", textField "updated_at" "00"]

/-- A submission up to the completion of its attachment. -/
def uploading : List (Chance Unit) :=
  List.replicate 7 atHome ++
    [tokenAnswer, atHome, jobAnswer, atHome, atHome, partUrlAnswer, atHome, atHome, putAnswer,
      atHome, atHome]

/-- The rest of it up to the removal of its document. -/
def submitting : List (Chance Unit) :=
  [answering (attachmentFields "QUARANTINED"), atHome, atHome, submitAnswer, atHome, atHome]

/-- The submission of the single manifest, as far as the chances go. -/
def submission (chances : List (Chance Unit)) : Command Unit × Workstation :=
  further timestamps SampleUrls.context (Text.ofString "https://k3.example")
    (some (Text.ofString "refresh")) [] (.submit (Text.ofString "manifest")) chances

def nextCall : Command Unit → Option Call
  | .call c _ => some c
  | _ => none

theorem aboutToCall_of_nextCall {chances : List (Chance Unit)} {c : Call}
    (h : nextCall (submission chances).1 = some c) :
    AboutToCall timestamps SampleUrls.context (Text.ofString "https://k3.example")
      (some (Text.ofString "refresh")) [] (.submit (Text.ofString "manifest")) chances c
      (submission chances).2 := by
  cases hrun : submission chances with
  | mk p w =>
      rw [hrun] at h
      cases p with
      | ret a => cases h
      | raise e => cases h
      | call c' next =>
          obtain rfl := Option.some.inj h
          exact ⟨next, hrun⟩

def isComplete : Call → Bool
  | .request (.complete ..) => true
  | _ => false

def isDelete : Call → Bool
  | .delete _ => true
  | _ => false

theorem of_isComplete {c : Call} (h : isComplete c = true) :
    ∃ jobId attachmentId parts accessToken,
      c = .request (.complete jobId attachmentId parts accessToken) := by
  unfold isComplete at h
  split at h
  · exact ⟨_, _, _, _, rfl⟩
  · cases h

theorem of_isDelete {c : Call} (h : isDelete c = true) : ∃ name, c = .delete name := by
  unfold isDelete at h
  split at h
  · exact ⟨_, rfl⟩
  · cases h

end Sample

/-- The document of the single manifest is removed behind its printed evidence. -/
theorem removal_of_submission : ∃ w name,
    AboutToCall Sample.timestamps SampleUrls.context (Text.ofString "https://k3.example")
      (some (Text.ofString "refresh")) [] (.submit (Text.ofString "manifest"))
      (Sample.uploading ++ Sample.submitting) (.delete name) w ∧
    w.Removable Sample.timestamps (Text.ofString "https://k3.example") := by
  have hrun : ((Sample.nextCall
      (Sample.submission (Sample.uploading ++ Sample.submitting)).1).any Sample.isDelete) =
      true := by decide +kernel
  obtain ⟨c, hcall, hdelete⟩ := (Option.any_eq_true _ _).mp hrun
  obtain ⟨name, rfl⟩ := Sample.of_isDelete hdelete
  have habout := Sample.aboutToCall_of_nextCall hcall
  exact ⟨_, name, habout, removal_of_session _ _ _ _ habout⟩

end SuperBoss.Connector
