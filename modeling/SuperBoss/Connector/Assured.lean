import SuperBoss.Connector.PairRecovery

/-!
No session of the connector leaves its origin stuck: wherever its commands were
stopped, a further one that is helped ends without an error.
-/

namespace SuperBoss.Connector

open SuperBoss.Core
open SuperBoss.Files
open SuperBoss.Library
open SuperBoss.Library.Framing

variable {P : Platform} {A : Type} [DecidableEq A] {T : Timestamps P} {C : UrlContext A}
  {origin : Text} {files : FileSystem} {m : ServerManifest P} {code name : Text}

section sessions

variable (T C origin)

/-- The environment helps with every call of a command that is run to its end. -/
def Assisting (files : FileSystem) (m : ServerManifest P)
    (env : (c : Call) → Workstation → Chance A) (p : Command Unit) (w : Workstation) : Prop :=
  p.Assisted (fun c (i : Chance A) w => Workstation.answer T C origin c i w)
    (fun w c i => w.Helps T C origin files m c i) env w

/-- What the environment does in such a run. -/
def course (env : (c : Call) → Workstation → Chance A) (p : Command Unit) (w : Workstation) :
    List (Chance A) :=
  p.transcript (fun c (i : Chance A) w => Workstation.answer T C origin c i w) env w

variable {T C origin} {credential : Option Text}
  {invocations : List (Invocation × List (Chance A))}
  {env : (c : Call) → Workstation → Chance A}

/-- A further command that succeeds with help ends without an error, and leaves no marker. -/
theorem further_of_helped (last : Invocation) {Q : Unit → Workstation → Prop}
    (h : Helped T C origin files m Q (last.command T C origin)
      (runs T C origin credential invocations))
    (henv : Assisting T C origin files m env (last.command T C origin)
      (runs T C origin credential invocations)) :
    ∃ w', further T C origin credential invocations last
        (course T C origin env (last.command T C origin)
          (runs T C origin credential invocations)) = (.ret (), w') ∧
      w'.Unmarked ∧ Q () w' := by
  obtain ⟨_, w', hafter, hQ⟩ := h.returns henv
  exact ⟨w', hafter, (further_returned hafter).unmarked, hQ⟩

/-- A credential that can be encoded has a fingerprint. -/
theorem Workstation.fingerprint_of_encodable {w : Workstation}
    (h : ∀ t ∈ w.refresh, t.Encodable) :
    ∃ sha256, refreshFingerprint P w.refresh = .ok sha256 := by
  cases ht : w.refresh with
  | none => exact ⟨none, rfl⟩
  | some t =>
      obtain ⟨b, hb, -⟩ := (h t ht).utf8
      exact ⟨some (P.sha256 b), by rw [refreshFingerprint, hb]⟩

theorem Workstation.fingerprint_of_refresh {w : Workstation} {t : Text}
    (hcredential : w.refresh = some t) (hencodable : t.Encodable) :
    (∃ sha256, refreshFingerprint P w.refresh = .ok sha256) ∧ w.refresh ≠ none := by
  refine ⟨w.fingerprint_of_encodable ?_, ?_⟩
  · intro t' ht'
    obtain rfl := Option.some.inj (hcredential.symm.trans ht')
    exact hencodable
  · rw [hcredential]
    exact Option.some_ne_none t

/-- No session leaves an operation that cannot be finished: with help, one retry prints the
evidence of its job, the one that was created for it if there is one, and empties the outbox. -/
theorem retry_of_session (hT : T.Encodable) (hwhole : files.Whole) {name : Text}
    {e : OutboxEntry} {t : Text}
    (hload : loadOptional P origin (runs T C origin credential invocations).documents =
      .ok (some (name, e)))
    (hkept : ¬(runs T C origin credential invocations).Superseded P origin)
    (hcredential : (runs T C origin credential invocations).refresh = some t)
    (hencodable : t.Encodable)
    (hprepared : e.phase ≠ .evidence →
      ∃ prepared, preparedForRetry P files e = .ok prepared ∧ prepared.server = m)
    (henv : Assisting T C origin files m env (retry T C)
      (runs T C origin credential invocations)) :
    ∃ w', further T C origin credential invocations .retry
        (course T C origin env (retry T C) (runs T C origin credential invocations)) =
          (.ret (), w') ∧
      w'.Unmarked ∧ w'.Finished name e.jobId := by
  have hinv := inv_runs T C origin credential invocations
  obtain ⟨⟨sha256, hsha256⟩, hsome⟩ :=
    Workstation.fingerprint_of_refresh (P := P) hcredential hencodable
  exact further_of_helped .retry
    (hinv.helped_retry hT hwhole hload hkept hsha256 hsome hprepared) henv

/-- No session leaves an origin that cannot be paired again, as long as its outbox can be read
and holds no evidence, or belongs to a credential that was replaced. -/
theorem pair_of_session (hdigest : ∀ b, Text.isDigest (P.sha256 b) = true)
    (horigin : origin.Encodable ∧ 1 ≤ origin.length ∧ origin.length ≤ 4096)
    (hcode : safeArgument code 255 = .ok ()) (hname : safeArgument name 255 = .ok ())
    (hcredential : ∀ t ∈ (runs T C origin credential invocations).refresh, t.Encodable)
    (hread : (runs T C origin credential invocations).Superseded P origin ∨
      ∃ found, loadOptional P origin (runs T C origin credential invocations).documents =
        .ok found ∧ ∀ x ∈ found, x.2.phase ≠ .evidence)
    (henv : Assisting T C origin files m env (pair P code name)
      (runs T C origin credential invocations)) :
    ∃ w', further T C origin credential invocations (.pair code name)
        (course T C origin env (pair P code name) (runs T C origin credential invocations)) =
          (.ret (), w') ∧
      w'.Unmarked ∧ w'.Paired := by
  have hinv := inv_runs T C origin credential invocations
  obtain ⟨sha256, hsha256⟩ := Workstation.fingerprint_of_encodable (P := P) hcredential
  exact further_of_helped (.pair code name)
    (hinv.helped_pair hdigest horigin hcode hname hsha256 hread) henv

/-- With help, a submission from an outbox without an operation ends with the evidence of its
job, whatever the session before it was. -/
theorem submit_of_session (hT : T.Encodable) (hwhole : files.Whole)
    (hdigest : ∀ b, Text.isDigest (P.sha256 b) = true) (horigin : StateText 1 4096 origin)
    {manifestPath : Text} {prepared : PreparedManifest P} {t : Text}
    (hm : prepareManifest P files manifestPath = .ok prepared) (hstorable : prepared.Storable)
    (hpending : (runs T C origin credential invocations).pairCompletion = none)
    (hempty : (runs T C origin credential invocations).documents = [] ∨
      (runs T C origin credential invocations).Superseded P origin)
    (hcredential : (runs T C origin credential invocations).refresh = some t)
    (hencodable : t.Encodable)
    (henv : Assisting T C origin files prepared.server env (submit T C origin manifestPath)
      (runs T C origin credential invocations)) :
    ∃ w', further T C origin credential invocations (.submit manifestPath)
        (course T C origin env (submit T C origin manifestPath)
          (runs T C origin credential invocations)) = (.ret (), w') ∧
      w'.Unmarked ∧ w'.Finished (pathFor P prepared.idempotencyKey) none := by
  have hinv := inv_runs T C origin credential invocations
  obtain ⟨⟨sha256, hsha256⟩, hsome⟩ :=
    Workstation.fingerprint_of_refresh (P := P) hcredential hencodable
  exact further_of_helped (.submit manifestPath)
    (hinv.helped_submit hT hwhole hdigest horigin hm hstorable hpending hempty hsha256 hsome) henv

end sessions

/-! ### Sample runs -/

namespace Sample

open SuperBoss.Server.Sample (content)

/-- The epoch in its usual spelling, and any other moment in two runs of letters. -/
def spelled (wall offset : Int) : Text :=
  if wall = 0 ∧ offset = 0 then Text.ofString "1970-01-01T00:00:00Z"
  else List.replicate (Equiv.intEquivNat wall) 97 ++
    98 :: List.replicate (Equiv.intEquivNat offset) 97

def spelling (t : Text) : Datetime :=
  if t = Text.ofString "1970-01-01T00:00:00Z" ∨ t = Text.ofString "00" then ⟨0, some 0⟩
  else ⟨Equiv.intEquivNat.symm (t.takeWhile (· = 97)).length,
    some (Equiv.intEquivNat.symm ((t.dropWhile (· = 97)).length - 1))⟩

theorem spelling_spelled (wall offset : Int) :
    spelling (spelled wall offset) = ⟨wall, some offset⟩ := by
  unfold spelled
  split
  · rename_i h
    rw [h.1, h.2]
    rfl
  · have hhead : (List.replicate (Equiv.intEquivNat wall) 97 ++
        98 :: List.replicate (Equiv.intEquivNat offset) 97).head? ∈ [some 97, some 98] := by
      cases Equiv.intEquivNat wall <;> simp [List.replicate_succ]
    rw [spelling, if_neg]
    · simp [List.takeWhile_append_of_pos, List.dropWhile_append_of_pos]
    · rintro (h | h) <;> rw [h] at hhead <;> revert hhead <;> decide

theorem encodable_spelled (wall offset : Int) : (spelled wall offset).Encodable := by
  unfold spelled
  split
  · exact Text.encodable_ofString _
  · refine Text.encodable_of_isAscii fun c hc => ?_
    simp only [List.mem_append, List.mem_cons, List.mem_replicate] at hc
    omega

/-- The sample platform with a spelling of every moment. -/
def spelt : Platform :=
  { Server.Sample.platform with
    parseDatetime
      | .str t => some (spelling t)
      | _ => none
    dumpDatetime := fun t => spelled t 0
    parseDatetime_dump := fun t _ _ => congrArg some (spelling_spelled t 0) }

def moments : Timestamps spelt where
  dump d := spelled d.wall d.offset
  parse_dump d := congrArg some (spelling_spelled d.wall d.offset)

theorem moments_encodable : moments.Encodable :=
  ⟨fun d => encodable_spelled d.wall d.offset, fun t _ => encodable_spelled t 0⟩

/-- The files of the single manifest, as they are. -/
def home : FileSystem := within (Text.ofString "/home/user/K3/") single

theorem home_whole : home.Whole := by
  intro path r h
  obtain rfl := Option.some.inj h
  rfl

/-- A server, a storage and a file system that do their part. -/
def assistant : (c : Call) → Workstation → Chance Unit
  | .request (.pair ..), _ | .request (.refresh ..), _ => tokenAnswer
  | .request (.createJob ..), _ => jobAnswer
  | .request (.partUrl ..), _ => partUrlAnswer
  | .request (.complete ..), _ => answering (attachmentFields "QUARANTINED")
  | .request (.submit ..), _ => submitAnswer
  | .putPart .., _ => putAnswer
  | .readSlice path offset, _ =>
      { atHome with slice := (home.readAttachment path).map fun r => r.content.drop offset }
  | _, _ => atHome

variable (m : ServerManifest spelt) (w : Workstation)

/-- Whether a payload is taken, with the entry of a completion as the outbox has it. -/
def takes (b : Bytes) : Request → Bool
  | .pair .. | .refresh .. => (parseToken spelt b).isOk
  | .createJob .. => (parseCreatedJob m b).isOk
  | .partUrl .. => (parsePartUrl SampleUrls.context b).isOk
  | .complete _ attachmentId _ _ =>
      let loaded := loadOptional spelt (Text.ofString "https://k3.example") w.documents
      loaded.toOption.any fun found => found.any fun x => x.2.attachments.all fun a =>
        a.attachmentId != some attachmentId || a.fileId.all fun fileId =>
          a.uploadId.all fun uploadId =>
            (parseCompleted spelt ⟨attachmentId, fileId, uploadId, a.kind, .uploading⟩ b).isOk
  | .submit jobId _ => (parseSubmitted spelt jobId b).isOk
  | .status jobId _ => (parseStatus spelt jobId b).isOk

theorem exists_of_isOk {ε α : Type} {x : Except ε α} (h : x.isOk = true) : ∃ a, x = .ok a := by
  cases x with
  | ok a => exact ⟨a, rfl⟩
  | error e => cases h

variable {m w}

theorem accepts_of_takes {r : Request} {b : Bytes} (h : takes m w b r = true) :
    w.Accepts moments SampleUrls.context (Text.ofString "https://k3.example") m r b := by
  cases r with
  | pair | refresh | createJob | partUrl | submit | status => exact exists_of_isOk h
  | complete jobId attachmentId parts accessToken =>
      intro e he a ha hid fileId hfile uploadId hupload
      obtain ⟨found, hfound, h⟩ := (Option.any_eq_true _ _).mp h
      obtain ⟨⟨name, e'⟩, rfl, h⟩ := (Option.any_eq_true _ _).mp h
      have hload := ok_of_toOption hfound
      obtain ⟨b', -, hdocuments⟩ := he.documents
      rw [he.load hdocuments] at hload
      split at hload
      · obtain ⟨-, rfl⟩ := Prod.mk.inj (Option.some.inj (Except.ok.inj hload))
        have hall := List.all_eq_true.mp h a ha
        rw [hid, hfile, hupload] at hall
        simpa using exists_of_isOk (by simpa using hall)
      · cases hload

/-- Whether the environment does its part in a call of the sample runs. -/
def assists (m : ServerManifest spelt) (w : Workstation) (c : Call) (i : Chance Unit) : Bool :=
  !i.fails &&
    match c with
    | .request r => (receive r.authFailure i.outcome).toOption.any fun b => takes m w b r
    | .putPart url _ =>
        (putPart SampleUrls.context i.check i.connect i.network url).result.toOption.any
          fun etag => etag.all fun c => !Text.isSurrogate c
    | _ => true

theorem helps_of_assists {c : Call} (h : assists m w c (assistant c w) = true) :
    w.Helps moments SampleUrls.context (Text.ofString "https://k3.example") home m c
      (assistant c w) := by
  obtain ⟨hfails, h⟩ := Bool.and_eq_true_iff.mp h
  refine ⟨Bool.eq_false_of_not_eq_true' hfails, ?_⟩
  cases c with
  | request r =>
      obtain ⟨b, hb, htakes⟩ := (Option.any_eq_true _ _).mp h
      exact ⟨b, ok_of_toOption hb, accepts_of_takes htakes⟩
  | putPart url content =>
      obtain ⟨etag, hetag, hall⟩ := (Option.any_eq_true _ _).mp h
      refine ⟨etag, ok_of_toOption hetag, fun c hc => ?_⟩
      simpa using List.all_eq_true.mp hall c hc
  | look | readSlice path offset => exact rfl
  | _ => exact trivial

/-- A run of a command with the assistant. -/
def assisted (m : ServerManifest spelt) (p : Command Unit) (w : Workstation) : Bool :=
  decide (p.Assisted (fun c (i : Chance Unit) w =>
      Workstation.answer moments SampleUrls.context (Text.ofString "https://k3.example") c i w)
    (fun w c i => assists m w c i = true) assistant w)

theorem assisting_of_assisted {p : Command Unit} (h : assisted m p w = true) :
    Assisting moments SampleUrls.context (Text.ofString "https://k3.example") home m assistant p
      w :=
  (of_decide_eq_true h).mono fun _ _ => helps_of_assists

/-- The origin after the given commands, with the credential of a paired device. -/
def workplace (invocations : List (Invocation × List (Chance Unit))) : Workstation :=
  runs moments SampleUrls.context (Text.ofString "https://k3.example")
    (some (Text.ofString "refresh")) invocations

/-- A submission that was stopped behind its first save. -/
def begun : List (Invocation × List (Chance Unit)) :=
  [(.submit (Text.ofString "manifest"), List.replicate 6 atHome)]

theorem spelt_isDigest (b : Bytes) : Text.isDigest (spelt.sha256 b) = true := by
  show Text.isDigest (if b = content then _ else _) = true
  split <;> decide

end Sample

/-- The submission is finished by a retry. -/
theorem retry_of_begun : ∃ name jobId w',
    further Sample.moments SampleUrls.context (Text.ofString "https://k3.example")
      (some (Text.ofString "refresh")) Sample.begun .retry
        (course Sample.moments SampleUrls.context (Text.ofString "https://k3.example")
          Sample.assistant (retry Sample.moments SampleUrls.context)
            (Sample.workplace Sample.begun)) = (.ret (), w') ∧
      w'.Unmarked ∧ w'.Finished name jobId := by
  have hrun : ((loadOptional Sample.spelt (Text.ofString "https://k3.example")
      (Sample.workplace Sample.begun).documents).toOption.bind fun found => found.bind fun x =>
        (preparedForRetry Sample.spelt Sample.home x.2).toOption.map fun prepared =>
          decide ((Sample.workplace Sample.begun).replacement = none ∧
            (Sample.workplace Sample.begun).refresh = some (Text.ofString "refresh")) &&
          Sample.assisted prepared.server (retry Sample.moments SampleUrls.context)
            (Sample.workplace Sample.begun)) = some true := by decide +kernel
  obtain ⟨found, hfound, hloaded⟩ := Option.bind_eq_some_iff.mp hrun
  obtain ⟨⟨name, e⟩, rfl, hretried⟩ := Option.bind_eq_some_iff.mp hloaded
  obtain ⟨prepared, hprepared, hchecks⟩ := Option.map_eq_some_iff.mp hretried
  obtain ⟨hstate, hassisted⟩ := Bool.and_eq_true_iff.mp hchecks
  obtain ⟨hreplacement, hcredential⟩ := of_decide_eq_true hstate
  have hkept : ¬(Sample.workplace Sample.begun).Superseded Sample.spelt
      (Text.ofString "https://k3.example") := by
    rintro ⟨b, hb, -⟩
    rw [hreplacement] at hb
    cases hb
  exact ⟨name, e.jobId, retry_of_session Sample.moments_encodable Sample.home_whole
    (ok_of_toOption hfound) hkept hcredential (Text.encodable_ofString _)
      (fun _ => ⟨prepared, ok_of_toOption hprepared, rfl⟩)
        (Sample.assisting_of_assisted hassisted)⟩

/-- The device is paired again, and the submission is given up. -/
theorem pair_of_begun : ∃ w',
    further Sample.moments SampleUrls.context (Text.ofString "https://k3.example")
      (some (Text.ofString "refresh")) Sample.begun
        (.pair (Text.ofString "code") (Text.ofString "device"))
        (course Sample.moments SampleUrls.context (Text.ofString "https://k3.example")
          Sample.assistant
            (pair Sample.spelt (Text.ofString "code") (Text.ofString "device"))
              (Sample.workplace Sample.begun)) = (.ret (), w') ∧
      w'.Unmarked ∧ w'.Paired := by
  have hrun : ((prepareManifest Sample.spelt Sample.home (Text.ofString "manifest")).toOption.bind
      fun prepared => (loadOptional Sample.spelt (Text.ofString "https://k3.example")
        (Sample.workplace Sample.begun).documents).toOption.map fun found =>
          decide ((∀ x ∈ found, x.2.phase ≠ .evidence) ∧
            (Sample.workplace Sample.begun).refresh = some (Text.ofString "refresh")) &&
          Sample.assisted prepared.server
            (pair Sample.spelt (Text.ofString "code") (Text.ofString "device"))
              (Sample.workplace Sample.begun)) = some true := by decide +kernel
  obtain ⟨prepared, -, hrun⟩ := Option.bind_eq_some_iff.mp hrun
  obtain ⟨found, hfound, hchecks⟩ := Option.map_eq_some_iff.mp hrun
  obtain ⟨hstate, hassisted⟩ := Bool.and_eq_true_iff.mp hchecks
  obtain ⟨hphase, hcredential⟩ := of_decide_eq_true hstate
  refine pair_of_session Sample.spelt_isDigest ⟨Text.encodable_ofString _, by decide, by decide⟩
    (by decide) (by decide) (fun t ht => ?_) (.inr ⟨found, ok_of_toOption hfound, hphase⟩)
      (Sample.assisting_of_assisted hassisted)
  obtain rfl := Option.some.inj (hcredential.symm.trans ht)
  exact Text.encodable_ofString _

/-- A device that has just been paired submits the manifest. -/
theorem submit_of_paired : ∃ name w',
    further Sample.moments SampleUrls.context (Text.ofString "https://k3.example")
      (some (Text.ofString "refresh")) [] (.submit (Text.ofString "manifest"))
        (course Sample.moments SampleUrls.context (Text.ofString "https://k3.example")
          Sample.assistant (submit Sample.moments SampleUrls.context
            (Text.ofString "https://k3.example") (Text.ofString "manifest"))
              (Sample.workplace [])) = (.ret (), w') ∧
      w'.Unmarked ∧ w'.Finished name none := by
  have hrun : ((prepareManifest Sample.spelt Sample.home (Text.ofString "manifest")).toOption.bind
      fun prepared => (validatedInitialEntry Sample.moments (Text.ofString "https://k3.example")
        prepared Sample.epoch).toOption.map fun _ =>
          Sample.assisted prepared.server (submit Sample.moments SampleUrls.context
            (Text.ofString "https://k3.example") (Text.ofString "manifest"))
              (Sample.workplace [])) = some true := by decide +kernel
  obtain ⟨prepared, hprepared, hrun⟩ := Option.bind_eq_some_iff.mp hrun
  obtain ⟨e, he, hassisted⟩ := Option.map_eq_some_iff.mp hrun
  obtain ⟨horigin, hstorable⟩ := (validatedInitialEntry_iff Sample.moments Sample.spelt_isDigest
    (ok_of_toOption hprepared) _ _).mp ⟨e, ok_of_toOption he⟩
  exact ⟨_, submit_of_session Sample.moments_encodable Sample.home_whole Sample.spelt_isDigest
    horigin (ok_of_toOption hprepared) hstorable rfl (.inl rfl)
      (t := Text.ofString "refresh") rfl (Text.encodable_ofString _)
        (Sample.assisting_of_assisted hassisted)⟩

end SuperBoss.Connector
