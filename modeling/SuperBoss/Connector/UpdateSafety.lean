import SuperBoss.Connector.Updater

/-!
What an update leaves of the executable. Between its two renames there is none,
and no handler puts the old one back.
-/

namespace SuperBoss.Connector

open SuperBoss.Core
open SuperBoss.Library.Faults

variable (C : UpdateContext)

/-! ### Bad URLs -/

/-- A request comes to a URL that the HTTP client calls invalid, or to a redirect
that cannot be joined. -/
inductive MeetsBadUrl : (remaining : Nat) → (Nat → Text → Exchange) → Text → Prop
  | invalid {remaining : Nat} {server : Nat → Text → Exchange} {url : Text}
      (hallowed : assertHttpsAllowed C url = .ok ()) (h : server 0 url = .invalidUrl) :
      MeetsBadUrl (remaining + 1) server url
  | join {remaining : Nat} {server : Nat → Text → Exchange} {url location : Text} {r : Response}
      (hallowed : assertHttpsAllowed C url = .ok ()) (h : server 0 url = .response r)
      (hredirects : r.redirects = true) (hlocation : r.location = some location)
      (hne : location ≠ []) (hjoin : C.urljoin url location = none) :
      MeetsBadUrl (remaining + 1) server url
  | next {remaining : Nat} {server : Nat → Text → Exchange} {url location next : Text}
      {r : Response} (hallowed : assertHttpsAllowed C url = .ok ())
      (h : server 0 url = .response r) (hredirects : r.redirects = true)
      (hlocation : r.location = some location) (hne : location ≠ [])
      (hjoin : C.urljoin url location = some next)
      (hnext : MeetsBadUrl remaining (fun k => server (k + 1)) next) :
      MeetsBadUrl (remaining + 1) server url

/-- An error that `install_update` lets through as a `ConnectorError`. -/
def Handled (e : UpdateError) : Prop := e = .unicode ∨ ∃ error, e = .connector error

section requests

variable {C} {maximum remaining : Nat} {server : Nat → Text → Exchange} {url : Text}

theorem handled_connector (error : ConnectorError) : Handled (.connector error) :=
  .inr ⟨error, rfl⟩

theorem handled_assert {e : UpdateError} (h : assertHttpsAllowed C url = .error e) : Handled e := by
  unfold assertHttpsAllowed at h
  split at h
  · cases h
    exact handled_connector _
  · simp only at h
    split at h
    · cases h
      exact handled_connector _
    · split at h
      · cases h
        exact handled_connector _
      · cases h

theorem handled_chunks {broken : Bool} {payload : Bytes} {chunks : List Bytes} {e : UpdateError}
    (h : readChunks maximum broken payload chunks = .error e) : Handled e := by
  induction chunks generalizing payload with
  | nil =>
      unfold readChunks at h
      split at h
      · cases h
        exact handled_connector _
      · cases h
  | cons chunk rest ih =>
      unfold readChunks at h
      split at h
      · cases h
        exact handled_connector _
      · exact ih h

theorem handled_limited {r : Response} {e : UpdateError}
    (h : readLimited C r maximum = .error e) : Handled e := by
  unfold readLimited at h
  split at h
  · exact handled_chunks h
  · split at h
    · cases h
      exact handled_connector _
    · split at h
      · cases h
        exact handled_connector _
      · exact handled_chunks h

/-- A request that meets no bad URL raises what is handled. -/
theorem handled_of_not_bad {e : UpdateError} (hbad : ¬MeetsBadUrl C remaining server url)
    (h : requestLoop C maximum remaining server url = .error e) : Handled e := by
  induction remaining generalizing server url with
  | zero =>
      cases h
      exact handled_connector _
  | succ remaining ih =>
      cases hallowed : assertHttpsAllowed C url with
      | error error =>
          simp only [requestLoop, hallowed] at h
          cases h
          exact handled_assert hallowed
      | ok _ =>
          simp only [requestLoop, hallowed] at h
          split at h
          · cases h
            exact handled_connector _
          · rename_i hinvalid
            exact absurd (.invalid hallowed hinvalid) hbad
          · cases h
            exact .inl rfl
          · rename_i r hresponse
            split at h
            · rename_i hredirects
              split at h
              · cases h
                exact handled_connector _
              · cases h
                exact handled_connector _
              · rename_i location hne hlocation
                split at h
                · rename_i hjoin
                  exact absurd (.join hallowed hresponse hredirects hlocation hne hjoin) hbad
                · rename_i next hjoin
                  exact ih (fun hnext =>
                    hbad (.next hallowed hresponse hredirects hlocation hne hjoin hnext)) h
            · split at h
              · cases h
                exact handled_connector _
              · split at h
                · cases h
                  exact handled_connector _
                · split at h
                  · cases h
                    exact handled_connector _
                  · exact handled_limited h

theorem unhandled_value : ¬Handled .value := by
  rintro (h | ⟨error, h⟩) <;> cases h

theorem unhandled_invalidUrl : ¬Handled .invalidUrl := by
  rintro (h | ⟨error, h⟩) <;> cases h

variable (maximum) in
theorem unhandled_of_bad (h : MeetsBadUrl C remaining server url) :
    ∃ e, requestLoop C maximum remaining server url = .error e ∧ ¬Handled e := by
  induction h with
  | invalid hallowed h =>
      refine ⟨.invalidUrl, ?_, unhandled_invalidUrl⟩
      simp only [requestLoop, hallowed, h]
  | join hallowed h hredirects hlocation hne hjoin =>
      obtain ⟨c, rest, rfl⟩ := List.exists_cons_of_ne_nil hne
      refine ⟨.value, ?_, unhandled_value⟩
      simp only [requestLoop, hallowed, h, hredirects, if_true, hlocation, hjoin]
  | next hallowed h hredirects hlocation hne hjoin hnext ih =>
      obtain ⟨c, rest, rfl⟩ := List.exists_cons_of_ne_nil hne
      obtain ⟨e, herror, hunhandled⟩ := ih
      refine ⟨e, ?_, hunhandled⟩
      simp only [requestLoop, hallowed, h, hredirects, if_true, hlocation, hjoin]
      exact herror

end requests

section downloads

variable {C} {W : World} {offer : UpdateOffer}

theorem handled_parseDigest {text : Text} {e : UpdateError} (h : parseDigest C text = .error e) :
    Handled e := by
  unfold parseDigest at h
  split at h
  · cases h
    exact handled_connector _
  · simp only at h
    split at h
    · cases h
    · cases h
      exact handled_connector _

theorem handled_decodeAscii {body : Bytes} {e : UpdateError} (h : decodeAscii body = .error e) :
    Handled e := by
  unfold decodeAscii at h
  split at h
  · cases h
  · cases h
    exact .inl rfl

/-- The download meets a bad URL. -/
def BadDownload (C : UpdateContext) (W : World) (offer : UpdateOffer) : Prop :=
  MeetsBadUrl C redirectLimit W.digestServer offer.digestUrl ∨
    (∃ digest, publishedDigest C W offer = .ok digest) ∧
      MeetsBadUrl C redirectLimit W.packageServer offer.packageUrl

theorem error_of_bind {α β : Type} {x : Except UpdateError α} {f : α → Except UpdateError β}
    {e : UpdateError} (h : x >>= f = .error e) :
    x = .error e ∨ ∃ a, x = .ok a ∧ f a = .error e := by
  cases x with
  | error e' =>
      left
      cases h
      rfl
  | ok a => exact .inr ⟨a, rfl, h⟩

theorem handled_publishedDigest {e : UpdateError}
    (hbad : ¬MeetsBadUrl C redirectLimit W.digestServer offer.digestUrl)
    (h : publishedDigest C W offer = .error e) : Handled e := by
  rcases error_of_bind h with h | ⟨body, -, h⟩
  · exact handled_of_not_bad hbad h
  · rcases error_of_bind h with h | ⟨text, -, h⟩
    · exact handled_decodeAscii h
    · exact handled_parseDigest h

theorem handled_download_iff : (∀ e, verifiedPackage C W offer = .error e → Handled e) ↔
    ¬BadDownload C W offer := by
  constructor
  · rintro hall (hbad | ⟨⟨digest, hdigest⟩, hbad⟩)
    · obtain ⟨e, herror, hunhandled⟩ := unhandled_of_bad digestMaxBytes hbad
      refine hunhandled (hall e ?_)
      have hrequest : request C W.digestServer offer.digestUrl digestMaxBytes = .error e := herror
      simp only [verifiedPackage, publishedDigest, hrequest, bind, Except.bind]
    · obtain ⟨e, herror, hunhandled⟩ := unhandled_of_bad packageMaxBytes hbad
      refine hunhandled (hall e ?_)
      have hrequest : request C W.packageServer offer.packageUrl packageMaxBytes = .error e :=
        herror
      simp only [verifiedPackage, hdigest, hrequest, bind, Except.bind]
  · intro hbad e h
    rcases error_of_bind h with h | ⟨digest, hdigest, h⟩
    · exact handled_publishedDigest (fun hmeets => hbad (.inl hmeets)) h
    · rcases error_of_bind h with h | ⟨payload, -, h⟩
      · exact handled_of_not_bad (fun hmeets => hbad (.inr ⟨⟨digest, hdigest⟩, hmeets⟩)) h
      · split at h
        · cases h
          exact handled_connector _
        · cases h

/-- A package that was verified has the published digest. -/
theorem verified_spec {payload : Bytes} (h : verifiedPackage C W offer = .ok payload) :
    publishedDigest C W offer = .ok (C.sha256 payload) := by
  obtain ⟨digest, hdigest, h⟩ := bind_eq_ok.mp h
  obtain ⟨payload', -, h⟩ := bind_eq_ok.mp h
  split at h
  · cases h
  · rename_i hsame
    cases h
    rw [hdigest, not_not.mp hsame]

end downloads

/-! ### The replacement -/

def WriteFate.fate : WriteFate → OpFate
  | .done => .done
  | .failed _ => .failed
  | .stopped _ => .stopped false

/-- The operations before the target is renamed, of those that the folder calls for. -/
def ReplaceFates.before (F : ReplaceFates) (d : Folder) : List OpFate :=
  [F.write.fate, F.previousExists] ++ (if d.previous.isSome then [F.previousUnlink] else []) ++
    [F.targetExists]

/-- The operations up to the rename that puts the new executable in place. -/
def ReplaceFates.upToPromote (F : ReplaceFates) (d : Folder) : List OpFate :=
  F.before d ++ (if d.target.isSome then [F.retire] else []) ++ [F.promote]

/-- The old executable is renamed, and the new one is not: the process stops
between the two renames, or the second one fails. -/
def ReplaceFates.strands (F : ReplaceFates) (d : Folder) : Bool :=
  d.target.isSome && (F.before d).all (fun fate => decide (fate = .done)) && F.retire.applied &&
    !(decide (F.retire = .done) && F.promote.applied)

/-- An operation fails, and then the removal of the new file does. -/
def ReplaceFates.cleanupFails (F : ReplaceFates) (d : Folder) : Bool :=
  decide ((F.upToPromote d).find? (fun fate => decide (fate ≠ .done)) = some .failed) &&
    decide (F.cleanup = .failed)

section replacement

open Fallible

variable {F : ReplaceFates} {d : Folder} {payload : Bytes}

/-! The operations of a replacement, with their effects. -/

def writeOps (payload : Bytes) : WriteFate → List (Op Folder)
  | .done => [⟨.done, fun d => { d with incoming := some payload }⟩]
  | .failed left => [⟨.done, fun d => { d with incoming := left }⟩, ⟨.failed, id⟩]
  | .stopped left => [⟨.done, fun d => { d with incoming := left }⟩, ⟨.stopped false, id⟩]

def opsBefore (F : ReplaceFates) (d : Folder) (payload : Bytes) : List (Op Folder) :=
  writeOps payload F.write ++ ⟨F.previousExists, id⟩ ::
    ((if d.previous.isSome then [⟨F.previousUnlink, fun d => { d with previous := none }⟩] else []) ++
      [⟨F.targetExists, id⟩])

def renameOps (F : ReplaceFates) (d : Folder) : List (Op Folder) :=
  (if d.target.isSome then
    [⟨F.retire, fun d => { d with target := none, previous := d.target }⟩] else []) ++
    [⟨F.promote, fun d => { d with target := d.incoming, incoming := none }⟩]

theorem swapIn_eq : swapIn F payload d =
    script .os (opsBefore F d payload ++ renameOps F d) d := by
  obtain ⟨write, previousExists, previousUnlink, targetExists, retire, promote, cleanup, tidy⟩ := F
  obtain ⟨target, incoming, previous⟩ := d
  cases write with
  | failed | stopped => rfl
  | done =>
      cases previousExists with
      | failed | stopped => rfl
      | done =>
          cases previous with
          | none =>
              cases targetExists with
              | failed | stopped => rfl
              | done =>
                  cases target with
                  | none => cases promote <;> rfl
                  | some old => cases retire <;> cases promote <;> rfl
          | some kept =>
              cases previousUnlink with
              | failed | stopped => rfl
              | done =>
                  cases targetExists with
                  | failed | stopped => rfl
                  | done =>
                      cases target with
                      | none => cases promote <;> rfl
                      | some old => cases retire <;> cases promote <;> rfl

theorem find_fates : ((opsBefore F d payload ++ renameOps F d).map Op.fate).find?
      (fun fate => decide (fate ≠ .done)) =
    (F.upToPromote d).find? (fun fate => decide (fate ≠ .done)) := by
  unfold opsBefore renameOps ReplaceFates.upToPromote ReplaceFates.before
  cases F.write <;> cases d.previous <;> cases d.target <;>
    simp only [writeOps, WriteFate.fate, List.map_cons, List.map_nil, List.cons_append,
      List.nil_append, Option.isSome_none, Option.isSome_some, Bool.false_eq_true, if_false,
      if_true] <;>
    simp

theorem swapIn_exit : (swapIn F payload d).1 = exitOf .os (F.upToPromote d) := by
  rw [swapIn_eq, script_exit]
  unfold exitOf
  rw [find_fates]

theorem done_iff : (∀ op ∈ opsBefore F d payload, op.fate = .done) ↔
    (F.before d).all (fun fate => decide (fate = .done)) = true := by
  unfold opsBefore ReplaceFates.before
  cases F.write <;> cases d.previous <;> simp [writeOps, WriteFate.fate]

theorem keeps_target : ∀ op ∈ opsBefore F d payload, ∀ s : Folder,
    (op.effect s).target = s.target := by
  unfold opsBefore
  cases F.write <;> cases d.previous <;> simp [writeOps]

/-- Nothing before the renames touches the target. -/
theorem target_before :
    (script UpdateError.os (opsBefore F d payload) d).2.target = d.target :=
  script_keeps (I := fun s : Folder => s.target = d.target)
    (fun op hop s hs => (keeps_target op hop s).trans hs) rfl

/-- The operations before the renames, without the write. -/
def opsAfterWrite (F : ReplaceFates) (d : Folder) : List (Op Folder) :=
  ⟨F.previousExists, id⟩ ::
    ((if d.previous.isSome then [⟨F.previousUnlink, fun d => { d with previous := none }⟩] else []) ++
      [⟨F.targetExists, id⟩])

theorem keeps_incoming : ∀ op ∈ opsAfterWrite F d, ∀ s : Folder,
    (op.effect s).incoming = s.incoming := by
  unfold opsAfterWrite
  cases d.previous <;> simp

theorem incoming_before (h : ∀ op ∈ opsBefore F d payload, op.fate = .done) :
    (script UpdateError.os (opsBefore F d payload) d).2.incoming = some payload := by
  have hwrite : F.write = .done := by
    have hall := done_iff.mp h
    cases hw : F.write <;> simp [ReplaceFates.before, hw, WriteFate.fate] at hall ⊢
  have hscript : script UpdateError.os (opsBefore F d payload) d =
      script UpdateError.os (opsAfterWrite F d) { d with incoming := some payload } := by
    unfold opsBefore
    rw [hwrite]
    rfl
  rw [hscript]
  exact script_keeps (I := fun s : Folder => s.incoming = some payload)
    (fun op hop s hs => (keeps_incoming op hop s).trans hs) rfl

/-- What the renames make of the target: it is missing where they strand it, and
else the old executable or the new one; the old one where they raise. -/
structure Renamed (F : ReplaceFates) (d : Folder) (payload : Bytes)
    (r : Exit UpdateError Unit × Folder) : Prop where
  stranded : F.strands d = true → d.target ≠ none ∧ r.2.target = none
  kept : F.strands d = false → r.2.target = d.target ∨ r.2.target = some payload
  restored : F.strands d = false → ∀ e, r.1 = .raised e → r.2.target = d.target

theorem Renamed.of_kept {r : Exit UpdateError Unit × Folder} (hstrands : F.strands d = false)
    (h : r.2.target = d.target) : Renamed F d payload r where
  stranded hs := by
    rw [hstrands] at hs
    cases hs
  kept _ := .inl h
  restored _ _ _ := h

theorem Renamed.of_promoted {r : Exit UpdateError Unit × Folder} (hstrands : F.strands d = false)
    (h : r.2.target = some payload) (hexit : ∀ e, r.1 ≠ .raised e) : Renamed F d payload r where
  stranded hs := by
    rw [hstrands] at hs
    cases hs
  kept _ := .inr h
  restored _ e he := absurd he (hexit e)

theorem Renamed.of_stranded {r : Exit UpdateError Unit × Folder} (hstrands : F.strands d = true)
    (hold : d.target ≠ none) (h : r.2.target = none) : Renamed F d payload r where
  stranded _ := ⟨hold, h⟩
  kept hs := by
    rw [hstrands] at hs
    cases hs
  restored hs := by
    rw [hstrands] at hs
    cases hs

theorem renamed_renames {s : Folder}
    (hdone : (F.before d).all (fun fate => decide (fate = .done)) = true)
    (htarget : s.target = d.target) (hincoming : s.incoming = some payload) :
    Renamed F d payload (script UpdateError.os (renameOps F d) s) := by
  unfold renameOps
  cases hd : d.target with
  | none =>
      have hsafe : F.strands d = false := by simp [ReplaceFates.strands, hd]
      rw [hd] at htarget
      cases hpromote : F.promote with
      | done => exact .of_promoted hsafe hincoming nofun
      | failed => exact .of_kept hsafe (htarget.trans hd.symm)
      | stopped applied =>
          cases applied with
          | false => exact .of_kept hsafe (htarget.trans hd.symm)
          | true => exact .of_promoted hsafe hincoming nofun
  | some old =>
      rw [hd] at htarget
      have hold : d.target ≠ none := by simp [hd]
      cases hretire : F.retire with
      | failed =>
          exact .of_kept (by simp [ReplaceFates.strands, hretire, OpFate.applied])
            (htarget.trans hd.symm)
      | stopped applied =>
          cases applied with
          | false =>
              exact .of_kept (by simp [ReplaceFates.strands, hretire, OpFate.applied])
                (htarget.trans hd.symm)
          | true =>
              exact .of_stranded
                (by simp [ReplaceFates.strands, hretire, OpFate.applied, hdone, hd]) hold rfl
      | done =>
          cases hpromote : F.promote with
          | done =>
              exact .of_promoted
                (by simp [ReplaceFates.strands, hretire, hpromote, OpFate.applied]) hincoming nofun
          | failed =>
              exact .of_stranded
                (by simp [ReplaceFates.strands, hretire, hpromote, OpFate.applied, hdone, hd])
                hold rfl
          | stopped applied =>
              cases applied with
              | false =>
                  exact .of_stranded
                    (by simp [ReplaceFates.strands, hretire, hpromote, OpFate.applied, hdone, hd])
                    hold rfl
              | true =>
                  exact .of_promoted
                    (by simp [ReplaceFates.strands, hretire, hpromote, OpFate.applied])
                    hincoming nofun

theorem renamed_swapIn : Renamed F d payload (swapIn F payload d) := by
  rw [swapIn_eq]
  by_cases hdone : ∀ op ∈ opsBefore F d payload, op.fate = .done
  · rw [script_append_of_done hdone]
    exact renamed_renames (done_iff.mp hdone) target_before (incoming_before hdone)
  · rw [script_append_of_fault hdone]
    have hall : (F.before d).all (fun fate => decide (fate = .done)) = false :=
      Bool.eq_false_iff.mpr fun h => hdone (done_iff.mpr h)
    exact .of_kept (by simp [ReplaceFates.strands, hall]) target_before

/-! ### The handlers -/

theorem swapIn_raises {e : UpdateError} (h : (swapIn F payload d).1 = .raised e) :
    e = .os ∧ (F.upToPromote d).find? (fun fate => decide (fate ≠ .done)) = some .failed := by
  rw [swapIn_exit] at h
  unfold exitOf at h
  split at h
  · cases h
  · rename_i hfind
    cases h
    exact ⟨rfl, hfind⟩
  · cases h
  · cases h

theorem cleanupFails_iff : F.cleanupFails d = true ↔
    (F.upToPromote d).find? (fun fate => decide (fate ≠ .done)) = some .failed ∧
      F.cleanup = .failed := by
  unfold ReplaceFates.cleanupFails
  rw [Bool.and_eq_true, decide_eq_true_eq, decide_eq_true_eq]

theorem raises_of_find
    (h : (F.upToPromote d).find? (fun fate => decide (fate ≠ .done)) = some .failed) :
    (swapIn F payload d).1 = .raised .os := by
  rw [swapIn_exit]
  unfold exitOf
  rw [h]

/-- The target after the handlers is the one before them; they raise where the
operations do, a `ConnectorError` unless the new file cannot be removed. -/
structure Replaced (F : ReplaceFates) (d : Folder) (payload : Bytes) : Prop where
  target : (replaceExecutable F payload d).2.target = (swapIn F payload d).2.target
  raised : ∀ e, (replaceExecutable F payload d).1 = .raised e →
    (swapIn F payload d).1 = .raised .os ∧ (e = .os ↔ F.cleanup = .failed) ∧
      (F.cleanup ≠ .failed → e = updateReplaceFailed)
  fails : (swapIn F payload d).1 = .raised .os → F.cleanup = .failed →
    (replaceExecutable F payload d).1 = .raised .os

theorem replace_of_returned {t : Folder} (h : swapIn F payload d = (.returned (), t)) :
    (replaceExecutable F payload d).2.target = t.target ∧
      ∀ e, (replaceExecutable F payload d).1 ≠ .raised e := by
  have hreplace : replaceExecutable F payload d =
      handle (perform F.tidy .os fun d => { d with previous := none }) (fun _ => .pure ()) t := by
    show Fallible.bind (handle (swapIn F payload) (swapFailed F)) _ d = _
    refine bind_of_returned (a := ()) ?_
    unfold handle
    rw [h]
  rw [hreplace]
  cases F.tidy with
  | done => exact ⟨rfl, nofun⟩
  | failed => exact ⟨rfl, nofun⟩
  | stopped applied => cases applied <;> exact ⟨rfl, nofun⟩

theorem replace_of_raised {t : Folder} (h : swapIn F payload d = (.raised .os, t)) :
    (replaceExecutable F payload d).2.target = t.target ∧
      (replaceExecutable F payload d).1 =
        match F.cleanup with
        | .done => .raised updateReplaceFailed
        | .failed => .raised .os
        | .stopped _ => .stopped := by
  have hhandle : handle (swapIn F payload) (swapFailed F) d = swapFailed F .os t := by
    unfold handle
    rw [h]
  cases hcleanup : F.cleanup with
  | done =>
      have hreplace : replaceExecutable F payload d =
          (.raised updateReplaceFailed, { t with incoming := none }) := by
        refine bind_of_raised (hhandle.trans ?_)
        unfold swapFailed
        rw [hcleanup]
        rfl
      rw [hreplace]
      exact ⟨rfl, rfl⟩
  | failed =>
      have hreplace : replaceExecutable F payload d = (.raised .os, t) := by
        refine bind_of_raised (hhandle.trans ?_)
        unfold swapFailed
        rw [hcleanup]
        rfl
      rw [hreplace]
      exact ⟨rfl, rfl⟩
  | stopped applied =>
      have hreplace : replaceExecutable F payload d =
          (.stopped, if applied then { t with incoming := none } else t) := by
        refine bind_of_stopped (hhandle.trans ?_)
        unfold swapFailed
        rw [hcleanup]
        rfl
      rw [hreplace]
      cases applied <;> exact ⟨rfl, rfl⟩

theorem replace_of_stopped {t : Folder} (h : swapIn F payload d = (.stopped, t)) :
    replaceExecutable F payload d = (.stopped, t) := by
  refine bind_of_stopped ?_
  unfold handle
  rw [h]

theorem replaced : Replaced F d payload := by
  rcases h : swapIn F payload d with ⟨exit, t⟩
  cases exit with
  | returned _ =>
      obtain ⟨htarget, hexit⟩ := replace_of_returned h
      refine ⟨?_, fun e he => absurd he (hexit e), fun hraised => ?_⟩
      · rw [h]
        exact htarget
      · rw [h] at hraised
        cases hraised
  | raised e =>
      obtain ⟨rfl, -⟩ := swapIn_raises (congrArg Prod.fst h)
      obtain ⟨htarget, hexit⟩ := replace_of_raised h
      refine ⟨?_, fun e he => ?_, fun _ hcleanup => ?_⟩
      · rw [h]
        exact htarget
      · rw [hexit] at he
        refine ⟨congrArg Prod.fst h, ?_⟩
        cases hcleanup : F.cleanup with
        | done =>
            rw [hcleanup] at he
            cases he
            exact ⟨⟨nofun, nofun⟩, fun _ => rfl⟩
        | failed =>
            rw [hcleanup] at he
            cases he
            exact ⟨⟨fun _ => rfl, fun _ => rfl⟩, fun hne => absurd rfl hne⟩
        | stopped applied =>
            rw [hcleanup] at he
            cases he
      · rw [hexit, hcleanup]
  | stopped =>
      have hreplace := replace_of_stopped h
      refine ⟨?_, fun e he => ?_, fun hraised => ?_⟩
      · rw [h, hreplace]
      · rw [hreplace] at he
        cases he
      · rw [h] at hraised
        cases hraised

end replacement

/-! ### The update -/

/-- What an update that started in folder `d` has come to. -/
structure AllOrNothing (C : UpdateContext) (W : World) (offer : UpdateOffer) (d : Folder) : Prop where
  /-- The target is what it was, or a package with the published digest. -/
  kept : (installUpdate C W offer d).2.target = d.target ∨ ∃ payload,
    (installUpdate C W offer d).2.target = some payload ∧
      publishedDigest C W offer = .ok (C.sha256 payload)
  /-- Where it raises, the old executable is in place. -/
  restored : ∀ e, (installUpdate C W offer d).1 = .raised e →
    (installUpdate C W offer d).2.target = d.target
  expected : ∀ e, (installUpdate C W offer d).1 = .raised e → ∃ error, e = .connector error

/-- The condition on the inputs of an update: its requests meet no bad URL; and,
with a package that was verified, the process does not end up between the two
renames, and a failed operation is not followed by a failed removal. -/
structure Undisturbed (C : UpdateContext) (W : World) (offer : UpdateOffer) (d : Folder) : Prop where
  download : ¬BadDownload C W offer
  renames : ∀ payload, verifiedPackage C W offer = .ok payload → W.fates.strands d = false
  cleanup : ∀ payload, verifiedPackage C W offer = .ok payload → W.fates.cleanupFails d = false

section update

open Fallible

variable {C} {W : World} {offer : UpdateOffer} {d : Folder}

theorem install_of_error {e : UpdateError} (havailable : offer.available = true)
    (h : verifiedPackage C W offer = .error e) :
    installUpdate C W offer d =
      (.raised (if e = .unicode then updateDigestInvalid else e), d) := by
  unfold installUpdate
  rw [if_pos havailable, h]
  cases e <;> rfl

theorem replace_not_unicode {F : ReplaceFates} {payload : Bytes} :
    (replaceExecutable F payload d).1 ≠ .raised .unicode := by
  intro h
  obtain ⟨-, hos, hconnector⟩ := replaced.raised _ h
  by_cases hcleanup : F.cleanup = .failed
  · cases hos.mpr hcleanup
  · cases hconnector hcleanup

theorem install_of_ok {payload : Bytes} (havailable : offer.available = true)
    (h : verifiedPackage C W offer = .ok payload) :
    installUpdate C W offer d = replaceExecutable W.fates payload d := by
  have hinner : (Fallible.bind (ofExcept (verifiedPackage C W offer))
      fun payload => replaceExecutable W.fates payload) d = replaceExecutable W.fates payload d := by
    rw [h]
    rfl
  unfold installUpdate
  rw [if_pos havailable]
  show handle (Fallible.bind (ofExcept (verifiedPackage C W offer))
    fun payload => replaceExecutable W.fates payload) _ d = _
  unfold handle
  rw [hinner]
  have hunicode := @replace_not_unicode d W.fates payload
  rcases hreplace : replaceExecutable W.fates payload d with ⟨exit, t⟩
  rw [hreplace] at hunicode
  cases exit with
  | returned _ => rfl
  | stopped => rfl
  | raised e =>
      cases e with
      | unicode => exact absurd rfl hunicode
      | connector | os | value | invalidUrl => rfl

theorem undisturbed_of_allOrNothing (havailable : offer.available = true)
    (h : AllOrNothing C W offer d) : Undisturbed C W offer d where
  download := by
    refine handled_download_iff.mp fun e he => ?_
    have hinstall := install_of_error (d := d) havailable he
    obtain ⟨error, herror⟩ := h.expected _ (congrArg Prod.fst hinstall)
    split at herror
    · left
      assumption
    · exact .inr ⟨error, herror⟩
  renames payload hpayload := by
    by_contra hstrands
    rw [Bool.not_eq_false] at hstrands
    obtain ⟨hold, hmissing⟩ := (@renamed_swapIn W.fates d payload).stranded hstrands
    have htarget : (installUpdate C W offer d).2.target = none := by
      rw [install_of_ok havailable hpayload, replaced.target, hmissing]
    rcases h.kept with hkept | ⟨payload', hkept, -⟩
    · exact hold (hkept.symm.trans htarget)
    · cases hkept.symm.trans htarget
  cleanup payload hpayload := by
    by_contra hfails
    rw [Bool.not_eq_false] at hfails
    obtain ⟨hfind, hcleanup⟩ := cleanupFails_iff.mp hfails
    have hraised : (installUpdate C W offer d).1 = .raised .os := by
      rw [install_of_ok havailable hpayload]
      exact replaced.fails (raises_of_find hfind) hcleanup
    obtain ⟨error, herror⟩ := h.expected .os hraised
    cases herror

theorem allOrNothing_of_undisturbed (havailable : offer.available = true)
    (h : Undisturbed C W offer d) : AllOrNothing C W offer d := by
  cases hpackage : verifiedPackage C W offer with
  | error e =>
      have hinstall := install_of_error (d := d) havailable hpackage
      have hhandled := handled_download_iff.mpr h.download e hpackage
      refine ⟨.inl (by rw [hinstall]), fun e' he => by rw [hinstall], fun e' he => ?_⟩
      rw [hinstall] at he
      obtain rfl : (if e = .unicode then updateDigestInvalid else e) = e' := by
        injection he
      split
      · exact ⟨_, rfl⟩
      · rename_i hne
        exact hhandled.resolve_left hne
  | ok payload =>
      have hinstall := install_of_ok (d := d) havailable hpackage
      have hstrands := h.renames payload hpackage
      have hrenamed := @renamed_swapIn W.fates d payload
      have hcleanup : ∀ e, (installUpdate C W offer d).1 = .raised e →
          W.fates.cleanup ≠ .failed := by
        intro e he hfailed
        rw [hinstall] at he
        have hfails := h.cleanup payload hpackage
        rw [cleanupFails_iff.mpr ⟨(swapIn_raises (replaced.raised e he).1).2, hfailed⟩] at hfails
        cases hfails
      refine ⟨?_, fun e he => ?_, fun e he => ?_⟩
      · rw [hinstall, replaced.target]
        rcases hrenamed.kept hstrands with hkept | hkept
        · exact .inl hkept
        · exact .inr ⟨payload, hkept, verified_spec hpackage⟩
      · have hraised := he
        rw [hinstall] at hraised
        rw [hinstall, replaced.target]
        exact hrenamed.restored hstrands .os (replaced.raised e hraised).1
      · have hraised := he
        rw [hinstall] at hraised
        rw [(replaced.raised e hraised).2.2 (hcleanup e he)]
        exact ⟨_, rfl⟩

end update

/-- An update is all or nothing exactly where it is not disturbed. -/
theorem all_or_nothing_iff (C : UpdateContext) (W : World) (offer : UpdateOffer) (d : Folder) :
    AllOrNothing C W offer d ↔ (offer.available = true → Undisturbed C W offer d) := by
  refine ⟨fun h havailable => undisturbed_of_allOrNothing havailable h, fun h => ?_⟩
  by_cases havailable : offer.available = true
  · exact allOrNothing_of_undisturbed havailable (h havailable)
  · have hinstall : installUpdate C W offer d = (.returned (), d) := by
      unfold installUpdate
      rw [if_neg havailable]
      rfl
    refine ⟨.inl (by rw [hinstall]), fun e he => ?_, fun e he => ?_⟩
    · rw [hinstall] at he
      cases he
    · rw [hinstall] at he
      cases he

namespace Sample

def digestUrl : Text := Text.ofString "https://github.com/d"

def packageUrl : Text := Text.ofString "https://github.com/p"

def oldBytes : Bytes := [9]

def newBytes : Bytes := [1, 2]

/-- The SHA-256 of `newBytes`. -/
def digest : Text :=
  Text.ofString "a12871fee210fb8619291eaea194581cbd2531e4b23759d225f6806923f63222"

/-- The library functions, as they are on the two URLs and the package. -/
def context : UpdateContext where
  urlsplit _ := some ⟨Text.ofString "https", none, none, some (Text.ofString "github.com")⟩
  urljoin _ url := some url
  casefold t := t
  int _ := none
  sha256 _ := digest

def answer (body : Bytes) : Nat → Text → Exchange :=
  fun _ _ => .response ⟨200, none, none, [body], false⟩

def quiet : ReplaceFates := ⟨.done, .done, .done, .done, .done, .done, .done, .done⟩

/-- A release server that works, and the second rename fails. -/
def world : World where
  digestServer := answer (digest.map UInt8.ofNat)
  packageServer := answer newBytes
  fates := { quiet with promote := .failed }

def offer : UpdateOffer := ⟨true, packageUrl, digestUrl⟩

def folder : Folder := ⟨some oldBytes, none, none⟩

end Sample

/-- The second rename fails, and no executable is left. -/
theorem executable_lost :
    ¬∀ (C : UpdateContext) (W : World) (offer : UpdateOffer) (d : Folder),
      AllOrNothing C W offer d := by
  intro h
  have htarget : (installUpdate Sample.context Sample.world Sample.offer Sample.folder).2.target =
      none := by
    decide
  have hexit : (installUpdate Sample.context Sample.world Sample.offer Sample.folder).1 =
      .raised updateReplaceFailed := by
    decide
  have hrestored := (h Sample.context Sample.world Sample.offer Sample.folder).restored _ hexit
  rw [htarget] at hrestored
  cases hrestored

end SuperBoss.Connector
