import SuperBoss.Connector.Resuming

/-!
Pairing an origin again: a marker with the fingerprint of the old credential is
written before the code is redeemed, and a command that finds the marker can tell
whether the pairing has stored a credential.
-/

namespace SuperBoss.Connector

open SuperBoss.Core
open SuperBoss.Files
open SuperBoss.Imports
open SuperBoss.Library
open SuperBoss.Library.Framing

variable {P : Platform} {A : Type} [DecidableEq A] {T : Timestamps P} {C : UrlContext A}
  {origin : Text} {w : Workstation}

/-! ### Loading -/

theorem ok_of_guarded {α : Type} {i : Chance A} {result : Except Fault α} {a : α}
    (h : guarded i result = .ok a) : result = .ok a := by
  unfold guarded at h
  split at h
  · cases h
  · exact h

theorem loadMarker_none {α : Type} {validate : Json → Except PyError α} {originOf : α → Text}
    {file : Option Bytes} (h : loadMarker origin validate originOf file = .ok none) :
    file = none := by
  unfold loadMarker at h
  split at h
  · rfl
  · split at h
    · cases h
    · split at h
      · cases h
      · cases h

theorem loadMarker_some {α : Type} {validate : Json → Except PyError α} {originOf : α → Text}
    {file : Option Bytes} {m : α} (h : loadMarker origin validate originOf file = .ok (some m)) :
    ∃ b, file = some b ∧ readMarker validate b = some m := by
  unfold loadMarker at h
  split at h
  · cases h
  · rename_i b
    split at h
    · cases h
    · rename_i m' hread
      split at h
      · cases h
      · obtain rfl := Option.some.inj (Except.ok.inj h)
        exact ⟨b, rfl, hread⟩

/-- What a marker file is read as is what was written. -/
theorem MarkerModel.read_eq {α : Type} {fields : α → List (Text × Json)}
    {validate : Json → Except PyError α} {names : List String}
    (h : MarkerModel fields validate names) {m m' : α} {b : Bytes}
    (hb : serializeMarker fields validate m = some b) (hread : readMarker validate b = some m') :
    m' = m := by
  rw [h.read_serialize hb] at hread
  split at hread
  · exact (Option.some.inj hread).symm
  · cases hread

/-- The entry of the outbox is loaded as it is, unless its document is longer than the reader's
limit. -/
theorem Workstation.Holds.load {e : OutboxEntry} (h : w.Holds T origin e) {name : Text} {b : Bytes}
    (hdocuments : w.documents = [(name, b)]) : loadOptional P origin w.documents =
      if b.length ≤ localStateMaxBytes then .ok (some (name, e)) else .error outboxInvalid := by
  obtain ⟨b', hserialize, hdocuments'⟩ := h.documents
  obtain ⟨rfl, rfl⟩ := Prod.mk.inj (List.singleton_inj.mp (hdocuments'.symm.trans hdocuments))
  have hread := (readEntry_serialize h.ok.dated hserialize).2
  rw [h.ok.stripped] at hread
  split
  · rename_i hlength
    rw [if_pos hlength] at hread
    exact loadOptional_eq_ok.mpr ⟨b', hdocuments, hread, h.origin, rfl⟩
  · rename_i hlength
    rw [if_neg hlength] at hread
    rw [hdocuments]
    simp [loadOptional, allDocuments, hread, bind, Except.bind]

/-- The entry that is loaded is the one of the outbox. -/
theorem Workstation.Inv.loaded (h : w.Inv T C origin) {name : Text} {e : OutboxEntry}
    (hload : loadOptional P origin w.documents = .ok (some (name, e))) :
    w.Operates T C origin e ∧ name = pathFor P e.idempotencyKey := by
  obtain ⟨b, hdocuments, hread, -, hname⟩ := loadOptional_eq_ok.mp hload
  refine ⟨?_, hname⟩
  rcases h.outbox with hidle | ⟨e', he'⟩
  · rw [hidle.documents] at hdocuments
    cases hdocuments
  · obtain ⟨b', hserialize, hdocuments'⟩ := he'.documents
    obtain ⟨-, rfl⟩ := Prod.mk.inj (List.singleton_inj.mp (hdocuments'.symm.trans hdocuments))
    rw [(readEntry_serialize he'.ok.dated hserialize).2, he'.ok.stripped] at hread
    split at hread
    · obtain rfl := Option.some.inj hread
      exact he'
    · cases hread

theorem Workstation.Inv.loaded_none (h : w.Inv T C origin)
    (hload : loadOptional P origin w.documents = .ok none) : w.Idle := by
  rcases h.outbox with hidle | ⟨e, he⟩
  · exact hidle
  · exfalso
    obtain ⟨b, -, hdocuments⟩ := he.documents
    obtain ⟨entries, hall, hload⟩ := bind_eq_ok.mp hload
    rw [hdocuments] at hall
    cases hread : readEntry P b with
    | none => simp [allDocuments, hread] at hall
    | some e' =>
        simp [allDocuments, hread] at hall
        subst hall
        simp only at hload
        split at hload
        · cases hload
        · split at hload
          · cases hload
          · cases hload

/-! ### Fingerprints -/

/-- A credential with the recorded fingerprint was not replaced. -/
theorem credentialWasReplaced_of_recorded {sha256 current : Option Text}
    (h : refreshFingerprint P current = .ok sha256) :
    credentialWasReplaced P ⟨origin, .of sha256, sha256⟩ current = .ok false := by
  cases current with
  | none =>
      cases h
      rfl
  | some t =>
      simp only [refreshFingerprint] at h
      split at h
      · cases h
      · rename_i hutf8
        cases h
        simp [credentialWasReplaced, refreshFingerprint, hutf8, CredentialState.of, bind,
          Except.bind]

/-- A credential that was replaced is there, and has another fingerprint. -/
theorem of_credentialWasReplaced {sha256 current : Option Text}
    (h : credentialWasReplaced P ⟨origin, .of sha256, sha256⟩ current = .ok true) :
    ∃ t, current = some t ∧ refreshFingerprint P (some t) ≠ .ok sha256 := by
  cases current with
  | none =>
      cases sha256 <;> simp [credentialWasReplaced, refreshFingerprint, bind, Except.bind] at h
  | some t =>
      refine ⟨t, rfl, fun heq => ?_⟩
      rw [credentialWasReplaced_of_recorded heq] at h
      cases h

/-- Where the credential behind a marker was replaced, a pairing has stored it. -/
theorem Workstation.Recorded.paired {sha256 : Option Text} (h : w.Recorded P sha256)
    (hreplaced : credentialWasReplaced P ⟨origin, .of sha256, sha256⟩ w.refresh = .ok true) :
    ∃ t, w.credential = some t ∧ PairedSince t w.history ∧
      refreshFingerprint P (some t) ≠ .ok sha256 := by
  rcases h with hsame | ⟨t, ht, hpaired⟩
  · rw [credentialWasReplaced_of_recorded hsame] at hreplaced
    cases hreplaced
  · obtain ⟨t', ht', hnew⟩ := of_credentialWasReplaced hreplaced
    rw [Workstation.refresh, ht] at ht'
    obtain ⟨ht', -⟩ := Option.filter_eq_some_iff.mp ht'
    obtain rfl := Option.some.inj ht'
    exact ⟨t, ht, hpaired, hnew⟩

/-! ### States of a pairing -/

section states

variable (T C origin)

/-- No pairing is under way, and the outbox is in order. -/
structure Workstation.Quiet (w : Workstation) : Prop where
  inv : w.Inv T C origin
  unmarked : w.Unmarked

/-- A pairing has stored its credential, and of the old operation only the marker is left. -/
structure Workstation.Replaced (w : Workstation) : Prop where
  inv : w.Inv T C origin
  marker : ∃ sha256 name b, w.replacement = some b ∧ replacementBytes origin sha256 name = some b
  documents : w.documents = []
  paired : ∃ t, w.credential = some t ∧ PairedSince t w.history

/-- A pairing has stored its credential in an empty outbox, and only the marker is left. -/
structure Workstation.Completed (w : Workstation) : Prop where
  inv : w.Inv T C origin
  marker : ∃ sha256 b, w.pairCompletion = some b ∧ pairCompletionBytes origin sha256 = some b
  paired : ∃ t, w.credential = some t ∧ PairedSince t w.history

end states

theorem Workstation.Replaced.observe (h : w.Replaced T C origin) {ev : Event}
    (hev : ev.call.observes = true) : (w.push ev).Replaced T C origin where
  inv := h.inv.observe hev
  marker := h.marker
  documents := h.documents
  paired := h.paired.imp fun _ ht => ⟨ht.1, ht.2.cons (Call.marks_of_observes (.inl hev))⟩

theorem Workstation.Completed.observe (h : w.Completed T C origin) {ev : Event}
    (hev : ev.call.observes = true) : (w.push ev).Completed T C origin where
  inv := h.inv.observe hev
  marker := h.marker
  paired := h.paired.imp fun _ ht => ⟨ht.1, ht.2.cons (Call.marks_of_observes (.inl hev))⟩

/-- The outbox is in order whatever becomes of the markers and the credential. -/
theorem Workstation.Inv.outbox_push (h : w.Inv T C origin) {w' : Workstation} {ev : Event}
    (hdocuments : w'.documents = w.documents) (hhistory : w'.history = w.history)
    (hremoval : ev.isRemoval = false)
    (hev : ∀ r, ev.call = .request r → r.isOperation = false) :
    (w'.push ev).Idle ∨ ∃ e, (w'.push ev).Operates T C origin e := by
  rcases h.outbox with hidle | ⟨e, he⟩
  · exact .inl ((⟨hdocuments.trans hidle.documents, hhistory ▸ hidle.requests⟩ :
      w'.Idle).push hremoval hev)
  · refine .inr ⟨e, Workstation.Operates.push ?_ hremoval fun r hr =>
      Request.concerns_of_not_operation (hev r hr)⟩
    obtain ⟨b, hb, hdocument⟩ := he.documents
    exact {
      ok := he.ok
      origin := he.origin
      documents := ⟨b, hb, hdocuments.trans hdocument⟩
      backed := hhistory ▸ he.backed
      requests := hhistory ▸ he.requests }

theorem settled_quiet : Settled T C origin (Workstation.Quiet T C origin) where
  inv _ h := h.inv
  unmarked _ h := h.unmarked
  push w ev credential h hremoval hev := by
    have hunmarked : (Workstation.push { w with credential := credential } ev).Unmarked :=
      ⟨h.unmarked.replacement, h.unmarked.pairCompletion⟩
    exact ⟨hunmarked.inv (h.inv.outbox_push rfl rfl hremoval hev), hunmarked⟩

/-! ### Removing a marker -/

theorem unlink_error {α : Type} {file : Option Bytes} {f : Unit → α} {error : ConnectorError}
    (h : (unlink file).map f = .error error) : error = outboxInvalid := by
  unfold unlink at h
  split at h
  · cases h
  · exact (Except.error.inj h).symm

/-- The replacement marker is removed when its pairing has not replaced the credential, or the
old operation is gone. -/
theorem Workstation.Inv.keeping_deleteReplacement (h : w.Inv T C origin) {b : Bytes}
    {sha256 : Option Text} {name : Text} (hb : w.replacement = some b)
    (hbytes : replacementBytes origin sha256 name = some b)
    (hconcluded : w.Concluded P origin sha256 (w.documents = [])) :
    Keeping T C origin (fun _ w' => w'.Quiet T C origin) (fun _ _ => True)
      (call .deleteReplacementMarker) w := by
  refine keeping_change ⟨sha256, name, b, hb, hbytes, hconcluded⟩ (fun i => rfl)
    (fun i error herror => unlink_error herror) (fun i a w' hresult => ?_)
    ⟨h.push_other rfl rfl rfl, trivial⟩
  obtain ⟨_, -, heq⟩ := map_eq_ok.mp hresult
  obtain ⟨-, rfl⟩ := Prod.mk.inj heq
  have hunmarked : (Workstation.push { w with replacement := none }
      ⟨.deleteReplacementMarker, .ok a⟩).Unmarked := ⟨rfl, (h.replacement b hb).1⟩
  have hinv := hunmarked.inv
    (h.outbox_push rfl rfl rfl fun r hr => absurd hr (Call.ne_request rfl r))
  exact ⟨hinv, hinv, hunmarked⟩

theorem Workstation.Replaced.keeping_delete (h : w.Replaced T C origin) :
    Keeping T C origin (fun _ w' => w'.Quiet T C origin) (fun _ _ => True)
      (call .deleteReplacementMarker) w := by
  obtain ⟨sha256, name, b, hb, hbytes⟩ := h.marker
  exact h.inv.keeping_deleteReplacement hb hbytes (.inr ⟨h.documents, h.paired⟩)

/-- The completion marker is removed when its pairing has not replaced the credential, or has
stored one. -/
theorem Workstation.Inv.keeping_deletePairCompletion (h : w.Inv T C origin) {b : Bytes}
    {sha256 : Option Text} (hb : w.pairCompletion = some b)
    (hbytes : pairCompletionBytes origin sha256 = some b)
    (hconcluded : w.Concluded P origin sha256 True) :
    Keeping T C origin (fun _ w' => w'.Quiet T C origin) (fun _ _ => True)
      (call .deletePairCompletionMarker) w := by
  refine keeping_change ⟨sha256, b, hb, hbytes, hconcluded⟩ (fun i => rfl)
    (fun i error herror => unlink_error herror) (fun i a w' hresult => ?_)
    ⟨h.push_other rfl rfl rfl, trivial⟩
  obtain ⟨_, -, heq⟩ := map_eq_ok.mp hresult
  obtain ⟨-, rfl⟩ := Prod.mk.inj heq
  have hunmarked : (Workstation.push { w with pairCompletion := none }
      ⟨.deletePairCompletionMarker, .ok a⟩).Unmarked := ⟨(h.pairCompletion b hb).1, rfl⟩
  have hinv := hunmarked.inv
    (h.outbox_push rfl rfl rfl fun r hr => absurd hr (Call.ne_request rfl r))
  exact ⟨hinv, hinv, hunmarked⟩

theorem Workstation.Completed.keeping_delete (h : w.Completed T C origin) :
    Keeping T C origin (fun _ w' => w'.Quiet T C origin) (fun _ _ => True)
      (call .deletePairCompletionMarker) w := by
  obtain ⟨sha256, b, hb, hbytes⟩ := h.marker
  exact h.inv.keeping_deletePairCompletion hb hbytes (.inr ⟨trivial, h.paired⟩)

/-! ### Recovering -/

theorem Workstation.Inv.keeping_rejectPending (h : w.Inv T C origin) :
    Keeping T C origin
      (fun _ w' => w'.Inv T C origin ∧ w'.pairCompletion = none)
      (fun _ _ => True) rejectPendingInitialPair w := by
  refine Procedure.pre_bind.mpr (keeping_observe rfl h (fun i marker hload => ?_)
    fun _ _ _ => trivial)
  cases marker with
  | none => exact ⟨h.observe rfl, loadMarker_none (ok_of_guarded hload)⟩
  | some m => exact trivial

/-- The old operation is removed when its credential was replaced. -/
theorem Workstation.Inv.keeping_deleteReplaced (h : w.Inv T C origin) {b : Bytes}
    {sha256 : Option Text} {name : Text} {durable : Bool} (hb : w.replacement = some b)
    (hbytes : replacementBytes origin sha256 name = some b)
    (hnames : ∀ d ∈ w.documents, d.1 = name) (hrecorded : w.Recorded P sha256)
    (hdurable : credentialWasReplaced P ⟨origin, .of sha256, sha256⟩ w.refresh = .ok durable) :
    Keeping T C origin
      (fun _ w' => w'.Inv T C origin ∧ w'.replacement = some b ∧ w'.refresh = w.refresh ∧
        (durable = true → w'.Replaced T C origin))
      (fun _ _ => True) (deleteReplaced ⟨⟨origin, .of sha256, sha256⟩, name⟩ durable) w := by
  unfold deleteReplaced
  cases durable with
  | false => exact ⟨h, hb, rfl, nofun⟩
  | true =>
      obtain ⟨t, ht, hpaired, hnew⟩ := hrecorded.paired hdurable
      rw [if_pos rfl]
      refine Procedure.pre_bind.mpr (keeping_observe rfl h (fun i present hpresent => ?_)
        fun _ _ _ => trivial)
      have h₁ : (w.push ⟨.outboxExists name, .ok present⟩).Inv T C origin := h.observe rfl
      have hpaired₁ : PairedSince t (w.push ⟨.outboxExists name, .ok present⟩).history :=
        hpaired.cons rfl
      cases present with
      | true =>
          rw [if_pos rfl]
          refine h₁.keeping_delete hnames (.replaced b sha256 name t hb hbytes ht hpaired₁
            (.inl hnew)) (fun hcleared => ?_) fun _ => trivial
          exact ⟨hcleared, hb, rfl, fun _ => ⟨hcleared, ⟨sha256, name, b, hb, hbytes⟩, rfl,
            t, ht, hpaired₁.cons rfl⟩⟩
      | false =>
          have hempty : w.documents = [] := by
            simp only [Workstation.perform] at hpresent
            split at hpresent
            · cases hpresent
            · have hnone := Except.ok.inj hpresent
              rw [List.any_eq_false] at hnone
              refine List.eq_nil_iff_forall_not_mem.mpr fun d hd => hnone d hd ?_
              exact decide_eq_true (hnames d hd)
          exact ⟨h₁, hb, rfl, fun _ => ⟨h₁, ⟨sha256, name, b, hb, hbytes⟩, hempty, t, ht, hpaired₁⟩⟩

/-- What `_recover_replacement` leaves. -/
theorem Workstation.Inv.keeping_recoverReplacement (h : w.Inv T C origin) (retain : Bool) :
    Keeping T C origin
      (fun durable w' => if durable && retain then w'.Replaced T C origin
        else w'.Inv T C origin ∧ w'.replacement = none ∧
          (w.pairCompletion = none → w'.pairCompletion = none))
      (fun _ _ => True) (recoverReplacement P retain) w := by
  refine Procedure.pre_bind.mpr (keeping_observe rfl h (fun i marker hload => ?_)
    fun _ _ _ => trivial)
  have hload' := ok_of_guarded hload
  cases marker with
  | none =>
      exact ⟨h.observe rfl, loadMarker_none hload', fun hnone => hnone⟩
  | some m =>
      obtain ⟨b, hb, hread⟩ := loadMarker_some hload'
      obtain ⟨hnone, sha256, name, hbytes, hnames, hrecorded⟩ := h.replacement b hb
      have h₁ : (w.push ⟨.loadReplacementMarker, .ok (some m)⟩).Inv T C origin := h.observe rfl
      have hrecorded₁ : (w.push ⟨.loadReplacementMarker, .ok (some m)⟩).Recorded P sha256 :=
        hrecorded.push rfl
      obtain rfl := ReplacementMarker.model.read_eq hbytes hread
      refine Procedure.pre_bind.mpr (keeping_observe rfl h₁ (fun j current hcurrent => ?_)
        fun _ _ _ => trivial)
      have h₂ : (Workstation.push _ ⟨.loadRefreshOptional, .ok current⟩).Inv T C origin :=
        h₁.observe rfl
      have hrecorded₂ : (Workstation.push _ ⟨.loadRefreshOptional, .ok current⟩).Recorded P
          sha256 := hrecorded₁.push rfl
      have hrefresh : current = w.refresh := by
        simp only [Workstation.perform] at hcurrent
        split at hcurrent
        · cases hcurrent
        · exact (Except.ok.inj hcurrent).symm
      subst hrefresh
      refine Procedure.pre_bind.mpr (Procedure.pre_ofExcept.mpr ⟨fun durable hdurable => ?_,
        fun _ _ => trivial⟩)
      refine Procedure.pre_bind.mpr ((h₂.keeping_deleteReplaced hb hbytes hnames hrecorded₂
        hdurable).mono (fun _ w₃ hdeleted => ?_) fun _ _ h => h)
      obtain ⟨h₃, hb₃, hrefresh₃, hreplaced⟩ := hdeleted
      split
      · rename_i hretain
        obtain ⟨rfl, rfl⟩ := Bool.and_eq_true_iff.mp hretain
        exact hreplaced rfl
      · rename_i hremove
        have hconcluded : w₃.Concluded P origin sha256 (w₃.documents = []) := by
          cases durable with
          | false =>
              refine .inl ?_
              rw [hrefresh₃]
              exact hdurable
          | true => exact .inr ⟨(hreplaced rfl).documents, (hreplaced rfl).paired⟩
        refine Procedure.pre_bind.mpr ((h₃.keeping_deleteReplacement hb₃ hbytes hconcluded).mono
          (fun _ w₄ hquiet => ?_) fun _ _ h => h)
        rw [Procedure.pre_pure, if_neg hremove]
        exact ⟨hquiet.inv, hquiet.unmarked.replacement, fun _ => hquiet.unmarked.pairCompletion⟩

/-- What `_recover_initial_pair` leaves. -/
theorem Workstation.Inv.keeping_recoverInitialPair (h : w.Inv T C origin)
    (hreplacement : w.replacement = none) :
    Keeping T C origin
      (fun stored w' => if stored = true then w'.Completed T C origin else w'.Quiet T C origin)
      (fun _ _ => True) (recoverInitialPair P) w := by
  refine Procedure.pre_bind.mpr (keeping_observe rfl h (fun i marker hload => ?_)
    fun _ _ _ => trivial)
  have hload' := ok_of_guarded hload
  cases marker with
  | none => exact ⟨h.observe rfl, hreplacement, loadMarker_none hload'⟩
  | some m =>
      obtain ⟨b, hb, hread⟩ := loadMarker_some hload'
      obtain ⟨-, -, sha256, hbytes, hrecorded⟩ := h.pairCompletion b hb
      have h₁ : (w.push ⟨.loadPairCompletionMarker, .ok (some m)⟩).Inv T C origin := h.observe rfl
      have hrecorded₁ : (w.push ⟨.loadPairCompletionMarker, .ok (some m)⟩).Recorded P sha256 :=
        hrecorded.push rfl
      obtain rfl := PairCompletionMarker.model.read_eq hbytes hread
      refine Procedure.pre_bind.mpr (keeping_observe rfl h₁ (fun j current hcurrent => ?_)
        fun _ _ _ => trivial)
      have h₂ : (Workstation.push _ ⟨.loadRefreshOptional, .ok current⟩).Inv T C origin :=
        h₁.observe rfl
      have hrecorded₂ : (Workstation.push _ ⟨.loadRefreshOptional, .ok current⟩).Recorded P
          sha256 := hrecorded₁.push rfl
      have hrefresh : current = w.refresh := by
        simp only [Workstation.perform] at hcurrent
        split at hcurrent
        · cases hcurrent
        · exact (Except.ok.inj hcurrent).symm
      subst hrefresh
      refine Procedure.pre_bind.mpr (Procedure.pre_ofExcept.mpr ⟨fun stored hstored => ?_,
        fun _ _ => trivial⟩)
      cases stored with
      | true =>
          obtain ⟨t, ht, hpaired, -⟩ := hrecorded₂.paired hstored
          exact ⟨h₂, ⟨sha256, b, hb, hbytes⟩, t, ht, hpaired⟩
      | false =>
          exact Procedure.pre_bind.mpr ((h₂.keeping_deletePairCompletion hb hbytes
            (.inl hstored)).mono (fun _ _ hquiet => hquiet) fun _ _ h => h)

/-! ### Pairing -/

/-- The invariant when a pairing's token reaches the keyring, or does not. -/
theorem Workstation.Inv.push_pairing (h : w.Inv T C origin) (hrecording : w.Recording P origin)
    {w' : Workstation} {t : Text} {answer : Except Fault Unit}
    (hworld : w' = w ∨ w' = { w with credential := some t }) :
    (w'.push ⟨.saveRefresh .pairing t, answer⟩).Inv T C origin := by
  obtain ⟨sha256, hfingerprint, hmarker⟩ := hrecording
  have hrecorded : (w'.push ⟨.saveRefresh .pairing t, answer⟩).Recorded P sha256 := by
    rcases hworld with rfl | rfl
    · exact .inl hfingerprint
    · exact .inr ⟨t, rfl, [], w.history, answer, rfl, List.forall_mem_nil _⟩
  have hsame : w'.documents = w.documents ∧ w'.history = w.history ∧
      w'.replacement = w.replacement ∧ w'.pairCompletion = w.pairCompletion := by
    rcases hworld with rfl | rfl
    · exact ⟨rfl, rfl, rfl, rfl⟩
    · exact ⟨rfl, rfl, rfl, rfl⟩
  obtain ⟨hdocuments, hhistory, hreplacement, hpairCompletion⟩ := hsame
  refine {
    outbox := h.outbox_push hdocuments hhistory rfl fun r hr => absurd hr (Call.ne_request rfl r)
    replacement := fun b hb => ?_
    pairCompletion := fun b hb => ?_ }
  · change w'.pairCompletion = none ∧ ∃ sha256 name, replacementBytes origin sha256 name = some b ∧
      (∀ d ∈ w'.documents, d.1 = name) ∧ _
    change w'.replacement = some b at hb
    rw [hreplacement] at hb
    rw [hdocuments, hpairCompletion]
    rcases hmarker with ⟨name, b', hb', hbytes, hnames⟩ | ⟨b', hb', -⟩
    · obtain rfl := Option.some.inj (hb'.symm.trans hb)
      exact ⟨(h.replacement b' hb).1, sha256, name, hbytes, hnames, hrecorded⟩
    · rw [(h.replacement b hb).1] at hb'
      cases hb'
  · change w'.replacement = none ∧ w'.documents = [] ∧ ∃ sha256, _ ∧ _
    change w'.pairCompletion = some b at hb
    rw [hpairCompletion] at hb
    rw [hdocuments, hreplacement]
    obtain ⟨hnone, hempty, -⟩ := h.pairCompletion b hb
    rcases hmarker with ⟨name, b', hb', -, -⟩ | ⟨b', hb', hbytes⟩
    · rw [hnone] at hb'
      cases hb'
    · obtain rfl := Option.some.inj (hb'.symm.trans hb)
      exact ⟨hnone, hempty, sha256, hbytes, hrecorded⟩

/-- The code is redeemed, and the token is stored. -/
theorem Workstation.Inv.keeping_pairClient (h : w.Inv T C origin)
    (hrecording : w.Recording P origin) {code name : Text} :
    Keeping T C origin
      (fun _ w' => w'.Inv T C origin ∧ w'.documents = w.documents ∧
        w'.replacement = w.replacement ∧ w'.pairCompletion = w.pairCompletion ∧
        ∃ t older, w'.credential = some t ∧
          w'.history = ⟨.saveRefresh .pairing t, .ok ()⟩ :: older)
      (fun _ _ => True) (pairClient P code name) w := by
  refine Procedure.pre_handle.mpr (Procedure.Pre.mono (R := fun _ _ => True) ?_ (fun _ _ h => h)
    fun f w' _ => ?_)
  swap
  · cases f with
    | unexpected => exact trivial
    | connector error =>
        dsimp only
        split
        · exact trivial
        · exact trivial
  refine Procedure.pre_bind.mpr (Procedure.pre_bind.mpr
    (keeping_call fun i answer w' hperform => ?_))
  obtain ⟨rfl, rfl⟩ := Prod.mk.inj hperform
  have h₁ : ∀ answer, (w.push ⟨.request (.pair code name), answer⟩).Inv T C origin := by
    intro answer
    refine h.push (Event.isRemoval_of_observes (.inr rfl)) rfl (fun _ r hr => ?_) fun e _ r hr => ?_
    · obtain rfl := Call.request.inj hr
      rfl
    · obtain rfl := Call.request.inj hr
      trivial
  have hallowed : w.Allowed T C origin (.request (.pair code name)) :=
    ⟨fun _ => hrecording, fun hpair => Bool.noConfusion hpair,
      fun hoperation => Bool.noConfusion hoperation⟩
  refine ⟨hallowed, h₁ _, fun payload hpayload => ?_, fun _ _ => trivial⟩
  rw [hpayload]
  refine Procedure.pre_bind.mpr (Procedure.pre_ofExcept.mpr ⟨fun token _ => ?_, fun _ _ => trivial⟩)
  have hrecording₁ : (w.push ⟨.request (.pair code name), .ok payload⟩).Recording P origin :=
    hrecording
  refine Procedure.pre_bind.mpr (keeping_call fun j answer w' hperform => ?_)
  obtain ⟨hanswer, hworld⟩ := Prod.mk.inj hperform
  refine ⟨hrecording₁, (h₁ _).push_pairing hrecording₁ ?_, fun _ hok => ?_, fun _ _ => trivial⟩
  · rw [← hworld]
    split
    · exact .inl rfl
    · exact .inr rfl
  · rw [← hanswer] at hok
    split at hok
    · cases hok
    · rename_i hfails
      simp only [hfails, Bool.false_and, Bool.false_eq_true, if_false] at hworld hanswer
      subst hworld hanswer
      refine ⟨(h₁ _).push_pairing hrecording₁ (.inr rfl), rfl, rfl, rfl, _, _, rfl, rfl⟩

/-! ### Writing a marker -/

theorem serialized_error {α β : Type} {x : Option α} {f : α → β} {error : ConnectorError}
    (h : (serialized x).map f = .error error) : error = outboxInvalid := by
  cases x with
  | none => exact (Except.error.inj h).symm
  | some a => cases h

theorem serialized_ok {α β : Type} {x : Option α} {f : α → β} {b : β}
    (h : (serialized x).map f = .ok b) : ∃ a, x = some a ∧ f a = b := by
  cases x with
  | none => cases h
  | some a => exact ⟨a, rfl, Except.ok.inj h⟩

theorem Workstation.Quiet.keeping_saveReplacement (h : w.Quiet T C origin) {name : Text}
    {sha256 : Option Text} (hnames : ∀ d ∈ w.documents, d.1 = name)
    (hsha256 : refreshFingerprint P w.refresh = .ok sha256) :
    Keeping T C origin
      (fun _ w' => w'.Inv T C origin ∧ w'.Recording P origin ∧ w'.documents = w.documents ∧
        ∃ b, w'.replacement = some b ∧ replacementBytes origin sha256 name = some b)
      (fun _ _ => True) (call (.saveReplacementMarker sha256 name)) w := by
  have hrefused : (w.push ⟨.saveReplacementMarker sha256 name, stateFailure⟩).Inv T C origin :=
    Workstation.Unmarked.inv ⟨h.unmarked.replacement, h.unmarked.pairCompletion⟩
      (h.inv.outbox_push rfl rfl rfl fun r hr => absurd hr (Call.ne_request rfl r))
  refine keeping_change trivial (fun i => rfl) (fun i error herror => serialized_error herror)
    (fun i a w' hresult => ?_) ⟨hrefused, trivial⟩
  obtain ⟨b, hbytes, heq⟩ := serialized_ok hresult
  obtain ⟨-, rfl⟩ := Prod.mk.inj heq
  have hinv : (Workstation.push { w with replacement := some b }
      ⟨.saveReplacementMarker sha256 name, .ok a⟩).Inv T C origin := {
    outbox := h.inv.outbox_push rfl rfl rfl fun r hr => absurd hr (Call.ne_request rfl r)
    replacement := fun b' hb' => by
      obtain rfl := Option.some.inj hb'
      exact ⟨h.unmarked.pairCompletion, sha256, name, hbytes, hnames, .inl hsha256⟩
    pairCompletion := fun b' hb' => by
      change w.pairCompletion = some b' at hb'
      rw [h.unmarked.pairCompletion] at hb'
      cases hb' }
  exact ⟨hinv, hinv, ⟨sha256, hsha256, .inl ⟨name, b, rfl, hbytes, hnames⟩⟩, rfl, b, rfl,
    hbytes⟩

theorem Workstation.Quiet.keeping_savePairCompletion (h : w.Quiet T C origin)
    {sha256 : Option Text} (hempty : w.documents = [])
    (hsha256 : refreshFingerprint P w.refresh = .ok sha256) :
    Keeping T C origin
      (fun _ w' => w'.Inv T C origin ∧ w'.Recording P origin ∧
        ∃ b, w'.pairCompletion = some b ∧ pairCompletionBytes origin sha256 = some b)
      (fun _ _ => True) (call (.savePairCompletionMarker sha256)) w := by
  have hrefused : (w.push ⟨.savePairCompletionMarker sha256, stateFailure⟩).Inv T C origin :=
    Workstation.Unmarked.inv ⟨h.unmarked.replacement, h.unmarked.pairCompletion⟩
      (h.inv.outbox_push rfl rfl rfl fun r hr => absurd hr (Call.ne_request rfl r))
  refine keeping_change trivial (fun i => rfl) (fun i error herror => serialized_error herror)
    (fun i a w' hresult => ?_) ⟨hrefused, trivial⟩
  obtain ⟨b, hbytes, heq⟩ := serialized_ok hresult
  obtain ⟨-, rfl⟩ := Prod.mk.inj heq
  have hinv : (Workstation.push { w with pairCompletion := some b }
      ⟨.savePairCompletionMarker sha256, .ok a⟩).Inv T C origin := {
    outbox := h.inv.outbox_push rfl rfl rfl fun r hr => absurd hr (Call.ne_request rfl r)
    replacement := fun b' hb' => by
      change w.replacement = some b' at hb'
      rw [h.unmarked.replacement] at hb'
      cases hb'
    pairCompletion := fun b' hb' => by
      obtain rfl := Option.some.inj hb'
      exact ⟨h.unmarked.replacement, hempty, sha256, hbytes, .inl hsha256⟩ }
  exact ⟨hinv, hinv, ⟨sha256, hsha256, .inr ⟨b, rfl, hbytes⟩⟩, b, rfl, hbytes⟩

/-! ### The command -/

variable {code name : Text}

/-- The credential is read before the marker is written. -/
theorem Workstation.Quiet.keeping_fingerprint {Q : Option Text → Workstation → Prop}
    (h : w.Quiet T C origin)
    (hQ : ∀ sha256, (w.push ⟨.loadRefreshOptional, .ok w.refresh⟩).Quiet T C origin →
      refreshFingerprint P w.refresh = .ok sha256 →
        Q sha256 (w.push ⟨.loadRefreshOptional, .ok w.refresh⟩)) :
    Keeping T C origin Q (fun _ _ => True)
      (call .loadRefreshOptional >>= fun oldRefresh =>
        Procedure.ofExcept (refreshFingerprint P oldRefresh)) w := by
  refine Procedure.pre_bind.mpr (keeping_observe rfl h.inv (fun i current hcurrent => ?_)
    fun _ _ _ => trivial)
  obtain rfl : current = w.refresh := by
    simp only [Workstation.perform] at hcurrent
    split at hcurrent
    · cases hcurrent
    · exact (Except.ok.inj hcurrent).symm
  exact Procedure.pre_ofExcept.mpr ⟨fun sha256 hsha256 => hQ sha256 (settled_quiet.observe h rfl)
    hsha256, fun _ _ => trivial⟩

/-- A pairing behind an empty outbox. -/
theorem Workstation.Quiet.keeping_firstPair (h : w.Quiet T C origin) (hempty : w.documents = []) :
    Keeping T C origin (fun _ w' => w'.Quiet T C origin) (fun _ _ => True)
      (do
        let oldRefresh ← call .loadRefreshOptional
        let sha256 ← Procedure.ofExcept (refreshFingerprint P oldRefresh)
        call (.savePairCompletionMarker sha256)
        pairClient P code name
        call (.echo devicePaired)
        call .deletePairCompletionMarker) w := by
  have hfirst := h.keeping_fingerprint (A := A) (Q := fun sha256 w' => w'.Quiet T C origin ∧
    w'.documents = [] ∧ refreshFingerprint P w'.refresh = .ok sha256)
    fun sha256 h₁ hsha256 => ⟨h₁, hempty, hsha256⟩
  refine Procedure.pre_bind.mpr ((Procedure.pre_bind.mp hfirst).mono (fun current w₁ h₁ => ?_)
    fun _ _ h => h)
  refine Procedure.pre_bind.mpr (h₁.mono (fun sha256 w₂ hread => ?_) fun _ _ h => h)
  obtain ⟨h₂, hempty₂, hsha256⟩ := hread
  refine Procedure.pre_bind.mpr ((h₂.keeping_savePairCompletion hempty₂ hsha256).mono
    (fun _ w₃ hsaved => ?_) fun _ _ h => h)
  obtain ⟨h₃, hrecording, b, hb, hbytes⟩ := hsaved
  refine Procedure.pre_bind.mpr ((h₃.keeping_pairClient hrecording).mono (fun _ w₄ hpaired => ?_)
    fun _ _ h => h)
  obtain ⟨h₄, -, -, hmarker, t, older, ht, hhistory⟩ := hpaired
  have hcompleted : w₄.Completed T C origin := {
    inv := h₄
    marker := ⟨sha256, b, hmarker.trans hb, hbytes⟩
    paired := ⟨t, ht, [], older, .ok (), hhistory, List.forall_mem_nil _⟩ }
  exact Procedure.pre_bind.mpr (keeping_observe rfl h₄
    (fun _ _ _ => (hcompleted.observe rfl).keeping_delete) fun _ _ _ => trivial)

/-- A pairing that abandons the operation of the outbox. -/
theorem Workstation.Quiet.keeping_pairAgain (h : w.Quiet T C origin) {outbox : Text}
    (hnames : ∀ d ∈ w.documents, d.1 = outbox) :
    Keeping T C origin (fun _ w' => w'.Quiet T C origin) (fun _ _ => True)
      (do
        let oldRefresh ← call .loadRefreshOptional
        let sha256 ← Procedure.ofExcept (refreshFingerprint P oldRefresh)
        call (.saveReplacementMarker sha256 outbox)
        pairClient P code name
        call (.delete outbox)
        call (.echo reportReplacement)
        call .deleteReplacementMarker) w := by
  have hfirst := h.keeping_fingerprint (A := A) (Q := fun sha256 w' => w'.Quiet T C origin ∧
    w'.documents = w.documents ∧ refreshFingerprint P w'.refresh = .ok sha256)
    fun sha256 h₁ hsha256 => ⟨h₁, rfl, hsha256⟩
  refine Procedure.pre_bind.mpr ((Procedure.pre_bind.mp hfirst).mono (fun current w₁ h₁ => ?_)
    fun _ _ h => h)
  refine Procedure.pre_bind.mpr (h₁.mono (fun sha256 w₂ hread => ?_) fun _ _ h => h)
  obtain ⟨h₂, hdocuments₂, hsha256⟩ := hread
  rw [← hdocuments₂] at hnames
  refine Procedure.pre_bind.mpr ((h₂.keeping_saveReplacement hnames hsha256).mono
    (fun _ w₃ hsaved => ?_) fun _ _ h => h)
  obtain ⟨h₃, hrecording, hdocuments₃, b, hb, hbytes⟩ := hsaved
  refine Procedure.pre_bind.mpr ((h₃.keeping_pairClient hrecording).mono (fun _ w₄ hpaired => ?_)
    fun _ _ h => h)
  obtain ⟨h₄, hdocuments₄, hmarker, -, t, older, ht, hhistory⟩ := hpaired
  have hpaired₄ : PairedSince t w₄.history :=
    ⟨[], older, .ok (), hhistory, List.forall_mem_nil _⟩
  have hnames₄ : ∀ d ∈ w₄.documents, d.1 = outbox := by
    rw [hdocuments₄, hdocuments₃]
    exact hnames
  refine Procedure.pre_bind.mpr (h₄.keeping_delete hnames₄
    (.replaced b sha256 outbox t (hmarker.trans hb) hbytes ht hpaired₄ (.inr ⟨older, hhistory⟩))
    (fun h₅ => ?_) fun _ => trivial)
  have hreplaced : (w₄.cleared outbox).Replaced T C origin := {
    inv := h₅
    marker := ⟨sha256, outbox, b, hmarker.trans hb, hbytes⟩
    documents := rfl
    paired := ⟨t, ht, hpaired₄.cons rfl⟩ }
  exact Procedure.pre_bind.mpr (keeping_observe rfl h₅
    (fun _ _ _ => (hreplaced.observe rfl).keeping_delete) fun _ _ _ => trivial)

/-- `pair` from anywhere a command can have been stopped; when it ends without an error, no
marker is left. -/
theorem Workstation.Inv.keeping_pair (h : w.Inv T C origin) :
    Keeping T C origin (fun _ w' => w'.Quiet T C origin) (fun _ _ => True)
      (pair P code name) w := by
  refine Procedure.pre_bind.mpr (Procedure.pre_ofExcept.mpr ⟨fun _ _ => ?_, fun _ _ => trivial⟩)
  refine Procedure.pre_bind.mpr (Procedure.pre_ofExcept.mpr ⟨fun _ _ => ?_, fun _ _ => trivial⟩)
  refine Procedure.pre_bind.mpr ((h.keeping_recoverReplacement true).mono
    (fun durable w₁ hrecovered => ?_) fun _ _ h => h)
  cases durable with
  | true =>
      have hreplaced : w₁.Replaced T C origin := hrecovered
      exact Procedure.pre_bind.mpr (keeping_observe rfl hreplaced.inv
        (fun _ _ _ => (hreplaced.observe rfl).keeping_delete) fun _ _ _ => trivial)
  | false =>
      obtain ⟨h₁, hreplacement, -⟩ := hrecovered
      refine Procedure.pre_bind.mpr ((h₁.keeping_recoverInitialPair hreplacement).mono
        (fun stored w₂ hrecovered => ?_) fun _ _ h => h)
      cases stored with
      | true =>
          have hcompleted : w₂.Completed T C origin := hrecovered
          exact Procedure.pre_bind.mpr (keeping_observe rfl hcompleted.inv
            (fun _ _ _ => (hcompleted.observe rfl).keeping_delete) fun _ _ _ => trivial)
      | false =>
          have h₂ : w₂.Quiet T C origin := hrecovered
          refine Procedure.pre_bind.mpr (keeping_observe rfl h₂.inv (fun i found hload => ?_)
            fun _ _ _ => trivial)
          have h₃ : (w₂.push ⟨.loadOptional, .ok found⟩).Quiet T C origin :=
            settled_quiet.observe h₂ rfl
          have hload' := ok_of_mapError (ok_of_guarded hload)
          cases found with
          | none => exact h₃.keeping_firstPair (h₂.inv.loaded_none hload').documents
          | some found =>
              obtain ⟨outbox, entry⟩ := found
              obtain ⟨b, hdocuments, -⟩ := loadOptional_eq_ok.mp hload'
              dsimp only
              split
              · exact trivial
              · refine h₃.keeping_pairAgain ?_
                change ∀ d ∈ w₂.documents, d.1 = outbox
                rw [hdocuments]
                exact List.forall_mem_singleton.mpr rfl

end SuperBoss.Connector
