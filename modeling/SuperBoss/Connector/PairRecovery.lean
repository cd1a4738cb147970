import SuperBoss.Connector.Recovery

/-!
A pairing in an environment that helps ends without an error from wherever the
commands of a session were stopped.
-/

namespace SuperBoss.Connector

open SuperBoss.Core
open SuperBoss.Files
open SuperBoss.Imports
open SuperBoss.Library
open SuperBoss.Library.Framing

variable {P : Platform} {A : Type} [DecidableEq A] {T : Timestamps P} {C : UrlContext A}
  {origin : Text} {files : FileSystem} {m : ServerManifest P} {w : Workstation}
  {code name : Text}

/-! ### Writing a marker -/

section marking

theorem isDigest_of_fingerprint (hdigest : ∀ b, Text.isDigest (P.sha256 b) = true)
    {current sha256 : Option Text} (h : refreshFingerprint P current = .ok sha256) :
    ∀ d ∈ sha256, Text.isDigest d = true := by
  cases current with
  | none =>
      obtain rfl := Except.ok.inj h
      exact nofun
  | some t =>
      simp only [refreshFingerprint] at h
      split at h
      · cases h
      · rename_i b _
        obtain rfl := Except.ok.inj h
        rintro d ⟨rfl⟩
        exact hdigest b

theorem isOutboxFilename_pathFor (hdigest : ∀ b, Text.isDigest (P.sha256 b) = true) (key : Text) :
    isOutboxFilename (pathFor P key) = true := by
  have hkey := hdigest (key.utf8.getD [])
  have hlength : (P.sha256 (key.utf8.getD [])).length = 64 :=
    beq_iff_eq.mp (Bool.and_eq_true_iff.mp hkey).1
  simp [isOutboxFilename, pathFor, hlength, hkey]

theorem helped_saveReplacementMarker {sha256 : Option Text} {outbox : Text}
    {Q : Unit → Workstation → Prop}
    (hbytes : ∃ b, replacementBytes origin sha256 outbox = some b)
    (hQ : ∀ b, Q () (Workstation.push { w with replacement := some b }
      ⟨.saveReplacementMarker sha256 outbox, .ok ()⟩)) :
    Helped T C origin files m Q (call (.saveReplacementMarker sha256 outbox)) w := by
  obtain ⟨b, hb⟩ := hbytes
  rw [replacementBytes] at hb
  refine helped_call fun i hi => ⟨(), { w with replacement := some b }, ?_, hQ b⟩
  simp [Workstation.perform, guardedChange, hi.1, hb, serialized, Except.map]

theorem helped_savePairCompletionMarker {sha256 : Option Text} {Q : Unit → Workstation → Prop}
    (hbytes : ∃ b, pairCompletionBytes origin sha256 = some b)
    (hQ : ∀ b, Q () (Workstation.push { w with pairCompletion := some b }
      ⟨.savePairCompletionMarker sha256, .ok ()⟩)) :
    Helped T C origin files m Q (call (.savePairCompletionMarker sha256)) w := by
  obtain ⟨b, hb⟩ := hbytes
  rw [pairCompletionBytes] at hb
  refine helped_call fun i hi => ⟨(), { w with pairCompletion := some b }, ?_, hQ b⟩
  simp [Workstation.perform, guardedChange, hi.1, hb, serialized, Except.map]

end marking

/-! ### Pairing -/

/-- Nothing is left of an old operation, and the credential is that of a pairing. -/
def Workstation.Paired (w : Workstation) : Prop :=
  w.documents = [] ∧ ∃ t, w.credential = some t ∧ PairedSince t w.history

theorem helped_pairClient :
    Helped T C origin files m (fun _ _ => True) (pairClient P code name) w :=
  Procedure.Succeeds.handle
    (Procedure.succeeds_bind.mpr (helped_storeToken rfl fun _ _ => trivial))

/-- `_recover_initial_pair` ends, and changes nothing but its marker. -/
theorem Workstation.Inv.helped_recoverInitialPair (h : w.Inv T C origin) {current : Option Text}
    (hcurrent : refreshFingerprint P w.refresh = .ok current) :
    Helped T C origin files m
      (fun _ w' => w'.documents = w.documents ∧ w'.credential = w.credential)
      (recoverInitialPair P) w := by
  refine Procedure.succeeds_bind.mpr (h.helped_loadPairCompletionMarker (fun _ => ⟨rfl, rfl⟩)
    fun b sha256 hb _ => ?_)
  refine Procedure.succeeds_bind.mpr (helped_loadRefreshOptional ?_)
  obtain ⟨stored, hstored⟩ := credentialWasReplaced_of_fingerprint hcurrent
    ⟨origin, .of sha256, sha256⟩
  refine Procedure.succeeds_bind.mpr (Procedure.succeeds_ofExcept.mpr ⟨stored, hstored, ?_⟩)
  cases stored with
  | true => exact ⟨rfl, rfl⟩
  | false =>
      exact Procedure.succeeds_bind.mpr (helped_deletePairCompletionMarker hb ⟨rfl, rfl⟩)

/-- The end of a pairing that has replaced an operation. -/
theorem Workstation.Replaced.helped_finish (h : w.Replaced T C origin) :
    Helped T C origin files m (fun _ w' => w'.Paired)
      (do
        call (.echo reportReplacement)
        call .deleteReplacementMarker) w := by
  obtain ⟨sha256, outbox, b, hb, -⟩ := h.marker
  obtain ⟨t, ht, hpaired⟩ := h.paired
  exact Procedure.succeeds_bind.mpr (helped_echo (helped_deleteReplacementMarker hb
    ⟨h.documents, t, ht, (hpaired.cons rfl).cons rfl⟩))

/-- The end of a pairing behind an empty outbox. -/
theorem Workstation.Completed.helped_finish (h : w.Completed T C origin) :
    Helped T C origin files m (fun _ w' => w'.Paired)
      (do
        call (.echo devicePaired)
        call .deletePairCompletionMarker) w := by
  obtain ⟨sha256, b, hb, -⟩ := h.marker
  obtain ⟨t, ht, hpaired⟩ := h.paired
  exact Procedure.succeeds_bind.mpr (helped_echo (helped_deletePairCompletionMarker hb
    ⟨(h.inv.pairCompletion b hb).2.1, t, ht, (hpaired.cons rfl).cons rfl⟩))

section fresh

variable {sha256 : Option Text} (h : w.Quiet T C origin)
  (hdigest : ∀ b, Text.isDigest (P.sha256 b) = true)
  (horigin : origin.Encodable ∧ 1 ≤ origin.length ∧ origin.length ≤ 4096)
  (hsha256 : refreshFingerprint P w.refresh = .ok sha256)

include h hdigest horigin hsha256

theorem Workstation.Quiet.helped_firstPair (hempty : w.documents = []) :
    Helped T C origin files m (fun _ w' => w'.Paired)
      (do
        let oldRefresh ← call .loadRefreshOptional
        let sha256 ← Procedure.ofExcept (refreshFingerprint P oldRefresh)
        call (.savePairCompletionMarker sha256)
        pairClient P code name
        call (.echo devicePaired)
        call .deletePairCompletionMarker) w := by
  have h₁ : (w.push ⟨.loadRefreshOptional, .ok w.refresh⟩).Quiet T C origin :=
    settled_quiet.observe h rfl
  refine Procedure.succeeds_bind.mpr (helped_loadRefreshOptional ?_)
  refine Procedure.succeeds_bind.mpr (Procedure.succeeds_ofExcept.mpr ⟨sha256, hsha256, ?_⟩)
  refine Procedure.succeeds_bind.mpr (((helped_savePairCompletionMarker (Q := fun _ _ => True)
    (pairCompletionBytes_of_bounded ⟨horigin.1, horigin.2,
      isDigest_of_fingerprint hdigest hsha256⟩) fun _ => trivial).and
        (h₁.keeping_savePairCompletion hempty hsha256)).mono fun _ w₂ hsaved => ?_)
  obtain ⟨-, h₂, hrecording, b, hb, hbytes⟩ := hsaved
  refine Procedure.succeeds_bind.mpr ((helped_pairClient.and
    (h₂.keeping_pairClient hrecording)).mono fun _ w₃ hpaired => ?_)
  obtain ⟨-, h₃, -, -, hmarker, t, older, ht, hhistory⟩ := hpaired
  have hcompleted : w₃.Completed T C origin := {
    inv := h₃
    marker := ⟨sha256, b, hmarker.trans hb, hbytes⟩
    paired := ⟨t, ht, [], older, .ok (), hhistory, List.forall_mem_nil _⟩ }
  exact hcompleted.helped_finish

theorem Workstation.Quiet.helped_pairAgain {e : OutboxEntry} {b : Bytes}
    (hdocuments : w.documents = [(pathFor P e.idempotencyKey, b)]) :
    Helped T C origin files m (fun _ w' => w'.Paired)
      (do
        let oldRefresh ← call .loadRefreshOptional
        let sha256 ← Procedure.ofExcept (refreshFingerprint P oldRefresh)
        call (.saveReplacementMarker sha256 (pathFor P e.idempotencyKey))
        pairClient P code name
        call (.delete (pathFor P e.idempotencyKey))
        call (.echo reportReplacement)
        call .deleteReplacementMarker) w := by
  have h₁ : (w.push ⟨.loadRefreshOptional, .ok w.refresh⟩).Quiet T C origin :=
    settled_quiet.observe h rfl
  have hnames : ∀ d ∈ w.documents, d.1 = pathFor P e.idempotencyKey := by
    rw [hdocuments]
    exact List.forall_mem_singleton.mpr rfl
  refine Procedure.succeeds_bind.mpr (helped_loadRefreshOptional ?_)
  refine Procedure.succeeds_bind.mpr (Procedure.succeeds_ofExcept.mpr ⟨sha256, hsha256, ?_⟩)
  refine Procedure.succeeds_bind.mpr (((helped_saveReplacementMarker (Q := fun _ _ => True)
    (replacementBytes_of_bounded ⟨horigin.1, horigin.2, isDigest_of_fingerprint hdigest hsha256⟩
      (isOutboxFilename_pathFor hdigest e.idempotencyKey)) fun _ => trivial).and
        (h₁.keeping_saveReplacement hnames hsha256)).mono fun _ w₂ hsaved => ?_)
  obtain ⟨-, h₂, hrecording, hdocuments₂, b', hb', hbytes⟩ := hsaved
  refine Procedure.succeeds_bind.mpr ((helped_pairClient.and
    (h₂.keeping_pairClient hrecording)).mono fun _ w₃ hpaired => ?_)
  obtain ⟨-, h₃, hdocuments₃, hmarker, -, t, older, ht, hhistory⟩ := hpaired
  have hdocument : w₃.documents = [(pathFor P e.idempotencyKey, b)] :=
    hdocuments₃.trans (hdocuments₂.trans hdocuments)
  have hnil : w₃.documents.remove (pathFor P e.idempotencyKey) = [] := by
    refine Documents.remove_eq_nil ?_
    rw [hdocument]
    exact List.forall_mem_singleton.mpr rfl
  refine Procedure.succeeds_bind.mpr (helped_delete ?_ (Procedure.succeeds_bind.mpr (helped_echo
    (helped_deleteReplacementMarker (hmarker.trans hb') ⟨hnil, t, ht, ?_⟩))))
  · simp [hdocument]
  · have hpaired₃ : PairedSince t w₃.history :=
      ⟨[], older, .ok (), hhistory, List.forall_mem_nil _⟩
    exact ((hpaired₃.cons rfl).cons rfl).cons rfl

end fresh

/-- `pair` of an origin whose outbox, if the pairing has not replaced its credential yet, can be
read and holds no evidence. -/
theorem Workstation.Inv.helped_pair (h : w.Inv T C origin)
    (hdigest : ∀ b, Text.isDigest (P.sha256 b) = true)
    (horigin : origin.Encodable ∧ 1 ≤ origin.length ∧ origin.length ≤ 4096)
    (hcode : safeArgument code 255 = .ok ()) (hname : safeArgument name 255 = .ok ())
    {current : Option Text} (hcurrent : refreshFingerprint P w.refresh = .ok current)
    (hread : w.Superseded P origin ∨ ∃ found, loadOptional P origin w.documents = .ok found ∧
      ∀ x ∈ found, x.2.phase ≠ .evidence) :
    Helped T C origin files m (fun _ w' => w'.Paired) (pair P code name) w := by
  refine Procedure.succeeds_bind.mpr (Procedure.succeeds_ofExcept.mpr ⟨(), hcode, ?_⟩)
  refine Procedure.succeeds_bind.mpr (Procedure.succeeds_ofExcept.mpr ⟨(), hname, ?_⟩)
  refine Procedure.succeeds_bind.mpr (((h.helped_recoverReplacement hcurrent true).and
    (h.keeping_recoverReplacement true)).mono fun durable w₁ hrecovered => ?_)
  obtain ⟨⟨hsuperseded, hcredential, hdocuments⟩, hkept⟩ := hrecovered
  cases durable with
  | true =>
      have hreplaced : w₁.Replaced T C origin := hkept
      exact hreplaced.helped_finish
  | false =>
      obtain ⟨h₁, hreplacement, -⟩ := hkept
      have hrefresh : w₁.refresh = w.refresh := by
        rw [Workstation.refresh, hcredential, Workstation.refresh]
      refine Procedure.succeeds_bind.mpr (((h₁.helped_recoverInitialPair
        (hrefresh ▸ hcurrent)).and (h₁.keeping_recoverInitialPair hreplacement)).mono
          fun stored w₂ hrecovered => ?_)
      obtain ⟨⟨hdocuments₂, hcredential₂⟩, hkept₂⟩ := hrecovered
      cases stored with
      | true =>
          have hcompleted : w₂.Completed T C origin := hkept₂
          exact hcompleted.helped_finish
      | false =>
          have h₂ : w₂.Quiet T C origin := hkept₂
          obtain ⟨found, hload, hphase⟩ :=
            hread.resolve_left fun hs => Bool.false_ne_true (hsuperseded.mp hs)
          have hload₂ : loadOptional P origin w₂.documents = .ok found := by
            rw [hdocuments₂, hdocuments]
            exact hload
          have hcurrent₂ : refreshFingerprint P w₂.refresh = .ok current := by
            rw [Workstation.refresh, hcredential₂, hcredential]
            exact hcurrent
          refine Procedure.succeeds_bind.mpr (helped_loadOptional hload₂ ?_)
          have h₃ : (w₂.push ⟨.loadOptional, .ok found⟩).Quiet T C origin :=
            settled_quiet.observe h₂ rfl
          cases found with
          | none =>
              exact h₃.helped_firstPair hdigest horigin hcurrent₂
                (h₂.inv.loaded_none hload₂).documents
          | some found =>
              obtain ⟨outbox, e⟩ := found
              obtain ⟨b, hdocument, -, -, rfl⟩ := loadOptional_eq_ok.mp hload₂
              dsimp only
              rw [if_neg (hphase _ rfl)]
              exact h₃.helped_pairAgain hdigest horigin hcurrent₂ hdocument

end SuperBoss.Connector
