import SuperBoss.Connector.Guarantees

/-!
Rules for the calls of a command: what it has to know before a call, and what it
knows after it.
-/

namespace SuperBoss.Connector

open SuperBoss.Core
open SuperBoss.Files
open SuperBoss.Imports
open SuperBoss.Library
open SuperBoss.Library.Framing

variable {P : Platform} {A : Type} [DecidableEq A] {T : Timestamps P} {C : UrlContext A}
  {origin : Text}

/-! ### Recorded calls -/

/-- A call that leaves the directory and the credential alone, and does not reach the server. -/
def Call.observes : Call → Bool
  | .loadReplacementMarker | .loadPairCompletionMarker | .loadOptional | .outboxExists _
  | .loadRefreshOptional | .putPart .. | .look | .readSlice .. | .now | .echo _ => true
  | _ => false

def Call.isRequest : Call → Bool
  | .request _ => true
  | _ => false

theorem Call.marks_of_observes {c : Call} (h : c.observes = true ∨ c.isRequest = true) :
    c.marks = false := by
  cases c <;> first | rfl | simp [observes, isRequest] at h

theorem Event.isRemoval_of_observes {ev : Event}
    (h : ev.call.observes = true ∨ ev.call.isRequest = true) : ev.isRemoval = false := by
  obtain ⟨c, answer⟩ := ev
  cases c <;> first | rfl | simp [Call.observes, Call.isRequest] at h

theorem Call.isRequest_of_observes {c : Call} (h : c.observes = true) : c.isRequest = false := by
  cases c <;> first | rfl | cases h

theorem Call.ne_request {c : Call} (h : c.isRequest = false) (r : Request) : c ≠ .request r := by
  rintro rfl
  cases h

theorem Workstation.perform_observes {c : Call} (h : c.observes = true ∨ c.isRequest = true)
    (i : Chance A) (w : Workstation) : (w.perform T C origin i c).2 = w := by
  cases c <;> first | rfl | simp [Call.observes, Call.isRequest] at h

theorem Workstation.allowed_observes {c : Call} (h : c.observes = true) (w : Workstation) :
    w.Allowed T C origin c := by
  cases c <;> first | trivial | cases h

/-! ### What a recorded call leaves as it was -/

section push

variable {w : Workstation} {ev : Event}

theorem Workstation.Holds.push {e : OutboxEntry} (h : w.Holds T origin e) (ev : Event) :
    (w.push ev).Holds T origin e :=
  ⟨h.ok, h.origin, h.documents⟩

/-- The answers of requests other than the new one. -/
theorem requests_push {p : Request → Prop}
    (h : ∀ r answer, ⟨.request r, answer⟩ ∈ sinceRemoval w.history → p r)
    (hremoval : ev.isRemoval = false) (hev : ∀ r, ev.call = .request r → p r) :
    ∀ r answer, ⟨.request r, answer⟩ ∈ sinceRemoval (w.push ev).history → p r := by
  intro r answer hmem
  rw [Workstation.push, sinceRemoval_cons hremoval] at hmem
  rcases List.mem_cons.mp hmem with rfl | hmem
  · exact hev r rfl
  · exact h r answer hmem

theorem Workstation.Operates.push {e : OutboxEntry} (h : w.Operates T C origin e)
    (hremoval : ev.isRemoval = false) (hev : ∀ r, ev.call = .request r → r.Concerns P e) :
    (w.push ev).Operates T C origin e where
  toHolds := h.toHolds.push ev
  backed := h.backed.cons ev
  requests := requests_push h.requests hremoval hev

theorem Workstation.Idle.push (h : w.Idle) (hremoval : ev.isRemoval = false)
    (hev : ∀ r, ev.call = .request r → r.isOperation = false) : (w.push ev).Idle where
  documents := h.documents
  requests := requests_push h.requests hremoval hev

theorem Workstation.Recorded.push {sha256 : Option Text} (h : w.Recorded P sha256)
    (hev : ev.call.marks = false) : (w.push ev).Recorded P sha256 := by
  rcases h with h | ⟨t, ht, hpaired⟩
  · exact .inl h
  · exact .inr ⟨t, ht, hpaired.cons hev⟩

/-- The invariant survives a call that is only recorded. -/
theorem Workstation.Inv.push (h : w.Inv T C origin) (hremoval : ev.isRemoval = false)
    (hmarks : ev.call.marks = false)
    (hidle : w.Idle → ∀ r, ev.call = .request r → r.isOperation = false)
    (hactive : ∀ e, w.Operates T C origin e → ∀ r, ev.call = .request r → r.Concerns P e) :
    (w.push ev).Inv T C origin where
  outbox := by
    rcases h.outbox with hempty | ⟨e, he⟩
    · exact .inl (hempty.push hremoval (hidle hempty))
    · exact .inr ⟨e, he.push hremoval (hactive e he)⟩
  replacement := by
    intro b hb
    obtain ⟨hnone, sha256, name, hbytes, hdocuments, hrecorded⟩ := h.replacement b hb
    exact ⟨hnone, sha256, name, hbytes, hdocuments, hrecorded.push hmarks⟩
  pairCompletion := by
    intro b hb
    obtain ⟨hnone, hdocuments, sha256, hbytes, hrecorded⟩ := h.pairCompletion b hb
    exact ⟨hnone, hdocuments, sha256, hbytes, hrecorded.push hmarks⟩

theorem Workstation.Inv.push_other (h : w.Inv T C origin) (hremoval : ev.isRemoval = false)
    (hmarks : ev.call.marks = false) (hrequest : ev.call.isRequest = false) :
    (w.push ev).Inv T C origin :=
  h.push hremoval hmarks (fun _ r hr => absurd hr (Call.ne_request hrequest r))
    fun _ _ r hr => absurd hr (Call.ne_request hrequest r)

theorem Workstation.Inv.observe (h : w.Inv T C origin) (hev : ev.call.observes = true) :
    (w.push ev).Inv T C origin :=
  h.push_other (Event.isRemoval_of_observes (.inl hev)) (Call.marks_of_observes (.inl hev))
    (Call.isRequest_of_observes hev)

end push

/-! ### Rules -/

section rules

variable (T C origin) in
/-- A command keeps to the guarantee from a world on. -/
abbrev Keeping {α : Type} (Q : α → Workstation → Prop) (R : Fault → Workstation → Prop)
    (p : Command α) (w : Workstation) : Prop :=
  Procedure.Pre (fun c (i : Chance A) w => Workstation.answer T C origin c i w)
    (Workstation.Keeps T C origin) Q R p w

variable {c : Call} {w : Workstation} {Q : c.Value → Workstation → Prop}
  {R : Fault → Workstation → Prop}

theorem keeping_call (h : ∀ i : Chance A, ∀ answer w',
    w.perform T C origin i c = (answer, w') →
      w.Allowed T C origin c ∧ (w'.push ⟨c, answer⟩).Inv T C origin ∧
        (∀ a, answer = .ok a → Q a (w'.push ⟨c, answer⟩)) ∧
          ∀ f, answer = .error f → R f (w'.push ⟨c, answer⟩)) :
    Keeping T C origin Q R (call c) w := by
  refine Procedure.pre_bind.mpr (Procedure.pre_perform.mpr fun i => ?_)
  obtain ⟨hallowed, hinv, hQ, hR⟩ := h i _ _ rfl
  exact ⟨⟨hallowed, hinv⟩, Procedure.pre_ofExcept.mpr ⟨hQ, hR⟩⟩

/-- A call that is only recorded. -/
theorem keeping_observe (hc : c.observes = true) (hinv : w.Inv T C origin)
    (hQ : ∀ i a, (w.perform T C origin i c).1 = .ok a → Q a (w.push ⟨c, .ok a⟩))
    (hR : ∀ i f, (w.perform T C origin i c).1 = .error f → R f (w.push ⟨c, .error f⟩)) :
    Keeping T C origin Q R (call c) w := by
  refine keeping_call fun i answer w' hperform => ?_
  have hanswer : (w.perform T C origin i c).1 = answer := congrArg Prod.fst hperform
  obtain rfl : w = w' :=
    (Workstation.perform_observes (.inl hc) i w).symm.trans (congrArg Prod.snd hperform)
  refine ⟨w.allowed_observes hc, hinv.observe hc, ?_, ?_⟩
  · rintro a rfl
    exact hQ i a hanswer
  · rintro f rfl
    exact hR i f hanswer

/-! ### The outbox without a marker -/

/-- The faults on which an operation is discarded. -/
def Fault.Discards (f : Fault) : Prop := ∃ error, f = .connector error ∧ error.exitCode = 4

theorem Fault.not_discards {error : ConnectorError} (h : error.exitCode ≠ 4) :
    ¬Fault.Discards (.connector error) := by
  rintro ⟨_, heq, hcode⟩
  cases heq
  exact h hcode

theorem Fault.unexpected_not_discards : ¬Fault.Discards .unexpected := by
  rintro ⟨_, heq, -⟩
  cases heq

variable (T C origin) in
/-- The outbox holds an entry, and no pairing is under way. -/
structure Workstation.Active (w : Workstation) (e : OutboxEntry) : Prop extends
    w.Operates T C origin e, w.Unmarked

/-- The outbox is empty, and no pairing is under way. -/
structure Workstation.Ready (w : Workstation) : Prop extends w.Idle, w.Unmarked

theorem Workstation.Unmarked.inv (h : w.Unmarked)
    (houtbox : w.Idle ∨ ∃ e, w.Operates T C origin e) : w.Inv T C origin where
  outbox := houtbox
  replacement b hb := by
    rw [h.replacement] at hb
    cases hb
  pairCompletion b hb := by
    rw [h.pairCompletion] at hb
    cases hb

theorem Workstation.Active.inv {e : OutboxEntry} (h : w.Active T C origin e) :
    w.Inv T C origin :=
  h.toUnmarked.inv (.inr ⟨e, h.toOperates⟩)

theorem Workstation.Ready.inv (h : w.Ready) : w.Inv T C origin :=
  h.toUnmarked.inv (.inl h.toIdle)

theorem Workstation.Active.push {e : OutboxEntry} (h : w.Active T C origin e) {ev : Event}
    (hremoval : ev.isRemoval = false) (hev : ∀ r, ev.call = .request r → r.Concerns P e) :
    (w.push ev).Active T C origin e :=
  ⟨h.toOperates.push hremoval hev, h.replacement, h.pairCompletion⟩

theorem Workstation.Active.observe {e : OutboxEntry} (h : w.Active T C origin e) (ev : Event)
    (hev : ev.call.observes = true) : (w.push ev).Active T C origin e :=
  h.push (Event.isRemoval_of_observes (.inl hev)) fun r hr =>
    absurd hr (Call.ne_request (Call.isRequest_of_observes hev) r)

theorem Workstation.Ready.observe (h : w.Ready) (ev : Event) (hev : ev.call.observes = true) :
    (w.push ev).Ready :=
  ⟨h.toIdle.push (Event.isRemoval_of_observes (.inl hev)) fun r hr =>
    absurd hr (Call.ne_request (Call.isRequest_of_observes hev) r), h.replacement,
      h.pairCompletion⟩

/-- A request about the entry of the outbox. -/
theorem Workstation.Active.keeping_request {e : OutboxEntry} (h : w.Active T C origin e)
    {r : Request} {Q : Bytes → Workstation → Prop} (hpair : r.isPair = false)
    (hr : r.Concerns P e)
    (hQ : ∀ payload, (w.push ⟨.request r, .ok payload⟩).Active T C origin e →
      Q payload (w.push ⟨.request r, .ok payload⟩))
    (hR : ∀ f, ¬f.Discards → ∀ w' : Workstation, w'.Active T C origin e → R f w') :
    Keeping T C origin Q R (call (.request r)) w := by
  refine keeping_call fun i answer w' hperform => ?_
  obtain ⟨rfl, rfl⟩ := Prod.mk.inj hperform
  have hactive : ∀ answer, (w.push ⟨.request r, answer⟩).Active T C origin e := by
    intro answer
    refine h.push (Event.isRemoval_of_observes (.inr rfl)) fun r' hr' => ?_
    obtain rfl := Call.request.inj hr'
    exact hr
  refine ⟨⟨fun hp => ?_, fun _ => h.toUnmarked, fun _ => ⟨e, h.toOperates, hr⟩⟩,
    (hactive _).inv, fun payload hpayload => ?_, fun f hf => ?_⟩
  · rw [hpair] at hp
    cases hp
  · rw [hpayload]
    exact hQ payload (hactive _)
  · refine hR f ?_ _ (hactive _)
    rintro ⟨error, rfl, hcode⟩
    rcases receive_error hf with rfl | rfl
    · cases hcode
    · rw [refusal] at hcode
      split at hcode <;> cases hcode

/-! ### Saving and removing -/

/-- The outbox after a save. -/
theorem Workstation.holds_saved {e : OutboxEntry} {now : Moment} {docs : Documents} (hok : e.Ok)
    (horigin : e.normalizedOrigin = origin)
    (hnames : ∀ d ∈ w.documents, d.1 = pathFor P e.idempotencyKey)
    (hsave : save T w.documents (pathFor P e.idempotencyKey) e now = .ok docs) :
    ({ w with documents := docs } : Workstation).Holds T origin (e.stamp now) := by
  unfold save at hsave
  split at hsave
  · rename_i b hb
    cases hsave
    exact ⟨hok.stamp now, horigin, b, hb, Documents.write_eq_singleton.mpr ⟨hnames, rfl⟩⟩
  · cases hsave

theorem map_save_error {β : Type} {docs : Documents} {name : Text} {e : OutboxEntry} {now : Moment}
    {f : Documents → β} {error : ConnectorError}
    (h : (save T docs name e now).map f = .error error) : error = outboxInvalid := by
  unfold save at h
  split at h
  · cases h
  · exact (Except.error.inj h).symm

/-- A change of the directory happens as a whole, or it raises and nothing has happened. -/
theorem guardedChange_eq {α : Type} {i : Chance A} {w w' : Workstation}
    {result : Except ConnectorError (α × Workstation)} {answer : Except Fault α}
    (h : guardedChange i w result = (answer, w'))
    (herror : ∀ error, result = .error error → error = outboxInvalid) :
    (∃ a, answer = .ok a ∧ result = .ok (a, w')) ∨ answer = stateFailure ∧ w' = w := by
  unfold guardedChange at h
  split at h
  · obtain ⟨hanswer, hw⟩ := Prod.mk.inj h
    exact .inr ⟨hanswer.symm, hw.symm⟩
  · split at h
    · rename_i a w''
      obtain ⟨hanswer, hw⟩ := Prod.mk.inj h
      exact .inl ⟨a, hanswer.symm, by rw [hw]⟩
    · rename_i error
      obtain ⟨hanswer, hw⟩ := Prod.mk.inj h
      rw [herror error rfl] at hanswer
      exact .inr ⟨hanswer.symm, hw.symm⟩

theorem stateFailure_not_discards : ¬Fault.Discards (.connector outboxInvalid) :=
  Fault.not_discards (by decide)

/-- A call that changes the directory when it succeeds. -/
theorem keeping_change {result : Chance A → Except ConnectorError (c.Value × Workstation)}
    (hallowed : w.Allowed T C origin c)
    (hperform : ∀ i, w.perform T C origin i c = guardedChange i w (result i))
    (herror : ∀ i error, result i = .error error → error = outboxInvalid)
    (hchange : ∀ i a w', result i = .ok (a, w') →
      (w'.push ⟨c, .ok a⟩).Inv T C origin ∧ Q a (w'.push ⟨c, .ok a⟩))
    (hrefused : (w.push ⟨c, stateFailure⟩).Inv T C origin ∧
      R (.connector outboxInvalid) (w.push ⟨c, stateFailure⟩)) :
    Keeping T C origin Q R (call c) w := by
  refine keeping_call fun i answer w' hanswer => ?_
  rw [hperform i] at hanswer
  rcases guardedChange_eq hanswer (herror i) with ⟨a, rfl, hresult⟩ | ⟨rfl, rfl⟩
  · obtain ⟨hinv, hQ⟩ := hchange i a w' hresult
    refine ⟨hallowed, hinv, fun b hb => ?_, fun f hf => ?_⟩
    · exact Except.ok.inj hb ▸ hQ
    · cases hf
  · obtain ⟨hinv, hR⟩ := hrefused
    refine ⟨hallowed, hinv, fun b hb => ?_, fun f hf => ?_⟩
    · cases hb
    · exact Except.error.inj hf ▸ hR

theorem Workstation.keeping_save {e : OutboxEntry} {Q : OutboxEntry → Workstation → Prop}
    (hunmarked : w.Unmarked) (hok : e.Ok) (horigin : e.normalizedOrigin = origin)
    (hnames : ∀ d ∈ w.documents, d.1 = pathFor P e.idempotencyKey)
    (hbacked : Backed P C w.history e)
    (hrequests : ∀ r answer, ⟨.request r, answer⟩ ∈ sinceRemoval w.history → r.Concerns P e)
    (houtbox : w.Idle ∧ e.phase = .create ∨ ∃ e', w.Operates T C origin e' ∧ e'.Advances e)
    (hQ : ∀ now, ∀ w' : Workstation, w'.Active T C origin (e.stamp now) → Q (e.stamp now) w')
    (hR : R (.connector outboxInvalid)
      (w.push ⟨.save (pathFor P e.idempotencyKey) e, stateFailure⟩)) :
    Keeping T C origin Q R (call (.save (pathFor P e.idempotencyKey) e)) w := by
  have hinv : w.Inv T C origin := hunmarked.inv (houtbox.imp And.left fun ⟨e', he', _⟩ => ⟨e', he'⟩)
  refine keeping_change ⟨hok, rfl, hunmarked, houtbox⟩ (fun i => rfl)
    (fun i error h => map_save_error h) (fun i a w' hresult => ?_)
    ⟨hinv.push_other rfl rfl rfl, hR⟩
  obtain ⟨docs, hdocs, heq⟩ := map_eq_ok.mp hresult
  obtain ⟨rfl, rfl⟩ := Prod.mk.inj heq
  have hactive : (Workstation.push { w with documents := docs }
      ⟨.save (pathFor P e.idempotencyKey) e, .ok (e.stamp i.now)⟩).Active T C origin
        (e.stamp i.now) := {
    toHolds := (Workstation.holds_saved hok horigin hnames hdocs).push _
    backed := (hbacked.congr rfl rfl).cons _
    requests := requests_push (w := { w with documents := docs })
      (fun r answer hmem => (hrequests r answer hmem).advances (e.stamp_advances i.now)) rfl
      fun r hr => absurd hr (Call.ne_request rfl r)
    replacement := hunmarked.replacement
    pairCompletion := hunmarked.pairCompletion }
  exact ⟨hactive.inv, hQ i.now _ hactive⟩

/-- The entry of an operation is saved again. -/
theorem Workstation.Active.keeping_save {e e' : OutboxEntry}
    {Q : OutboxEntry → Workstation → Prop} (h : w.Active T C origin e) (hadvances : e.Advances e')
    (hok : e'.Ok) (hbacked : Backed P C w.history e')
    (hQ : ∀ now, ∀ w' : Workstation, w'.Active T C origin (e'.stamp now) → Q (e'.stamp now) w')
    (hR : ∀ f : Fault, ¬f.Discards → ∀ w' : Workstation, w'.Active T C origin e → R f w') :
    Keeping T C origin Q R (call (.save (pathFor P e.idempotencyKey) e')) w := by
  obtain ⟨b, -, hdocuments⟩ := h.documents
  rw [← hadvances.idempotencyKey]
  refine Workstation.keeping_save h.toUnmarked hok (hadvances.normalizedOrigin.trans h.origin)
    ?_ hbacked (fun r answer hmem => (h.requests r answer hmem).advances hadvances)
    (.inr ⟨e, h.toOperates, hadvances⟩) hQ ?_
  · rw [hdocuments, hadvances.idempotencyKey]
    exact List.forall_mem_singleton.mpr rfl
  · exact hR _ stateFailure_not_discards _
      (h.push rfl fun r hr => absurd hr (Call.ne_request rfl r))

/-- The first entry of an operation is saved. -/
theorem Workstation.Ready.keeping_save {e : OutboxEntry} {Q : OutboxEntry → Workstation → Prop}
    (h : w.Ready) (hok : e.Ok) (horigin : e.normalizedOrigin = origin) (hphase : e.phase = .create)
    (hbacked : Backed P C w.history e)
    (hQ : ∀ now, ∀ w' : Workstation, w'.Active T C origin (e.stamp now) → Q (e.stamp now) w')
    (hR : ∀ f w', R f w') :
    Keeping T C origin Q R (call (.save (pathFor P e.idempotencyKey) e)) w := by
  refine Workstation.keeping_save h.toUnmarked hok horigin ?_ hbacked
    (fun r answer hmem => Request.concerns_of_not_operation (h.requests r answer hmem))
    (.inl ⟨h.toIdle, hphase⟩) hQ (hR _ _)
  rw [h.documents]
  exact List.forall_mem_nil _

/-- The world behind the removal of its document. -/
def Workstation.cleared (w : Workstation) (name : Text) : Workstation :=
  { w with documents := [], history := ⟨.delete name, .ok ()⟩ :: w.history }

theorem Workstation.idle_cleared (w : Workstation) (name : Text) : (w.cleared name).Idle where
  documents := rfl
  requests r answer hmem := by
    rw [cleared, sinceRemoval_removal rfl] at hmem
    cases hmem

/-- A document is removed. -/
theorem Workstation.Inv.keeping_delete {name : Text} {Q : Unit → Workstation → Prop}
    (h : w.Inv T C origin) (hnames : ∀ d ∈ w.documents, d.1 = name)
    (hremovable : w.Removable T origin)
    (hQ : (w.cleared name).Inv T C origin → Q () (w.cleared name))
    (hR : (w.push ⟨.delete name, stateFailure⟩).Inv T C origin →
      R (.connector outboxInvalid) (w.push ⟨.delete name, stateFailure⟩)) :
    Keeping T C origin Q R (call (.delete name)) w := by
  have hrefused : (w.push ⟨.delete name, stateFailure⟩).Inv T C origin :=
    h.push_other rfl rfl rfl
  refine keeping_change hremovable (fun i => rfl) (fun i error herror => ?_)
    (fun i a w' hresult => ?_) ⟨hrefused, hR hrefused⟩
  · split at herror
    · cases herror
    · exact (Except.error.inj herror).symm
  · split at hresult
    · obtain ⟨rfl, rfl⟩ := Prod.mk.inj (Except.ok.inj hresult)
      have hnil : w.documents.remove name = [] := by
        rw [Documents.remove, List.filter_eq_nil_iff]
        intro d hd
        simpa using hnames d hd
      have hcleared : Workstation.push { w with documents := w.documents.remove name }
          ⟨.delete name, .ok ()⟩ = w.cleared name := by
        rw [Workstation.push, Workstation.cleared, hnil]
      have hinv : (w.cleared name).Inv T C origin := {
        outbox := .inl (w.idle_cleared name)
        replacement := fun b hb => by
          obtain ⟨hnone, sha256, name', hbytes, -, hrecorded⟩ := h.replacement b hb
          exact ⟨hnone, sha256, name', hbytes, List.forall_mem_nil _, hrecorded.push rfl⟩
        pairCompletion := fun b hb => by
          obtain ⟨hnone, -, sha256, hbytes, hrecorded⟩ := h.pairCompletion b hb
          exact ⟨hnone, rfl, sha256, hbytes, hrecorded.push rfl⟩ }
      rw [hcleared]
      exact ⟨hinv, hQ hinv⟩
    · cases hresult

/-- The document of an operation is removed. -/
theorem Workstation.Active.keeping_delete {e : OutboxEntry} {Q : Unit → Workstation → Prop}
    (h : w.Active T C origin e) (hremovable : w.Removable T origin)
    (hQ : ∀ w' : Workstation, w'.Ready → Q () w') (hR : ∀ f w', R f w') :
    Keeping T C origin Q R (call (.delete (pathFor P e.idempotencyKey))) w := by
  obtain ⟨b, -, hdocuments⟩ := h.documents
  refine h.inv.keeping_delete ?_ hremovable (fun _ => hQ _ ?_) fun _ => hR _ _
  · rw [hdocuments]
    exact List.forall_mem_singleton.mpr rfl
  · exact ⟨w.idle_cleared _, h.replacement, h.pairCompletion⟩

end rules

end SuperBoss.Connector
