import SuperBoss.Connector.Guarantees
import SuperBoss.Core.Encodable

/-!
What the connector writes: whatever its validators accept has a text, and a marker
that was written is never too long to be read again.
-/

namespace SuperBoss.Connector

open SuperBoss.Core
open SuperBoss.Imports

/-! ### Writing an entry -/

section writing

variable {P : Platform}

/-- Datetimes are written in characters that have an encoding. -/
structure Timestamps.Encodable (T : Timestamps P) : Prop where
  aware : ∀ d, (T.dump d).Encodable
  utc : ∀ t, Instant.min ≤ t ∧ t ≤ Instant.max → (P.dumpDatetime t).Encodable

theorem StateText.encodable {minLength maxLength : Nat} {t : Text}
    (h : StateText minLength maxLength t) : t.Encodable :=
  h.1.1

theorem encodable_of_isDigest {t : Text} (h : Text.isDigest t = true) : t.Encodable := by
  refine Text.encodable_of_isAscii fun c hc => ?_
  have hhex := List.all_eq_true.mp (Bool.and_eq_true_iff.mp h).2 c hc
  simp only [Text.isLowerHex, Bool.or_eq_true, Bool.and_eq_true, decide_eq_true_eq] at hhex
  omega

theorem isCodeChar_lt {c : Nat} (h : isCodeChar c = true) : c < 128 := by
  simp only [isCodeChar, isUpper, Bool.or_eq_true, Bool.and_eq_true, decide_eq_true_eq,
    beq_iff_eq] at h
  omega

theorem encodable_of_isResultCode {t : Text} (h : isResultCode t = true) : t.Encodable := by
  cases t with
  | nil => exact Text.encodable_nil
  | cons c t =>
      simp only [isResultCode, Bool.and_eq_true] at h
      obtain ⟨⟨hc, -⟩, ht⟩ := h
      refine Text.encodable_of_isAscii (List.forall_mem_cons.mpr ⟨isCodeChar_lt ?_, fun d hd => ?_⟩)
      · rw [isCodeChar, hc]
        rfl
      · exact isCodeChar_lt (List.all_eq_true.mp ht d hd)

theorem SafeKey.encodable {t : Text} (h : SafeKey t) : t.Encodable := by
  refine Text.encodable_of_isAscii fun c hc => ?_
  have hprintable := List.all_eq_true.mp h.2 c hc
  simp only [isPrintable, Bool.and_eq_true, decide_eq_true_eq] at hprintable
  omega

theorem encodable_uuid (o : Option UUID) : (Json.ofOption uuidJson o).Encodable :=
  Json.encodable_ofOption fun u _ => u.encodable_text

theorem CompletedPart.Ok.encodable_dump {p : CompletedPart} (h : p.Ok) : p.dump.Encodable := by
  refine Json.encodableFields_of fieldNames rfl ?_
  simp only [fields, Json.field, List.forall_mem_cons]
  exact ⟨trivial, h.encodable, List.forall_mem_nil _⟩

theorem AttachmentState.Ok.encodable_dump {a : AttachmentState} (h : a.Ok) :
    a.dump.Encodable := by
  refine Json.encodableFields_of fieldNames rfl ?_
  simp only [fields, Json.field, List.forall_mem_cons]
  exact ⟨Text.encodable_ofString _, h.path.encodable, h.filename.encodable, trivial,
    encodable_of_isDigest h.sha256,
    Json.encodable_map fun d hd => encodable_of_isDigest (h.parts.2 d hd), h.contentType.encodable,
    trivial, encodable_uuid _, encodable_uuid _, encodable_uuid _,
    Json.encodable_map fun p hp => (h.completed p hp).encodable_dump, trivial,
    List.forall_mem_nil _⟩

variable {T : Timestamps P}

theorem EvidenceState.Ok.encodable_dump {v : EvidenceState} (h : v.Ok) (hT : T.Encodable) :
    (v.dump T).Encodable := by
  refine Json.encodableFields_of fieldNames rfl ?_
  simp only [fields, Json.field, List.forall_mem_cons]
  exact ⟨UUID.encodable_text _, Text.encodable_ofString _,
    Json.encodable_ofOption fun code hcode => encodable_of_isResultCode (h.resultCode code hcode),
    hT.aware _, hT.aware _, List.forall_mem_nil _⟩

theorem OutboxEntry.Ok.encodable_dump {e : OutboxEntry} (h : e.Ok) (hT : T.Encodable) :
    (e.dump T).Encodable := by
  refine Json.encodableFields_of fieldNames rfl ?_
  simp only [fields, Json.field, List.forall_mem_cons]
  exact ⟨h.origin.encodable, h.key.encodable, h.path.encodable,
    encodable_of_isDigest h.fingerprint, encodable_uuid _, Text.encodable_ofString _,
    Json.encodable_map fun a ha => (h.attachments.2 a ha).encodable_dump,
    Json.encodable_ofOption fun v hv => (h.evidence v hv).encodable_dump hT, hT.utc _ h.dated,
    List.forall_mem_nil _⟩

/-- The operating system apart, an entry that the validators accept is always written. -/
theorem OutboxEntry.Ok.serialized {e : OutboxEntry} (h : e.Ok) (hT : T.Encodable) :
    ∃ b, serialize T e = some b := by
  obtain ⟨b, hb, -⟩ := (h.encodable_dump hT).jsonBytes
  have hvalid := OutboxEntry.validate_dump T Json.reorders_id h
  rw [id_eq] at hvalid
  refine ⟨b, ?_⟩
  rw [serialize, hvalid]
  exact hb

end writing

/-! ### Markers -/

section markers

variable {origin : Text}

/-- The bounds of the fields that both markers have. -/
structure PairCompletionMarker.Bounded (m : PairCompletionMarker) : Prop where
  encodable : m.normalizedOrigin.Encodable
  length : 1 ≤ m.normalizedOrigin.length ∧ m.normalizedOrigin.length ≤ 4096
  sha256 : ∀ d ∈ m.oldRefreshSha256, Text.isDigest d = true

theorem strictStr_eq_ok {minLength maxLength : Nat} {t u : Text}
    (h : strictStr minLength maxLength (.str t) = .ok u) :
    t.Encodable ∧ minLength ≤ t.length ∧ t.length ≤ maxLength := by
  rw [strictStr] at h
  split at h
  · assumption
  · cases h

theorem PairCompletionMarker.bounded_of_fields {α : Type} {l : List (Text × Json)}
    {m m' : PairCompletionMarker} {others : Except PyError α} {rest : α}
    (h : credentialFields (m.fields ++ l) others = .ok (m', rest)) : m.Bounded := by
  obtain ⟨⟨_, origin, state, sha256, rest'⟩, hparts, -⟩ := map_eq_ok.mp h
  simp only [collect_eq_ok, defaultField, requiredField, fields, List.cons_append, field?_cons,
    if_true, String.reduceEq, if_false] at hparts
  obtain ⟨-, horigin, -, hsha256, -⟩ := hparts
  obtain ⟨hencodable, hlength⟩ := strictStr_eq_ok horigin
  refine ⟨hencodable, hlength, fun d hd => ?_⟩
  obtain ⟨rfl, hdigest⟩ := nullable_of_option Json.str (f := id) (fun _ => Json.noConfusion)
    (fun _ _ hd => patternStr_str hd) hsha256
  rw [Option.map_id_apply] at hdigest
  exact hdigest d hd

theorem PairCompletionMarker.credentialFields_eq {α : Type} {m : PairCompletionMarker}
    (h : m.Bounded) (l : List (Text × Json)) (others : Except PyError α) :
    credentialFields (m.fields ++ l) others = others.map fun rest => (m, rest) := by
  have horigin : strictStr 1 4096 (.str m.normalizedOrigin) = .ok m.normalizedOrigin :=
    if_pos ⟨h.encodable, h.length⟩
  have hstate : literalField credentialStates CredentialState.value
      (.str (Text.ofString m.oldCredentialState.value)) = .ok m.oldCredentialState := by
    cases m.oldCredentialState <;> decide
  have hsha256 : nullable (patternStr Text.isDigest) (Json.ofOption .str m.oldRefreshSha256) =
      .ok m.oldRefreshSha256 :=
    nullable_dump Json.reorders_id (fun _ _ => Json.noConfusion)
      fun d hd => patternStr_dump Json.reorders_id (h.sha256 d hd)
  simp only [credentialFields, fields, List.cons_append, defaultField, requiredField,
    field?_cons, if_true, String.reduceEq, if_false, horigin, hstate, hsha256]
  cases others <;> rfl

theorem PairCompletionMarker.Bounded.encodable_fields {m : PairCompletionMarker}
    (h : m.Bounded) : ∀ f ∈ m.fields, f.2.Encodable := by
  simp only [fields, Json.field, List.forall_mem_cons]
  exact ⟨trivial, h.encodable, Text.encodable_ofString _,
    Json.encodable_ofOption fun d hd => encodable_of_isDigest (h.sha256 d hd),
    List.forall_mem_nil _⟩

/-- The bytes that the fields of an object take at most. -/
def fieldsLength (fields : List (Text × Json)) : Nat :=
  (fields.map fun f => (Json.quote f.1).length + (Json.render Json.compact f.2).length + 2).sum

theorem PairCompletionMarker.Bounded.length_fields {m : PairCompletionMarker} (h : m.Bounded) :
    fieldsLength m.fields ≤ 25600 := by
  have horigin := Json.length_quote m.normalizedOrigin
  have hmax := h.length.2
  have hstate : (Json.quote (Text.ofString m.oldCredentialState.value)).length ≤ 9 := by
    cases m.oldCredentialState <;> decide
  have hsha256 : (Json.render Json.compact (Json.ofOption .str m.oldRefreshSha256)).length ≤ 386 := by
    cases hd : m.oldRefreshSha256 with
    | none => decide
    | some d =>
        have hdigest : d.length = 64 :=
          beq_iff_eq.mp (Bool.and_eq_true_iff.mp (h.sha256 d hd)).1
        have hquote := Json.length_quote d
        rw [hdigest] at hquote
        exact hquote
  have hkeys : ∀ name ∈ fieldNames, (Json.quote (Text.ofString name)).length ≤ 22 := by decide
  simp only [fieldNames, List.forall_mem_cons] at hkeys
  have hversion : (Json.renderInt 1).length = 1 := by decide
  simp only [fieldsLength, fields, Json.field, List.map_cons, List.map_nil, List.sum_cons,
    List.sum_nil, hversion, Json.render]
  omega

theorem MarkerModel.length_le {α : Type} {fields : α → List (Text × Json)}
    {validate : Json → Except PyError α} {names : List String}
    (h : MarkerModel fields validate names) {marker : α} {b : Bytes}
    (hb : serializeMarker fields validate marker = some b)
    (hencodable : ∀ f ∈ fields marker, f.2.Encodable)
    (hlength : fieldsLength (fields marker) ≤ 65000) : b.length ≤ localStateMaxBytes := by
  unfold serializeMarker at hb
  split at hb
  · rename_i marker' hvalid
    obtain rfl := h.same marker marker' hvalid
    obtain ⟨b', hb', hle⟩ := (Json.encodableFields_of names (h.keys marker') hencodable).jsonBytes
    obtain rfl := Option.some.inj (hb'.symm.trans hb)
    have hobj := Json.length_render_obj (fields marker')
    change _ ≤ fieldsLength (fields marker') + 2 at hobj
    simp only [localStateMaxBytes]
    omega
  · cases hb

theorem MarkerModel.serialized {α : Type} {fields : α → List (Text × Json)}
    {validate : Json → Except PyError α} {names : List String}
    (h : MarkerModel fields validate names) {marker : α}
    (hvalid : validate (.obj (fields marker)) = .ok marker)
    (hencodable : ∀ f ∈ fields marker, f.2.Encodable) :
    ∃ b, serializeMarker fields validate marker = some b := by
  obtain ⟨b, hb, -⟩ := (Json.encodableFields_of names (h.keys marker) hencodable).jsonBytes
  refine ⟨b, ?_⟩
  rw [serializeMarker, hvalid]
  exact hb

/-- A marker that was written is read again. -/
theorem read_pairCompletionBytes {sha256 : Option Text} {b : Bytes}
    (hb : pairCompletionBytes origin sha256 = some b) :
    readMarker PairCompletionMarker.validate b = some ⟨origin, .of sha256, sha256⟩ := by
  have hbounded : (⟨origin, .of sha256, sha256⟩ : PairCompletionMarker).Bounded := by
    unfold pairCompletionBytes serializeMarker at hb
    split at hb
    · rename_i marker hvalid
      obtain ⟨marker', hfields, -⟩ := bind_eq_ok.mp hvalid
      obtain ⟨⟨marker'', _⟩, hcredential, -⟩ := map_eq_ok.mp hfields
      rw [← List.append_nil (PairCompletionMarker.fields _)] at hcredential
      exact PairCompletionMarker.bounded_of_fields hcredential
    · cases hb
  rw [PairCompletionMarker.model.read_serialize hb, if_pos]
  exact PairCompletionMarker.model.length_le hb hbounded.encodable_fields
    (hbounded.length_fields.trans (by decide))

theorem isOutboxFilename_length {name : Text} (h : isOutboxFilename name = true) :
    name.Encodable ∧ name.length = 69 := by
  obtain ⟨hdigest, hsuffix⟩ := Bool.and_eq_true_iff.mp h
  have hsplit : name.take 64 ++ Text.ofString ".json" = name := by
    rw [← of_decide_eq_true hsuffix, List.take_append_drop]
  have hlength : (name.take 64).length = 64 :=
    beq_iff_eq.mp (Bool.and_eq_true_iff.mp hdigest).1
  rw [← hsplit]
  refine ⟨Text.encodable_append.mpr
    ⟨encodable_of_isDigest hdigest, Text.encodable_ofString ".json"⟩, ?_⟩
  rw [List.length_append, hlength]
  rfl

theorem ReplacementMarker.encodable_fields {marker : ReplacementMarker}
    (h : marker.toPairCompletionMarker.Bounded)
    (hname : isOutboxFilename marker.oldOutboxFilename = true) :
    ∀ f ∈ marker.fields, f.2.Encodable := by
  rw [fields, List.forall_mem_append]
  exact ⟨h.encodable_fields, List.forall_mem_singleton.mpr (isOutboxFilename_length hname).1⟩

theorem read_replacementBytes {sha256 : Option Text} {name : Text} {b : Bytes}
    (hb : replacementBytes origin sha256 name = some b) :
    readMarker ReplacementMarker.validate b = some ⟨⟨origin, .of sha256, sha256⟩, name⟩ := by
  have hbounded : (⟨origin, .of sha256, sha256⟩ : PairCompletionMarker).Bounded ∧
      isOutboxFilename name = true := by
    unfold replacementBytes serializeMarker at hb
    split at hb
    · rename_i marker hvalid
      obtain ⟨marker', hfields, -⟩ := bind_eq_ok.mp hvalid
      obtain ⟨⟨marker'', name', _⟩, hcredential, -⟩ := map_eq_ok.mp hfields
      refine ⟨PairCompletionMarker.bounded_of_fields hcredential, ?_⟩
      obtain ⟨-, hothers⟩ := credentialFields_same hcredential
      obtain ⟨hname, -⟩ := collect_eq_ok.mp hothers
      simp only [requiredField, ReplacementMarker.fields, PairCompletionMarker.fields,
        List.cons_append, List.nil_append, field?_cons, if_true, String.reduceEq,
        if_false] at hname
      obtain ⟨rfl, hpattern⟩ := patternStr_str hname
      exact hpattern
    · cases hb
  rw [ReplacementMarker.model.read_serialize hb, if_pos]
  refine ReplacementMarker.model.length_le hb
    (ReplacementMarker.encodable_fields hbounded.1 hbounded.2) ?_
  have hfields := hbounded.1.length_fields
  have hquote := Json.length_quote name
  rw [(isOutboxFilename_length hbounded.2).2] at hquote
  have hkey : (Json.quote (Text.ofString "old_outbox_filename")).length = 21 := by decide
  simp only [fieldsLength, ReplacementMarker.fields, List.map_append, List.sum_append,
    List.map_cons, List.map_nil, List.sum_cons, List.sum_nil, Json.field, Json.render, hkey]
    at hfields ⊢
  omega

/-! ### Writing a marker -/

theorem PairCompletionMarker.Bounded.validate_fields {marker : PairCompletionMarker}
    (h : marker.Bounded) (hconsistent : marker.Consistent) :
    PairCompletionMarker.validate (.obj marker.fields) = .ok marker := by
  have honly : check (Json.onlyKeys fieldNames marker.fields) = .ok () := by
    simp [Json.onlyKeys, fields, Json.field, fieldNames, check]
  have hfields := credentialFields_eq h [] (check (Json.onlyKeys fieldNames marker.fields))
  rw [List.append_nil, honly] at hfields
  have hvalid : validateFields (.obj marker.fields) = .ok marker := by
    rw [validateFields, honly, hfields]
    rfl
  rw [validate, hvalid]
  exact if_pos hconsistent

theorem ReplacementMarker.validate_fields {marker : ReplacementMarker}
    (h : marker.toPairCompletionMarker.Bounded)
    (hname : isOutboxFilename marker.oldOutboxFilename = true)
    (hconsistent : marker.toPairCompletionMarker.Consistent) :
    ReplacementMarker.validate (.obj marker.fields) = .ok marker := by
  have honly : check (Json.onlyKeys fieldNames marker.fields) = .ok () := by
    simp [Json.onlyKeys, fields, PairCompletionMarker.fields, Json.field, fieldNames, check]
  have hfile : requiredField marker.fields "old_outbox_filename" (patternStr isOutboxFilename) =
      .ok marker.oldOutboxFilename := by
    simp only [requiredField, fields, PairCompletionMarker.fields, List.cons_append,
      List.nil_append, field?_cons, if_true, String.reduceEq, if_false]
    exact patternStr_dump Json.reorders_id hname
  have hvalid : validateFields (.obj marker.fields) = .ok marker := by
    rw [validateFields, hfile, honly, fields, PairCompletionMarker.credentialFields_eq h]
    rfl
  rw [validate, hvalid]
  exact if_pos hconsistent

theorem CredentialState.consistent (sha256 : Option Text) :
    (⟨origin, .of sha256, sha256⟩ : PairCompletionMarker).Consistent := by
  cases sha256 <;> simp [PairCompletionMarker.Consistent, CredentialState.of]

theorem pairCompletionBytes_of_bounded {sha256 : Option Text}
    (h : (⟨origin, .of sha256, sha256⟩ : PairCompletionMarker).Bounded) :
    ∃ b, pairCompletionBytes origin sha256 = some b :=
  PairCompletionMarker.model.serialized
    (h.validate_fields (CredentialState.consistent sha256)) h.encodable_fields

theorem replacementBytes_of_bounded {sha256 : Option Text} {name : Text}
    (h : (⟨origin, .of sha256, sha256⟩ : PairCompletionMarker).Bounded)
    (hname : isOutboxFilename name = true) :
    ∃ b, replacementBytes origin sha256 name = some b :=
  ReplacementMarker.model.serialized
    (ReplacementMarker.validate_fields h hname (CredentialState.consistent sha256))
    (ReplacementMarker.encodable_fields h hname)

end markers

end SuperBoss.Connector
