import SuperBoss.Connector.Agreement

/-!
Conversions to UTC that fail: the datetimes whose `astimezone` raises an
`OverflowError`, and what becomes of it in both validators of a manifest.
-/

namespace SuperBoss.Connector

open SuperBoss.Core
open SuperBoss.Imports

/-! ### Overflows among the validators of a model -/

section overflow

variable {α β : Type}

theorem bind_eq_error {ε : Type} {x : Except ε α} {f : α → Except ε β} {e : ε} :
    x >>= f = .error e ↔ x = .error e ∨ ∃ a, x = .ok a ∧ f a = .error e := by
  cases x with
  | error e' => simp [bind, Except.bind]
  | ok a => simp [bind, Except.bind]

theorem map_eq_error {ε : Type} {x : Except ε α} {f : α → β} {e : ε} :
    x.map f = .error e ↔ x = .error e := by
  cases x <;> simp [Except.map]

/-- One `OverflowError` is enough, whatever else is wrong. -/
theorem collect_overflow {f : Except PyError α} {g : Except PyError β} :
    collect f g = .error .overflow ↔ f = .error .overflow ∨ g = .error .overflow := by
  cases f with
  | ok a => cases g <;> simp [collect]
  | error e =>
      cases e with
      | overflow => simp [collect]
      | validation =>
          cases g with
          | ok b => simp [collect]
          | error e => cases e <;> simp [collect]

/-- A validator whose only exceptions are collected. -/
def Quiet (parse : Json → Except PyError α) : Prop := ∀ j, parse j ≠ .error .overflow

theorem requiredField_overflow {fields : List (Text × Json)} {name : String}
    {parse : Json → Except PyError α} :
    requiredField fields name parse = .error .overflow ↔
      ∃ j, Json.field? fields name = some j ∧ parse j = .error .overflow := by
  unfold requiredField
  cases Json.field? fields name with
  | none => simp
  | some j => simp

theorem Quiet.required {parse : Json → Except PyError α} (h : Quiet parse)
    (fields : List (Text × Json)) (name : String) :
    requiredField fields name parse ≠ .error .overflow := by
  rw [Ne, requiredField_overflow]
  rintro ⟨j, -, hj⟩
  exact h j hj

theorem Quiet.default {parse : Json → Except PyError α} (h : Quiet parse)
    (fields : List (Text × Json)) (name : String) (a : α) :
    defaultField fields name a parse ≠ .error .overflow := by
  unfold defaultField
  split
  · nofun
  · exact h _

theorem Quiet.nullable {parse : Json → Except PyError α} (h : Quiet parse) :
    Quiet (nullable parse) := by
  intro j hj
  unfold Core.nullable at hj
  split at hj
  · cases hj
  · exact h j (map_eq_error.mp hj)

theorem Quiet.collectList {parse : Json → Except PyError α} (h : Quiet parse) (l : List Json) :
    collectList parse l ≠ .error .overflow := by
  induction l with
  | nil => nofun
  | cons j l ih =>
      intro hl
      rw [Core.collectList] at hl
      split at hl
      · cases hl
      · rename_i e hcollect
        cases hl
        rcases collect_overflow.mp hcollect with hj | hrest
        · exact h j hj
        · exact ih hrest

theorem Quiet.listOf {parse : Json → Except PyError α} (h : Quiet parse)
    (minLength maxLength : Nat) : Quiet (listOf minLength maxLength parse) := by
  intro j hj
  unfold Core.listOf at hj
  split at hj
  · split at hj
    · exact h.collectList _ hj
    · cases hj
  · cases hj

theorem check_ne_overflow (condition : Bool) : check condition ≠ .error .overflow := by
  unfold check
  split <;> nofun

variable (P : Platform)

theorem quiet_textField (safe : SafeText) (document : Bool) (maxLength : Nat) :
    Quiet (textField P safe document maxLength) := by
  intro j hj
  unfold textField at hj
  split at hj
  · unfold cleanText at hj
    dsimp only at hj
    split at hj <;> cases hj
  · cases hj

theorem quiet_uuidField : Quiet (uuidField P) := by
  intro j hj
  unfold uuidField at hj
  split at hj
  · split at hj <;> cases hj
  · cases hj

theorem quiet_natField (min max : Nat) : Quiet (natField P min max) := by
  intro j hj
  unfold natField at hj
  split at hj
  · cases hj
  · split at hj <;> cases hj

theorem digest_ne_overflow (t : Text) : digest t ≠ .error .overflow := by
  unfold digest
  split <;> nofun

theorem mimeType_ne_overflow (t : Text) : mimeType t ≠ .error .overflow := by
  unfold mimeType
  dsimp only
  split <;> nofun

theorem quiet_digestField : Quiet digestField := by
  intro j hj
  unfold digestField at hj
  split at hj
  · exact digest_ne_overflow _ hj
  · cases hj

theorem quiet_mimeField : Quiet mimeField := by
  intro j hj
  unfold mimeField at hj
  split at hj
  · exact mimeType_ne_overflow _ hj
  · cases hj

theorem quiet_kindField : Quiet kindField := by
  intro j hj
  unfold kindField at hj
  split at hj
  · split at hj <;> cases hj
  · cases hj

theorem quiet_documentsField (safe : SafeText) : Quiet (documentsField P safe) := by
  intro j hj
  rcases bind_eq_error.mp hj with hlist | ⟨items, -, hj⟩
  · exact (quiet_textField P safe true k3TextMaxChars).listOf _ _ j hlist
  · split at hj <;> cases hj

theorem quiet_tagsField (safe : SafeText) : Quiet (tagsField P safe) := by
  intro j hj
  rcases bind_eq_error.mp hj with hlist | ⟨items, -, hj⟩
  · exact (quiet_textField P safe false suggestedTagMaxChars).listOf _ _ j hlist
  · split at hj <;> cases hj

theorem quiet_declaration : Quiet (AttachmentDeclaration.validate P) := by
  intro j hj
  unfold AttachmentDeclaration.validate at hj
  split at hj
  · simp only [map_eq_error, collect_overflow] at hj
    rcases hj with h | h | h | h | h | h
    · exact quiet_kindField.required _ _ h
    · exact (quiet_textField P _ _ _).required _ _ h
    · exact (quiet_natField P _ _).required _ _ h
    · exact quiet_digestField.required _ _ h
    · exact quiet_mimeField.required _ _ h
    · exact check_ne_overflow _ h
  · cases hj

theorem quiet_localAttachment : Quiet (LocalAttachment.validate P) := by
  intro j hj
  unfold LocalAttachment.validate at hj
  split at hj
  · simp only [map_eq_error, collect_overflow] at hj
    rcases hj with h | h | h | h
    · exact quiet_kindField.required _ _ h
    · exact (quiet_textField P _ _ _).required _ _ h
    · exact quiet_mimeField.nullable.default _ _ _ h
    · exact check_ne_overflow _ h
  · cases hj

theorem boundedStr_ne_overflow (minLength maxLength : Nat) (t : Text) :
    boundedStr minLength maxLength t ≠ .error .overflow := by
  unfold boundedStr
  dsimp only
  split <;> nofun

theorem quiet_keyField : Quiet keyField := by
  intro j hj
  unfold keyField at hj
  split at hj
  · split at hj
    · exact boundedStr_ne_overflow _ _ _ hj
    · cases hj
  · cases hj

end overflow

/-! ### `processed_at` -/

section processedAt

variable (P : Platform)

/-- An aware datetime whose instant UTC cannot show. -/
def Unconvertible (t : Json) : Prop :=
  ∃ wall offset, P.parseDatetime t = some ⟨wall, some offset⟩ ∧
    ¬(Instant.min ≤ wall - offset ∧ wall - offset ≤ Instant.max)

/-- The timestamp of a manifest. -/
def processedAt : Json → Option Json
  | .obj fields =>
      match Json.field? fields "k3_result" with
      | some (.obj k3) => Json.field? k3 "processed_at"
      | _ => none
  | _ => none

variable {P}

theorem datetimeField_overflow {t : Json} :
    datetimeField P t = .error .overflow ↔ Unconvertible P t := by
  unfold datetimeField Unconvertible Datetime.toUtc
  cases P.parseDatetime t with
  | none => simp
  | some d =>
      obtain ⟨wall, offset⟩ := d
      cases offset with
      | none => simp
      | some offset =>
          dsimp only
          split
          · rename_i h
            constructor
            · nofun
            · rintro ⟨w, o, heq, hn⟩
              cases heq
              exact absurd h hn
          · rename_i h
            exact iff_of_true rfl ⟨wall, offset, rfl, h⟩

theorem K3Result.validate_overflow {safe : SafeText} {j : Json} :
    K3Result.validate P safe j = .error .overflow ↔
      ∃ fields t, j = .obj fields ∧ Json.field? fields "processed_at" = some t ∧
        Unconvertible P t := by
  unfold K3Result.validate
  split
  · rename_i fields
    have hdatetime : requiredField fields "processed_at" (datetimeField P) = .error .overflow ↔
        ∃ j, Json.field? fields "processed_at" = some j ∧ datetimeField P j = .error .overflow :=
      requiredField_overflow
    simp only [map_eq_error, collect_overflow, hdatetime, datetimeField_overflow]
    constructor
    · rintro (h | ⟨t, ht, h⟩ | h | h | h | h | h | h)
      · exact absurd h ((quiet_textField P _ _ _).required _ _)
      · exact ⟨fields, t, rfl, ht, h⟩
      · exact absurd h ((quiet_documentsField P safe).required _ _)
      · exact absurd h ((quiet_documentsField P safe).required _ _)
      · exact absurd h ((quiet_documentsField P safe).required _ _)
      · exact absurd h ((quiet_textField P _ _ _).nullable.default _ _ _)
      · exact absurd h ((quiet_tagsField P safe).default _ _ _)
      · exact absurd h (check_ne_overflow _)
    · rintro ⟨fields', t, hj, ht, h⟩
      cases hj
      exact .inr (.inl ⟨t, ht, h⟩)
  · rename_i hne
    constructor
    · intro h
      cases h
    · rintro ⟨fields, t, rfl, -⟩
      exact absurd rfl (hne fields)

/-- The field of the K3 result overflows with its timestamp. -/
theorem k3Field_overflow {safe : SafeText} {fields : List (Text × Json)} :
    requiredField fields "k3_result" (K3Result.validate P safe) = .error .overflow ↔
      ∃ t, processedAt (.obj fields) = some t ∧ Unconvertible P t := by
  rw [requiredField_overflow, processedAt]
  constructor
  · rintro ⟨j, hj, h⟩
    obtain ⟨k3, t, rfl, ht, h⟩ := K3Result.validate_overflow.mp h
    rw [hj]
    exact ⟨t, ht, h⟩
  · rintro ⟨t, ht, h⟩
    split at ht
    · rename_i k3 hk3
      exact ⟨.obj k3, hk3, K3Result.validate_overflow.mpr ⟨k3, t, rfl, ht, h⟩⟩
    · cases ht

/-- The server's validation of a body raises an `OverflowError` exactly when its
timestamp cannot be converted. -/
theorem ImportJobCreate.validate_overflow {body : Json} :
    ImportJobCreate.validate P body = .error .overflow ↔
      ∃ t, processedAt body = some t ∧ Unconvertible P t := by
  unfold ImportJobCreate.validate
  have hnormalize : ∀ m : ManifestFields P, ImportJobCreate.normalize P m ≠ .error .overflow := by
    intro m
    unfold ImportJobCreate.normalize
    split
    · dsimp only
      split <;> intro h <;> cases h
    · intro h
      cases h
  rw [bind_eq_error, or_iff_left (by rintro ⟨m, -, h⟩; exact hnormalize m h)]
  unfold ImportJobCreate.validateFields
  split
  · rename_i fields
    simp only [map_eq_error, collect_overflow, k3Field_overflow]
    constructor
    · rintro (h | h | h | h | h | h | h)
      · exact absurd h ((quiet_uuidField P).required _ _)
      · exact absurd h ((quiet_textField P _ _ _).required _ _)
      · exact absurd h ((quiet_textField P _ _ _).nullable.default _ _ _)
      · exact absurd h (quiet_digestField.nullable.default _ _ _)
      · exact h
      · exact absurd h (((quiet_declaration P).listOf _ _).required _ _)
      · exact absurd h (check_ne_overflow _)
    · exact fun h => .inr (.inr (.inr (.inr (.inl h))))
  · rename_i hne
    constructor
    · intro h
      cases h
    · rintro ⟨t, ht, -⟩
      unfold processedAt at ht
      split at ht
      · exact absurd rfl (hne _)
      · cases ht

theorem LocalManifest.validate_overflow {raw : Json} :
    LocalManifest.validate P raw = .error .overflow ↔
      ∃ t, processedAt raw = some t ∧ Unconvertible P t := by
  unfold LocalManifest.validate
  have hkinds : ∀ m : LocalManifest P,
      (if m.kindsOk then .ok m else .error .validation : Except PyError (LocalManifest P)) ≠
        .error .overflow := by
    intro m
    split <;> intro h <;> cases h
  rw [bind_eq_error, or_iff_left (by rintro ⟨m, -, h⟩; exact hkinds m h)]
  unfold LocalManifest.validateFields
  split
  · rename_i fields
    simp only [map_eq_error, collect_overflow, k3Field_overflow]
    constructor
    · rintro (h | h | h | h | h | h | h | h)
      · exact absurd h (quiet_keyField.required _ _)
      · exact absurd h ((quiet_uuidField P).required _ _)
      · exact absurd h ((quiet_textField P _ _ _).required _ _)
      · exact absurd h ((quiet_textField P _ _ _).nullable.default _ _ _)
      · exact absurd h (quiet_digestField.nullable.default _ _ _)
      · exact h
      · exact absurd h (((quiet_localAttachment P).listOf _ _).required _ _)
      · exact absurd h (check_ne_overflow _)
    · exact fun h => .inr (.inr (.inr (.inr (.inr (.inl h)))))
  · rename_i hne
    constructor
    · intro h
      cases h
    · rintro ⟨t, ht, -⟩
      unfold processedAt at ht
      split at ht
      · exact absurd rfl (hne _)
      · cases ht

end processedAt

/-! ### The handlers of the connector -/

section handlers

variable {P : Platform} {α β : Type}

/-- Only the exit for invalid input. -/
def OnlyInvalid (x : Except Fault α) : Prop := ∀ f, x = .error f → f = .connector invalidInput

theorem OnlyInvalid.bind {x : Except Fault α} {f : α → Except Fault β} (hx : OnlyInvalid x)
    (hf : ∀ a, x = .ok a → OnlyInvalid (f a)) : OnlyInvalid (x >>= f) := by
  intro e he
  rcases bind_eq_error.mp he with h | ⟨a, ha, h⟩
  · exact hx e h
  · exact hf a ha e h

theorem onlyInvalid_ok (a : α) : OnlyInvalid (Except.ok a : Except Fault α) := nofun

theorem onlyInvalid_error :
    OnlyInvalid (Except.error (.connector invalidInput) : Except Fault α) := by
  intro f h
  cases h
  rfl

theorem onlyInvalid_expected (x : Option α) : OnlyInvalid (expected x) := by
  cases x with
  | none => exact onlyInvalid_error
  | some a => exact onlyInvalid_ok a

/-- No handler names the `OverflowError`. -/
theorem onlyInvalid_validated {x : Except PyError α} :
    OnlyInvalid (validated x) ↔ x ≠ .error .overflow := by
  constructor
  · rintro h rfl
    exact absurd (h .unexpected rfl) nofun
  · intro h
    cases x with
    | ok a => exact onlyInvalid_ok a
    | error e =>
        cases e with
        | validation => exact onlyInvalid_error
        | overflow => exact absurd rfl h

theorem plainStr_ne_overflow (t : Text) : ServerManifest.plainStr t ≠ .error .overflow :=
  boundedStr_ne_overflow _ _ _

theorem optionalStr_ne_overflow (minLength maxLength : Nat) (t : Option Text) :
    ServerManifest.optionalStr minLength maxLength t ≠ .error .overflow := by
  cases t with
  | none => nofun
  | some t => exact fun h => boundedStr_ne_overflow _ _ _ (map_eq_error.mp h)

theorem ServerAttachment.validate_ne_overflow (a : ServerAttachment) :
    a.validate ≠ .error .overflow := by
  unfold ServerAttachment.validate
  simp only [ne_eq, map_eq_error, collect_overflow]
  rintro (h | h | h | h)
  · rcases bind_eq_error.mp h with h | ⟨filename, -, h⟩
    · exact boundedStr_ne_overflow _ _ _ h
    · split at h <;> cases h
  · exact check_ne_overflow _ h
  · exact digest_ne_overflow _ h
  · exact mimeType_ne_overflow _ h

theorem ServerManifest.validate_ne_overflow (m : ServerManifest P) :
    m.validate ≠ .error .overflow := by
  unfold ServerManifest.validate
  intro h
  rcases bind_eq_error.mp h with h | ⟨⟨task, external, base, _⟩, -, h⟩
  · rcases collect_overflow.mp h with h | h
    · exact boundedStr_ne_overflow _ _ _ h
    rcases collect_overflow.mp h with h | h
    · exact optionalStr_ne_overflow _ _ _ h
    rcases collect_overflow.mp h with h | h
    · split at h
      · cases h
      · exact plainStr_ne_overflow _ (map_eq_error.mp h)
    · exact check_ne_overflow _ h
  · dsimp only at h
    split at h <;> cases h

theorem mapM_ne_overflow {f : α → Except PyError β} (hf : ∀ a, f a ≠ .error .overflow)
    (l : List α) : l.mapM f ≠ .error .overflow := by
  induction l with
  | nil => nofun
  | cons a l ih =>
      rw [List.mapM_cons]
      intro h
      rcases bind_eq_error.mp h with h | ⟨b, -, h⟩
      · exact hf a h
      · rcases bind_eq_error.mp h with h | ⟨bs, -, h⟩
        · exact ih h
        · cases h

theorem onlyInvalid_prepareAttachment (fs : FileSystem) (base : Text) (seen : List Text)
    (d : LocalAttachment P) : OnlyInvalid (prepareAttachment fs base seen d) := by
  unfold prepareAttachment
  refine (onlyInvalid_expected _).bind fun resolved _ => ?_
  split
  · exact onlyInvalid_error
  · refine (onlyInvalid_expected _).bind fun read _ => ?_
    refine (onlyInvalid_validated.mpr (ServerAttachment.validate_ne_overflow _)).bind fun a _ => ?_
    exact onlyInvalid_ok _

theorem onlyInvalid_prepareAttachments (fs : FileSystem) (base : Text) (seen : List Text)
    (ds : List (LocalAttachment P)) : OnlyInvalid (prepareAttachments fs base seen ds) := by
  induction ds generalizing seen with
  | nil => exact onlyInvalid_ok _
  | cons d ds ih =>
      refine (onlyInvalid_prepareAttachment fs base seen d).bind fun a _ => ?_
      exact (ih _).bind fun as _ => onlyInvalid_ok _

/-- The envelope that `prepare_manifest` reads, and the path it was found at. -/
def manifestJson (fs : FileSystem) (path : Text) : Except Fault (Text × Json) := do
  let manifestPath ← expected (fs.resolve path)
  let (st, serialized) ← expected (fs.readManifest manifestPath)
  if !st.isRegular || st.size < 1 || st.size > manifestInputMaxBytes || serialized.isEmpty ||
      serialized.length > manifestInputMaxBytes then
    .error (.connector invalidInput)
  else
    let raw ← expected (fs.loads serialized)
    .ok (manifestPath, raw)

theorem onlyInvalid_manifestJson (fs : FileSystem) (path : Text) :
    OnlyInvalid (manifestJson fs path) := by
  unfold manifestJson
  refine (onlyInvalid_expected _).bind fun manifestPath _ => ?_
  refine (onlyInvalid_expected _).bind fun (st, serialized) _ => ?_
  dsimp only
  split
  · exact onlyInvalid_error
  · exact (onlyInvalid_expected _).bind fun raw _ => onlyInvalid_ok _

/-- What `prepare_manifest` does with a valid envelope. -/
def prepareValid (fs : FileSystem) (manifestPath : Text) (m : LocalManifest P) :
    Except Fault (PreparedManifest P) := do
  let prepared ← prepareAttachments fs (fs.parent manifestPath) [] m.attachments
  let prepared := prepared.insertionSort PreparedAttachment.rankLe
  let attachments ← validated (prepared.mapM fun a => a.server.validate)
  let server ← validated <| ServerManifest.validate
    ⟨m.projectId, m.localTaskId.val, m.externalDocumentReference.map (·.val),
      m.baseSha256.map (·.val), m.k3Result, attachments⟩
  .ok ⟨manifestPath, m.idempotencyKey, server, prepared, P.sha256 server.canonicalBytes⟩

theorem onlyInvalid_prepareValid (fs : FileSystem) (manifestPath : Text) (m : LocalManifest P) :
    OnlyInvalid (prepareValid fs manifestPath m) := by
  refine (onlyInvalid_prepareAttachments _ _ _ _).bind fun prepared _ => ?_
  refine (onlyInvalid_validated.mpr (mapM_ne_overflow
    (fun a => ServerAttachment.validate_ne_overflow _) _)).bind fun attachments _ => ?_
  exact (onlyInvalid_validated.mpr (ServerManifest.validate_ne_overflow _)).bind
    fun server _ => onlyInvalid_ok _

theorem prepareManifest_eq (fs : FileSystem) (path : Text) :
    prepareManifest (P := P) fs path = manifestJson fs path >>= fun read =>
      validated (LocalManifest.validate P read.2) >>= prepareValid fs read.1 := by
  unfold prepareManifest manifestJson
  cases fs.resolve path with
  | none => rfl
  | some manifestPath =>
      simp only [expected, bind, Except.bind]
      cases fs.readManifest manifestPath with
      | none => rfl
      | some read =>
          dsimp only
          split
          · rfl
          · cases fs.loads read.2 <;> rfl

theorem onlyInvalid_prepareManifest {fs : FileSystem} {path : Text} :
    OnlyInvalid (prepareManifest (P := P) fs path) ↔
      ∀ manifestPath raw, manifestJson fs path = .ok (manifestPath, raw) →
        LocalManifest.validate P raw ≠ .error .overflow := by
  rw [prepareManifest_eq]
  constructor
  · intro h manifestPath raw hread
    rw [← onlyInvalid_validated]
    intro f hf
    exact h f (bind_eq_error.mpr (.inr ⟨_, hread, bind_eq_error.mpr (.inl hf)⟩))
  · intro h
    refine (onlyInvalid_manifestJson fs path).bind fun read hread => ?_
    exact (onlyInvalid_validated.mpr (h read.1 read.2 hread)).bind
      fun m _ => onlyInvalid_prepareValid fs read.1 m

/-! ### Normalized or rejected -/

/-- The same instant in UTC, or a validation error. -/
def Normalized (P : Platform) (t : Json) : Prop :=
  ∀ wall offset, P.parseDatetime t = some ⟨wall, some offset⟩ →
    (∃ m, datetimeField P t = .ok m ∧ m.val = wall - offset) ∨
      datetimeField P t = .error .validation

theorem normalized_iff {t : Json} : Normalized P t ↔ ¬Unconvertible P t := by
  constructor
  · rintro h ⟨wall, offset, ht, hrange⟩
    have hoverflow : datetimeField P t = .error .overflow :=
      datetimeField_overflow.mpr ⟨wall, offset, ht, hrange⟩
    rcases h wall offset ht with ⟨m, hm, -⟩ | hv
    · rw [hoverflow] at hm
      cases hm
    · rw [hoverflow] at hv
      cases hv
  · intro h wall offset ht
    have hrange : Instant.min ≤ wall - offset ∧ wall - offset ≤ Instant.max := by
      by_contra hn
      exact h ⟨wall, offset, ht, hn⟩
    refine .inl ⟨⟨wall - offset, hrange⟩, ?_, rfl⟩
    rw [datetimeField, ht]
    exact dif_pos hrange

end handlers

/-- A timestamp is normalized or rejected, a body is validated without an internal
error and a local manifest is prepared without leaving by anything but the exit for
invalid input, each exactly when the datetime can be shown in UTC. -/
theorem processedAt_normalized_iff (P : Platform) :
    (∀ t, Normalized P t ↔ ¬Unconvertible P t) ∧
      (∀ body, ImportJobCreate.validate P body ≠ .error .overflow ↔
        ∀ t, processedAt body = some t → ¬Unconvertible P t) ∧
      ∀ fs path, OnlyInvalid (prepareManifest (P := P) fs path) ↔
        ∀ manifestPath raw, manifestJson fs path = .ok (manifestPath, raw) →
          ∀ t, processedAt raw = some t → ¬Unconvertible P t := by
  refine ⟨fun t => normalized_iff, fun body => ?_, fun fs path => ?_⟩
  · rw [Ne, ImportJobCreate.validate_overflow]
    push Not
    rfl
  · simp only [onlyInvalid_prepareManifest, Ne, LocalManifest.validate_overflow, not_exists,
      not_and]

namespace Sample

open SuperBoss.Server.Sample (platform content)

/-- The last second of the last year, an hour behind UTC. -/
def lastSecond : Text := Text.ofString "9999-12-31T23:59:59-01:00"

/-- The sample platform with the timestamp above. -/
def lastSecondPlatform : Platform where
  __ := platform
  parseDatetime t :=
    if t = .str lastSecond then some ⟨Instant.max - 999999, some (Instant.hours (-1))⟩
    else platform.parseDatetime t
  parseDatetime_dump t hmin hmax := by
    have hne : Json.str (platform.dumpDatetime t) ≠ .str lastSecond := by
      rw [Ne, Json.str.injEq]
      by_cases ht : t = 0
      · subst ht
        decide
      · rw [show platform.dumpDatetime t = [Equiv.intEquivNat t] from if_neg ht]
        intro h
        have hlength : 1 = lastSecond.length := congrArg List.length h
        exact absurd hlength (by decide)
    rw [if_neg hne]
    exact platform.parseDatetime_dump t hmin hmax

def lateResult : Json :=
  .obj [Json.field "model_label" (.str (Text.ofString "model")),
    Json.field "processed_at" (.str lastSecond),
    Json.field "modification_details" (.arr []),
    Json.field "knowledge_points" (.arr []),
    Json.field "risks" (.arr [])]

def lateBody : Json :=
  .obj [Json.field "project_id" (.str (UUID.text 1)),
    Json.field "local_task_id" (.str (Text.ofString "task")),
    Json.field "k3_result" lateResult,
    Json.field "attachments" (.arr [
      .obj [Json.field "kind" (.str (Text.ofString "K3_RAW")),
        Json.field "filename" (.str (Text.ofString "task")),
        Json.field "size_bytes" (.int 3),
        Json.field "sha256" (.str SuperBoss.Server.Sample.digest),
        Json.field "content_type" (.str (Text.ofString "text/plain"))]])]

/-- The same in a local manifest. -/
def lateManifest : Json :=
  .obj [Json.field "idempotency_key" (.str (Text.ofString "create-key-00000001")),
    Json.field "project_id" (.str (UUID.text 1)),
    Json.field "local_task_id" (.str (Text.ofString "task")),
    Json.field "k3_result" lateResult,
    Json.field "attachments" (.arr [attachment .k3Raw "task"])]

def lateDirectory : FileSystem where
  __ := single
  loads _ := some lateManifest

end Sample

/-- A well-formed aware datetime at the end of the range is neither normalized nor
rejected: the server's validation and the connector's both leave by the exception. -/
theorem last_second_overflows :
    ¬Normalized Sample.lastSecondPlatform (.str Sample.lastSecond) ∧
      ImportJobCreate.validate Sample.lastSecondPlatform Sample.lateBody = .error .overflow ∧
      prepareManifest (P := Sample.lastSecondPlatform) Sample.lateDirectory
        (Text.ofString "manifest") = .error .unexpected := by
  have hparse : Sample.lastSecondPlatform.parseDatetime (.str Sample.lastSecond) =
      some ⟨Instant.max - 999999, some (Instant.hours (-1))⟩ := by
    simp only [Sample.lastSecondPlatform, if_true]
  have hlate : Unconvertible Sample.lastSecondPlatform (.str Sample.lastSecond) :=
    ⟨_, _, hparse, by decide⟩
  have hserver : processedAt Sample.lateBody = some (.str Sample.lastSecond) := by
    decide +kernel
  have hraw : processedAt Sample.lateManifest = some (.str Sample.lastSecond) := by
    decide +kernel
  have hread : manifestJson Sample.lateDirectory (Text.ofString "manifest") =
      .ok (Text.ofString "manifest", Sample.lateManifest) := by
    simp only [manifestJson, Sample.lateDirectory, Sample.single, Sample.directory, expected,
      bind, Except.bind]
    exact if_neg (by decide +kernel)
  refine ⟨fun h => normalized_iff.mp h hlate, ?_, ?_⟩
  · exact ImportJobCreate.validate_overflow.mpr ⟨_, hserver, hlate⟩
  · have hlocal := LocalManifest.validate_overflow.mpr ⟨_, hraw, hlate⟩
    rw [prepareManifest_eq, hread]
    simp only [bind, Except.bind, hlocal, validated]

end SuperBoss.Connector
