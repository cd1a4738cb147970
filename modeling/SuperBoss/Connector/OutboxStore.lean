import SuperBoss.Connector.Agreement
import SuperBoss.Connector.OutboxFile

/-!
The outbox of one origin: its documents, what is saved into them and what is
loaded from them, and the entry that a prepared manifest starts with.
-/

namespace SuperBoss.Connector

open SuperBoss.Core
open SuperBoss.Library.Framing
open SuperBoss.Imports

/-- The `*.json` files of `origin_dir`, by name. -/
abbrev Documents := List (Text × Bytes)

namespace Documents

/-- `os.replace` of a temporary file that holds the bytes. -/
def write (docs : Documents) (name : Text) (serialized : Bytes) : Documents :=
  docs.filter (fun d => decide (d.1 ≠ name)) ++ [(name, serialized)]

/-- `Path.unlink`. -/
def remove (docs : Documents) (name : Text) : Documents :=
  docs.filter fun d => decide (d.1 ≠ name)

end Documents

/-- The name of `path_for`. -/
def pathFor (P : Platform) (idempotencyKey : Text) : Text :=
  P.sha256 (idempotencyKey.utf8.getD []) ++ Text.ofString ".json"

section store

variable (P : Platform)

/-- `_all_documents`. -/
def allDocuments (docs : Documents) : Except ConnectorError (List (Text × OutboxEntry)) :=
  match docs.mapM fun d => (readEntry P d.2).map fun e => (d.1, e) with
  | some entries => .ok entries
  | none => .error outboxInvalid

/-- `load_optional`. -/
def loadOptional (origin : Text) (docs : Documents) :
    Except ConnectorError (Option (Text × OutboxEntry)) := do
  match ← allDocuments P docs with
  | [] => .ok none
  | [(name, entry)] =>
      if entry.normalizedOrigin ≠ origin then .error outboxInvalid
      else if name ≠ pathFor P entry.idempotencyKey then .error outboxInvalid
      else .ok (some (name, entry))
  | _ => .error outboxInvalid

variable {P}

/-- The entry with the time of a save. -/
def OutboxEntry.stamp (e : OutboxEntry) (now : Moment) : OutboxEntry :=
  { e with updatedAt := now.val }

/-- `OutboxStore.save` when the operating system does its part. -/
def save (T : Timestamps P) (docs : Documents) (name : Text) (e : OutboxEntry) (now : Moment) :
    Except ConnectorError Documents :=
  match serialize T (e.stamp now) with
  | some serialized => .ok (docs.write name serialized)
  | none => .error outboxInvalid

/-- `OutboxEntry(...)`: the validators see the values of the arguments, which
are those of their JSON. -/
def OutboxEntry.construct (T : Timestamps P) (e : OutboxEntry) : Except PyError OutboxEntry :=
  OutboxEntry.validate P (e.dump T)

/-- `initial_entry` with the validators of the models that it builds. -/
def validatedInitialEntry (T : Timestamps P) (origin : Text) (m : PreparedManifest P) (now : Moment) :
    Except PyError OutboxEntry :=
  OutboxEntry.construct T (initialEntry origin m now.val)

end store

/-! ### Loading what was saved -/

section load

variable {P : Platform} {T : Timestamps P}

theorem loadOptional_eq_ok {origin : Text} {docs : Documents} {name : Text} {e : OutboxEntry} :
    loadOptional P origin docs = .ok (some (name, e)) ↔
      ∃ b, docs = [(name, b)] ∧ readEntry P b = some e ∧ e.normalizedOrigin = origin ∧
        name = pathFor P e.idempotencyKey := by
  constructor
  · intro h
    obtain ⟨entries, hall, h⟩ := bind_eq_ok.mp h
    unfold allDocuments at hall
    split at hall
    · rename_i entries' hmap
      cases hall
      split at h
      · cases h
      · rename_i name' e'
        split at h
        · cases h
        · rename_i horigin
          split at h
          · cases h
          · rename_i hname
            cases h
            match docs with
            | [] => cases hmap
            | [d] =>
                rw [List.mapM_cons, List.mapM_nil] at hmap
                obtain ⟨x, hx, hmap⟩ := Option.bind_eq_some_iff.mp hmap
                cases hmap
                obtain ⟨e'', hread, heq⟩ := Option.map_eq_some_iff.mp hx
                cases heq
                exact ⟨d.2, rfl, hread, not_not.mp horigin, not_not.mp hname⟩
            | d :: d' :: ds =>
                rw [List.mapM_cons, List.mapM_cons] at hmap
                obtain ⟨x, -, hmap⟩ := Option.bind_eq_some_iff.mp hmap
                obtain ⟨xs, hxs, hmap⟩ := Option.bind_eq_some_iff.mp hmap
                obtain ⟨y, -, hxs⟩ := Option.bind_eq_some_iff.mp hxs
                obtain ⟨ys, -, hxs⟩ := Option.bind_eq_some_iff.mp hxs
                cases hxs
                cases hmap
      · cases h
    · cases hall
  · rintro ⟨b, rfl, hread, rfl, rfl⟩
    simp [loadOptional, allDocuments, hread, bind, Except.bind]

theorem Documents.write_eq_singleton {docs : Documents} {name : Text} {b : Bytes}
    {d : Text × Bytes} : docs.write name b = [d] ↔ (∀ x ∈ docs, x.1 = name) ∧ d = (name, b) := by
  unfold write
  constructor
  · intro h
    have hlength : (docs.filter fun x => decide (x.1 ≠ name)).length = 0 := by
      have hcount := congrArg List.length h
      rw [List.length_append, List.length_singleton, List.length_singleton] at hcount
      omega
    rw [List.eq_nil_of_length_eq_zero hlength, List.nil_append] at h
    refine ⟨fun x hx => ?_, (List.singleton_inj.mp h).symm⟩
    have hnone := List.filter_eq_nil_iff.mp (List.eq_nil_of_length_eq_zero hlength) x hx
    simpa using hnone
  · rintro ⟨hall, rfl⟩
    have hnil : docs.filter (fun x => decide (x.1 ≠ name)) = [] := by
      rw [List.filter_eq_nil_iff]
      intro x hx
      simpa using hall x hx
    rw [hnil, List.nil_append]

/-- A list is its image when each of its items is. -/
theorem map_eq_self_iff {α : Type} {f : α → α} {l : List α} : l.map f = l ↔ ∀ a ∈ l, f a = a := by
  nth_rewrite 2 [← List.map_id l]
  exact List.map_inj_left

theorem AttachmentState.strip_eq_self {a : AttachmentState} :
    a.strip = a ↔ ∀ p ∈ a.completedParts, stripEtag p.etag = p.etag := by
  have hpart : ∀ p : CompletedPart, p.strip = p ↔ stripEtag p.etag = p.etag := fun p =>
    ⟨congrArg CompletedPart.etag, fun h => by rw [CompletedPart.strip, h]⟩
  rw [← forall₂_congr fun p _ => hpart p, ← map_eq_self_iff]
  exact ⟨congrArg AttachmentState.completedParts, fun h => by rw [strip, h]⟩

/-- The ETags of the entry have no white space at their ends, as `CompletedPart`
returns them. -/
def OutboxEntry.Stripped (e : OutboxEntry) : Prop :=
  ∀ a ∈ e.attachments, ∀ p ∈ a.completedParts, stripEtag p.etag = p.etag

theorem OutboxEntry.strip_eq_self {e : OutboxEntry} : e.strip = e ↔ e.Stripped := by
  rw [Stripped, ← forall₂_congr fun a _ => AttachmentState.strip_eq_self, ← map_eq_self_iff]
  exact ⟨congrArg OutboxEntry.attachments, fun h => by rw [strip, h]⟩

/-- A saved entry is loaded again as it was exactly when it is the one document
of its own origin, under the name of its key, and its JSON keeps to the reader's
limit. -/
theorem loadOptional_save {origin name : Text} {docs docs' : Documents} {e : OutboxEntry}
    {now : Moment} (h : save T docs name e now = .ok docs') :
    loadOptional P origin docs' = .ok (some (name, e.stamp now)) ↔
      e.normalizedOrigin = origin ∧ name = pathFor P e.idempotencyKey ∧
        (∀ d ∈ docs, d.1 = name) ∧ e.Stripped ∧
        ∀ b ∈ ((e.stamp now).dump T).jsonBytes Json.compact, b.length ≤ localStateMaxBytes := by
  unfold save at h
  split at h
  · rename_i b hserialize
    cases h
    obtain ⟨hok, hread⟩ := readEntry_serialize (e := e.stamp now) now.property hserialize
    have hstripped : (e.stamp now).strip = e.stamp now ↔ e.Stripped := OutboxEntry.strip_eq_self
    -- For a stripped entry the written bytes are those of its own dump.
    have hbytes : (e.stamp now).strip = e.stamp now →
        ((e.stamp now).dump T).jsonBytes Json.compact = some b := by
      intro hstrip
      have hvalid := OutboxEntry.validate_dump T Json.reorders_id hok
      rw [hstrip, id_eq] at hvalid
      rw [serialize, hvalid] at hserialize
      exact hserialize
    rw [loadOptional_eq_ok]
    constructor
    · rintro ⟨b', hdocs, hload, horigin, hname⟩
      obtain ⟨hall, hb⟩ := Documents.write_eq_singleton.mp hdocs
      cases hb
      rw [hread] at hload
      split at hload
      · rename_i hlength
        have hstrip := Option.some.inj hload
        refine ⟨horigin, hname, hall, hstripped.mp hstrip, fun b' hb' => ?_⟩
        rw [hbytes hstrip] at hb'
        cases hb'
        exact hlength
      · cases hload
    · rintro ⟨horigin, hname, hall, hclean, hlength⟩
      have hstrip := hstripped.mpr hclean
      refine ⟨b, Documents.write_eq_singleton.mpr ⟨hall, rfl⟩, ?_, horigin, hname⟩
      rw [hread, if_pos (hlength b (hbytes hstrip)), hstrip]
  · cases h

end load

/-! ### Starting from a prepared manifest -/

section start

variable {P : Platform}

/-- What preparing leaves in an attachment: a checked name and size, and hashes of
one reading of the file. -/
structure PreparedAttachment.Hashed (P : Platform) (a : PreparedAttachment) : Prop where
  filename : StateText 1 1024 a.filename
  size : 1 ≤ a.sizeBytes ∧ a.sizeBytes ≤ attachmentMaxBytes
  content : ∃ content, a.sha256 = P.sha256 content ∧
    a.partSha256s = (slices partSize content).map P.sha256

theorem hashed_of_prepareAttachment {fs : FileSystem} {base : Text} {seen : List Text}
    {d : LocalAttachment P} {a : PreparedAttachment}
    (h : prepareAttachment fs base seen d = .ok a) : a.Hashed P := by
  obtain ⟨resolved, -, h⟩ := bind_eq_ok.mp h
  split at h
  · cases h
  · obtain ⟨⟨size, sha256, parts⟩, hhash, h⟩ := bind_eq_ok.mp h
    obtain ⟨b, hb, h⟩ := bind_eq_ok.mp h
    cases h
    obtain ⟨r, -, hhash⟩ := Option.bind_eq_some_iff.mp (expected_eq_ok.mp hhash)
    split at hhash
    · rename_i hstat
      cases hhash
      obtain ⟨⟨filename, _, digest, mime⟩, hparts, rfl⟩ :=
        map_eq_ok.mp (validated_eq_ok.mp hb)
      obtain ⟨hname, -⟩ := collect_eq_ok.mp hparts
      obtain ⟨name, hbounded, hsafe⟩ := bind_eq_ok.mp hname
      obtain ⟨rfl, hencodable, hmin, hmax⟩ := boundedStr_eq_ok.mp hbounded
      split at hsafe
      · rename_i hcheck
        cases hsafe
        exact ⟨⟨⟨hencodable, hmin, hmax⟩, safeText.sound hcheck⟩, ⟨hstat.2.1, hstat.2.2.1⟩,
          r.content, rfl, rfl⟩
      · cases hsafe
    · cases hhash

theorem hashed_of_prepareAttachments {fs : FileSystem} {base : Text} {seen : List Text}
    {ds : List (LocalAttachment P)} {as : List PreparedAttachment}
    (h : prepareAttachments fs base seen ds = .ok as) : ∀ a ∈ as, a.Hashed P := by
  induction ds generalizing seen as with
  | nil =>
      cases h
      exact List.forall_mem_nil _
  | cons d ds ih =>
      obtain ⟨a, ha, h⟩ := bind_eq_ok.mp h
      obtain ⟨as', has, h⟩ := bind_eq_ok.mp h
      cases h
      exact List.forall_mem_cons.mpr ⟨hashed_of_prepareAttachment ha, ih has⟩

theorem safeKey_of_keyField {j : Json} {key : Text} (h : keyField j = .ok key) : SafeKey key := by
  unfold keyField at h
  split at h
  · split at h
    · rename_i t hprintable
      obtain ⟨rfl, -, hmin, hmax⟩ := boundedStr_eq_ok.mp h
      refine ⟨⟨hmin, hmax⟩, ?_⟩
      rw [List.all_eq_true] at hprintable ⊢
      exact fun c hc => hprintable.2 c ((Text.strip_isInfix t).subset hc)
    · cases h
  · cases h

/-- What `prepare_manifest` leaves for an entry. -/
structure PreparedManifest.Hashed (m : PreparedManifest P) : Prop where
  key : SafeKey m.idempotencyKey
  attachments : ∀ a ∈ m.attachments, a.Hashed P
  kinds : (m.attachments.map (·.kind)).Nodup
  length : 1 ≤ m.attachments.length ∧ m.attachments.length ≤ 3

theorem hashed_of_prepareManifest {fs : FileSystem} {path : Text} {m : PreparedManifest P}
    (h : prepareManifest P fs path = .ok m) : m.Hashed := by
  obtain ⟨⟨described, hdescribed⟩, hkinds, -⟩ := prepared_of_prepareManifest h
  have hmkinds : described.kinds = m.attachments.map (·.kind) := hdescribed.kinds.trans hkinds
  have hlength : described.attachments.length = m.attachments.length := by
    have hcount := congrArg List.length hmkinds
    rwa [ManifestFields.kinds, List.length_map, List.length_map] at hcount
  obtain ⟨manifestPath, -, h⟩ := bind_eq_ok.mp h
  obtain ⟨⟨st, serialized⟩, -, h⟩ := bind_eq_ok.mp h
  simp only at h
  split at h
  · cases h
  obtain ⟨raw, -, h⟩ := bind_eq_ok.mp h
  obtain ⟨envelope, henvelope, h⟩ := bind_eq_ok.mp h
  obtain ⟨prepared, hprepared, h⟩ := bind_eq_ok.mp h
  obtain ⟨attachments, -, h⟩ := bind_eq_ok.mp h
  obtain ⟨server, -, h⟩ := bind_eq_ok.mp h
  cases h
  have hperm := List.perm_insertionSort PreparedAttachment.rankLe prepared
  have hkey : SafeKey envelope.idempotencyKey := by
    obtain ⟨fields, hfields, hvalid⟩ := bind_eq_ok.mp (validated_eq_ok.mp henvelope)
    split at hvalid
    · cases hvalid
      unfold LocalManifest.validateFields at hfields
      split at hfields
      · obtain ⟨⟨key, _⟩, hparts, rfl⟩ := map_eq_ok.mp hfields
        obtain ⟨hkey, -⟩ := collect_eq_ok.mp hparts
        unfold requiredField at hkey
        split at hkey
        · cases hkey
        · exact safeKey_of_keyField hkey
      · cases hfields
    · cases hvalid
  refine ⟨hkey, fun a ha => ?_, hmkinds ▸ described.kindsNodup, ?_⟩
  · exact hashed_of_prepareAttachments hprepared a (hperm.mem_iff.mp ha)
  · have hpos := List.length_pos_iff.mpr described.attachments_ne_nil
    have hle := ImportJobCreate.kinds_length_le described.toManifestFields described.kindsNodup
    rw [hlength] at hpos hle
    exact ⟨hpos, hle⟩

/-- What an entry asks of a prepared manifest that preparing does not check. -/
structure PreparedManifest.Storable (m : PreparedManifest P) : Prop where
  path : StateText 1 pathMaxChars m.path
  attachments : ∀ a ∈ m.attachments, StateText 1 pathMaxChars a.path ∧
    StateText 1 255 a.contentType ∧
    a.partSha256s.length = (a.sizeBytes + partSize - 1) / partSize

theorem AttachmentState.ofPrepared_ok (hdigest : ∀ b, Text.isDigest (P.sha256 b) = true)
    {a : PreparedAttachment} (h : a.Hashed P) (hpath : StateText 1 pathMaxChars a.path)
    (htype : StateText 1 255 a.contentType)
    (hparts : a.partSha256s.length = (a.sizeBytes + partSize - 1) / partSize) :
    (AttachmentState.ofPrepared a).Ok := by
  obtain ⟨content, hsha256, hdigests⟩ := h.content
  have hall : ∀ d ∈ a.partSha256s, Text.isDigest d = true := by
    intro d hd
    rw [hdigests] at hd
    obtain ⟨s, -, rfl⟩ := List.mem_map.mp hd
    exact hdigest s
  have hcount : 1 ≤ a.partSha256s.length ∧ a.partSha256s.length ≤ 13 := by
    have hsize := h.size
    simp only [hparts, partSize, attachmentMaxBytes] at hsize ⊢
    omega
  exact {
    path := hpath
    filename := h.filename
    size := h.size
    sha256 := show Text.isDigest a.sha256 = true from hsha256 ▸ hdigest content
    parts := ⟨hcount, hall⟩
    contentType := htype
    completed := List.forall_mem_nil _
    consistent := ⟨⟨Iff.rfl, Iff.rfl⟩, List.nodup_nil, List.Pairwise.nil, List.forall_mem_nil _,
      hparts, nofun⟩ }

/-- `initial_entry` succeeds exactly on the manifests whose paths and content types
are texts that the entry takes, and whose sizes agree with their part digests. -/
theorem validatedInitialEntry_iff (T : Timestamps P) (hdigest : ∀ b, Text.isDigest (P.sha256 b) = true)
    {fs : FileSystem} {path : Text} {m : PreparedManifest P}
    (h : prepareManifest P fs path = .ok m) (origin : Text) (now : Moment) :
    (∃ e, validatedInitialEntry T origin m now = .ok e) ↔ StateText 1 4096 origin ∧ m.Storable := by
  constructor
  · rintro ⟨e, he⟩
    obtain ⟨rfl, hok⟩ := OutboxEntry.ok_of_validate (e := initialEntry origin m now.val)
      now.property he
    refine ⟨hok.origin, hok.path, fun a ha => ?_⟩
    have hmem : (AttachmentState.ofPrepared a).strip ∈
        (initialEntry origin m now.val).strip.attachments :=
      List.mem_map_of_mem (List.mem_map_of_mem ha)
    have hattachment := hok.attachments.2 _ hmem
    exact ⟨hattachment.path, hattachment.contentType, hattachment.consistent.2.2.2.2.1⟩
  · rintro ⟨horigin, hstorable⟩
    have hm := hashed_of_prepareManifest h
    have hfingerprint : m.fingerprint = P.sha256 m.server.canonicalBytes :=
      (prepared_of_prepareManifest h).fingerprint
    have hkinds : (initialEntry origin m now.val).attachments.map (·.kind) =
        m.attachments.map (·.kind) := by
      rw [initialEntry, List.map_map]
      rfl
    have hfresh : ∀ a ∈ (initialEntry origin m now.val).attachments,
        a.attachmentId = none ∧ a.completedParts = [] ∧ a.completed = false := by
      intro a ha
      obtain ⟨p, -, rfl⟩ := List.mem_map.mp ha
      exact ⟨rfl, rfl, rfl⟩
    have hok : (initialEntry origin m now.val).Ok := {
      origin := horigin
      key := hm.key
      path := hstorable.path
      fingerprint := show Text.isDigest m.fingerprint = true from hfingerprint ▸ hdigest _
      attachments := by
        refine ⟨by simpa [initialEntry] using hm.length, fun a ha => ?_⟩
        obtain ⟨p, hp, rfl⟩ := List.mem_map.mp ha
        obtain ⟨hpath, htype, hparts⟩ := hstorable.attachments p hp
        exact AttachmentState.ofPrepared_ok hdigest (hm.attachments p hp) hpath htype hparts
      evidence := fun v hv => by simp [initialEntry] at hv
      dated := now.property
      consistent := ⟨hkinds ▸ hm.kinds, fun _ => ⟨rfl, hfresh⟩, fun hphase => absurd rfl hphase,
        nofun, nofun, fun _ => rfl⟩ }
    exact ⟨_, OutboxEntry.validate_dump T Json.reorders_id hok⟩

/-- When an operation can be started, and when what was saved of it is loaded
again. -/
theorem outbox_round_trip_iff (T : Timestamps P)
    (hdigest : ∀ b, Text.isDigest (P.sha256 b) = true) :
    (∀ fs path m, prepareManifest P fs path = .ok m → ∀ origin now,
      (∃ e, validatedInitialEntry T origin m now = .ok e) ↔ StateText 1 4096 origin ∧ m.Storable) ∧
    ∀ origin name docs docs' e now, save T docs name e now = .ok docs' →
      (loadOptional P origin docs' = .ok (some (name, e.stamp now)) ↔
        e.normalizedOrigin = origin ∧ name = pathFor P e.idempotencyKey ∧
          (∀ d ∈ docs, d.1 = name) ∧ e.Stripped ∧
          ∀ b ∈ ((e.stamp now).dump T).jsonBytes Json.compact, b.length ≤ localStateMaxBytes) :=
  ⟨fun _ _ _ hm origin now => validatedInitialEntry_iff T hdigest hm origin now,
    fun _ _ _ _ _ _ hsave => loadOptional_save hsave⟩

end start

/-! ### Sample outboxes -/

namespace Sample

/-- The sample platform with every datetime spelled by two characters. -/
def clocked : Platform :=
  { Server.Sample.platform with
    parseDatetime
      | .str t =>
          if t = Text.ofString "1970-01-01T00:00:00Z" then some ⟨0, some 0⟩
          else
            match t with
            | [wall, offset] =>
                some ⟨Equiv.intEquivNat.symm wall, some (Equiv.intEquivNat.symm offset)⟩
            | _ => none
      | _ => none
    dumpDatetime := fun t => [Equiv.intEquivNat t, Equiv.intEquivNat 0]
    parseDatetime_dump := fun t _ _ => by simp [Text.ofString] }

def timestamps : Timestamps clocked where
  dump d := [Equiv.intEquivNat d.wall, Equiv.intEquivNat d.offset]
  parse_dump d := by simp [clocked, Text.ofString]

/-- The files of a directory whose path is the given one. -/
def within (path : Text) (fs : FileSystem) : FileSystem :=
  { fs with
    resolve := fun p => some (if path.isPrefixOf p then p else path ++ p)
    parent := fun _ => path
    name := fun p => p.drop path.length
    isAbsolute := fun p => p.head? == some 47
    join := fun base p => base ++ p
    isRelativeTo := fun p base => base.isPrefixOf p }

theorem epoch_dated : Instant.min ≤ 0 ∧ 0 ≤ Instant.max := by decide

def epoch : Moment := ⟨0, epoch_dated⟩

/-- The single manifest in a directory, with its entry and the outbox after a save. -/
def started (path : String) : Option (PreparedManifest clocked × OutboxEntry × Documents) := do
  let m ← (prepareManifest clocked (within (Text.ofString path) single)
    (Text.ofString "manifest")).toOption
  let e ← (validatedInitialEntry timestamps (Text.ofString "https://k3.example") m epoch).toOption
  let docs ← (save timestamps [] (pathFor clocked e.idempotencyKey) e epoch).toOption
  some (m, e, docs)

theorem save_of_started {path : String} {m : PreparedManifest clocked} {e : OutboxEntry}
    {docs : Documents} (h : started path = some (m, e, docs)) :
    save timestamps [] (pathFor clocked e.idempotencyKey) e epoch = .ok docs := by
  simp only [started, Option.bind_eq_bind, Option.bind_eq_some_iff] at h
  obtain ⟨m', -, e', -, docs', hsave, h⟩ := h
  cases h
  exact ok_of_toOption hsave

/-- The conditions of a round trip, on an entry without parts. -/
def keepsTo (e : OutboxEntry) : Bool :=
  decide (e.normalizedOrigin = Text.ofString "https://k3.example") &&
    (decide (∀ a ∈ e.attachments, a.completedParts = []) &&
      decide (∀ b ∈ ((e.stamp epoch).dump timestamps).jsonBytes Json.compact,
        b.length ≤ localStateMaxBytes))

theorem of_keepsTo {e : OutboxEntry} (h : keepsTo e = true) :
    e.normalizedOrigin = Text.ofString "https://k3.example" ∧
      (∀ a ∈ e.attachments, a.completedParts = []) ∧
        ∀ b ∈ ((e.stamp epoch).dump timestamps).jsonBytes Json.compact,
          b.length ≤ localStateMaxBytes := by
  simpa only [keepsTo, Bool.and_eq_true, decide_eq_true_eq] using h

end Sample

/-- The entry of the single manifest is loaded again. -/
theorem outbox_round_trip_single :
    ∃ m e docs, Sample.started "/home/user/K3/" = some (m, e, docs) ∧
      loadOptional Sample.clocked (Text.ofString "https://k3.example") docs =
        .ok (some (pathFor Sample.clocked e.idempotencyKey, e.stamp Sample.epoch)) := by
  have hrun : ((Sample.started "/home/user/K3/").map fun x => Sample.keepsTo x.2.1) =
      some true := by decide +kernel
  obtain ⟨⟨m, e, docs⟩, hstarted, hchecks⟩ := Option.map_eq_some_iff.mp hrun
  obtain ⟨horigin, hparts, hlength⟩ := Sample.of_keepsTo hchecks
  have hsave := Sample.save_of_started hstarted
  have hdigest : ∀ b, Text.isDigest (Sample.clocked.sha256 b) = true := by
    intro b
    show Text.isDigest (if b = Server.Sample.content then _ else _) = true
    split <;> decide
  refine ⟨m, e, docs, hstarted, ((outbox_round_trip_iff Sample.timestamps hdigest).2 _ _ _ _ _ _
    hsave).mpr ⟨horigin, rfl, List.forall_mem_nil _, fun a ha p hp => ?_,
      hlength⟩⟩
  rw [hparts a ha] at hp
  cases hp

/-- A manifest in a directory whose name has a tab is prepared, with paths well
within the limit, and no entry can be made of it. -/
theorem tabbed_manifest_not_started :
    ∃ m, prepareManifest Sample.clocked
        (Sample.within (Text.ofString "/home/user/K3\t/") Sample.single)
          (Text.ofString "manifest") = .ok m ∧
      (m.path.length ≤ 32767 ∧ ∀ a ∈ m.attachments, a.path.length ≤ 32767) ∧
      validatedInitialEntry Sample.timestamps (Text.ofString "https://k3.example") m Sample.epoch =
        .error .validation := by
  have hrun : ((prepareManifest Sample.clocked
      (Sample.within (Text.ofString "/home/user/K3\t/") Sample.single)
        (Text.ofString "manifest")).toOption.map fun m => decide
      ((m.path.length ≤ 32767 ∧ ∀ a ∈ m.attachments, a.path.length ≤ 32767) ∧
        validatedInitialEntry Sample.timestamps (Text.ofString "https://k3.example") m Sample.epoch =
          .error .validation)) = some true := by decide +kernel
  obtain ⟨m, hm, hchecks⟩ := Option.map_eq_some_iff.mp hrun
  exact ⟨m, ok_of_toOption hm, of_decide_eq_true hchecks⟩

end SuperBoss.Connector
