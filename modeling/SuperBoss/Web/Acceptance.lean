import SuperBoss.Web.Agreement
import SuperBoss.Web.Uploads

/-!
Which requests of the uploader and of `filesApi` the server takes.
-/

namespace SuperBoss.Web

open SuperBoss.Core
open SuperBoss.Files

variable {dateParse : Text → Option Int}

/-! ### The key -/

theorem hexDigit_range {n : Nat} (h : n < 16) :
    33 ≤ (hexDigit n).toNat ∧ (hexDigit n).toNat ≤ 126 := by
  unfold hexDigit
  rw [UInt16.toNat_ofNat_of_lt']
  · split <;> omega
  · change _ < 65536
    split <;> omega

theorem mem_hex {buffer : Bytes} {c : UInt16} (h : c ∈ hex buffer) :
    33 ≤ c.toNat ∧ c.toNat ≤ 126 := by
  obtain ⟨byte, -, hc⟩ := List.mem_flatMap.mp h
  have hbyte := byte.toNat_lt
  rcases List.mem_cons.mp hc with rfl | hc
  · exact hexDigit_range (by omega)
  · rw [List.mem_singleton.mp hc]
    exact hexDigit_range (by omega)

theorem length_hex (buffer : Bytes) : (hex buffer).length = 2 * buffer.length := by
  induction buffer with
  | nil => rfl
  | cons byte buffer ih =>
      change (hex buffer).length + 2 = _
      rw [ih, List.length_cons]
      omega

theorem file_range : ∀ c ∈ JsString.ofString "file-", 33 ≤ c.toNat ∧ c.toNat ≤ 126 := by
  intro c hc
  obtain ⟨a, ha, rfl⟩ := List.mem_map.mp hc
  have hchars : a = 'f' ∨ a = 'i' ∨ a = 'l' ∨ a = 'e' ∨ a = '-' := by simpa using ha
  rcases hchars with rfl | rfl | rfl | rfl | rfl <;> decide

/-- The key of the uploader is one that `filesApi` takes. -/
theorem isIdempotencyKey_uploadIdempotencyKey (digest : Bytes → Vector UInt8 32)
    (command : UploadCommand) (sha256 : JsString) :
    isIdempotencyKey (uploadIdempotencyKey digest command sha256) = true := by
  have hchars : ∀ c ∈ uploadIdempotencyKey digest command sha256,
      33 ≤ c.toNat ∧ c.toNat ≤ 126 := by
    intro c hc
    rcases List.mem_append.mp hc with hprefix | hdigest
    · exact file_range c hprefix
    · exact mem_hex hdigest
  have hlength : (uploadIdempotencyKey digest command sha256).length = 69 := by
    rw [uploadIdempotencyKey, List.length_append, length_hex, Vector.length_toList]
    rfl
  have hunits : (uploadIdempotencyKey digest command sha256).codePoints =
      (uploadIdempotencyKey digest command sha256).units := by
    refine codePoints_of_ascii fun q hq => ?_
    obtain ⟨c, hc, rfl⟩ := List.mem_map.mp hq
    have := hchars c hc
    omega
  simp only [isIdempotencyKey, hlength, hunits, Bool.and_eq_true, decide_eq_true_eq]
  refine ⟨by omega, List.all_eq_true.mpr fun q hq => ?_⟩
  obtain ⟨c, hc, rfl⟩ := List.mem_map.mp hq
  simpa using hchars c hc

/-! ### Commands -/

/-- A command that `canonicalCommand` takes passes the checks of `canonicalStart`. -/
theorem canonicalStart_of_canonicalCommand {value command : UploadCommand} {sha256 : JsString}
    (h : canonicalCommand dateParse value = .ok command) (hsha : isDigest sha256 = true) :
    command = value ∧
      canonicalStart dateParse (command.start sha256) = some (command.start sha256) := by
  unfold canonicalCommand at h
  split at h
  · cases h
  · rename_i hvalid
    split at h
    · cases h
    · rename_i hpos
      split at h
      · cases h
      · rename_i hmax
        split at h
        · rename_i hcontent
          obtain rfl := Except.ok.inj h
          obtain ⟨hname, -, -, hcategory, hdate, hproject⟩ := not_not.mp hvalid
          have hsize : (1 : Int) ≤ value.file.size ∧
              (value.file.size : Int) ≤ attachmentMaxBytes := by
            constructor <;> omega
          have hsafe : -maxSafeInteger ≤ (value.file.size : Int) ∧
              (value.file.size : Int) ≤ maxSafeInteger := by
            unfold maxSafeInteger
            have hbound : (attachmentMaxBytes : Int) = 100 * 1024 * 1024 := rfl
            constructor <;> omega
          exact ⟨rfl, if_pos ⟨hproject, hname, hsafe, hsize.1, hsize.2, hsha, hcategory, hdate,
            hcontent⟩⟩
        · cases h

/-- What `filesApi.start` posts is the command and the key. -/
theorem eq_of_postStart {command : FileUploadStart} {key : JsString} {body : StartBody}
    {header : Text} (h : postStart dateParse command key = some (body, header)) :
    canonicalStart dateParse command = some command ∧ isIdempotencyKey key = true ∧
      body = command.body ∧ header = key.codePoints := by
  obtain ⟨canonical, hcanonical, hpost⟩ := Option.bind_eq_some_iff.mp h
  have heq : canonical = command := by
    unfold canonicalStart at hcanonical
    split at hcanonical
    · exact (Option.some.inj hcanonical).symm
    · cases hcanonical
  rw [heq] at hcanonical hpost
  split at hpost
  · rename_i hkey
    cases hpost
    exact ⟨hcanonical, hkey, rfl, rfl⟩
  · cases hpost

/-- The request of an upload. -/
theorem postStart_of_canonicalCommand {value command : UploadCommand} {sha256 : JsString}
    (digest : Bytes → Vector UInt8 32) (h : canonicalCommand dateParse value = .ok command)
    (hsha : isDigest sha256 = true) :
    postStart dateParse (command.start sha256) (uploadIdempotencyKey digest command sha256) =
      some ((command.start sha256).body,
        (uploadIdempotencyKey digest command sha256).codePoints) := by
  obtain ⟨-, hstart⟩ := canonicalStart_of_canonicalCommand h hsha
  rw [postStart, hstart, Option.bind_some,
    if_pos (isIdempotencyKey_uploadIdempotencyKey digest command sha256)]

/-! ### Parts -/

theorem etags_of_canonicalPartsFrom {seen : List Int} {parts canonical : List FilePart}
    (h : canonicalPartsFrom seen parts = some canonical) :
    canonical.map (·.etag) = parts.map fun part => part.etag.trim := by
  induction parts generalizing seen canonical with
  | nil =>
      cases h
      rfl
  | cons part parts ih =>
      obtain ⟨first, hfirst, h⟩ := Option.bind_eq_some_iff.mp h
      obtain ⟨others, hothers, h⟩ := Option.bind_eq_some_iff.mp h
      cases h
      rw [List.map_cons, List.map_cons, ih hothers]
      refine congrArg (· :: _) ?_
      unfold canonicalPart at hfirst
      split at hfirst
      · dsimp only at hfirst
        split at hfirst
        · cases hfirst
        · cases hfirst
          rfl
      · cases hfirst

/-- The ETags of `canonicalParts` are those of its argument, trimmed. -/
theorem forall_etag_of_canonicalParts {parts canonical : List FilePart}
    (h : canonicalParts parts = some canonical) (p : JsString → Prop) :
    (∀ part ∈ canonical, p part.etag) ↔ ∀ part ∈ parts, p part.etag.trim := by
  unfold canonicalParts at h
  split at h
  · obtain ⟨checked, hchecked, rfl⟩ := Option.map_eq_some_iff.mp h
    have hetags := etags_of_canonicalPartsFrom hchecked
    have hperm := List.perm_insertionSort
      (fun left right : FilePart => left.partNumber ≤ right.partNumber) checked
    calc (∀ part ∈ checked.insertionSort _, p part.etag)
        ↔ ∀ part ∈ checked, p part.etag := by simp only [hperm.mem_iff]
      _ ↔ ∀ etag ∈ checked.map (·.etag), p etag := List.forall_mem_map.symm
      _ ↔ ∀ part ∈ parts, p part.etag.trim := by rw [hetags, List.forall_mem_map]
  · cases h

/-! ### Requests -/

/-- A request of `filesApi.start` carries a key of the form the server asks for, and the
server takes its body exactly if neither the file name nor the category ends with a
surrogate; a command of the uploader makes such a request. The body of a completion is
taken, with its numbers and ETags, exactly if no trimmed ETag ends with a surrogate. -/
theorem requests_valid_iff (dateParse : Text → Option Int) (digest : Bytes → Vector UInt8 32) :
    (∀ (command : FileUploadStart) (key : JsString) (body : StartBody) (header : Text),
      postStart dateParse command key = some (body, header) →
      (((UploadStart.ofBody body).isSome = true ∧ Text.isIdempotencyKey header = true) ↔
        command.filename.endsHigh = false ∧ command.category.endsHigh = false)) ∧
    (∀ (value command : UploadCommand) (sha256 : JsString),
      canonicalCommand dateParse value = .ok command → isDigest sha256 = true →
      ∃ body header,
        postStart dateParse (command.start sha256) (uploadIdempotencyKey digest command sha256) =
          some (body, header) ∧
        (((UploadStart.ofBody body).isSome = true ∧ Text.isIdempotencyKey header = true) ↔
          value.file.name.endsHigh = false ∧ value.category.endsHigh = false)) ∧
    ∀ parts canonical : List FilePart, canonicalParts parts = some canonical →
      (UploadComplete.ofBody (canonical.map FilePart.body) =
          some (canonical.map FilePart.completed) ↔
        ∀ part ∈ parts, part.etag.trim.endsHigh = false) ∧
      ((UploadComplete.ofBody (canonical.map FilePart.body)).isSome = true ↔
        ∀ part ∈ parts, part.etag.trim.endsHigh = false) := by
  have hstart : ∀ (command : FileUploadStart) (key : JsString) (body : StartBody) (header : Text),
      postStart dateParse command key = some (body, header) →
      (((UploadStart.ofBody body).isSome = true ∧ Text.isIdempotencyKey header = true) ↔
        command.filename.endsHigh = false ∧ command.category.endsHigh = false) := by
    intro command key body header hpost
    obtain ⟨hcanonical, hkey, rfl, rfl⟩ := eq_of_postStart hpost
    rw [ofBody_isSome_iff hcanonical]
    exact and_iff_left (isIdempotencyKey_codePoints hkey)
  refine ⟨hstart, ?_, ?_⟩
  · intro value command sha256 hcommand hsha
    have hpost := postStart_of_canonicalCommand digest hcommand hsha
    obtain ⟨rfl, -⟩ := canonicalStart_of_canonicalCommand hcommand hsha
    exact ⟨_, _, hpost, hstart _ _ _ _ hpost⟩
  · intro parts canonical hparts
    have hetags := forall_etag_of_canonicalParts hparts fun etag => etag.endsHigh = false
    rw [← hetags, ofBody_parts hparts]
    split
    · rename_i hall
      exact ⟨⟨fun _ => hall, fun _ => rfl⟩, ⟨fun _ => hall, fun _ => rfl⟩⟩
    · rename_i hall
      refine ⟨⟨fun h => ?_, fun h => absurd h hall⟩, ⟨fun h => ?_, fun h => absurd h hall⟩⟩
      · cases h
      · cases h

theorem sample_command_accepted :
    canonicalCommand utcMidnight (sampleCommand (JsString.ofString "K3") 11) =
      .ok (sampleCommand (JsString.ofString "K3") 11) := by
  decide

theorem requests_valid_sample :
    (∃ body header,
      postStart utcMidnight ((sampleCommand (JsString.ofString "K3") 11).start sampleSha256)
          (uploadIdempotencyKey (fun _ => sampleKeyDigest)
            (sampleCommand (JsString.ofString "K3") 11) sampleSha256) = some (body, header) ∧
        (UploadStart.ofBody body).isSome = true ∧ Text.isIdempotencyKey header = true) ∧
      UploadComplete.ofBody
          [⟨1, (JsString.ofString "a").codePoints⟩, ⟨2, (JsString.ofString "b").codePoints⟩] =
        some [⟨1, (JsString.ofString "a").codePoints⟩, ⟨2, (JsString.ofString "b").codePoints⟩] := by
  obtain ⟨-, hupload, hcomplete⟩ := requests_valid_iff utcMidnight fun _ => sampleKeyDigest
  constructor
  · obtain ⟨body, header, hpost, hiff⟩ :=
      hupload _ _ sampleSha256 sample_command_accepted (by decide)
    exact ⟨body, header, hpost, hiff.mpr (by decide)⟩
  · exact (hcomplete [⟨2, JsString.ofString "b"⟩, ⟨1, JsString.ofString " a "⟩]
      [⟨1, JsString.ofString "a"⟩, ⟨2, JsString.ofString "b"⟩] (by decide)).1.mpr (by decide)

/-- A category that was cut inside a surrogate pair. -/
def cutCategory : JsString := JsString.ofString "K3" ++ [0xD83D]

theorem cut_category_refused :
    canonicalCommand utcMidnight (sampleCommand cutCategory 11) = .ok (sampleCommand cutCategory 11) ∧
      postStart utcMidnight ((sampleCommand cutCategory 11).start sampleSha256)
          (uploadIdempotencyKey (fun _ => sampleKeyDigest) (sampleCommand cutCategory 11)
            sampleSha256) =
        some (((sampleCommand cutCategory 11).start sampleSha256).body,
          (uploadIdempotencyKey (fun _ => sampleKeyDigest) (sampleCommand cutCategory 11)
            sampleSha256).codePoints) ∧
      UploadStart.ofBody ((sampleCommand cutCategory 11).start sampleSha256).body = none := by
  have haccepted : canonicalCommand utcMidnight (sampleCommand cutCategory 11) =
      .ok (sampleCommand cutCategory 11) := by decide
  exact ⟨haccepted, postStart_of_canonicalCommand _ haccepted (by decide), by decide⟩

end SuperBoss.Web
