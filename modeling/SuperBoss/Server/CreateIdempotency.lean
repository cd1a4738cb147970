import SuperBoss.Server.Creations
import SuperBoss.Server.Updates

/-!
Creating an import job is idempotent: one job for each device and key, one
answer for one manifest, and a conflict for another manifest.
-/

namespace SuperBoss.Server

open SuperBoss.Core
open SuperBoss.Library
open SuperBoss.Library.Interleaving
open SuperBoss.Library.Transition
open SuperBoss.Files
open SuperBoss.Imports
open SuperBoss.Infrastructure.Clamav

/-! ### One job, one file -/

theorem Store.job_unique {s : Store} {i j : ImportJob} (hi : i ∈ s.jobs.rows)
    (hj : j ∈ s.jobs.rows) (h : i.createKey = j.createKey) : i = j :=
  Table.eq_of_not_distinct hi hj (fun hd => hd h) fun hd => hd h.symm

theorem Store.attachment_unique {s : Store} {a b : ImportAttachment}
    (ha : a ∈ s.attachments.rows) (hb : b ∈ s.attachments.rows) (h : a.fileId = b.fileId) :
    a = b :=
  Table.eq_of_not_distinct ha hb (fun hd => hd.2.1 h) fun hd => hd.2.1 h.symm

theorem Store.jobByKey_eq_some {s : Store} {j : ImportJob} {device : UUID} {key : Text}
    (hj : j ∈ s.jobs.rows) (hkey : j.createKey = (device, key)) :
    s.jobByKey device key = some j := by
  cases hfind : s.jobByKey device key with
  | none =>
      have hno := List.find?_eq_none.mp hfind j hj
      simp [hkey] at hno
  | some i =>
      obtain ⟨hget, hikey⟩ := Store.get?_of_jobByKey hfind
      rw [Store.job_unique (Table.mem_of_get? hget) hj (hikey.trans hkey.symm)]

/-- The bytes behind the fingerprint of a stored job. -/
def storedManifestBytes (j : ImportJob) : Bytes :=
  (j.canonicalManifestJson.jsonBytes Json.compact).getD []

section idempotency

variable {P : Platform} {cfg : ScannerConfig}

theorem CreatedBy.fingerprint {c : CreateCall P} {s : Store} {j : ImportJob}
    (h : CreatedBy c s j) : j.manifestFingerprint = P.sha256 (storedManifestBytes j) := by
  have hjson : j.canonicalManifestJson = c.command.dump :=
    congrArg (fun i => i.2.2.2.2.2.2.2.1) h.columns
  have hfp : j.manifestFingerprint = c.manifestFingerprint :=
    congrArg (fun i => i.2.2.2.2.2.2.2.2.1) h.columns
  rw [hfp, storedManifestBytes, hjson]
  rfl

/-- Two calls that succeed with one key and one fingerprint have one result. -/
theorem Created.agree {c c' : CreateCall P} {s : Store} {r r' : ImportJobResult}
    (h : Created c s r) (h' : Created c' s r')
    (hdevice : c.actor.subjectId = c'.actor.subjectId)
    (hkey : c.idempotencyKey = c'.idempotencyKey) :
    r.id = r'.id ∧ r.attachments.Perm r'.attachments := by
  obtain ⟨j, hj, hjkey, -⟩ := h.job
  obtain ⟨j', hj', hjkey', -⟩ := h'.job
  have hsame : j = j' := by
    refine Store.job_unique (Table.mem_of_get? hj) (Table.mem_of_get? hj') ?_
    rw [hjkey, hjkey', hdevice, hkey]
  have hid : r.id = r'.id := by
    rw [← Table.key_of_get? hj, ← Table.key_of_get? hj', hsame]
  refine ⟨hid, h.attachments.trans ?_⟩
  rw [hid]
  exact h'.attachments.symm

/-- A call for another manifest than that of the stored job. -/
structure Conflicts (c : CreateCall P) (s : Store) (j : ImportJob) : Prop where
  stored : j ∈ s.jobs.rows
  createKey : j.createKey = (c.actor.subjectId, c.idempotencyKey)
  fingerprint : j.manifestFingerprint ≠ c.manifestFingerprint

theorem Conflicts.not_created {c : CreateCall P} {s : Store} {j : ImportJob}
    (h : Conflicts c s j) (r : ImportJobResult) : ¬Created c s r := by
  intro hr
  obtain ⟨j', hj', hkey, hfp⟩ := hr.job
  obtain rfl : j = j' := Store.job_unique h.stored (Table.mem_of_get? hj')
    (h.createKey.trans hkey.symm)
  exact h.fingerprint hfp

theorem Conflicts.evolve {c : CreateCall P} {s t : Store} {j : ImportJob} (h : Conflicts c s j)
    (he : Evolves s t) : ∃ j', Conflicts c t j' := by
  obtain ⟨j', hj', hle⟩ := he.jobs (Table.get?_of_mem h.stored)
  exact ⟨j', Table.mem_of_get? hj', hle.createKey_eq.trans h.createKey,
    hle.manifestFingerprint_eq ▸ h.fingerprint⟩

/-- Where a call is that began after a job with another manifest was committed.
`failing` says whether one of its statements failed. -/
inductive Refused (failing : Prop) : Progress (CreatePc P) ImportJobResult → Prop
  | begin : Refused failing (.running .begin)
  | existing : Refused failing (.running .existing)
  | conflict : Refused failing (.raised (.domain createConflict))
  | unavailable (h : failing) : Refused failing (.raised .unexpected)
  | crashed : Refused failing .crashed

theorem Refused.crash {failing : Prop} {p : Progress (CreatePc P) ImportJobResult}
    (h : Refused failing p) : Refused failing p.crash := by
  cases h with
  | begin | existing | crashed => exact .crashed
  | conflict => exact .conflict
  | unavailable h => exact .unavailable h

theorem Refused.mono {f g : Prop} {p : Progress (CreatePc P) ImportJobResult} (hfg : f → g)
    (h : Refused f p) : Refused g p := by
  cases h with
  | begin => exact .begin
  | existing => exact .existing
  | conflict => exact .conflict
  | unavailable h => exact .unavailable (hfg h)
  | crashed => exact .crashed

/-- An action of the call keeps it refused. -/
theorem Refused.step {failing : Prop} {c : CreateCall P} {a : Answer} {s : Store}
    {j : ImportJob} (hc : Conflicts c s j) (hkey : Text.isIdempotencyKey c.idempotencyKey = true)
    (hcreate : c.canCreate = true) {pc : CreatePc P} (h : Refused failing (.running pc))
    {o : Outcome (CreatePc P) ImportJobResult} (hstep : c.step a s pc = some o) :
    Refused (failing ∨ a.fate ≠ .ok) o.progress := by
  cases h with
  | begin =>
      simp only [CreateCall.step, hkey, hcreate, Bool.not_true, Bool.false_eq_true, if_false,
        if_true, Option.some.injEq] at hstep
      subst hstep
      exact .existing
  | existing =>
      have hreject : c.replay s j = .reject createConflict := by
        simp only [CreateCall.replay, matchingResult, if_pos hc.fingerprint]
      simp only [CreateCall.step, Store.jobByKey_eq_some hc.stored hc.createKey, hreject,
        Option.some.injEq] at hstep
      subst hstep
      unfold Outcome.read
      split
      · exact .conflict
      · rename_i hfate
        exact .unavailable (.inr hfate)

/-- A call that begins when the job is there is refused in every continuation. -/
theorem refused_of_run {s t : SystemState P} {c : CreateCall P} {j : ImportJob}
    (hs : Consistent cfg s) (hc : Conflicts c s.store j)
    (hkey : Text.isIdempotencyKey c.idempotencyKey = true) (hcreate : c.canCreate = true)
    {es : List (SystemEvent P)}
    (h : run (next P cfg) ⟨s.store, s.threads ++ [.createImport c (.running .begin)]⟩ es =
      some t) :
    ∃ p, t.threads[s.threads.length]? = some (.createImport c p) ∧
      Refused (∃ a, .act s.threads.length a ∈ es ∧ a.fate ≠ .ok) p := by
  have hstart : next P cfg s (.spawn (.createImport c (.running .begin))) =
      some ⟨s.store, s.threads ++ [.createImport c (.running .begin)]⟩ :=
    Happens.next (.spawn (by simp [Thread.initial]))
  have hspawned := hs.step hstart
  refine run_induction (I := fun es (u : SystemState P) =>
    ∃ p, u.threads[s.threads.length]? = some (.createImport c p) ∧
      Refused (∃ a, .act s.threads.length a ∈ es ∧ a.fate ≠ .ok) p)
    ⟨_, List.getElem?_concat_length, .begin⟩ (fun es u e v hrun hinv hstep => ?_) h
  obtain ⟨p, hget, hrefused⟩ := hinv
  have hu := hspawned.reachable ⟨es, hrun⟩
  have hmono : (∃ a, .act s.threads.length a ∈ es ∧ a.fate ≠ .ok) →
      ∃ a, .act s.threads.length a ∈ es ++ [e] ∧ a.fate ≠ .ok := by
    rintro ⟨a, ha, hfate⟩
    exact ⟨a, List.mem_append_left _ ha, hfate⟩
  have hlt : s.threads.length < u.threads.length := (List.getElem?_eq_some_iff.mp hget).1
  cases hu.happens hstep with
  | spawn => exact ⟨p, by rw [List.getElem?_append_left hlt]; exact hget, hrefused.mono hmono⟩
  | @crash i t hthread =>
      by_cases hi : i = s.threads.length
      · subst hi
        obtain rfl := Option.some.inj (hget.symm.trans hthread)
        exact ⟨p.crash, List.getElem?_set_self hlt, (hrefused.mono hmono).crash⟩
      · exact ⟨p, by rw [List.getElem?_set_ne hi]; exact hget, hrefused.mono hmono⟩
  | @act i a t t' w store hthread hfree hact hwrite hsound =>
      by_cases hi : i = s.threads.length
      · subst hi
        obtain rfl := Option.some.inj (hget.symm.trans hthread)
        obtain ⟨o, hp, heq⟩ := Option.map_eq_some_iff.mp hact
        obtain ⟨pc, rfl, hpc⟩ := Progress.step_eq_some hp
        obtain ⟨rfl, -⟩ := Prod.mk.inj heq
        obtain ⟨j', hj'⟩ := hc.evolve (hspawned.evolves ⟨es, hrun⟩)
        refine ⟨o.progress, List.getElem?_set_self hlt,
          (hrefused.step hj' hkey hcreate hpc).mono ?_⟩
        rintro (h | hfate)
        · exact hmono h
        · exact ⟨a, List.mem_append_right _ (List.mem_singleton.mpr rfl), hfate⟩
      · exact ⟨p, by rw [List.getElem?_set_ne hi]; exact hget, hrefused.mono hmono⟩

/-- A create call leaves the jobs that are there, their attachments and their files alone. -/
theorem create_leaves_jobs {s t : SystemState P} (hs : Consistent cfg s) {i : Nat} {a : Answer}
    {c : CreateCall P} {p : Progress (CreatePc P) ImportJobResult}
    (hthread : s.threads[i]? = some (.createImport c p)) (h : next P cfg s (.act i a) = some t)
    {id : UUID} {j : ImportJob} (hj : s.store.jobs.get? id = some j) :
    t.store.jobs.get? id = some j ∧ t.store.attachmentsOf id = s.store.attachmentsOf id ∧
      ∀ b ∈ s.store.attachmentsOf id,
        t.store.files.get? b.fileId = s.store.files.get? b.fileId := by
  cases hs.happens h with
  | act hget hfree hact hwrite hsound =>
      obtain rfl := Option.some.inj (hthread.symm.trans hget)
      obtain ⟨o, hp, heq⟩ := Option.map_eq_some_iff.mp hact
      obtain ⟨pc, rfl, hpc⟩ := Progress.step_eq_some hp
      refine ⟨hsound.effect.job_unchanged hwrite (fun hrow => ?_) hj,
        (hsound.effect.evolves hwrite).attachments hj, fun b hb => ?_⟩
      · -- A create call locks file rows only.
        rcases List.mem_append.mp (hsound.touches _ hrow) with hheld | hneeded
        · cases pc with
          | upload current rest uploads pc =>
              cases pc <;> simp [Thread.holds, CreatePc.holds, StartPc.holds] at hheld
          | begin | deny | existing | persist | insert => cases hheld
        · cases pc with
          | upload current rest uploads pc =>
              cases pc <;> simp [Thread.needs, CreatePc.needs, StartPc.needs] at hneeded
          | begin | deny | existing | persist | insert => cases hneeded
      · -- The files of a job are provisioned, and the call provisions others.
        obtain ⟨f, hf, -, hm⟩ :=
          (hs.wellFormed.attached b (Store.mem_attachmentsOf.mp hb).1).file
        rw [hf]
        refine hs.file_kept hthread hact hwrite hf fun u _ hupdates => ?_
        have hok := hs.ok hthread
        generalize hid : b.fileId = fileId at hupdates hf
        cases hupdates with
        | create =>
            obtain ⟨hunprovisioned, -⟩ := hok.1
            obtain rfl := Option.some.inj (hf.symm.trans hunprovisioned.get)
            exact hm hunprovisioned.multipart

/-- SHA-256 tells the two byte strings apart when they differ. -/
def NoCollision (P : Platform) (b b' : Bytes) : Prop := P.sha256 b = P.sha256 b' → b = b'

/-- In every reachable state: a device has one job for a key, a file is attached
once, and calls with one key that return have one result. A call for another
manifest than the stored one never returns, and is refused when it begins after
the job is there. No create call changes a job, its attachments or its files. -/
theorem create_idempotent (projects : List UUID) {s : SystemState P}
    (h : Reachable (next P cfg) (initialState P projects) s) :
    (∀ i ∈ s.store.jobs.rows, ∀ j ∈ s.store.jobs.rows, i.createKey = j.createKey → i = j) ∧
    (∀ a ∈ s.store.attachments.rows, ∀ b ∈ s.store.attachments.rows, a.fileId = b.fileId →
      a = b) ∧
    (∀ c r c' r', .createImport c (.returned r) ∈ s.threads →
      .createImport c' (.returned r') ∈ s.threads →
      c.actor.subjectId = c'.actor.subjectId → c.idempotencyKey = c'.idempotencyKey →
      r.id = r'.id ∧ r.attachments.Perm r'.attachments) ∧
    (∀ j ∈ s.store.jobs.rows, ∀ c : CreateCall P,
      j.createKey = (c.actor.subjectId, c.idempotencyKey) →
      storedManifestBytes j ≠ c.command.canonicalManifestBytes →
      NoCollision P (storedManifestBytes j) c.command.canonicalManifestBytes →
      (∀ r, .createImport c (.returned r) ∉ s.threads) ∧
      (Text.isIdempotencyKey c.idempotencyKey = true → c.canCreate = true → ∀ es t,
        run (next P cfg) ⟨s.store, s.threads ++ [.createImport c (.running .begin)]⟩ es = some t →
        ∃ p, t.threads[s.threads.length]? = some (.createImport c p) ∧
          Refused (∃ a, .act s.threads.length a ∈ es ∧ a.fate ≠ .ok) p)) ∧
    (∀ i a c p t, s.threads[i]? = some (.createImport c p) → next P cfg s (.act i a) = some t →
      ∀ id j, s.store.jobs.get? id = some j →
        t.store.jobs.get? id = some j ∧ t.store.attachmentsOf id = s.store.attachmentsOf id ∧
          ∀ b ∈ s.store.attachmentsOf id,
            t.store.files.get? b.fileId = s.store.files.get? b.fileId) := by
  have hs := consistent_of_reachable h
  refine ⟨fun i hi j hj => Store.job_unique hi hj, fun a ha b hb => Store.attachment_unique ha hb,
    ?_, ?_, fun i a c p t hthread hstep id j => create_leaves_jobs hs hthread hstep⟩
  · intro c r c' r' hmem hmem' hdevice hkey
    obtain ⟨i, hi⟩ := List.mem_iff_getElem?.mp hmem
    obtain ⟨i', hi'⟩ := List.mem_iff_getElem?.mp hmem'
    exact Created.agree (hs.ok hi) (hs.ok hi') hdevice hkey
  · intro j hj c hkey hdiffer hcollision
    have hconflicts : Conflicts c s.store j := by
      obtain ⟨c₀, hc₀⟩ := createdBy_of_reachable h _ _ (Table.get?_of_mem hj)
      refine ⟨hj, hkey, fun hfp => hdiffer (hcollision ?_)⟩
      rw [← hc₀.fingerprint, hfp]
      rfl
    refine ⟨fun r hmem => ?_, fun hvalid hcreate es t ht =>
      refused_of_run hs hconflicts hvalid hcreate ht⟩
    obtain ⟨i, hi⟩ := List.mem_iff_getElem?.mp hmem
    exact hconflicts.not_created r (hs.ok hi)

end idempotency

/-! ### A sample run with two attachments -/

namespace Sample

section pair

variable (hash : Bytes → Text)

theorem spelling_ok : 1 < (Text.ofString "1970-01-01T00:00:00Z").length := by decide

/-- The platform of the sample runs with another hash. -/
def platformWith : Platform :=
  asciiPlatform hash (fun t => BitVec.ofNat 128 t.length) 0
    (Text.ofString "1970-01-01T00:00:00Z") spelling_ok

def task {maxLength : Nat} (h : 4 ≤ maxLength) : CleanText (platformWith hash) false maxLength :=
  ⟨Text.ofString "task", {
    normal := rfl
    newlines := fun h => by cases h
    stripped := by decide
    minLength := by decide
    maxLength := h
    encodable := by decide
    controls := by decide }⟩

def secondName : CleanText (platformWith hash) false attachmentFilenameMaxChars :=
  ⟨Text.ofString "name", {
    normal := rfl
    newlines := fun h => by cases h
    stripped := by decide
    minLength := by decide
    maxLength := Nat.le_of_ble_eq_true rfl
    encodable := by decide
    controls := by decide }⟩

theorem epoch_ok : Instant.min ≤ (0 : Instant) ∧ (0 : Instant) ≤ Instant.max := ⟨by decide, by decide⟩

/-- An original and a `K3_RAW` with the sample content, with an external reference or not. -/
def pairFields (external : Bool) : ManifestFields (platformWith hash) where
  projectId := 1
  localTaskId := task hash (Nat.le_of_ble_eq_true rfl)
  externalDocumentReference :=
    if external then some (task hash (Nat.le_of_ble_eq_true rfl)) else none
  baseSha256 := none
  k3Result := ⟨task hash (Nat.le_of_ble_eq_true rfl), ⟨0, epoch_ok⟩, [], [], [], none,
    ⟨[], Nat.zero_le _, .nil, .nil⟩, Nat.zero_le _, Nat.zero_le _, Nat.zero_le _⟩
  attachments :=
    [⟨.original, task hash (Nat.le_of_ble_eq_true rfl), ⟨3, size_ok⟩, ⟨digest, digest_ok⟩,
        ⟨Text.ofString "text/plain", mime_ok⟩⟩,
      ⟨.k3Raw, secondName hash, ⟨3, size_ok⟩, ⟨digest, digest_ok⟩,
        ⟨Text.ofString "text/plain", mime_ok⟩⟩]

theorem pairFields_budget :
    ∀ external, ManifestFields.withinBudget (pairFields sha256 external).dump = true := by
  decide +kernel

theorem pairFields_dump (external : Bool) :
    (pairFields hash external).dump = (pairFields sha256 external).dump := by
  cases external <;> rfl

def pair (external : Bool) : ImportJobCreate (platformWith hash) where
  toManifestFields := pairFields hash external
  kindsNodup := (by decide : [AttachmentKind.original, .k3Raw].Nodup)
  k3Raw := (by decide : AttachmentKind.k3Raw ∈ [.original, .k3Raw])
  baseOriginal h := absurd rfl h
  ranked := List.pairwise_pair.mpr (Nat.zero_le _)
  budget := pairFields_dump hash external ▸ pairFields_budget external

end pair

/-- The byte strings that creating the pair hashes, with their SHA-256. -/
def digests : List (Bytes × Text) :=
  [(content, digest),
    (ascii "00000000-0000-0000-0000-000000000008\x1fcreate-key-00000001\x1fORIGINAL",
      Text.ofString "506e067199d1adedb97a0579f22e72f347d684df4e489667973558450356d038"),
    (ascii "00000000-0000-0000-0000-000000000008\x1fcreate-key-00000001\x1fK3_RAW",
      Text.ofString "a580ab06b589cd31decb7b4d5dc3b436bdeaf25b10cd3ed2000223011f18786a"),
    (ascii "task\x1fkimi-imports\x1f1970-01-01\x1f3\x1f" ++ digest.map UInt8.ofNat ++
        ascii "\x1ftext/plain",
      Text.ofString "c25d61827140a39a746269af5fc4e2c722c7c52852b45c4dad43e7871746f1c0"),
    (ascii "name\x1fkimi-imports\x1f1970-01-01\x1f3\x1f" ++ digest.map UInt8.ofNat ++
        ascii "\x1ftext/plain",
      Text.ofString "7908069fe37fdd12d05bb525d2bef2f2ec896813b9101f24c46ebe74cbe8a780"),
    ((pair sha256 false).canonicalManifestBytes,
      Text.ofString "a3afbf9dd7afa17f66d3f0f7b167c48a9e4e13fab6294e52def8f8546f869ab5"),
    ((pair sha256 true).canonicalManifestBytes,
      Text.ofString "913280902f7b0e4ef5a57793c8c4a8dd8530de0df307f9e171b01efafd7304a5")]

/-- SHA-256 on the bytes of the table, and a text that tells the others apart. -/
def hash (b : Bytes) : Text :=
  match digests.find? fun e => decide (e.1 = b) with
  | some e => e.2
  | none => 0 :: b.map UInt8.toNat

/-- The platform of the sample runs with the hashes that they need. -/
def hashed : Platform := platformWith hash

/-- Creating the pair with the one key. -/
def pairCreation (external : Bool) : CreateCall hashed :=
  ⟨device, pair hash external, Text.ofString "create-key-00000001", 40⟩

/-- A job with two attachments: files 10 and 11, job 20, attachments 30 and 31. -/
def pairCreated : List (SystemEvent hashed) :=
  .spawn (.createImport (pairCreation false) (.running .begin)) ::
      List.replicate 8 (.act 0 answer) ++
    List.replicate 6 (.act 0 { answer with uuid := 11, multipartId := Text.ofString "n" }) ++
    List.replicate 2 (.act 0 { answer with uuid := 20, attachmentIds := [30, 31] })

/-- The call again. -/
def pairRepeated : List (SystemEvent hashed) :=
  .spawn (.createImport (pairCreation false) (.running .begin)) :: List.replicate 2 (.act 1 answer)

/-- Another manifest with the key. -/
def pairChanged : List (SystemEvent hashed) :=
  .spawn (.createImport (pairCreation true) (.running .begin)) :: List.replicate 2 (.act 2 answer)

/-- The results of the call and of its repetition. -/
def pairResult (attachments : List ImportAttachmentResult) : ImportJobResult :=
  ⟨20, .uploading, none, none, 0, attachments⟩

def pairOriginal : ImportAttachmentResult := ⟨30, 10, 10, .original⟩

def pairRaw : ImportAttachmentResult := ⟨31, 11, 11, .k3Raw⟩

/-- The three calls in the end. -/
def pairThreads : List (Thread hashed) :=
  [.createImport (pairCreation false) (.returned (pairResult [pairOriginal, pairRaw])),
    .createImport (pairCreation false) (.returned (pairResult [pairRaw, pairOriginal])),
    .createImport (pairCreation true) (.raised (.domain createConflict))]

end Sample

/-- The second call gets the result of the first, and the changed manifest none. -/
theorem create_idempotent_pair :
    ∃ s, run (next Sample.hashed Sample.scanner) (initialState Sample.hashed [1])
        (Sample.pairCreated ++ Sample.pairRepeated ++ Sample.pairChanged) = some s ∧
      s.threads = Sample.pairThreads ∧
      (Sample.pairResult [Sample.pairOriginal, Sample.pairRaw]).attachments.Perm
        (Sample.pairResult [Sample.pairRaw, Sample.pairOriginal]).attachments ∧
      ∀ r, .createImport (Sample.pairCreation true) (.returned r) ∉ s.threads := by
  have hrun : ((run (next Sample.hashed Sample.scanner) (initialState Sample.hashed [1])
      (Sample.pairCreated ++ Sample.pairRepeated ++ Sample.pairChanged)).map fun s =>
        decide (s.threads = Sample.pairThreads ∧ (s.store.jobs.get? 20).any fun j =>
          decide (j.createKey = (Sample.device.subjectId, Text.ofString "create-key-00000001") ∧
            storedManifestBytes j = (Sample.pairCreation false).command.canonicalManifestBytes))) =
      some true := by
    decide +kernel
  have hbytes : (Sample.pairCreation false).command.canonicalManifestBytes ≠
      (Sample.pairCreation true).command.canonicalManifestBytes ∧
      Sample.hashed.sha256 (Sample.pairCreation false).command.canonicalManifestBytes ≠
        Sample.hashed.sha256 (Sample.pairCreation true).command.canonicalManifestBytes := by
    decide +kernel
  obtain ⟨s, hs, hchecks⟩ := Option.map_eq_some_iff.mp hrun
  obtain ⟨hthreads, hjob⟩ := of_decide_eq_true hchecks
  obtain ⟨j, hj, hstored⟩ := (Option.any_eq_true _ _).mp hjob
  obtain ⟨hkey, hmanifest⟩ := of_decide_eq_true hstored
  obtain ⟨-, -, hagree, hchanged, -⟩ := create_idempotent [1] ⟨_, hs⟩
  have hfirst : .createImport (Sample.pairCreation false)
      (.returned (Sample.pairResult [Sample.pairOriginal, Sample.pairRaw])) ∈ s.threads := by
    rw [hthreads]
    exact List.mem_cons_self
  have hsecond : .createImport (Sample.pairCreation false)
      (.returned (Sample.pairResult [Sample.pairRaw, Sample.pairOriginal])) ∈ s.threads := by
    rw [hthreads]
    exact List.mem_cons_of_mem _ List.mem_cons_self
  refine ⟨s, hs, hthreads, (hagree _ _ _ _ hfirst hsecond rfl rfl).2,
    (hchanged j (Table.mem_of_get? hj) (Sample.pairCreation true) hkey ?_ ?_).1⟩
  · rw [hmanifest]
    exact hbytes.1
  · rw [hmanifest]
    exact fun h => absurd h hbytes.2

end SuperBoss.Server
