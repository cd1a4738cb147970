import SuperBoss.Server.ImportJobs

/-!
Background work: the scan task that follows a completed upload, and the janitor
that expires abandoned uploads and dispatches lost scans again.
-/

namespace SuperBoss.Server

open SuperBoss.Core
open SuperBoss.Files
open SuperBoss.Imports
open SuperBoss.Infrastructure.Clamav

/-! ### Scanning -/

inductive ScanPc
  | receive
  | claim
  | stream (file : File)
  | verdict (file : File) (state : FileState) (scanResult : Text)
  | discard (objectKey : Text)
  | reconcile (pc : ReconcilePc)
  deriving DecidableEq

namespace ScanPc

def holds : ScanPc → List Row
  | reconcile pc => pc.holds
  | _ => []

def needs (fileId : UUID) : ScanPc → List Row
  | claim => [.file fileId]
  | verdict _ _ _ => [.file fileId]
  | reconcile pc => pc.needs
  | _ => []

end ScanPc

/-- `body.read(64 * 1024)` until it is empty: the object in pieces. -/
def isBody (content : Bytes) (chunks : List Bytes) : Bool :=
  decide (chunks.flatten = content) &&
    chunks.all fun c => decide (1 ≤ c.length ∧ c.length ≤ 64 * 1024)

/-- `Boto3ObjectStorage.stream`; `none` where `get_object` raises. -/
def streamObject (s : Storage) (key : Text) (chunks : List Bytes) : Option (List Bytes) :=
  (s.object? key).map fun _ => chunks

/-- The verdict `scan_file` persists: the state and the scan result. -/
def scanVerdict (P : Platform) (expectedSha256 : Text) :
    Except Session (Session × ScanVerdict) → FileState × Text
  | .error _ => (.failed, Text.ofString "SCAN_FAILED")
  | .ok (session, verdict) =>
      if P.sha256 session.streamed ≠ expectedSha256 then
        (.failed, Text.ofString "HASH_MISMATCH")
      else
        match verdict with
        | .clean => (.clean, Text.ofString "CLEAN")
        | .infected signature => (.infected, safeSignature (some signature))

/-- The scan of one attempt over an object as it is in the storage. -/
def scanObject (cfg : ScannerConfig) (s : Store) (file : File) (a : Answer) :
    Except Session (Session × ScanVerdict) :=
  scan cfg (streamObject s.storage file.objectKey a.chunks) a.received a.patience

namespace ScanPc

/-- `execute_file_scan`: `scan_file`, then `reconcile_file`. -/
def step (P : Platform) (cfg : ScannerConfig) (fileId : UUID) (a : Answer) (s : Store) :
    ScanPc → Option (Outcome ScanPc Unit)
  | .receive =>
      if fileId ∈ s.queue then
        some ⟨.running .claim, if a.redelivered then .nothing else .consume fileId⟩
      else none
  | .claim => some <|
      match s.files.get? fileId with
      | none => .read a.fate (.goto (.reconcile .lookup))
      | some file =>
          if file.state ≠ .quarantined then .read a.fate (.goto (.reconcile .lookup))
          else
            .commit s a.fate (.updateFile fileId (.settle .scanning none a.now) none)
              (.running (.stream file))
  | .stream file =>
      if (s.storage.object? file.objectKey).all fun content => isBody content a.chunks then
        let (state, scanResult) := scanVerdict P file.sha256 (scanObject cfg s file a)
        some (.goto (.verdict file state scanResult))
      else none
  | .verdict file state scanResult => some <|
      match s.files.get? fileId with
      | none => .read a.fate (.goto (.reconcile .lookup))
      | some current =>
          if current.state ≠ .scanning then .read a.fate (.goto (.reconcile .lookup))
          else
            .commit s a.fate (.updateFile fileId (.settle state (some scanResult) a.now) none)
              (.running (if state = .infected ∨ state = .failed then .discard file.objectKey
                else .reconcile .lookup))
  | .discard objectKey => some <|
      .attempt a.fate (.call (.deleteObject objectKey)) (.running (.reconcile .lookup))
  | .reconcile pc => (pc.step P fileId a s).map (.map .reconcile)

end ScanPc

/-! ### The janitor -/

def expiryAge : Int := Instant.hours 24

def scanRetryAge : Int := Instant.minutes 15

structure RecoverCall where
  reference : Instant
  limit : Int
  deriving DecidableEq

/-- `recovered` counts the files expired so far. -/
inductive RecoverPc
  | expireSelect
  | expire (fileId : UUID) (rest : List UUID) (recovered : Nat)
  | abort (file : File) (multipartId : Text) (rest : List UUID) (recovered : Nat)
  | delete (file : File) (rest : List UUID) (recovered : Nat)
  | redispatchSelect (recovered : Nat)
  | enqueue (fileId : UUID) (rest : List UUID) (recovered : Nat)
  deriving DecidableEq

namespace RecoverPc

def needs : RecoverPc → List Row
  | expire fileId _ _ => [.file fileId]
  | _ => []

/-- The loop over the expiry candidates. -/
def nextExpire (recovered : Nat) : List UUID → RecoverPc
  | [] => redispatchSelect recovered
  | fileId :: rest => expire fileId rest recovered

/-- The loop over the scans to dispatch again. -/
def nextEnqueue (recovered : Nat) : List UUID → Progress RecoverPc Nat
  | [] => .returned recovered
  | fileId :: rest => .running (enqueue fileId rest recovered)

end RecoverPc

namespace RecoverCall

variable (c : RecoverCall)

/-- The candidates of a janitor query: rows in a state, older than a cutoff, the
oldest first. -/
def candidates (s : Store) (state : FileState) (time : File → Instant) (cutoff : Instant) :
    List UUID :=
  (((s.files.rows.filter fun f => decide (f.state = state ∧ time f < cutoff)).insertionSort
    fun f g => time f < time g ∨ (time f = time g ∧ f.id ≤ g.id)).take c.limit.toNat).map (·.id)

/-- `recover_stale_uploads`. -/
def step (a : Answer) (s : Store) : RecoverPc → Option (Outcome RecoverPc Nat)
  | .expireSelect => some <|
      if c.limit < 1 then .fail (.value "stale upload recovery limit must be positive")
      else .read a.fate <|
        .goto (.nextExpire 0 (c.candidates s .uploading (·.createdAt) (c.reference - expiryAge)))
  | .expire fileId rest recovered => some <|
      let skip : Outcome RecoverPc Nat := .read a.fate (.goto (.nextExpire recovered rest))
      match s.files.get? fileId with
      | none => skip
      | some f =>
          if f.state ≠ .uploading ∨ c.reference - expiryAge ≤ f.createdAt then skip
          else
            .commit s a.fate
              (.updateFile fileId (.settle .failed (some (Text.ofString "UPLOAD_EXPIRED")) a.now)
                none)
              (.running
                (match f.multipartId with
                | some multipartId => .abort f multipartId rest (recovered + 1)
                | none => .delete f rest (recovered + 1)))
  | .abort file multipartId rest recovered => some <|
      .attempt a.fate (.call (.abortMultipart file.objectKey multipartId))
        (.running (.delete file rest recovered))
  | .delete file rest recovered => some <|
      .attempt a.fate (.call (.deleteObject file.objectKey))
        (.running (.nextExpire recovered rest))
  | .redispatchSelect recovered => some <| .read a.fate <|
      let fileIds := c.candidates s .quarantined (·.updatedAt) (c.reference - scanRetryAge)
      ⟨RecoverPc.nextEnqueue (recovered + fileIds.length) fileIds, .nothing⟩
  | .enqueue fileId rest recovered => some <|
      .attempt a.fate (.publish fileId) (RecoverPc.nextEnqueue recovered rest)

end RecoverCall

end SuperBoss.Server
