import SuperBoss.Core.Values
import SuperBoss.Library.Framing

/-!
The clamd adapter: the INSTREAM loop over the chunks of an object and the
parser of the reply. The outside world enters as the number of awaits that
succeed and the bytes clamd sends back.
-/

namespace SuperBoss.Infrastructure.Clamav

open SuperBoss.Core
open SuperBoss.Library.Framing

inductive ScanVerdict
  | clean
  | infected (signature : Text)
  deriving DecidableEq

/-- The limits of `ClamAVScanner`, as `__post_init__` admits them. -/
structure ScannerConfig where
  maxChunkBytes : Nat
  maxStreamBytes : Nat
  maxResponseBytes : Nat
  chunkRange : 1 ≤ maxChunkBytes ∧ maxChunkBytes ≤ 0xFFFFFFFF
  streamRange : 1 ≤ maxStreamBytes
  responseRange : 1 ≤ maxResponseBytes

def ascii (s : String) : Bytes := s.toList.map fun c => UInt8.ofNat c.toNat

/-- What a scan has done so far. `patience` counts the awaits that still
succeed; `none` when all of them do. -/
structure Session where
  written : Bytes
  /-- The bytes the hashing generator has yielded. -/
  streamed : Bytes
  totalBytes : Nat
  patience : Option Nat
  deriving DecidableEq

namespace Session

def start (patience : Option Nat) : Session := ⟨[], [], 0, patience⟩

/-- One await: a connection, a drained write, a read, or a timeout there. -/
def await (s : Session) : Except Session Session :=
  match s.patience with
  | none => .ok s
  | some 0 => .error s
  | some (n + 1) => .ok { s with patience := some n }

/-- `_write`. -/
def write (s : Session) (payload : Bytes) : Except Session Session :=
  await { s with written := s.written ++ payload }

/-- `async for chunk in chunks`: the generator reads a piece and hashes it. -/
def pull (s : Session) (chunk : Bytes) : Except Session Session :=
  (await s).map fun s => { s with streamed := s.streamed ++ chunk }

def sendFrame (cfg : ScannerConfig) (s : Session) (payload : Bytes) : Except Session Session :=
  if s.totalBytes + payload.length > cfg.maxStreamBytes then .error s
  else (s.write (frame payload)).map fun s =>
    { s with totalBytes := s.totalBytes + payload.length }

def sendChunk (cfg : ScannerConfig) (s : Session) (chunk : Bytes) : Except Session Session := do
  let s ← s.pull chunk
  if chunk = [] then .error s
  else (slices cfg.maxChunkBytes chunk).foldlM (sendFrame cfg) s

end Session

def clearReply : Bytes := ascii "stream: OK"

/-- `_parse_response`; `none` where it raises. -/
def parseResponse (response : Bytes) : Option ScanVerdict :=
  let start := ascii "stream: "
  let suffix := ascii " FOUND"
  if response = clearReply then some .clean
  else if !(start.isPrefixOf response && suffix.isSuffixOf response) then none
  else
    let signature := (response.drop start.length).take
      (response.length - suffix.length - start.length)
    if signature = [] then none
    else if signature.all fun b => b.toNat < 128 then
      some (.infected (signature.map UInt8.toNat))
    else none

/-- `reader.readuntil(b"\0")` without its terminator, bounded as `scan` bounds it. -/
def readReply (cfg : ScannerConfig) (received : Bytes) : Option Bytes :=
  let reply := received.takeWhile (· != 0)
  if 0 ∈ received ∧ reply.length ≤ cfg.maxResponseBytes then some reply else none

/-- `ClamAVScanner.scan` over a generator that yields `chunks`. `none` for the
chunks is a generator that raises at its first step. -/
def scan (cfg : ScannerConfig) (chunks : Option (List Bytes)) (received : Bytes)
    (patience : Option Nat) : Except Session (Session × ScanVerdict) := do
  let s ← (Session.start patience).await
  let s ← s.write (ascii "zINSTREAM" ++ [0])
  match chunks with
  | none => .error s
  | some chunks =>
      let s ← chunks.foldlM (Session.sendChunk cfg) s
      let s ← s.await
      let s ← s.write (bigEndian32 0)
      let s ← s.await
      match (readReply cfg received).bind parseResponse with
      | none => .error s
      | some verdict => .ok (s, verdict)

/-- A complete INSTREAM conversation: the command and the framed payloads. -/
def Instream (wire : Bytes) (payload : Bytes) : Prop :=
  ∃ frames payloads, wire = ascii "zINSTREAM" ++ [0] ++ frames ∧ Framed frames payloads ∧
    payloads.flatten = payload

namespace Session

theorem await_ok {s t : Session} (h : s.await = .ok t) :
    t.written = s.written ∧ t.streamed = s.streamed ∧ t.totalBytes = s.totalBytes := by
  unfold await at h
  split at h <;> cases h <;> exact ⟨rfl, rfl, rfl⟩

theorem write_ok {s t : Session} {payload : Bytes} (h : s.write payload = .ok t) :
    t.written = s.written ++ payload ∧ t.streamed = s.streamed ∧
      t.totalBytes = s.totalBytes :=
  await_ok h

theorem sendFrames_ok {cfg : ScannerConfig} {payloads : List Bytes} {s t : Session}
    (h : payloads.foldlM (sendFrame cfg) s = .ok t) :
    t.written = s.written ++ (payloads.map frame).flatten ∧ t.streamed = s.streamed := by
  induction payloads generalizing s with
  | nil =>
      cases h
      simp
  | cons p ps ih =>
      rw [List.foldlM_cons] at h
      obtain ⟨u, hframe, hrest⟩ := bind_eq_ok.mp h
      unfold sendFrame at hframe
      split at hframe
      · cases hframe
      · obtain ⟨v, hwrite, rfl⟩ := map_eq_ok.mp hframe
        obtain ⟨hwritten, hstreamed, -⟩ := write_ok hwrite
        obtain ⟨hw, hs⟩ := ih hrest
        exact ⟨by simp [hw, hwritten], hs.trans hstreamed⟩

theorem sendChunk_ok {cfg : ScannerConfig} {s t : Session} {chunk : Bytes}
    (h : sendChunk cfg s chunk = .ok t) :
    t.written = s.written ++ ((slices cfg.maxChunkBytes chunk).map frame).flatten ∧
      t.streamed = s.streamed ++ chunk := by
  obtain ⟨u, hpull, hrest⟩ := bind_eq_ok.mp h
  obtain ⟨v, hawait, rfl⟩ := map_eq_ok.mp hpull
  obtain ⟨hwritten, hstreamed, -⟩ := await_ok hawait
  split at hrest
  · cases hrest
  · obtain ⟨hw, hs⟩ := sendFrames_ok hrest
    exact ⟨by rw [hw, hwritten], by rw [hs, hstreamed]⟩

theorem sendChunks_ok {cfg : ScannerConfig} {chunks : List Bytes} {s t : Session}
    (h : chunks.foldlM (sendChunk cfg) s = .ok t) :
    t.written = s.written ++
        ((chunks.flatMap (slices cfg.maxChunkBytes)).map frame).flatten ∧
      t.streamed = s.streamed ++ chunks.flatten := by
  induction chunks generalizing s with
  | nil =>
      cases h
      simp
  | cons c cs ih =>
      rw [List.foldlM_cons] at h
      obtain ⟨u, hchunk, hrest⟩ := bind_eq_ok.mp h
      obtain ⟨hwritten, hstreamed⟩ := sendChunk_ok hchunk
      obtain ⟨hw, hs⟩ := ih hrest
      exact ⟨by simp [hw, hwritten], by simp [hs, hstreamed]⟩

end Session

theorem flatten_flatMap_slices (cfg : ScannerConfig) (chunks : List Bytes) :
    (chunks.flatMap (slices cfg.maxChunkBytes)).flatten = chunks.flatten := by
  induction chunks with
  | nil => rfl
  | cons c cs ih =>
      rw [List.flatMap_cons, List.flatten_append, ih, flatten_slices cfg.chunkRange.1]
      rfl

/-- The whole conversation behind a verdict: every chunk was pulled and framed,
the stream was terminated, and the reply parses to the verdict. -/
theorem scan_ok {cfg : ScannerConfig} {chunks : Option (List Bytes)} {received : Bytes}
    {patience : Option Nat} {s : Session} {verdict : ScanVerdict}
    (h : scan cfg chunks received patience = .ok (s, verdict)) :
    ∃ cs, chunks = some cs ∧ s.streamed = cs.flatten ∧ Instream s.written cs.flatten ∧
      ∃ reply, readReply cfg received = some reply ∧ parseResponse reply = some verdict := by
  obtain ⟨s₁, hopen, h⟩ := bind_eq_ok.mp h
  obtain ⟨s₂, hcommand, h⟩ := bind_eq_ok.mp h
  cases chunks with
  | none => cases h
  | some cs =>
      obtain ⟨s₃, hsend, h⟩ := bind_eq_ok.mp h
      obtain ⟨s₄, heof, h⟩ := bind_eq_ok.mp h
      obtain ⟨s₅, hend, h⟩ := bind_eq_ok.mp h
      obtain ⟨s₆, hread, h⟩ := bind_eq_ok.mp h
      split at h
      · cases h
      · rename_i v hreply
        cases h
        obtain ⟨reply, hrecv, hparse⟩ := Option.bind_eq_some_iff.mp hreply
        obtain ⟨hw₁, hs₁, -⟩ := Session.await_ok hopen
        obtain ⟨hw₂, hs₂, -⟩ := Session.write_ok hcommand
        obtain ⟨hw₃, hs₃⟩ := Session.sendChunks_ok hsend
        obtain ⟨hw₄, hs₄, -⟩ := Session.await_ok heof
        obtain ⟨hw₅, hs₅, -⟩ := Session.write_ok hend
        obtain ⟨hw₆, hs₆, -⟩ := Session.await_ok hread
        refine ⟨cs, rfl, ?_, ?_, reply, hrecv, hparse⟩
        · rw [hs₆, hs₅, hs₄, hs₃, hs₂, hs₁]
          rfl
        · refine ⟨_, cs.flatMap (slices cfg.maxChunkBytes), ?_,
            framed_of_frames fun p hp => ?_, flatten_flatMap_slices cfg cs⟩
          · rw [hw₆, hw₅, hw₄, hw₃, hw₂, hw₁, List.append_assoc]
            rfl
          · obtain ⟨c, -, hslice⟩ := List.mem_flatMap.mp hp
            obtain ⟨hne, hlen⟩ := mem_slices hslice
            have hmax := cfg.chunkRange.2
            exact ⟨hne, by omega⟩

theorem parseResponse_clean {response : Bytes} (h : parseResponse response = some .clean) :
    response = clearReply := by
  by_contra hne
  simp only [parseResponse, if_neg hne] at h
  split at h
  · cases h
  · split at h
    · cases h
    · split at h <;> cases h

end SuperBoss.Infrastructure.Clamav
