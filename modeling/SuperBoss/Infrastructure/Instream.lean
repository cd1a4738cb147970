import SuperBoss.Infrastructure.Clamav
import Mathlib.Algebra.Order.Ring.Int

/-!
What a scan puts on the wire and what it makes of the reply, for every list of
chunks: the INSTREAM conversation reads back to the chunks, no frame crosses
the stream limit, and the verdict is the one that the reply spells.
-/

namespace SuperBoss.Infrastructure.Clamav

open SuperBoss.Core
open SuperBoss.Library.Framing

def command : Bytes := ascii "zINSTREAM" ++ [0]

def frames (payloads : List Bytes) : Bytes := (payloads.map frame).flatten

def size (payloads : List Bytes) : Nat := (payloads.map List.length).sum

/-- What clamd reads: the command, frames and the zero terminator. -/
def readInstream (wire : Bytes) : Option (List Bytes) :=
  if command.isPrefixOf wire then
    match readFrames wire.length (wire.drop command.length) with
    | some (payloads, []) => some payloads
    | _ => none
  else none

/-- What the scan had done when it returned or raised. -/
def Session.final {α : Type} : Except Session (Session × α) → Session
  | .ok (s, _) => s
  | .error s => s

theorem length_flatten (payloads : List Bytes) : payloads.flatten.length = size payloads :=
  List.length_flatten

theorem size_append (ps qs : List Bytes) : size (ps ++ qs) = size ps + size qs := by
  simp [size]

theorem frames_append (ps qs : List Bytes) : frames (ps ++ qs) = frames ps ++ frames qs := by
  simp [frames]

theorem length_le_frames (payloads : List Bytes) : payloads.length ≤ (frames payloads).length := by
  induction payloads with
  | nil => exact Nat.le_refl 0
  | cons p ps ih =>
      simp only [frames, List.map_cons, List.flatten_cons, List.length_append, length_frame,
        List.length_cons] at ih ⊢
      omega

theorem readInstream_frames {payloads : List Bytes}
    (h : ∀ p ∈ payloads, p ≠ [] ∧ p.length < 2 ^ 32) :
    readInstream (command ++ (frames payloads ++ bigEndian32 0)) = some payloads := by
  have hread := readFrames_frames (command ++ (frames payloads ++ bigEndian32 0)).length [] h (by
      have hle := length_le_frames payloads
      simp only [List.length_append]
      have hcommand : command.length = 10 := by decide
      omega)
  rw [List.append_nil] at hread
  change readFrames _ (frames payloads ++ bigEndian32 0) = _ at hread
  unfold readInstream
  rw [if_pos (List.isPrefixOf_iff_prefix.mpr (List.prefix_append _ _)), List.drop_left, hread]

namespace Session

variable {cfg : ScannerConfig} {s t : Session}

/-- The end of a loop that had `payloads` to send: all of them are on the wire,
or some of them and the scan raises; never more than the limit. -/
inductive Sends (cfg : ScannerConfig) (s : Session) (payloads : List Bytes) :
    Except Session Session → Prop
  | all {t : Session} (written : t.written = s.written ++ frames payloads)
      (total : t.totalBytes = s.totalBytes + size payloads)
      (limit : t.totalBytes ≤ cfg.maxStreamBytes) (patience : s.patience = none → t.patience = none) :
      Sends cfg s payloads (.ok t)
  | part {t : Session} {sent : List Bytes} (taken : sent <+: payloads)
      (written : t.written = s.written ++ frames sent)
      (limit : s.totalBytes + size sent ≤ cfg.maxStreamBytes)
      (early : s.patience = none → cfg.maxStreamBytes < s.totalBytes + size payloads) :
      Sends cfg s payloads (.error t)

theorem await_of_none (h : s.patience = none) : s.await = .ok s := by
  unfold await
  rw [h]

theorem await_error (h : s.await = .error t) : t = s ∧ s.patience ≠ none := by
  unfold await at h
  split at h
  · cases h
  · rename_i hpatience
    cases h
    exact ⟨rfl, by rw [hpatience]; exact nofun⟩
  · cases h

theorem await_patience (h : s.await = .ok t) (hnone : s.patience = none) : t.patience = none := by
  rw [await_of_none hnone] at h
  cases h
  exact hnone

theorem write_patience {payload : Bytes} (h : s.write payload = .ok t) (hnone : s.patience = none) :
    t.patience = none :=
  await_patience h hnone

theorem Sends.append {ps qs : List Bytes} {u : Session} {out : Except Session Session}
    (h : Sends cfg s ps (.ok u)) (h' : Sends cfg u qs out) : Sends cfg s (ps ++ qs) out := by
  cases h with
  | all hwritten htotal hlimit hpatience =>
      cases h' with
      | all hwritten' htotal' hlimit' hpatience' =>
          refine .all ?_ ?_ hlimit' fun hnone => hpatience' (hpatience hnone)
          · rw [hwritten', hwritten, frames_append, List.append_assoc]
          · rw [htotal', htotal, size_append, Nat.add_assoc]
      | @part t sent htaken hwritten' hlimit' hearly =>
          refine @Sends.part cfg s _ _ (ps ++ sent) ((List.prefix_append_right_inj ps).mpr htaken) ?_ ?_
            fun hnone => ?_
          · rw [hwritten', hwritten, frames_append, List.append_assoc]
          · rw [size_append]
            omega
          · have hover := hearly (hpatience hnone)
            rw [size_append]
            omega

theorem Sends.weaken {ps qs : List Bytes} {u : Session} (h : Sends cfg s ps (.error u)) :
    Sends cfg s (ps ++ qs) (.error u) := by
  cases h with
  | part htaken hwritten hlimit hearly =>
      refine .part (htaken.trans (List.prefix_append ps qs)) hwritten hlimit fun hnone => ?_
      have hover := hearly hnone
      rw [size_append]
      omega

/-- One frame is sent when it fits. -/
theorem sends_frame (hlimit : s.totalBytes ≤ cfg.maxStreamBytes) (payload : Bytes) :
    Sends cfg s [payload] (sendFrame cfg s payload) := by
  have hsize : size [payload] = payload.length := by simp [size]
  have hframes : frames [payload] = frame payload := by simp [frames]
  unfold sendFrame
  split
  · rename_i hover
    refine @Sends.part cfg s _ _ [] (List.nil_prefix) (List.append_nil _).symm hlimit fun _ => ?_
    rw [hsize]
    exact hover
  · rename_i hfits
    have hfits : s.totalBytes + payload.length ≤ cfg.maxStreamBytes := Nat.not_lt.mp hfits
    cases hwrite : s.write (frame payload) with
    | error t =>
        obtain ⟨rfl, hpatience⟩ := await_error hwrite
        refine @Sends.part cfg _ _ _ [payload] (List.prefix_refl _) ?_ ?_ fun hnone => absurd hnone hpatience
        · rw [hframes]
        · rw [hsize]
          exact hfits
    | ok t =>
        obtain ⟨hwritten, -, htotal⟩ := write_ok hwrite
        have hpatience : s.patience = none → t.patience = none := write_patience hwrite
        refine .all ?_ ?_ ?_ hpatience
        · rw [hframes]
          exact hwritten
        · rw [hsize]
          exact congrArg (· + payload.length) htotal
        · show t.totalBytes + payload.length ≤ cfg.maxStreamBytes
          rw [htotal]
          exact hfits

theorem sends_frames (hlimit : s.totalBytes ≤ cfg.maxStreamBytes) (payloads : List Bytes) :
    Sends cfg s payloads (payloads.foldlM (sendFrame cfg) s) := by
  induction payloads generalizing s with
  | nil => exact .all (List.append_nil _).symm rfl hlimit id
  | cons p ps ih =>
      rw [List.foldlM_cons]
      have hframe := sends_frame hlimit p
      cases hsend : sendFrame cfg s p with
      | error t =>
          rw [hsend] at hframe
          show Sends cfg s ([p] ++ ps) (.error t)
          exact hframe.weaken
      | ok u =>
          rw [hsend] at hframe
          have hu : u.totalBytes ≤ cfg.maxStreamBytes := by
            cases hframe with
            | all _ _ hlimit' _ => exact hlimit'
          exact hframe.append (ih hu)

theorem sends_chunk (hlimit : s.totalBytes ≤ cfg.maxStreamBytes) {chunk : Bytes}
    (hne : chunk ≠ []) :
    Sends cfg s (slices cfg.maxChunkBytes chunk) (sendChunk cfg s chunk) := by
  cases hawait : s.await with
  | error t =>
      obtain ⟨rfl, hpatience⟩ := await_error hawait
      have hsend : sendChunk cfg t chunk = .error t := by
        simp only [sendChunk, pull, hawait]
        rfl
      rw [hsend]
      exact @Sends.part cfg _ _ _ [] List.nil_prefix (List.append_nil _).symm hlimit fun hnone =>
        absurd hnone hpatience
  | ok u =>
      obtain ⟨hwritten, -, htotal⟩ := await_ok hawait
      have hsend : sendChunk cfg s chunk = (slices cfg.maxChunkBytes chunk).foldlM (sendFrame cfg)
          { u with streamed := u.streamed ++ chunk } := by
        simp only [sendChunk, pull, hawait]
        exact if_neg hne
      have hu : u.totalBytes ≤ cfg.maxStreamBytes := htotal ▸ hlimit
      rw [hsend]
      have hsends := sends_frames (s := { u with streamed := u.streamed ++ chunk }) hu
        (slices cfg.maxChunkBytes chunk)
      have hnone : s.patience = none → u.patience = none := await_patience hawait
      generalize (slices cfg.maxChunkBytes chunk).foldlM (sendFrame cfg)
        { u with streamed := u.streamed ++ chunk } = out at hsends ⊢
      cases hsends with
      | all hw ht hl hp => exact .all (hwritten ▸ hw) (htotal ▸ ht) hl fun h => hp (hnone h)
      | part htaken hw hl he =>
          exact .part htaken (hwritten ▸ hw) (htotal ▸ hl) fun h => htotal ▸ he (hnone h)

theorem sends_chunks (hlimit : s.totalBytes ≤ cfg.maxStreamBytes) {chunks : List Bytes}
    (hne : ∀ c ∈ chunks, c ≠ []) :
    Sends cfg s (chunks.flatMap (slices cfg.maxChunkBytes)) (chunks.foldlM (sendChunk cfg) s) := by
  induction chunks generalizing s with
  | nil => exact .all (List.append_nil _).symm rfl hlimit id
  | cons c cs ih =>
      rw [List.foldlM_cons, List.flatMap_cons]
      have hchunk := sends_chunk hlimit (hne c List.mem_cons_self)
      cases hsend : sendChunk cfg s c with
      | error t =>
          rw [hsend] at hchunk
          exact hchunk.weaken
      | ok u =>
          rw [hsend] at hchunk
          have hu : u.totalBytes ≤ cfg.maxStreamBytes := by
            cases hchunk with
            | all _ _ hlimit' _ => exact hlimit'
          exact hchunk.append (ih hu fun x hx => hne x (List.mem_cons_of_mem c hx))

end Session

/-! ### The whole scan -/

/-- The frames of all chunks. -/
def payloads (cfg : ScannerConfig) (chunks : List Bytes) : List Bytes :=
  chunks.flatMap (slices cfg.maxChunkBytes)

theorem mem_payloads {cfg : ScannerConfig} {chunks : List Bytes} {p : Bytes}
    (h : p ∈ payloads cfg chunks) : p ≠ [] ∧ p.length ≤ cfg.maxChunkBytes := by
  obtain ⟨c, -, hslice⟩ := List.mem_flatMap.mp h
  exact mem_slices hslice

theorem size_payloads (cfg : ScannerConfig) (chunks : List Bytes) :
    size (payloads cfg chunks) = chunks.flatten.length := by
  rw [← length_flatten]
  exact congrArg List.length (flatten_flatMap_slices cfg chunks)

/-- A conversation that the wire holds some of. -/
structure Wire (cfg : ScannerConfig) (chunks : List Bytes) (s : Session) : Prop where
  sent : ∃ sent, sent <+: payloads cfg chunks ∧ size sent ≤ cfg.maxStreamBytes ∧
    (s.written <+: command ++ frames sent ∨
      sent = payloads cfg chunks ∧ s.written <+: command ++ (frames sent ++ bigEndian32 0))

/-- A scan that has sent everything. -/
structure Finished (cfg : ScannerConfig) (chunks : List Bytes) (s : Session) : Prop where
  fits : chunks.flatten.length ≤ cfg.maxStreamBytes
  written : s.written = command ++ (frames (payloads cfg chunks) ++ bigEndian32 0)

section scans

variable {cfg : ScannerConfig} {chunks : List Bytes} {received : Bytes} {patience : Option Nat}

/-- The verdict of a scan that did not raise. -/
def verdict? : Except Session (Session × ScanVerdict) → Option ScanVerdict
  | .ok (_, verdict) => some verdict
  | .error _ => none

theorem wire_of_opening {s : Session} (h : s.written <+: command) : Wire cfg chunks s :=
  ⟨[], List.nil_prefix, Nat.zero_le _, .inl (h.trans (List.prefix_append _ _))⟩

theorem Finished.wire {s : Session} (h : Finished cfg chunks s) : Wire cfg chunks s :=
  ⟨payloads cfg chunks, List.prefix_refl _, by rw [size_payloads]; exact h.fits,
    .inr ⟨rfl, h.written ▸ List.prefix_refl _⟩⟩

variable (cfg received patience) in
/-- A scan has sent everything and reads the reply, or it raises on the way: in
an await, or because the chunks exceed the limit. -/
theorem scan_cases (hne : ∀ c ∈ chunks, c ≠ []) :
    (∃ s, Finished cfg chunks s ∧
        scan cfg (some chunks) received patience =
          match (readReply cfg received).bind parseResponse with
          | none => .error s
          | some verdict => .ok (s, verdict)) ∨
      ∃ s, scan cfg (some chunks) received patience = .error s ∧ Wire cfg chunks s ∧
        (patience = none → cfg.maxStreamBytes < chunks.flatten.length) := by
  unfold scan
  cases hopen : (Session.start patience).await with
  | error s =>
      obtain ⟨rfl, hpatience⟩ := Session.await_error hopen
      exact .inr ⟨_, rfl, wire_of_opening List.nil_prefix, fun h => absurd h hpatience⟩
  | ok s₁ =>
      obtain ⟨hw₁, -, ht₁⟩ := Session.await_ok hopen
      have hp₁ : patience = none → s₁.patience = none := Session.await_patience hopen
      simp only [bind, Except.bind]
      cases hcommand : s₁.write (ascii "zINSTREAM" ++ [0]) with
      | error s =>
          obtain ⟨rfl, hpatience⟩ := Session.await_error hcommand
          refine .inr ⟨_, rfl, wire_of_opening ?_, fun h => absurd (hp₁ h) hpatience⟩
          show s₁.written ++ command <+: command
          rw [hw₁]
          exact List.prefix_refl _
      | ok s₂ =>
          obtain ⟨hw₂, -, ht₂⟩ := Session.write_ok hcommand
          have hp₂ : patience = none → s₂.patience = none := fun h =>
            Session.write_patience hcommand (hp₁ h)
          have hwritten₂ : s₂.written = command := by
            rw [hw₂, hw₁]
            rfl
          have htotal₂ : s₂.totalBytes = 0 := ht₂.trans ht₁
          have hsends : Session.Sends cfg s₂ (chunks.flatMap (slices cfg.maxChunkBytes))
              (chunks.foldlM (Session.sendChunk cfg) s₂) :=
            Session.sends_chunks (by rw [htotal₂]; omega) hne
          simp only
          cases hsend : chunks.foldlM (Session.sendChunk cfg) s₂ with
          | error s =>
              rw [hsend] at hsends
              cases hsends with
              | @part _ sent htaken hwritten hlimit hearly =>
                  rw [htotal₂, Nat.zero_add] at hlimit hearly
                  refine .inr ⟨_, rfl, ⟨sent, htaken, hlimit, .inl ?_⟩, fun h => ?_⟩
                  · rw [hwritten, hwritten₂]
                  · rw [← size_payloads]
                    exact hearly (hp₂ h)
          | ok s₃ =>
              rw [hsend] at hsends
              cases hsends with
              | all hw₃ ht₃ hlimit hp₃ =>
                  have hfits : chunks.flatten.length ≤ cfg.maxStreamBytes := by
                    rw [← size_payloads cfg]
                    unfold payloads
                    omega
                  have hp₃ : patience = none → s₃.patience = none := fun h => hp₃ (hp₂ h)
                  have hwritten₃ : s₃.written = command ++ frames (payloads cfg chunks) := by
                    rw [hw₃, hwritten₂]
                    rfl
                  have hsize : size (payloads cfg chunks) ≤ cfg.maxStreamBytes := by
                    rw [size_payloads]
                    exact hfits
                  simp only
                  cases heof : s₃.await with
                  | error s =>
                      obtain ⟨rfl, hpatience⟩ := Session.await_error heof
                      refine .inr ⟨_, rfl, ⟨_, List.prefix_refl _, hsize, .inl ?_⟩,
                        fun h => absurd (hp₃ h) hpatience⟩
                      rw [hwritten₃]
                  | ok s₄ =>
                      obtain ⟨hw₄, -, -⟩ := Session.await_ok heof
                      have hp₄ : patience = none → s₄.patience = none := fun h =>
                        Session.await_patience heof (hp₃ h)
                      have hwhole : s₄.written ++ bigEndian32 0 =
                          command ++ (frames (payloads cfg chunks) ++ bigEndian32 0) := by
                        rw [hw₄, hwritten₃, List.append_assoc]
                      simp only
                      cases hend : s₄.write (bigEndian32 0) with
                      | error s =>
                          obtain ⟨rfl, hpatience⟩ := Session.await_error hend
                          refine .inr ⟨_, rfl, Finished.wire ⟨hfits, hwhole⟩,
                            fun h => absurd (hp₄ h) hpatience⟩
                      | ok s₅ =>
                          obtain ⟨hw₅, -, -⟩ := Session.write_ok hend
                          have hp₅ : patience = none → s₅.patience = none := fun h =>
                            Session.write_patience hend (hp₄ h)
                          simp only
                          cases hread : s₅.await with
                          | error s =>
                              obtain ⟨rfl, hpatience⟩ := Session.await_error hread
                              exact .inr ⟨_, rfl, Finished.wire ⟨hfits, hw₅.trans hwhole⟩,
                                fun h => absurd (hp₅ h) hpatience⟩
                          | ok s₆ =>
                              obtain ⟨hw₆, -, -⟩ := Session.await_ok hread
                              exact .inl ⟨s₆, ⟨hfits, hw₆.trans (hw₅.trans hwhole)⟩, rfl⟩

end scans

/-! ### The reply -/

def foundStart : Bytes := ascii "stream: "

def foundSuffix : Bytes := ascii " FOUND"

theorem parseResponse_eq_clean {response : Bytes} :
    parseResponse response = some .clean ↔ response = clearReply := by
  refine ⟨parseResponse_clean, ?_⟩
  rintro rfl
  decide

/-- The slice between the two affixes, where they do not overlap. -/
theorem take_drop_affixes {response start suffix : Bytes} (hstart : start <+: response)
    (hsuffix : suffix <:+ response)
    (hne : (response.drop start.length).take (response.length - suffix.length - start.length) ≠ []) :
    response =
      start ++ (response.drop start.length).take
        (response.length - suffix.length - start.length) ++ suffix := by
  obtain ⟨rest, rfl⟩ := hstart
  rw [List.drop_left] at hne ⊢
  obtain ⟨front, hfront⟩ := hsuffix
  have hlength : front.length + suffix.length = start.length + rest.length := by
    rw [← List.length_append, hfront, List.length_append]
  have hpos : start.length < front.length := by
    by_contra hle
    refine hne ?_
    rw [List.length_append, show start.length + rest.length - suffix.length - start.length = 0 by
      omega, List.take_zero]
  obtain ⟨middle, rfl⟩ : ∃ middle, front = start ++ middle :=
    (List.prefix_of_prefix_length_le (List.prefix_append start rest)
      (hfront ▸ List.prefix_append front suffix) hpos.le).imp fun _ h => h.symm
  rw [List.append_assoc] at hfront ⊢
  have hrest : middle ++ suffix = rest := (List.append_right_inj start).mp hfront
  subst hrest
  have hmiddle : (start ++ (middle ++ suffix)).length - suffix.length - start.length =
      middle.length := by
    simp only [List.length_append]
    omega
  rw [hmiddle, List.take_left]

theorem parseResponse_eq_infected {response : Bytes} {signature : Text} :
    parseResponse response = some (.infected signature) ↔
      ∃ name : Bytes, name ≠ [] ∧ (∀ b ∈ name, b.toNat < 128) ∧
        signature = name.map UInt8.toNat ∧ response = foundStart ++ name ++ foundSuffix := by
  constructor
  · intro h
    unfold parseResponse at h
    simp only at h
    split at h
    · cases h
    · split at h
      · cases h
      · rename_i haffixes
        simp only [Bool.not_eq_true, Bool.not_eq_false', Bool.and_eq_true,
          List.isPrefixOf_iff_prefix, List.isSuffixOf_iff_suffix] at haffixes
        split at h
        · cases h
        · rename_i hne
          split at h
          · rename_i hascii
            cases h
            refine ⟨_, hne, fun b hb => ?_, rfl, take_drop_affixes haffixes.1 haffixes.2 hne⟩
            exact of_decide_eq_true (List.all_eq_true.mp hascii b hb)
          · cases h
  · rintro ⟨name, hne, hascii, rfl, rfl⟩
    have hstart : foundStart.length = 8 := by decide
    have hsuffix : foundSuffix.length = 6 := by decide
    have hclear : foundStart ++ name ++ foundSuffix ≠ clearReply := by
      intro h
      have hlength := congrArg List.length h
      simp only [List.length_append, hstart, hsuffix] at hlength
      have hten : clearReply.length = 10 := by decide
      omega
    have htaken : foundStart.isPrefixOf (foundStart ++ name ++ foundSuffix) = true := by
      rw [List.isPrefixOf_iff_prefix, List.append_assoc]
      exact List.prefix_append _ _
    have hends : foundSuffix.isSuffixOf (foundStart ++ name ++ foundSuffix) = true := by
      rw [List.isSuffixOf_iff_suffix]
      exact List.suffix_append _ _
    have hslice : ((foundStart ++ name ++ foundSuffix).drop foundStart.length).take
        ((foundStart ++ name ++ foundSuffix).length - foundSuffix.length - foundStart.length) =
        name := by
      have hcount : (foundStart ++ name ++ foundSuffix).length - foundSuffix.length -
          foundStart.length = name.length := by
        simp only [List.length_append]
        omega
      rw [hcount, List.append_assoc, List.drop_left, List.take_left]
    have hall : name.all (fun b => b.toNat < 128) = true := by
      rw [List.all_eq_true]
      exact fun b hb => decide_eq_true (hascii b hb)
    unfold foundStart foundSuffix at *
    simp only [parseResponse, if_neg hclear, htaken, hends, hslice, if_neg hne, hall]
    rfl

theorem readReply_eq {cfg : ScannerConfig} {reply rest : Bytes} (hzero : 0 ∉ reply)
    (hlength : reply.length ≤ cfg.maxResponseBytes) :
    readReply cfg (reply ++ 0 :: rest) = some reply := by
  have htake : (reply ++ 0 :: rest).takeWhile (· != 0) = reply := by
    rw [List.takeWhile_append_of_pos]
    · simp
    · intro b hb
      rw [bne_iff_ne]
      exact fun h => hzero (h ▸ hb)
  have hmem : (0 : UInt8) ∈ reply ++ 0 :: rest :=
    List.mem_append_right _ List.mem_cons_self
  unfold readReply
  simp only [htake]
  exact if_pos ⟨hmem, hlength⟩

/-- A scan of nonempty chunks: a stream within the limit is sent as one
conversation that reads back to the chunks, a longer one fails before a frame
crosses the limit, and the verdict is what the reply says. -/
theorem scan_instream (cfg : ScannerConfig) {chunks : List Bytes} (hne : ∀ c ∈ chunks, c ≠ [])
    (received : Bytes) (patience : Option Nat) :
    (chunks.flatten.length ≤ cfg.maxStreamBytes →
      ∃ wire payloads, readInstream wire = some payloads ∧ payloads.flatten = chunks.flatten ∧
        (∀ p ∈ payloads, p ≠ [] ∧ p.length ≤ cfg.maxChunkBytes) ∧
        (Session.final (scan cfg (some chunks) received patience)).written <+: wire ∧
        (patience = none →
          (Session.final (scan cfg (some chunks) received patience)).written = wire)) ∧
    (cfg.maxStreamBytes < chunks.flatten.length →
      verdict? (scan cfg (some chunks) received patience) = none ∧
      ∃ sent, (Session.final (scan cfg (some chunks) received patience)).written <+:
          command ++ frames sent ∧
        sent.flatten <+: chunks.flatten ∧ sent.flatten.length ≤ cfg.maxStreamBytes) ∧
    (chunks.flatten.length ≤ cfg.maxStreamBytes → patience = none →
      ∀ reply rest, received = reply ++ 0 :: rest → 0 ∉ reply →
        reply.length ≤ cfg.maxResponseBytes →
        (verdict? (scan cfg (some chunks) received patience) = some .clean ↔
          reply = ascii "stream: OK") ∧
        ∀ signature, verdict? (scan cfg (some chunks) received patience) =
            some (.infected signature) ↔
          ∃ name : Bytes, name ≠ [] ∧ (∀ b ∈ name, b.toNat < 128) ∧
            signature = name.map UInt8.toNat ∧
            reply = ascii "stream: " ++ name ++ ascii " FOUND") := by
  have hflatten := flatten_flatMap_slices cfg chunks
  have hmax := cfg.chunkRange.2
  have hread : readInstream (command ++ (frames (payloads cfg chunks) ++ bigEndian32 0)) =
      some (payloads cfg chunks) := by
    refine readInstream_frames fun p hp => ?_
    obtain ⟨hpne, hlength⟩ := mem_payloads hp
    exact ⟨hpne, by omega⟩
  rcases scan_cases cfg received patience hne with
    ⟨s, hfinished, hscan⟩ | ⟨s, hscan, hwire, hearly⟩
  · have hfinal : Session.final (scan cfg (some chunks) received patience) = s := by
      rw [hscan]
      split <;> rfl
    have hverdict : verdict? (scan cfg (some chunks) received patience) =
        (readReply cfg received).bind parseResponse := by
      rw [hscan]
      split
      · rename_i hnone
        exact hnone.symm
      · rename_i verdict hsome
        exact hsome.symm
    refine ⟨fun _ => ⟨_, _, hread, hflatten, fun p => mem_payloads, ?_, fun _ => ?_⟩,
      fun hover => absurd hfinished.fits (Nat.not_le.mpr hover), ?_⟩
    · rw [hfinal, hfinished.written]
    · rw [hfinal, hfinished.written]
    · intro _ _ reply rest hreceived hzero hlength
      rw [hverdict, hreceived, readReply_eq hzero hlength]
      exact ⟨parseResponse_eq_clean, fun signature => parseResponse_eq_infected⟩
  · obtain ⟨sent, htaken, hsize, hwritten⟩ := hwire.sent
    refine ⟨fun hfits => ⟨_, _, hread, hflatten, fun p => mem_payloads, ?_, fun hnone => ?_⟩,
      fun hover => ⟨by rw [hscan]; rfl, sent, ?_, ?_, ?_⟩, fun hfits hnone => ?_⟩
    · rw [hscan]
      rcases hwritten with hwritten | ⟨rfl, hwritten⟩
      · refine hwritten.trans ?_
        obtain ⟨rest, hrest⟩ := htaken
        rw [← hrest, frames_append, List.append_assoc]
        exact (List.prefix_append_right_inj _).mpr (List.prefix_append _ _)
      · exact hwritten
    · exact absurd (hearly hnone) (Nat.not_lt.mpr hfits)
    · rw [hscan]
      rcases hwritten with hwritten | ⟨rfl, -⟩
      · exact hwritten
      · rw [size_payloads] at hsize
        exact absurd hsize (Nat.not_le.mpr hover)
    · rw [← hflatten]
      obtain ⟨rest, hrest⟩ := htaken
      rw [show chunks.flatMap (slices cfg.maxChunkBytes) = payloads cfg chunks from rfl, ← hrest,
        List.flatten_append]
      exact List.prefix_append _ _
    · rw [length_flatten]
      exact hsize
    · exact absurd (hearly hnone) (Nat.not_lt.mpr hfits)

/-- Seven bytes in frames of at most three, and a clean reply. -/
theorem scan_instream_split :
    ∃ wire payloads, readInstream wire = some payloads ∧ payloads.flatten = ascii "abcdefg" ∧
      (∀ p ∈ payloads, p ≠ [] ∧ p.length ≤ 3) ∧
      (Session.final (scan ⟨3, 7, 512, by decide, by decide, by decide⟩ (some [ascii "abcdefg"])
        (ascii "stream: OK" ++ [0]) none)).written <+: wire := by
  obtain ⟨wire, payloads, hread, hflatten, hsizes, htaken, -⟩ :=
    (scan_instream ⟨3, 7, 512, by decide, by decide, by decide⟩
      (show ∀ c ∈ [ascii "abcdefg"], c ≠ [] by decide) (ascii "stream: OK" ++ [0]) none).1 (by decide)
  exact ⟨wire, payloads, hread, hflatten, hsizes, htaken⟩

end SuperBoss.Infrastructure.Clamav
