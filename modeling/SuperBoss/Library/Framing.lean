import Mathlib.Algebra.Group.Nat.Defs
import Mathlib.Data.List.Basic
import Mathlib.Data.Nat.Basic
import Mathlib.Tactic.Common

/-!
Byte streams cut into slices of bounded length and sent as frames: a 32-bit
big-endian length before each slice, and a zero length at the end.
-/

namespace SuperBoss.Library.Framing

universe u

/-- The slices `l[i : i + m]` for `i` in `range(0, len(l), m)`. -/
def slices {α : Type u} (m : Nat) (l : List α) : List (List α) :=
  (List.range ((l.length + m - 1) / m)).map fun i => (l.drop (i * m)).take m

theorem flatten_slices_range {α : Type u} (m k : Nat) (l : List α) :
    ((List.range k).map fun i => (l.drop (i * m)).take m).flatten = l.take (k * m) := by
  induction k with
  | zero => simp
  | succ k ih =>
      rw [List.range_succ, List.map_append, List.flatten_append, ih, Nat.succ_mul, List.take_add]
      simp

theorem flatten_slices {α : Type u} {m : Nat} (hm : 0 < m) (l : List α) :
    (slices m l).flatten = l := by
  rw [slices, flatten_slices_range]
  refine List.take_of_length_le ?_
  have hdiv := Nat.div_add_mod (l.length + m - 1) m
  have hmod := Nat.mod_lt (l.length + m - 1) hm
  rw [Nat.mul_comm] at hdiv
  omega

theorem getElem?_slices {α : Type u} {m i : Nat} {l s : List α} (h : (slices m l)[i]? = some s) :
    i < (l.length + m - 1) / m ∧ s = (l.drop (i * m)).take m := by
  rw [slices, List.getElem?_map] at h
  obtain ⟨j, hj, rfl⟩ := Option.map_eq_some_iff.mp h
  obtain ⟨hi, rfl⟩ := List.getElem?_eq_some_iff.mp hj
  rw [List.length_range] at hi
  exact ⟨hi, by rw [List.getElem_range]⟩

theorem length_slices {α : Type u} (m : Nat) (l : List α) :
    (slices m l).length = (l.length + m - 1) / m := by
  rw [slices, List.length_map, List.length_range]

/-- The number of slices and the lengths that they should have tell the length of the whole. -/
theorem length_eq_of_slices {α : Type u} {m size : Nat} (hm : 0 < m) {l : List α}
    (hcount : (slices m l).length = (size + m - 1) / m)
    (hlengths : ∀ i s, (slices m l)[i]? = some s → s.length = min m (size - i * m)) :
    l.length = size := by
  have hbounds : ∀ n k, (n + m - 1) / m = k → (k - 1) * m ≤ n ∧ n ≤ k * m ∧ (0 < k ↔ 0 < n) := by
    rintro n k rfl
    have hdiv := Nat.div_add_mod (n + m - 1) m
    have hmod := Nat.mod_lt (n + m - 1) hm
    rw [Nat.mul_comm] at hdiv
    rw [Nat.sub_mul, Nat.one_mul]
    refine ⟨by omega, by omega, ?_, fun hn => Nat.div_pos (by omega) hm⟩
    intro hk
    have hle := Nat.mul_le_mul_right m hk
    omega
  rw [length_slices] at hcount
  obtain ⟨hlow, hhigh, hpos⟩ := hbounds l.length _ rfl
  obtain ⟨hlow', hhigh', hpos'⟩ := hbounds size _ rfl
  rw [← hcount] at hlow' hhigh' hpos'
  rcases Nat.eq_zero_or_pos l.length with hzero | hl
  · have hsize : ¬0 < size := fun hs => absurd (hpos.mp (hpos'.mpr hs)) (by omega)
    omega
  · -- The last slice of both has between one and `m` items.
    have hk := hpos.mpr hl
    have hlast : (l.length + m - 1) / m - 1 < (slices m l).length := by
      rw [length_slices]
      omega
    have hget := List.getElem?_eq_getElem hlast
    have hlength := hlengths _ _ hget
    rw [(getElem?_slices hget).2, List.length_take, List.length_drop] at hlength
    have hstep : (l.length + m - 1) / m * m = ((l.length + m - 1) / m - 1) * m + m := by
      rw [← Nat.succ_mul, Nat.succ_eq_add_one, Nat.sub_add_cancel hk]
    omega

theorem mem_slices {α : Type u} {m : Nat} {l s : List α} (h : s ∈ slices m l) :
    s ≠ [] ∧ s.length ≤ m := by
  obtain ⟨i, hi, rfl⟩ := List.mem_map.mp h
  have hlt := List.mem_range.mp hi
  have hm : 0 < m := by
    rcases Nat.eq_zero_or_pos m with rfl | hm
    · simp at hlt
    · exact hm
  have hstart : i * m < l.length := by
    have hle : (i + 1) * m ≤ l.length + m - 1 := (Nat.le_div_iff_mul_le hm).mp hlt
    rw [Nat.succ_mul] at hle
    omega
  refine ⟨?_, List.length_take_le m _⟩
  rw [← List.length_pos_iff_ne_nil, List.length_take, List.length_drop]
  omega

/-- `struct.pack("!I", n)` for `n < 2 ^ 32`. -/
def bigEndian32 (n : Nat) : List UInt8 :=
  [UInt8.ofNat (n / 2 ^ 24), UInt8.ofNat (n / 2 ^ 16), UInt8.ofNat (n / 2 ^ 8), UInt8.ofNat n]

def frame (payload : List UInt8) : List UInt8 := bigEndian32 payload.length ++ payload

/-- A terminated stream of frames and the payloads it carries. A zero length
ends the stream, so a frame is never empty. -/
inductive Framed : List UInt8 → List (List UInt8) → Prop
  | done : Framed (bigEndian32 0) []
  | cons {payload wire : List UInt8} {payloads : List (List UInt8)} (hne : payload ≠ [])
      (hlen : payload.length < 2 ^ 32) (h : Framed wire payloads) :
      Framed (frame payload ++ wire) (payload :: payloads)

theorem framed_of_frames {payloads : List (List UInt8)}
    (h : ∀ p ∈ payloads, p ≠ [] ∧ p.length < 2 ^ 32) :
    Framed ((payloads.map frame).flatten ++ bigEndian32 0) payloads := by
  induction payloads with
  | nil => exact .done
  | cons p ps ih =>
      rw [List.map_cons, List.flatten_cons, List.append_assoc]
      obtain ⟨hne, hlen⟩ := h p List.mem_cons_self
      exact .cons hne hlen (ih fun q hq => h q (List.mem_cons_of_mem p hq))

/-! ### Reading a stream -/

def readLength : List UInt8 → Option (Nat × List UInt8)
  | a :: b :: c :: d :: rest =>
      some (a.toNat * 2 ^ 24 + b.toNat * 2 ^ 16 + c.toNat * 2 ^ 8 + d.toNat, rest)
  | _ => none

/-- The payloads up to the zero length, and what follows it. A stream has at
most one payload for each of its bytes, which bounds the steps. -/
def readFrames : Nat → List UInt8 → Option (List (List UInt8) × List UInt8)
  | 0, _ => none
  | steps + 1, wire =>
      match readLength wire with
      | none => none
      | some (n, rest) =>
          if n = 0 then some ([], rest)
          else if rest.length < n then none
          else (readFrames steps (rest.drop n)).map fun r => (rest.take n :: r.1, r.2)

theorem toNat_byte (n : Nat) : (UInt8.ofNat n).toNat = n % 256 := UInt8.toNat_ofNat'

theorem readLength_bigEndian32 {n : Nat} (h : n < 2 ^ 32) (rest : List UInt8) :
    readLength (bigEndian32 n ++ rest) = some (n, rest) := by
  have hbytes : n / 2 ^ 24 % 256 * 2 ^ 24 + n / 2 ^ 16 % 256 * 2 ^ 16 + n / 2 ^ 8 % 256 * 2 ^ 8 +
      n % 256 = n := by
    omega
  unfold bigEndian32
  rw [List.cons_append, List.cons_append, List.cons_append, List.cons_append, List.nil_append,
    readLength, toNat_byte, toNat_byte, toNat_byte, toNat_byte, hbytes]

theorem length_frame (payload : List UInt8) : (frame payload).length = payload.length + 4 := by
  rw [frame, List.length_append, Nat.add_comm]
  rfl

/-- Frames that were written are read back. -/
theorem readFrames_frames {payloads : List (List UInt8)} (steps : Nat) (rest : List UInt8)
    (h : ∀ p ∈ payloads, p ≠ [] ∧ p.length < 2 ^ 32) (hsteps : payloads.length < steps) :
    readFrames steps ((payloads.map frame).flatten ++ (bigEndian32 0 ++ rest)) =
      some (payloads, rest) := by
  induction payloads generalizing steps with
  | nil =>
      cases steps with
      | zero => cases hsteps
      | succ steps =>
          rw [List.map_nil, List.flatten_nil, List.nil_append, readFrames,
            readLength_bigEndian32 (by decide)]
          exact if_pos rfl
  | cons p ps ih =>
      cases steps with
      | zero => cases hsteps
      | succ steps =>
          obtain ⟨hne, hlen⟩ := h p List.mem_cons_self
          have hrest := ih steps (fun q hq => h q (List.mem_cons_of_mem p hq))
            (Nat.lt_of_succ_lt_succ hsteps)
          have hpos : p.length ≠ 0 := fun h => hne (List.length_eq_zero_iff.mp h)
          simp only [List.map_cons, List.flatten_cons, frame, List.append_assoc, readFrames,
            readLength_bigEndian32 hlen, if_neg hpos]
          rw [if_neg (by rw [List.length_append]; omega), List.drop_left, List.take_left, hrest]
          rfl

end SuperBoss.Library.Framing
