import SuperBoss.Core.Encoding

/-!
`ipaddress`. Dotted quads are read digit by digit; IPv6 literals come with what
the library documents of them.
-/

namespace SuperBoss.Core

/-- The properties of an address that the library derives from its registries. -/
structure AddressTraits where
  isGlobal : Bool
  isLoopback : Bool
  isLinkLocal : Bool
  isMulticast : Bool
  isUnspecified : Bool
  isReserved : Bool
  isPrivate : Bool
  deriving DecidableEq

structure IPv4Address where
  first : UInt8
  second : UInt8
  third : UInt8
  fourth : UInt8
  deriving DecidableEq

namespace IPv4Address

def isDigit (c : Nat) : Bool := 48 ≤ c && c ≤ 57

/-- `_parse_octet`: at most three ASCII digits, without a leading zero. -/
def parseOctet (t : Text) : Option UInt8 :=
  if t ≠ [] ∧ t.all isDigit = true ∧ t.length ≤ 3 ∧ (t = [48] ∨ t.head? ≠ some 48) ∧
      Text.toInt t ≤ 255 then
    some (UInt8.ofNat (Text.toInt t))
  else none

def parse (t : Text) : Option IPv4Address :=
  match t.splitOn 46 with
  | [a, b, c, d] => do
      some ⟨← parseOctet a, ← parseOctet b, ← parseOctet c, ← parseOctet d⟩
  | _ => none

def octets (x : IPv4Address) : List UInt8 := [x.first, x.second, x.third, x.fourth]

/-- `str` of the address. -/
def compressed (x : IPv4Address) : Text :=
  Text.join [46] (x.octets.map fun b => Text.ofNat b.toNat)

def toNat (x : IPv4Address) : Nat := x.octets.foldl (fun n b => 256 * n + b.toNat) 0

/-- Whether the address lies in the network that begins like `x` for `bits` bits. -/
def inNetwork (bits : Nat) (network x : IPv4Address) : Bool :=
  x.toNat / 2 ^ (32 - bits) == network.toNat / 2 ^ (32 - bits)

/-- `_private_networks` and `_private_networks_exceptions`. -/
def isPrivate (x : IPv4Address) : Bool :=
  (inNetwork 8 ⟨0, 0, 0, 0⟩ x || inNetwork 8 ⟨10, 0, 0, 0⟩ x || inNetwork 8 ⟨127, 0, 0, 0⟩ x ||
    inNetwork 16 ⟨169, 254, 0, 0⟩ x || inNetwork 12 ⟨172, 16, 0, 0⟩ x ||
    inNetwork 24 ⟨192, 0, 0, 0⟩ x || inNetwork 31 ⟨192, 0, 0, 170⟩ x ||
    inNetwork 24 ⟨192, 0, 2, 0⟩ x || inNetwork 16 ⟨192, 168, 0, 0⟩ x ||
    inNetwork 15 ⟨198, 18, 0, 0⟩ x || inNetwork 24 ⟨198, 51, 100, 0⟩ x ||
    inNetwork 24 ⟨203, 0, 113, 0⟩ x || inNetwork 4 ⟨240, 0, 0, 0⟩ x ||
    inNetwork 32 ⟨255, 255, 255, 255⟩ x) &&
  !(inNetwork 32 ⟨192, 0, 0, 9⟩ x || inNetwork 32 ⟨192, 0, 0, 10⟩ x)

def traits (x : IPv4Address) : AddressTraits :=
  { isGlobal := !inNetwork 10 ⟨100, 64, 0, 0⟩ x && !x.isPrivate
    isLoopback := inNetwork 8 ⟨127, 0, 0, 0⟩ x
    isLinkLocal := inNetwork 16 ⟨169, 254, 0, 0⟩ x
    isMulticast := inNetwork 4 ⟨224, 0, 0, 0⟩ x
    isUnspecified := inNetwork 32 ⟨0, 0, 0, 0⟩ x
    isReserved := inNetwork 4 ⟨240, 0, 0, 0⟩ x
    isPrivate := x.isPrivate }

theorem isDigit_iff {c : Nat} : isDigit c = true ↔ 48 ≤ c ∧ c ≤ 57 := by
  simp [isDigit]

theorem ofNat_parseOctet {t : Text} {b : UInt8} (h : parseOctet t = some b) :
    Text.ofNat b.toNat = t := by
  obtain ⟨⟨hne, hdigits, -, hhead, hle⟩, hb⟩ := Option.ite_none_right_eq_some.mp h
  cases hb
  rw [Text.toNat_ofNat (by omega)]
  refine Text.ofNat_toInt (fun c hc => isDigit_iff.mp (List.all_eq_true.mp hdigits c hc)) ?_
  rcases hhead with hzero | hhead
  · exact .inl hzero
  · obtain ⟨c, s, rfl⟩ := List.exists_cons_of_ne_nil hne
    exact .inr ⟨c, s, rfl, fun hc => hhead (congrArg some hc)⟩

/-- The octets of a text that is read as an address. -/
theorem parse_eq_some {t : Text} {x : IPv4Address} (h : parse t = some x) :
    ∃ a b c d, t.splitOn 46 = [a, b, c, d] ∧ parseOctet a = some x.first ∧
      parseOctet b = some x.second ∧ parseOctet c = some x.third ∧
      parseOctet d = some x.fourth := by
  unfold parse at h
  split at h
  · rename_i a b c d hsplit
    simp only [Option.bind_eq_bind, Option.bind_eq_some_iff, Option.some.injEq] at h
    obtain ⟨a', ha, b', hb, c', hc, d', hd, rfl⟩ := h
    exact ⟨a, b, c, d, hsplit, ha, hb, hc, hd⟩
  · cases h

/-- A dotted quad is its own canonical text. -/
theorem compressed_parse {t : Text} {x : IPv4Address} (h : parse t = some x) :
    x.compressed = t := by
  obtain ⟨a, b, c, d, hsplit, ha, hb, hc, hd⟩ := parse_eq_some h
  calc
    x.compressed = Text.join [46] [a, b, c, d] := by
      simp only [compressed, octets, List.map_cons, List.map_nil, ofNat_parseOctet ha,
        ofNat_parseOctet hb, ofNat_parseOctet hc, ofNat_parseOctet hd]
    _ = List.intercalate [46] [a, b, c, d] := by simp [Text.join, List.intercalate]
    _ = t := by rw [← hsplit, List.intercalate_splitOn]

end IPv4Address

/-- IPv6 literals: `A` stands for the addresses. A literal has a colon, and one
without a scope is no longer one with a final dot; the canonical text is a
literal of the same address, in lower case. -/
structure IPv6Library (A : Type) where
  parse : Text → Option A
  compressed : A → Text
  traits : A → AddressTraits
  parse_colon : ∀ {t a}, parse t = some a → 58 ∈ t
  parse_dot : ∀ {t a}, 37 ∉ t → parse t = some a → t.getLast? ≠ some 46
  parse_compressed : ∀ {t a}, parse t = some a → parse (compressed a) = some a
  compressed_text : ∀ {t a}, 37 ∉ t → parse t = some a →
    ∀ c ∈ compressed a, Text.isLowerHex c = true ∨ c = 58 ∨ c = 46

inductive IPAddress (A : Type)
  | v4 (x : IPv4Address)
  | v6 (a : A)
  deriving DecidableEq

namespace IPv6Library

variable {A : Type} (V : IPv6Library A)

/-- `ipaddress.ip_address`; `none` is its `ValueError`. -/
def ipAddress (t : Text) : Option (IPAddress A) :=
  match IPv4Address.parse t with
  | some x => some (.v4 x)
  | none => (V.parse t).map .v6

def text : IPAddress A → Text
  | .v4 x => x.compressed
  | .v6 a => V.compressed a

def traitsOf : IPAddress A → AddressTraits
  | .v4 x => x.traits
  | .v6 a => V.traits a

variable {V}

theorem ipAddress_eq_v4 {t : Text} {x : IPv4Address} :
    V.ipAddress t = some (.v4 x) ↔ IPv4Address.parse t = some x := by
  unfold ipAddress
  constructor
  · intro h
    split at h
    · rename_i y hy
      cases h
      exact hy
    · obtain ⟨a, -, ha⟩ := Option.map_eq_some_iff.mp h
      cases ha
  · intro h
    rw [h]

theorem ipAddress_eq_v6 {t : Text} {a : A} (h : V.ipAddress t = some (.v6 a)) :
    V.parse t = some a := by
  unfold ipAddress at h
  split at h
  · cases h
  · obtain ⟨b, hb, hab⟩ := Option.map_eq_some_iff.mp h
    cases hab
    exact hb

end IPv6Library

end SuperBoss.Core
