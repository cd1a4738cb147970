import SuperBoss.Core.Encoding

/-!
`json.loads`, and that it reads back what `json.dumps` has written.
-/

namespace SuperBoss.Core

namespace Text

/-- The bytes of a code point, surrogates included. -/
def pointBytes (c : Nat) : Bytes :=
  if c < 0x80 then [UInt8.ofNat c]
  else if c < 0x800 then [UInt8.ofNat (0xC0 + c / 0x40), UInt8.ofNat (0x80 + c % 0x40)]
  else if c < 0x10000 then
    [UInt8.ofNat (0xE0 + c / 0x1000), UInt8.ofNat (0x80 + c / 0x40 % 0x40),
      UInt8.ofNat (0x80 + c % 0x40)]
  else
    [UInt8.ofNat (0xF0 + c / 0x40000), UInt8.ofNat (0x80 + c / 0x1000 % 0x40),
      UInt8.ofNat (0x80 + c / 0x40 % 0x40), UInt8.ofNat (0x80 + c % 0x40)]

/-- `bytes.decode("utf-8", "surrogatepass")` of at most so many points. -/
def decodePoints : Nat → Bytes → Option Text
  | _, [] => some []
  | 0, _ :: _ => none
  | points + 1, b =>
      let (c, rest) := readPoint b
      if c < 0x110000 ∧ pointBytes c ++ rest = b then (decodePoints points rest).map (c :: ·)
      else none

def decodeUtf8 (b : Bytes) : Option Text := decodePoints b.length b

theorem eq_pointBytes {c : Nat} {x : Bytes} (h : encodePoint c = some x) :
    x = pointBytes c ∧ c < 0x110000 := by
  unfold encodePoint at h
  split at h
  · cases h
  · rename_i hpoint
    simp only [isSurrogate, Bool.or_eq_true, decide_eq_true_eq, not_or, Nat.not_le] at hpoint
    refine ⟨?_, hpoint.2⟩
    unfold pointBytes
    split_ifs at h ⊢ <;> exact (Option.some.inj h).symm

theorem decodePoints_utf8 {t : Text} {b : Bytes} (h : utf8 t = some b) {points : Nat}
    (hpoints : t.length ≤ points) : decodePoints points b = some t := by
  induction t generalizing b points with
  | nil =>
      cases h
      cases points <;> rfl
  | cons c t ih =>
      obtain ⟨x, y, hx, hy, rfl⟩ := utf8_cons h
      obtain ⟨points, rfl⟩ : ∃ n, points = n + 1 := ⟨points - 1, by simp at hpoints; omega⟩
      obtain ⟨rfl, hlt⟩ := eq_pointBytes hx
      have hne : pointBytes c ≠ [] := fun hnil => encodePoint_ne_nil (hnil ▸ hx)
      obtain ⟨b, bs, hcons⟩ := List.exists_cons_of_ne_nil hne
      have hread := readPoint_encodePoint hx y
      rw [hcons, List.cons_append] at hread ⊢
      simp only [decodePoints, hread]
      rw [if_pos ⟨hlt, by rw [hcons, List.cons_append]⟩,
        ih hy (by simpa using hpoints)]
      rfl

theorem length_le_of_utf8 {t : Text} {b : Bytes} (h : utf8 t = some b) : t.length ≤ b.length := by
  induction t generalizing b with
  | nil => exact Nat.zero_le _
  | cons c t ih =>
      obtain ⟨x, y, hx, hy, rfl⟩ := utf8_cons h
      have hpos : 0 < x.length := List.length_pos_iff_ne_nil.mpr fun hnil =>
        encodePoint_ne_nil (hnil ▸ hx)
      have hle := ih hy
      rw [List.length_append, List.length_cons]
      omega

theorem decodeUtf8_utf8 {t : Text} {b : Bytes} (h : utf8 t = some b) : decodeUtf8 b = some t :=
  decodePoints_utf8 h (length_le_of_utf8 h)

end Text

namespace Json

/-! ### The scanner -/

def isSpace (c : Nat) : Bool := c == 32 || c == 9 || c == 10 || c == 13

def skipSpace (t : Text) : Text := t.dropWhile isSpace

def isDecimal (c : Nat) : Bool := 48 ≤ c && c ≤ 57

/-- A hexadecimal digit in either case. -/
def hexValue? (c : Nat) : Option Nat :=
  if 48 ≤ c ∧ c ≤ 57 then some (c - 48)
  else if 97 ≤ c ∧ c ≤ 102 then some (c - 87)
  else if 65 ≤ c ∧ c ≤ 70 then some (c - 55)
  else none

/-- The four digits after `\u`. -/
def scanHex : Text → Option (Nat × Text)
  | a :: b :: c :: d :: rest => do
      let a ← hexValue? a
      let b ← hexValue? b
      let c ← hexValue? c
      let d ← hexValue? d
      some (((a * 16 + b) * 16 + c) * 16 + d, rest)
  | _ => none

/-- A high surrogate and a low one that is escaped right after it are one point. -/
def joinSurrogates (u : Nat) : Text → Nat × Text
  | 92 :: 117 :: rest =>
      match scanHex rest with
      | some (v, rest') =>
          if 0xD800 ≤ u ∧ u ≤ 0xDBFF ∧ 0xDC00 ≤ v ∧ v ≤ 0xDFFF then
            (0x10000 + (u - 0xD800) * 0x400 + (v - 0xDC00), rest')
          else (u, 92 :: 117 :: rest)
      | none => (u, 92 :: 117 :: rest)
  | rest => (u, rest)

/-- The other escapes. -/
def unescape (c : Nat) : Option Nat :=
  if c = 34 ∨ c = 92 ∨ c = 47 then some c
  else if c = 98 then some 8
  else if c = 102 then some 12
  else if c = 110 then some 10
  else if c = 114 then some 13
  else if c = 116 then some 9
  else none

/-- A string after its opening quote, with at most so many characters. -/
def scanString : Nat → Text → Option (Text × Text)
  | 0, _ => none
  | steps + 1, t =>
      match t with
      | [] => none
      | 34 :: rest => some ([], rest)
      | 92 :: 117 :: rest => do
          let (u, rest) ← scanHex rest
          let (c, rest) := joinSurrogates u rest
          (scanString steps rest).map fun r => (c :: r.1, r.2)
      | 92 :: c :: rest => do
          let c ← unescape c
          (scanString steps rest).map fun r => (c :: r.1, r.2)
      | c :: rest =>
          if c < 32 ∨ c = 92 then none else (scanString steps rest).map fun r => (c :: r.1, r.2)

def scanFraction : Text → Text × Text
  | 46 :: rest =>
      let (digits, rest') := rest.span isDecimal
      if digits = [] then ([], 46 :: rest) else (46 :: digits, rest')
  | rest => ([], rest)

def scanExponent (t : Text) : Text × Text :=
  match t with
  | e :: rest =>
      if e = 101 ∨ e = 69 then
        let sign := rest.takeWhile fun c => c == 43 || c == 45
        let (digits, rest') := (rest.drop sign.length).span isDecimal
        if digits = [] ∨ 1 < sign.length then ([], t) else (e :: (sign ++ digits), rest')
      else ([], t)
  | [] => ([], [])

/-- The digits before a fraction: no others follow a leading zero. -/
def scanWhole : Text → Text × Text
  | 48 :: rest => ([48], rest)
  | t => t.span isDecimal

def scanNumber (t : Text) : Option (Json × Text) :=
  let negative := t.head? == some 45
  let (whole, rest) := scanWhole (if negative then t.tail else t)
  if whole = [] then none
  else
    let (fraction, rest) := scanFraction rest
    let (exponent, rest) := scanExponent rest
    if fraction = [] ∧ exponent = [] then
      some (.int (if negative then -(Text.toInt whole : Int) else Text.toInt whole), rest)
    else some (.float ((if negative then [45] else []) ++ whole ++ fraction ++ exponent), rest)

/-- The words that stand for values, in Python also the numbers that are none. -/
def literals : List (String × Json) :=
  [("null", .null), ("true", .bool true), ("false", .bool false),
    ("NaN", .float (Text.ofString "NaN")), ("Infinity", .float (Text.ofString "Infinity")),
    ("-Infinity", .float (Text.ofString "-Infinity"))]

def scanLiteral (t : Text) : Option (Json × Text) :=
  (literals.find? fun l => (Text.ofString l.1).isPrefixOf t).map fun l =>
    (l.2, t.drop (Text.ofString l.1).length)

/-- `d[key] = value`. -/
def setItem (fields : List (Text × Json)) (f : Text × Json) : List (Text × Json) :=
  if fields.any fun g => g.1 == f.1 then fields.map fun g => if g.1 == f.1 then f else g
  else fields ++ [f]

mutual

/-- A value, with at most so many steps. -/
def scanValue : Nat → Text → Option (Json × Text)
  | 0, _ => none
  | steps + 1, t =>
      match t with
      | 34 :: rest => (scanString (rest.length + 1) rest).map fun r => (.str r.1, r.2)
      | 91 :: rest =>
          match skipSpace rest with
          | 93 :: rest => some (.arr [], rest)
          | rest => (scanItems steps rest).map fun r => (.arr r.1, r.2)
      | 123 :: rest =>
          match skipSpace rest with
          | 125 :: rest => some (.obj [], rest)
          | rest => (scanMembers steps rest).map fun r => (.obj (r.1.foldl setItem []), r.2)
      | t => (scanLiteral t).or (scanNumber t)

def scanItems : Nat → Text → Option (List Json × Text)
  | 0, _ => none
  | steps + 1, t =>
      match scanValue steps t with
      | none => none
      | some (x, rest) =>
          match skipSpace rest with
          | 44 :: rest => (scanItems steps (skipSpace rest)).map fun r => (x :: r.1, r.2)
          | 93 :: rest => some ([x], rest)
          | _ => none

def scanMembers : Nat → Text → Option (List (Text × Json) × Text)
  | 0, _ => none
  | steps + 1, t =>
      match t with
      | 34 :: rest =>
          match scanString (rest.length + 1) rest with
          | none => none
          | some (key, rest) =>
              match skipSpace rest with
              | 58 :: rest =>
                  match scanValue steps (skipSpace rest) with
                  | none => none
                  | some (x, rest) =>
                      match skipSpace rest with
                      | 44 :: rest =>
                          (scanMembers steps (skipSpace rest)).map fun r => ((key, x) :: r.1, r.2)
                      | 125 :: rest => some ([(key, x)], rest)
                      | _ => none
              | _ => none
      | _ => none

end

/-- `json.loads` of a string. -/
def parse (t : Text) : Option Json :=
  match scanValue (2 * t.length + 2) (skipSpace t) with
  | some (j, rest) => if skipSpace rest = [] then some j else none
  | none => none

/-- `json.loads` of bytes in UTF-8. -/
def loads (b : Bytes) : Option Json := (Text.decodeUtf8 b).bind parse

/-! ### What is written -/

mutual

/-- No floating-point numbers, and no key twice in an object. -/
def Plain : Json → Prop
  | .null | .bool _ | .int _ | .str _ => True
  | .float _ => False
  | .arr items => PlainItems items
  | .obj fields => (fields.map Prod.fst).Nodup ∧ PlainFields fields

def PlainItems : List Json → Prop
  | [] => True
  | x :: xs => Plain x ∧ PlainItems xs

def PlainFields : List (Text × Json) → Prop
  | [] => True
  | (_, x) :: xs => Plain x ∧ PlainFields xs

end

def keyLe (f g : Text × Json) : Prop := f.1 ≤ g.1

instance : DecidableRel keyLe := fun f g => inferInstanceAs (Decidable (f.1 ≤ g.1))

mutual

/-- A value with the fields of its objects in the order of `sort_keys`. -/
def canon : Json → Json
  | .null => .null
  | .bool b => .bool b
  | .int n => .int n
  | .float literal => .float literal
  | .str t => .str t
  | .arr items => .arr (canonItems items)
  | .obj fields => .obj ((canonFields fields).insertionSort keyLe)

def canonItems : List Json → List Json
  | [] => []
  | x :: xs => canon x :: canonItems xs

def canonFields : List (Text × Json) → List (Text × Json)
  | [] => []
  | (k, x) :: xs => (k, canon x) :: canonFields xs

end

theorem canonItems_eq (items : List Json) : canonItems items = items.map canon := by
  induction items with
  | nil => rfl
  | cons x xs ih => rw [canonItems, ih, List.map_cons]

theorem canonFields_eq (fields : List (Text × Json)) :
    canonFields fields = fields.map fun f => (f.1, canon f.2) := by
  induction fields with
  | nil => rfl
  | cons f fs ih => rw [canonFields, ih, List.map_cons]

theorem renderItems_eq (sep : Separators) (items : List Json) :
    renderItems sep items = items.map (render sep) := by
  induction items with
  | nil => rfl
  | cons x xs ih => rw [renderItems, ih, List.map_cons]

theorem renderFields_eq (sep : Separators) (fields : List (Text × Json)) :
    renderFields sep fields = fields.map fun f => (f.1, render sep f.2) := by
  induction fields with
  | nil => rfl
  | cons f fs ih => rw [renderFields, ih, List.map_cons]

/-! ### Strings -/

theorem scanHex_escape {c : Nat} (h : c < 32) (rest : Text) :
    scanHex (48 :: 48 :: hexDigit (c / 16) :: hexDigit (c % 16) :: rest) = some (c, rest) := by
  have hdigit : ∀ n, n < 16 → hexValue? (hexDigit n) = some n := by decide
  simp only [scanHex, hdigit (c / 16) (by omega), hdigit (c % 16) (by omega)]
  have hzero : hexValue? 48 = some 0 := rfl
  simp only [hzero, Option.bind_eq_bind, Option.bind_some, Option.some.injEq, Prod.mk.injEq,
    and_true]
  omega

theorem joinSurrogates_of_lt {u : Nat} (h : u < 0xD800) (rest : Text) :
    joinSurrogates u rest = (u, rest) := by
  unfold joinSurrogates
  split
  · split
    · rw [if_neg (by omega)]
    · rfl
  · rfl

/-- An escaped character is read as one step. -/
theorem scanString_escape (c steps : Nat) (rest : Text) :
    scanString (steps + 1) (escape c ++ rest) =
      (scanString steps rest).map fun r => (c :: r.1, r.2) := by
  have hspecial : c = 34 ∨ c = 92 ∨ c = 8 ∨ c = 12 ∨ c = 10 ∨ c = 13 ∨ c = 9 ∨
      (c ≠ 34 ∧ c ≠ 92 ∧ c ≠ 8 ∧ c ≠ 12 ∧ c ≠ 10 ∧ c ≠ 13 ∧ c ≠ 9) := by omega
  rcases hspecial with rfl | rfl | rfl | rfl | rfl | rfl | rfl | ⟨h1, h2, h3, h4, h5, h6, h7⟩
  any_goals rfl
  by_cases hcontrol : c < 32
  · simp only [escape, if_neg h1, if_neg h2, if_neg h3, if_neg h4, if_neg h5, if_neg h6,
      if_neg h7, if_pos hcontrol, List.cons_append, List.nil_append, scanString,
      scanHex_escape hcontrol, joinSurrogates_of_lt (show c < 0xD800 by omega),
      Option.bind_eq_bind, Option.bind_some]
  · simp only [escape, if_neg h1, if_neg h2, if_neg h3, if_neg h4, if_neg h5, if_neg h6,
      if_neg h7, if_neg hcontrol, List.cons_append, List.nil_append]
    rw [scanString, if_neg (by omega)]
    · intro hc
      exact absurd hc h1
    · intro _ hc
      exact absurd hc h2
    · intro _ _ hc
      exact absurd hc h2

theorem scanString_flatMap (t rest : Text) {steps : Nat} (h : t.length < steps) :
    scanString steps (t.flatMap escape ++ 34 :: rest) = some (t, rest) := by
  induction t generalizing steps with
  | nil =>
      obtain ⟨steps, rfl⟩ : ∃ n, steps = n + 1 := ⟨steps - 1, by simp at h; omega⟩
      rfl
  | cons c t ih =>
      obtain ⟨steps, rfl⟩ : ∃ n, steps = n + 1 := ⟨steps - 1, by simp at h; omega⟩
      rw [List.flatMap_cons, List.append_assoc, scanString_escape,
        ih (by simpa using h)]
      rfl

theorem length_le_flatMap_escape (t : Text) : t.length ≤ (t.flatMap escape).length := by
  induction t with
  | nil => exact Nat.le_refl _
  | cons c t ih =>
      have hpos : 0 < (escape c).length := by
        unfold escape
        split_ifs <;> exact Nat.succ_pos _
      rw [List.flatMap_cons, List.length_append, List.length_cons]
      omega

/-- A quoted text is read back; `rest` bounds the steps too. -/
theorem scanString_quote (t rest : Text) :
    scanString ((t.flatMap escape ++ 34 :: rest).length + 1) (t.flatMap escape ++ 34 :: rest) =
      some (t, rest) := by
  refine scanString_flatMap t rest ?_
  have hle := length_le_flatMap_escape t
  rw [List.length_append]
  omega

theorem quote_append (t rest : Text) :
    quote t ++ rest = 34 :: (t.flatMap escape ++ 34 :: rest) := by
  simp [quote]

/-! ### Numbers -/

/-- What follows a value: nothing, a comma or the end of a list or an object. -/
def Follows (rest : Text) : Prop := ∀ c s, rest = c :: s → c = 44 ∨ c = 93 ∨ c = 125

theorem span_decimal {digits rest : Text} (h : ∀ c ∈ digits, 48 ≤ c ∧ c ≤ 57)
    (hrest : Follows rest) : (digits ++ rest).span isDecimal = (digits, rest) := by
  have hall : ∀ c ∈ digits, isDecimal c = true := by
    intro c hc
    simp only [isDecimal, Bool.and_eq_true, decide_eq_true_eq]
    exact h c hc
  have hstop : rest.takeWhile isDecimal = [] ∧ rest.dropWhile isDecimal = rest := by
    cases rest with
    | nil => exact ⟨rfl, rfl⟩
    | cons c s =>
        have hc : isDecimal c = false := by
          simp only [isDecimal, Bool.and_eq_false_iff, decide_eq_false_iff_not]
          rcases hrest c s rfl with rfl | rfl | rfl <;> omega
        simp [hc]
  rw [List.span_eq_takeWhile_dropWhile, List.takeWhile_append_of_pos hall,
    List.dropWhile_append_of_pos hall, hstop.1, hstop.2, List.append_nil]

theorem head_ofNat (n : Nat) :
    Text.ofNat n = [48] ∨ ∃ c s, Text.ofNat n = c :: s ∧ 49 ≤ c ∧ c ≤ 57 := by
  induction n using Nat.strongRecOn with
  | ind n ih =>
      by_cases hn : n < 10
      · rw [Text.ofNat_digit hn]
        by_cases hzero : n = 0
        · exact .inl (by rw [hzero])
        · exact .inr ⟨48 + n, [], rfl, by omega, by omega⟩
      · have hsplit : n = 10 * (n / 10) + n % 10 := by omega
        rw [hsplit, Text.ofNat_snoc (by omega) (by omega)]
        rcases ih (n / 10) (by omega) with hone | ⟨c, s, hcons, hc⟩
        · have hzero : n / 10 = 0 := Text.ofNat_inj (n := 0) hone
          omega
        · exact .inr ⟨c, s ++ [48 + n % 10], by rw [hcons, List.cons_append], hc⟩

theorem scanWhole_ofNat (n : Nat) {rest : Text} (hrest : Follows rest) :
    scanWhole (Text.ofNat n ++ rest) = (Text.ofNat n, rest) := by
  have hspan := span_decimal (fun c hc => Text.digits_ofNat (n := n) hc) hrest
  rcases head_ofNat n with hzero | ⟨c, s, hcons, hc, hc'⟩
  · rw [hzero]
    rfl
  · rw [hcons, List.cons_append] at hspan ⊢
    rw [scanWhole, hspan]
    intro _ h
    obtain ⟨rfl, -⟩ := List.cons.inj h
    omega

theorem scanFraction_follows {rest : Text} (h : Follows rest) : scanFraction rest = ([], rest) := by
  unfold scanFraction
  split
  · rename_i s
    rcases h 46 s rfl with h | h | h <;> cases h
  · rfl

theorem scanExponent_follows {rest : Text} (h : Follows rest) : scanExponent rest = ([], rest) := by
  unfold scanExponent
  split
  · rename_i c s
    rw [if_neg]
    rcases h c s rfl with rfl | rfl | rfl <;> decide
  · rfl

theorem scanNumber_renderInt (n : Int) {rest : Text} (hrest : Follows rest) :
    scanNumber (renderInt n ++ rest) = some (.int n, rest) := by
  unfold renderInt
  split
  · rename_i hn
    have hhead : ((Text.ofNat n.toNat ++ rest).head? == some 45) = false := by
      rcases head_ofNat n.toNat with h | ⟨c, s, h, hc, -⟩
      · rw [h]
        rfl
      · rw [h]
        simp only [List.cons_append, List.head?_cons, beq_eq_false_iff_ne, ne_eq,
          Option.some.injEq]
        omega
    simp only [scanNumber, hhead, Bool.false_eq_true, if_false, scanWhole_ofNat _ hrest,
      if_neg (Text.ofNat_ne_nil _), scanFraction_follows hrest, scanExponent_follows hrest, and_self,
      if_true, Text.toInt_ofNat, Int.toNat_of_nonneg hn]
  · simp only [scanNumber, List.cons_append, List.head?_cons, beq_self_eq_true, if_true,
      List.tail_cons, scanWhole_ofNat _ hrest, if_neg (Text.ofNat_ne_nil _),
      scanFraction_follows hrest, scanExponent_follows hrest, and_self, Text.toInt_ofNat]
    congr 3
    omega

/-! ### Values -/

/-- The characters that a value begins with. -/
def Begins (c : Nat) : Prop :=
  c = 34 ∨ c = 91 ∨ c = 123 ∨ c = 110 ∨ c = 116 ∨ c = 102 ∨ c = 45 ∨ (48 ≤ c ∧ c ≤ 57)

theorem renderInt_begins (n : Int) : ∃ c s, renderInt n = c :: s ∧ (c = 45 ∨ 48 ≤ c ∧ c ≤ 57) := by
  unfold renderInt
  split
  · rcases head_ofNat n.toNat with h | ⟨c, s, h, hc⟩
    · exact ⟨48, [], h, by omega⟩
    · exact ⟨c, s, h, by omega⟩
  · exact ⟨45, _, rfl, .inl rfl⟩

theorem render_begins {j : Json} (h : Plain j) (sep : Separators) :
    ∃ c s, render sep j = c :: s ∧ Begins c := by
  cases j with
  | null => exact ⟨110, Text.ofString "ull", rfl, by unfold Begins; omega⟩
  | bool b =>
      cases b with
      | false => exact ⟨102, Text.ofString "alse", rfl, by unfold Begins; omega⟩
      | true => exact ⟨116, Text.ofString "rue", rfl, by unfold Begins; omega⟩
  | int n =>
      obtain ⟨c, s, h, hc⟩ := renderInt_begins n
      exact ⟨c, s, by rw [render, h], by unfold Begins; omega⟩
  | float _ => cases h
  | str t => exact ⟨34, _, by rw [render, quote], by unfold Begins; omega⟩
  | arr items => exact ⟨91, _, by rw [render], by unfold Begins; omega⟩
  | obj fields => exact ⟨123, _, by rw [render], by unfold Begins; omega⟩

theorem skipSpace_of_begins {c : Nat} (h : Begins c) (s : Text) : skipSpace (c :: s) = c :: s := by
  have hspace : isSpace c = false := by
    unfold Begins at h
    simp only [isSpace, Bool.or_eq_false_iff, beq_eq_false_iff_ne]
    omega
  exact List.dropWhile_cons_of_neg (by simp [hspace])

theorem skipSpace_render {j : Json} (h : Plain j) (rest : Text) :
    skipSpace (render compact j ++ rest) = render compact j ++ rest := by
  obtain ⟨c, s, hcons, hc⟩ := render_begins h compact
  rw [hcons, List.cons_append, skipSpace_of_begins hc]

theorem skipSpace_cons {c : Nat} (h : isSpace c = false) (s : Text) :
    skipSpace (c :: s) = c :: s :=
  List.dropWhile_cons_of_neg (by simp [h])

/-- A value is read back in the order of its sorted keys. -/
def Reads (j : Json) : Prop :=
  ∀ steps rest, 2 * (render compact j).length ≤ steps → Follows rest →
    scanValue steps (render compact j ++ rest) = some (canon j, rest)

theorem follows_cons {c : Nat} (h : c = 44 ∨ c = 93 ∨ c = 125) (s : Text) : Follows (c :: s) := by
  rintro _ _ heq
  obtain ⟨rfl, -⟩ := List.cons.inj heq
  exact h

theorem join_comma (t u : Text) (ts : List Text) :
    Text.join [44] (t :: u :: ts) = t ++ 44 :: Text.join [44] (u :: ts) := by
  show t ++ [44] ++ Text.join [44] (u :: ts) = _
  rw [List.append_assoc, List.singleton_append]

/-- Joined texts begin as the first of them. -/
theorem join_begins (t : Text) (ts : List Text) : ∃ s, Text.join [44] (t :: ts) = t ++ s := by
  cases ts with
  | nil => exact ⟨[], (List.append_nil t).symm⟩
  | cons u ts => exact ⟨_, join_comma t u ts⟩

theorem skipSpace_join {c : Nat} {t s : Text} (h : Begins c) (ht : t = c :: s) (ts : List Text)
    (rest : Text) :
    skipSpace (Text.join [44] (t :: ts) ++ rest) = Text.join [44] (t :: ts) ++ rest := by
  obtain ⟨u, hu⟩ := join_begins t ts
  rw [hu, ht, List.cons_append, List.cons_append, skipSpace_of_begins h]

theorem scanItems_render {items : List Json} (hne : items ≠ []) (hplain : ∀ x ∈ items, Plain x)
    (hreads : ∀ x ∈ items, Reads x) (rest : Text) (steps : Nat)
    (hsteps : 2 * (Text.join [44] (items.map (render compact))).length + 1 ≤ steps) :
    scanItems steps (Text.join [44] (items.map (render compact)) ++ 93 :: rest) =
      some (items.map canon, rest) := by
  induction items generalizing steps with
  | nil => exact absurd rfl hne
  | cons x xs ih =>
      obtain ⟨steps, rfl⟩ : ∃ n, steps = n + 1 := ⟨steps - 1, by omega⟩
      have hx := hreads x List.mem_cons_self
      cases xs with
      | nil =>
          simp only [List.map_cons, List.map_nil, Text.join] at hsteps ⊢
          rw [scanItems, hx steps (93 :: rest) (by omega) (follows_cons (.inr (.inl rfl)) rest)]
          simp only [skipSpace_cons (c := 93) rfl]
      | cons y ys =>
          obtain ⟨c, s, hcons, hc⟩ := render_begins
            (hplain y (List.mem_cons_of_mem x List.mem_cons_self)) compact
          have hrest := ih (List.cons_ne_nil y ys) (fun z hz => hplain z (List.mem_cons_of_mem x hz))
            (fun z hz => hreads z (List.mem_cons_of_mem x hz)) steps
          have hspace := skipSpace_join hc hcons (ys.map (render compact)) (93 :: rest)
          rw [← List.map_cons] at hspace
          rw [List.map_cons, List.map_cons, join_comma, ← List.map_cons] at hsteps ⊢
          simp only [List.length_append, List.length_cons] at hsteps
          rw [List.append_assoc, List.cons_append, scanItems,
            hx steps _ (by omega) (follows_cons (.inl rfl) _)]
          simp only [skipSpace_cons (c := 44) rfl]
          rw [hspace, hrest (by omega)]
          rfl

/-- A field as it is written. -/
def renderField (f : Text × Json) : Text := quote f.1 ++ (58 :: render compact f.2)

theorem renderField_cons (f : Text × Json) : ∃ s, renderField f = 34 :: s :=
  ⟨_, by rw [renderField, quote, List.cons_append]⟩

theorem scanMembers_render {fields : List (Text × Json)} (hne : fields ≠ [])
    (hplain : ∀ f ∈ fields, Plain f.2) (hreads : ∀ f ∈ fields, Reads f.2) (rest : Text)
    (steps : Nat) (hsteps : 2 * (Text.join [44] (fields.map renderField)).length + 1 ≤ steps) :
    scanMembers steps (Text.join [44] (fields.map renderField) ++ 125 :: rest) =
      some (fields.map fun f => (f.1, canon f.2), rest) := by
  induction fields generalizing steps with
  | nil => exact absurd rfl hne
  | cons f fs ih =>
      obtain ⟨steps, rfl⟩ : ∃ n, steps = n + 1 := ⟨steps - 1, by omega⟩
      have hx := hreads f List.mem_cons_self
      have hlength : (renderField f).length =
          (quote f.1).length + ((render compact f.2).length + 1) := by
        rw [renderField, List.length_append, List.length_cons]
      -- The name, the colon and the value, with what follows the value.
      have hfield : ∀ s, Follows s → 2 * (render compact f.2).length ≤ steps →
          scanMembers (steps + 1) (renderField f ++ s) =
            match skipSpace s with
            | 44 :: s => (scanMembers steps (skipSpace s)).map fun r => ((f.1, canon f.2) :: r.1, r.2)
            | 125 :: s => some ([(f.1, canon f.2)], s)
            | _ => none := by
        intro s hs hle
        rw [renderField, List.append_assoc, List.cons_append, quote_append, scanMembers,
          scanString_quote]
        simp only [skipSpace_cons (c := 58) rfl, skipSpace_render (hplain f List.mem_cons_self),
          hx steps s hle hs]
      cases fs with
      | nil =>
          simp only [List.map_cons, List.map_nil, Text.join] at hsteps ⊢
          rw [hfield _ (follows_cons (.inr (.inr rfl)) rest) (by omega)]
          simp only [skipSpace_cons (c := 125) rfl]
      | cons g gs =>
          obtain ⟨s, hcons⟩ := renderField_cons g
          have hrest := ih (List.cons_ne_nil g gs) (fun z hz => hplain z (List.mem_cons_of_mem f hz))
            (fun z hz => hreads z (List.mem_cons_of_mem f hz)) steps
          have hspace := skipSpace_join (.inl rfl : Begins 34) hcons (gs.map renderField)
            (125 :: rest)
          rw [← List.map_cons] at hspace
          rw [List.map_cons, List.map_cons, join_comma, ← List.map_cons] at hsteps ⊢
          simp only [List.length_append, List.length_cons] at hsteps
          rw [List.append_assoc, List.cons_append, hfield _ (follows_cons (.inl rfl) _) (by omega)]
          simp only [skipSpace_cons (c := 44) rfl]
          rw [hspace, hrest (by omega)]
          rfl

/-- Keys that differ are set one after another. -/
theorem foldl_setItem {fields done : List (Text × Json)}
    (h : ((done ++ fields).map Prod.fst).Nodup) : fields.foldl setItem done = done ++ fields := by
  induction fields generalizing done with
  | nil => rw [List.foldl_nil, List.append_nil]
  | cons f fs ih =>
      have hnew : (done.any fun g => g.1 == f.1) = false := by
        rw [List.any_eq_false]
        intro g hg hkey
        rw [List.map_append, List.nodup_append] at h
        exact h.2.2 g.1 (List.mem_map_of_mem hg) f.1 List.mem_cons_self (beq_iff_eq.mp hkey)
      have hset : setItem done f = done ++ [f] := by
        rw [setItem, hnew]
        rfl
      rw [List.foldl_cons, hset, ih (by rwa [List.append_assoc, List.singleton_append]),
        List.append_assoc, List.singleton_append]

/-- After the bracket comes the first item, which is no closing bracket. -/
theorem scanValue_items {c : Nat} {t s : Text} (h : Begins c) (ht : t = c :: s) (ts : List Text)
    (rest : Text) (steps : Nat) :
    scanValue (steps + 1) (91 :: (Text.join [44] (t :: ts) ++ rest)) =
      (scanItems steps (Text.join [44] (t :: ts) ++ rest)).map fun r => (.arr r.1, r.2) := by
  have hspace := skipSpace_join h ht ts rest
  obtain ⟨u, hu⟩ := join_begins t ts
  rw [hu, ht, List.cons_append, List.cons_append] at hspace ⊢
  rw [scanValue, hspace]
  split
  · rename_i heq
    obtain ⟨rfl, -⟩ := List.cons.inj heq
    unfold Begins at h
    omega
  · rfl

theorem scanValue_members {s : Text} {t : Text} (ht : t = 34 :: s) (ts : List Text) (rest : Text)
    (steps : Nat) :
    scanValue (steps + 1) (123 :: (Text.join [44] (t :: ts) ++ rest)) =
      (scanMembers steps (Text.join [44] (t :: ts) ++ rest)).map fun r =>
        (.obj (r.1.foldl setItem []), r.2) := by
  have hspace := skipSpace_join (.inl rfl : Begins 34) ht ts rest
  obtain ⟨u, hu⟩ := join_begins t ts
  rw [hu, ht, List.cons_append, List.cons_append] at hspace ⊢
  rw [scanValue, hspace]
  rfl

theorem reads_arr {items : List Json} (hplain : ∀ x ∈ items, Plain x)
    (hreads : ∀ x ∈ items, Reads x) : Reads (.arr items) := by
  intro steps rest hsteps hfollows
  have hcomma : compact.item = [44] := rfl
  rw [render, renderItems_eq, hcomma] at hsteps ⊢
  simp only [List.length_cons, List.length_append, List.length_nil] at hsteps
  obtain ⟨steps, rfl⟩ : ∃ n, steps = n + 1 := ⟨steps - 1, by omega⟩
  rw [canon, canonItems_eq, List.cons_append, List.append_assoc, List.singleton_append]
  cases items with
  | nil => rfl
  | cons x xs =>
      obtain ⟨c, s, hcons, hc⟩ := render_begins (hplain x List.mem_cons_self) compact
      have hitems := scanItems_render (List.cons_ne_nil x xs) hplain hreads rest steps
        (by omega)
      rw [List.map_cons] at hitems ⊢
      rw [scanValue_items hc hcons, hitems]
      rfl

theorem reads_obj {fields : List (Text × Json)} (hkeys : (fields.map Prod.fst).Nodup)
    (hplain : ∀ f ∈ fields, Plain f.2) (hreads : ∀ f ∈ fields, Reads f.2) :
    Reads (.obj fields) := by
  intro steps rest hsteps hfollows
  have hperm := List.perm_insertionSort keyLe fields
  -- Sorting the fields and writing them can be exchanged.
  have hwritten : ((renderFields compact fields).insertionSort fun f g => f.1 ≤ g.1).map
      (fun f => quote f.1 ++ compact.key ++ f.2) = (fields.insertionSort keyLe).map renderField := by
    rw [renderFields_eq, ← List.map_insertionSort (r := keyLe), List.map_map]
    · refine List.map_congr_left fun f _ => ?_
      show quote f.1 ++ [58] ++ render compact f.2 = renderField f
      rw [renderField, List.append_assoc, List.singleton_append]
    · intro f _ g _
      rfl
  have hcanon : (canonFields fields).insertionSort keyLe =
      (fields.insertionSort keyLe).map fun f => (f.1, canon f.2) := by
    rw [canonFields_eq, ← List.map_insertionSort (r := keyLe)]
    intro f _ g _
    rfl
  have hcomma : compact.item = [44] := rfl
  rw [render, hwritten, hcomma] at hsteps ⊢
  simp only [List.length_cons, List.length_append, List.length_nil] at hsteps
  obtain ⟨steps, rfl⟩ : ∃ n, steps = n + 1 := ⟨steps - 1, by omega⟩
  rw [canon, hcanon, List.cons_append, List.append_assoc, List.singleton_append]
  have hplain' : ∀ f ∈ fields.insertionSort keyLe, Plain f.2 := fun f hf =>
    hplain f (hperm.mem_iff.mp hf)
  have hreads' : ∀ f ∈ fields.insertionSort keyLe, Reads f.2 := fun f hf =>
    hreads f (hperm.mem_iff.mp hf)
  have hkeys' : ((fields.insertionSort keyLe).map Prod.fst).Nodup :=
    (hperm.map Prod.fst).nodup_iff.mpr hkeys
  generalize fields.insertionSort keyLe = sorted at *
  cases sorted with
  | nil => rfl
  | cons f fs =>
      obtain ⟨s, hcons⟩ := renderField_cons f
      have hmembers := scanMembers_render (List.cons_ne_nil f fs) hplain' hreads' rest
        steps (by omega)
      rw [List.map_cons (f := renderField)] at hmembers ⊢
      rw [scanValue_members hcons, hmembers, Option.map_some, foldl_setItem]
      · rfl
      · rw [List.nil_append, List.map_map]
        exact hkeys'

theorem reads_literal (word : String) {j : Json} {c : Nat} {s : Text}
    (hword : Text.ofString word = c :: s) (hrender : render compact j = Text.ofString word)
    (hcanon : canon j = j) (hc : c ≠ 34 ∧ c ≠ 91 ∧ c ≠ 123)
    (hread : ∀ rest, scanLiteral (Text.ofString word ++ rest) = some (j, rest)) : Reads j := by
  intro steps rest hsteps _
  rw [hrender] at hsteps ⊢
  obtain ⟨steps, rfl⟩ : ∃ n, steps = n + 1 := ⟨steps - 1, by
    rw [hword, List.length_cons] at hsteps
    omega⟩
  have hread := hread rest
  rw [hword, List.cons_append] at hread ⊢
  rw [scanValue, hread, hcanon]
  · rfl
  · intro _ h
    exact absurd (List.cons.inj h).1 hc.1
  · intro _ h
    exact absurd (List.cons.inj h).1 hc.2.1
  · intro _ h
    exact absurd (List.cons.inj h).1 hc.2.2

/-- The words begin with a letter, one of them after a sign. -/
theorem literal_begins : ∀ l ∈ literals, ∃ a b w, Text.ofString l.1 = a :: b :: w ∧
    (65 ≤ a ∨ a = 45 ∧ 65 ≤ b) := by
  intro l hl
  simp only [literals, List.mem_cons, List.not_mem_nil, or_false] at hl
  rcases hl with rfl | rfl | rfl | rfl | rfl | rfl
  · exact ⟨110, 117, _, rfl, by omega⟩
  · exact ⟨116, 114, _, rfl, by omega⟩
  · exact ⟨102, 97, _, rfl, by omega⟩
  · exact ⟨78, 97, _, rfl, by omega⟩
  · exact ⟨73, 110, _, rfl, by omega⟩
  · exact ⟨45, 73, _, rfl, by omega⟩

/-- A number begins with a digit, after its sign if it has one. -/
theorem renderInt_digit (n : Int) : ∃ c s, renderInt n = c :: s ∧
    ((48 ≤ c ∧ c ≤ 57) ∨ c = 45 ∧ ∃ d u, s = d :: u ∧ 48 ≤ d ∧ d ≤ 57) := by
  have hdigits : ∀ m, ∃ c s, Text.ofNat m = c :: s ∧ 48 ≤ c ∧ c ≤ 57 := by
    intro m
    rcases head_ofNat m with h | ⟨c, s, h, hc, hc'⟩
    · exact ⟨48, [], h, by omega⟩
    · exact ⟨c, s, h, by omega, hc'⟩
  unfold renderInt
  split
  · obtain ⟨c, s, h, hc⟩ := hdigits n.toNat
    exact ⟨c, s, h, .inl hc⟩
  · exact ⟨45, _, rfl, .inr ⟨rfl, hdigits (-n).toNat⟩⟩

theorem scanLiteral_renderInt (n : Int) (rest : Text) :
    scanLiteral (renderInt n ++ rest) = none := by
  obtain ⟨c, s, hcons, hc⟩ := renderInt_digit n
  rw [scanLiteral, Option.map_eq_none_iff, List.find?_eq_none]
  intro l hl hprefix
  obtain ⟨a, b, w, hword, hletter⟩ := literal_begins l hl
  obtain ⟨u, hu⟩ := List.isPrefixOf_iff_prefix.mp hprefix
  rw [hword, hcons, List.cons_append, List.cons_append, List.cons_append] at hu
  obtain ⟨rfl, htail⟩ := List.cons.inj hu
  rcases hc with hc | ⟨rfl, d, v, rfl, hd⟩
  · omega
  · obtain ⟨rfl, -⟩ := List.cons.inj htail
    omega

theorem reads_int (n : Int) : Reads (.int n) := by
  intro steps rest hsteps hfollows
  rw [render] at hsteps ⊢
  obtain ⟨c, s, hcons, hc⟩ := renderInt_begins n
  obtain ⟨steps, rfl⟩ : ∃ m, steps = m + 1 := ⟨steps - 1, by
    rw [hcons, List.length_cons] at hsteps
    omega⟩
  have hliteral := scanLiteral_renderInt n rest
  have hnumber := scanNumber_renderInt n hfollows
  rw [hcons, List.cons_append] at hliteral hnumber ⊢
  rw [scanValue, hliteral, hnumber]
  · rfl
  all_goals
    intro _ h
    obtain ⟨rfl, -⟩ := List.cons.inj h
    omega

theorem reads_str (t : Text) : Reads (.str t) := by
  intro steps rest hsteps _
  rw [render] at hsteps ⊢
  obtain ⟨steps, rfl⟩ : ∃ m, steps = m + 1 := ⟨steps - 1, by
    rw [quote, List.length_cons] at hsteps
    omega⟩
  rw [quote_append, scanValue, scanString_quote]
  rfl

mutual

theorem reads_render : ∀ {j : Json}, Plain j → Reads j
  | .null, _ => reads_literal "null" rfl rfl rfl (by decide) fun _ => rfl
  | .bool true, _ => reads_literal "true" rfl rfl rfl (by decide) fun _ => rfl
  | .bool false, _ => reads_literal "false" rfl rfl rfl (by decide) fun _ => rfl
  | .int n, _ => reads_int n
  | .float _, h => h.elim
  | .str t, _ => reads_str t
  | .arr _, h =>
      have hitems := scansItems_render h
      reads_arr (fun x hx => (hitems x hx).1) fun x hx => (hitems x hx).2
  | .obj _, h =>
      have hfields := scansFields_render h.2
      reads_obj h.1 (fun f hf => (hfields f hf).1) fun f hf => (hfields f hf).2

theorem scansItems_render : ∀ {items : List Json}, PlainItems items →
    ∀ x ∈ items, Plain x ∧ Reads x
  | [], _ => fun _ hx => by cases hx
  | _ :: _, h =>
      have hx := reads_render h.1
      have hxs := scansItems_render h.2
      fun y hy => by
        rcases List.mem_cons.mp hy with rfl | hy
        · exact ⟨h.1, hx⟩
        · exact hxs y hy

theorem scansFields_render : ∀ {fields : List (Text × Json)}, PlainFields fields →
    ∀ f ∈ fields, Plain f.2 ∧ Reads f.2
  | [], _ => fun _ hf => by cases hf
  | (_, _) :: _, h =>
      have hx := reads_render h.1
      have hfs := scansFields_render h.2
      fun g hg => by
        rcases List.mem_cons.mp hg with rfl | hg
        · exact ⟨h.1, hx⟩
        · exact hfs g hg

end

/-- What is written is read back, with the fields in the order of their keys. -/
theorem parse_render {j : Json} (h : Plain j) : parse (render compact j) = some (canon j) := by
  have hread := reads_render h (2 * (render compact j).length + 2) [] (by omega)
    (fun _ _ h => by cases h)
  have hspace := skipSpace_render h []
  rw [List.append_nil] at hread hspace
  simp only [parse, hspace, hread]
  rfl

theorem plain_map {α : Type} {dump : α → Json} {l : List α} (h : ∀ a ∈ l, Plain (dump a)) :
    Plain (.arr (l.map dump)) := by
  induction l with
  | nil => trivial
  | cons a l ih =>
      exact ⟨h a List.mem_cons_self, ih fun b hb => h b (List.mem_cons_of_mem a hb)⟩

theorem plain_ofOption {α : Type} {dump : α → Json} {o : Option α}
    (h : ∀ a ∈ o, Plain (dump a)) : Plain (ofOption dump o) := by
  cases o with
  | none => trivial
  | some a => exact h a rfl

theorem loads_nil : loads [] = none := rfl

theorem loads_jsonBytes {j : Json} (h : Plain j) {b : Bytes} (hb : jsonBytes j compact = some b) :
    loads b = some (canon j) := by
  rw [loads, Text.decodeUtf8_utf8 hb, Option.bind_some, parse_render h]

/-! ### Lookups in what is read -/

theorem keys_canonFields (fields : List (Text × Json)) :
    (canonFields fields).map Prod.fst = fields.map Prod.fst := by
  rw [canonFields_eq, List.map_map]
  rfl

/-- With keys that differ, the order of the fields does not matter to a lookup. -/
theorem find?_of_perm {fields fields' : List (Text × Json)} (hperm : fields.Perm fields')
    (hkeys : (fields.map Prod.fst).Nodup) (key : Text) :
    fields.find? (fun f => decide (f.1 = key)) = fields'.find? fun f => decide (f.1 = key) := by
  have hunique : ∀ {l : List (Text × Json)}, (l.map Prod.fst).Nodup → ∀ f ∈ l, f.1 = key →
      l.find? (fun g => decide (g.1 = key)) = some f := by
    intro l hl f hf hkey
    induction l with
    | nil => cases hf
    | cons g gs ih =>
        rw [List.map_cons, List.nodup_cons] at hl
        rcases List.mem_cons.mp hf with rfl | hf
        · simp [hkey]
        · have hne : g.1 ≠ key := fun hg =>
            hl.1 (hg.trans hkey.symm ▸ List.mem_map_of_mem hf)
          rw [List.find?_cons_of_neg (by simp [hne])]
          exact ih hl.2 hf
  have hkeys' : (fields'.map Prod.fst).Nodup := (hperm.map Prod.fst).nodup_iff.mp hkeys
  cases hfind : fields.find? fun f => decide (f.1 = key) with
  | some f =>
      have hf := List.mem_of_find?_eq_some hfind
      have hkey : f.1 = key := by simpa using List.find?_some hfind
      exact (hunique hkeys' f (hperm.mem_iff.mp hf) hkey).symm
  | none =>
      rw [List.find?_eq_none] at hfind
      refine (List.find?_eq_none.mpr fun f hf => ?_).symm
      exact hfind f (hperm.mem_iff.mpr hf)

theorem field?_canonFields {fields : List (Text × Json)} (hkeys : (fields.map Prod.fst).Nodup)
    (name : String) : field? ((canonFields fields).insertionSort keyLe) name =
      (field? fields name).map canon := by
  have hperm := List.perm_insertionSort keyLe (canonFields fields)
  have hsorted : (((canonFields fields).insertionSort keyLe).map Prod.fst).Nodup :=
    (hperm.map Prod.fst).nodup_iff.mpr ((keys_canonFields fields).symm ▸ hkeys)
  rw [field?, field?, find?_of_perm hperm hsorted, canonFields_eq, List.find?_map, Option.map_map,
    Option.map_map]
  rfl

theorem onlyKeys_canonFields (names : List String) (fields : List (Text × Json)) :
    onlyKeys names ((canonFields fields).insertionSort keyLe) = onlyKeys names fields := by
  have hperm := List.perm_insertionSort keyLe (canonFields fields)
  rw [onlyKeys, hperm.all_eq, canonFields_eq, List.all_map]
  rfl

theorem nodup_keys {fields : List (Text × Json)} {names : List String} (hnames : names.Nodup)
    (h : fields.map Prod.fst = names.map Text.ofString) : (fields.map Prod.fst).Nodup :=
  h ▸ hnames.map fun _ _ hname => Text.ofString_inj.mp hname

/-- A change of a value that leaves alone what validators look at: the leaves, the
items of a list and the fields of an object by name. -/
structure Reorders (κ : Json → Json) : Prop where
  null : κ .null = .null
  bool : ∀ b, κ (.bool b) = .bool b
  int : ∀ n, κ (.int n) = .int n
  str : ∀ t, κ (.str t) = .str t
  arr : ∀ items, κ (.arr items) = .arr (items.map κ)
  obj : ∀ fields : List (Text × Json), (fields.map Prod.fst).Nodup →
    ∃ fields', κ (.obj fields) = .obj fields' ∧
      (∀ name, field? fields' name = (field? fields name).map κ) ∧
      ∀ names, onlyKeys names fields' = onlyKeys names fields

theorem reorders_id : Reorders id where
  null := rfl
  bool _ := rfl
  int _ := rfl
  str _ := rfl
  arr items := by rw [List.map_id]; rfl
  obj fields _ := ⟨fields, rfl, fun name => (Option.map_id_apply).symm, fun _ => rfl⟩

theorem reorders_canon : Reorders canon where
  null := rfl
  bool _ := rfl
  int _ := rfl
  str _ := rfl
  arr items := by rw [canon, canonItems_eq]
  obj fields hkeys := ⟨(canonFields fields).insertionSort keyLe, rfl,
    field?_canonFields hkeys, fun names => onlyKeys_canonFields names fields⟩

end Json

end SuperBoss.Core
