import SuperBoss.Core.Addresses

/-!
`urllib.parse.urlsplit` and the parts of a network location, and Python's
`idna` codec.
-/

namespace SuperBoss.Core

namespace Text

def isAscii (t : Text) : Bool := t.all fun c => c < 128

def isAsciiAlpha (c : Nat) : Bool := (65 ≤ c && c ≤ 90) || (97 ≤ c && c ≤ 122)

def asciiLower (c : Nat) : Nat := if 65 ≤ c ∧ c ≤ 90 then c + 32 else c

/-- `str.isspace` of one character. -/
def isSpace (c : Nat) : Bool := isWhitespace c || (0x1C ≤ c && c ≤ 0x1F)

/-- The first and the last part of `t.partition(sep)`. -/
def cut (sep : Nat) (t : Text) : Text × Text :=
  (t.takeWhile (· ≠ sep), (t.dropWhile (· ≠ sep)).tail)

/-- The last part of `t.rpartition(sep)`. -/
def afterLast (sep : Nat) (t : Text) : Text := t.rtakeWhile (· ≠ sep)

/-- `t.removesuffix(".")`. -/
def removeDot (t : Text) : Text := if t.getLast? = some 46 then t.dropLast else t

end Text

/-- What the standard library takes from the Unicode tables, and the punycode
encoder. -/
structure UrlContext (A : Type) where
  /-- `str.lower`. -/
  lower : Text → Text
  /-- `unicodedata.normalize("NFKC", ·)`. -/
  nfkc : Text → Text
  /-- `encodings.idna.nameprep`; `none` is a `UnicodeError`. -/
  nameprep : Text → Option Text
  punycode : Text → Text
  ip : IPv6Library A
  lower_ascii : ∀ {t}, t.isAscii = true → lower t = t.map Text.asciiLower
  lower_percent : ∀ {t}, 37 ∉ t → 37 ∉ lower t

variable {A : Type} (C : UrlContext A)

/-! ### Splitting -/

structure SplitResult where
  scheme : Text
  netloc : Text
  path : Text
  query : Text
  fragment : Text
  deriving DecidableEq

/-- `scheme_chars`. -/
def isSchemeChar (c : Nat) : Bool := Text.isAlnumAscii c || [43, 45, 46].contains c

/-- The scheme in lower case and what follows it, the text itself without one. -/
def splitScheme (url : Text) : Text × Text :=
  let (scheme, rest) := Text.cut 58 url
  if url.contains 58 && (scheme.head?.any Text.isAsciiAlpha) && scheme.all isSchemeChar then
    (scheme.map Text.asciiLower, rest)
  else ([], url)

/-- `/`, `?` and `#` end a network location. -/
def isDelimiter (c : Nat) : Bool := [47, 63, 35].contains c

/-- `_splitnetloc` after two slashes. -/
def splitNetloc : Text → Text × Text
  | 47 :: 47 :: url => url.span fun c => !isDelimiter c
  | url => ([], url)

/-- `v[a-fA-F0-9]+\..+`. -/
def isFutureAddress : Text → Bool
  | 118 :: t =>
      let (version, rest) := t.span fun c =>
        Text.isLowerHex c || (65 ≤ c && c ≤ 70)
      version != [] && rest.head? == some 46 && rest.tail != []
  | _ => false

/-- `_check_bracketed_host`. -/
def checkBracketedHost (host : Text) : Bool :=
  if host.head? = some 118 then isFutureAddress host
  else
    match C.ip.ipAddress host with
    | some (.v6 _) => true
    | _ => false

/-- `_check_bracketed_netloc`. -/
def checkBracketedNetloc (netloc : Text) : Bool :=
  let location := Text.afterLast 64 netloc
  if location.contains 91 then
    let (before, bracketed) := Text.cut 91 location
    let (host, port) := Text.cut 93 bracketed
    before == [] && (port == [] || port.head? == some 58) && checkBracketedHost C host
  else checkBracketedHost C (Text.cut 58 location).1

/-- The checks of brackets in `urlsplit`. -/
def checkBrackets (netloc : Text) : Bool :=
  if netloc.contains 91 != netloc.contains 93 then false
  else !netloc.contains 91 || checkBracketedNetloc C netloc

/-- `_checknetloc`: no delimiter appears by compatibility normalization. -/
def checkNetloc (netloc : Text) : Bool :=
  netloc.isAscii ||
    let n := netloc.filter fun c => !([64, 58, 35, 63].contains c)
    let n' := C.nfkc n
    n == n' || [47, 63, 35, 64, 58].all fun c => !n'.contains c

/-- `urlsplit`; `none` is its `ValueError`. -/
def urlsplit (url : Text) : Option SplitResult :=
  let url := (url.dropWhile fun c => c ≤ 32).filter fun c => !([9, 10, 13].contains c)
  let (scheme, url) := splitScheme url
  let (netloc, url) := splitNetloc url
  let (url, fragment) := Text.cut 35 url
  let (path, query) := Text.cut 63 url
  if checkBrackets C netloc && checkNetloc C netloc then
    some ⟨scheme, netloc, path, query, fragment⟩
  else none

namespace SplitResult

variable (r : SplitResult)

/-- `_hostinfo`. -/
def hostinfo : Text × Option Text :=
  let location := Text.afterLast 64 r.netloc
  let (host, port) :=
    if location.contains 91 then
      let (host, rest) := Text.cut 93 (Text.cut 91 location).2
      (host, (Text.cut 58 rest).2)
    else Text.cut 58 location
  (host, if port = [] then none else some port)

/-- The scope of an address keeps its case. -/
def hostname : Option Text :=
  let host := r.hostinfo.1
  if host = [] then none
  else some (C.lower (Text.cut 37 host).1 ++ host.dropWhile (· ≠ 37))

/-- `none` is a `ValueError`, `some none` the absence of a port. -/
def port : Option (Option Nat) :=
  match r.hostinfo.2 with
  | none => some none
  | some t =>
      -- `int` takes at most 4300 digits
      if t.all IPv4Address.isDigit && decide (t.length ≤ 4300) && decide (Text.toInt t ≤ 65535)
      then some (some (Text.toInt t)) else none

/-- `_userinfo`: everything before the last `@`. -/
def userinfo : Option Text :=
  if r.netloc.contains 64 then some (r.netloc.rdropWhile (· ≠ 64)).dropLast else none

def username : Option Text := r.userinfo.map fun t => (Text.cut 58 t).1

def password : Option Text :=
  r.userinfo.bind fun t => if t.contains 58 then some (Text.cut 58 t).2 else none

end SplitResult

/-- `urlunsplit` of a scheme and a network location alone. -/
def urlunsplit (scheme netloc : Text) : Text := scheme ++ [58, 47, 47] ++ netloc

/-! ### Internationalized names -/

/-- The four dots of IDNA. -/
def isIdnaDot (c : Nat) : Bool := [0x2E, 0x3002, 0xFF0E, 0xFF61].contains c

/-- A label that is ASCII already, when its length allows it. -/
def asciiLabel (label : Text) : Option Text :=
  if label ≠ [] ∧ label.length < 64 then some label else none

/-- `ToASCII`. -/
def toAscii (label : Text) : Option Text :=
  if label.isAscii then asciiLabel label
  else do
    let prepared ← C.nameprep label
    if prepared.isAscii then asciiLabel prepared
    else if (Text.ofString "xn--").isPrefixOf (C.lower prepared) then none
    else
      let encoded := Text.ofString "xn--" ++ C.punycode prepared
      if encoded.length < 64 then some encoded else none

/-- `str.encode("idna")`; `none` is a `UnicodeError`. -/
def encodeIdna (name : Text) : Option Text :=
  if name = [] then some []
  else if name.isAscii then
    let labels := name.splitOn 46
    if labels.dropLast.all (fun label => label != []) && labels.all (fun label => label.length < 64)
    then some name else none
  else
    let labels := name.splitOnP isIdnaDot
    if labels.getLast? = some [] then do
      let encoded ← labels.dropLast.mapM (toAscii C)
      some (Text.join [46] encoded ++ [46])
    else do
      let encoded ← labels.mapM (toAscii C)
      some (Text.join [46] encoded)

/-! ### Plain origins -/

namespace Text

theorem cut_of_notMem {sep : Nat} {t : Text} (h : sep ∉ t) : cut sep t = (t, []) := by
  have hall : ∀ c ∈ t, decide (c ≠ sep) = true := fun c hc =>
    decide_eq_true fun he => h (he ▸ hc)
  rw [cut, List.takeWhile_eq_self_iff.mpr hall, List.dropWhile_eq_nil_iff.mpr hall, List.tail_nil]

theorem cut_append_cons {sep : Nat} {a : Text} (b : Text) (h : sep ∉ a) :
    cut sep (a ++ sep :: b) = (a, b) := by
  have hall : ∀ c ∈ a, decide (c ≠ sep) = true := fun c hc =>
    decide_eq_true fun he => h (he ▸ hc)
  rw [cut, List.takeWhile_append_of_pos hall, List.dropWhile_append_of_pos hall]
  simp

theorem afterLast_of_notMem {sep : Nat} {t : Text} (h : sep ∉ t) : afterLast sep t = t :=
  List.rtakeWhile_eq_self_iff.mpr fun _ hc => decide_eq_true fun he => h (he ▸ hc)

theorem removeDot_of_getLast {t : Text} (h : t.getLast? ≠ some 46) : t.removeDot = t :=
  if_neg h

theorem mem_of_mem_removeDot {t : Text} {c : Nat} (h : c ∈ t.removeDot) : c ∈ t := by
  unfold removeDot at h
  split at h
  · exact List.dropLast_subset t h
  · exact h

theorem join_eq_intercalate (sep : Text) (l : List Text) : join sep l = sep.intercalate l := by
  induction l with
  | nil => rfl
  | cons t ts ih =>
      cases ts with
      | nil => simp [join, List.intercalate]
      | cons u us =>
          rw [join, ih]
          · simp [List.intercalate]
          · exact List.cons_ne_nil u us

theorem join_splitOn (sep : Nat) (t : Text) : join [sep] (t.splitOn sep) = t :=
  (join_eq_intercalate _ _).trans (List.intercalate_splitOn sep)

theorem mem_splitOn (sep : Nat) {c : Nat} {t : Text} (h : c ∈ t) :
    c = sep ∨ ∃ part ∈ t.splitOn sep, c ∈ part := by
  rw [← join_splitOn sep t] at h
  exact (mem_join h).imp_left List.mem_singleton.mp

/-- A text of nonempty parts does not end with the separator. -/
theorem getLast_of_splitOn {sep : Nat} {t : Text} (h : ∀ part ∈ t.splitOn sep, part ≠ []) :
    t.getLast? ≠ some sep := by
  intro hlast
  obtain ⟨s, rfl⟩ := List.getLast?_eq_some_iff.mp hlast
  refine h [] ?_ rfl
  rw [List.splitOn_append_cons_self, List.splitOn_nil]
  simp

theorem encodePoint_ascii {c : Nat} (h : c < 0x80) : encodePoint c = some [UInt8.ofNat c] := by
  have hpoint : isSurrogate c = false := by
    simp [isSurrogate]
    omega
  rw [encodePoint, hpoint]
  simp [h]

theorem utf8_of_isAscii {t : Text} (h : t.isAscii = true) : t.utf8 ≠ none := by
  have hpoints : (t.mapM encodePoint).isSome = true := by
    induction t with
    | nil => rfl
    | cons c t ih =>
        obtain ⟨hc, ht⟩ := Bool.and_eq_true_iff.mp h
        obtain ⟨b, hb⟩ := Option.isSome_iff_exists.mp (ih ht)
        simp [List.mapM_cons, encodePoint_ascii (of_decide_eq_true hc), hb]
  intro hnone
  rw [utf8, Option.map_eq_none_iff] at hnone
  rw [hnone] at hpoints
  cases hpoints

/-- ASCII without capitals. -/
def isLowerAscii (t : Text) : Bool := t.all fun c => c < 128 && !(65 ≤ c && c ≤ 90)

theorem isAscii_of_isLowerAscii {t : Text} (h : t.isLowerAscii = true) : t.isAscii = true :=
  List.all_eq_true.mpr fun c hc => (Bool.and_eq_true_iff.mp (List.all_eq_true.mp h c hc)).1

end Text

variable {C}

theorem UrlContext.lower_eq_self {t : Text} (h : t.isLowerAscii = true) : C.lower t = t := by
  rw [C.lower_ascii (Text.isAscii_of_isLowerAscii h)]
  refine (List.map_congr_left fun c hc => ?_).trans (List.map_id t)
  have hc := List.all_eq_true.mp h c hc
  simp only [Bool.and_eq_true, decide_eq_true_eq, Bool.not_eq_true', Bool.and_eq_false_iff,
    decide_eq_false_iff_not] at hc
  exact if_neg (by omega)

/-- A character of a network location that nothing in `urlsplit` looks at. -/
def isPlain (c : Nat) : Bool := 32 < c && c < 127 && !isDelimiter c

theorem urlsplit_urlunsplit {scheme netloc : Text}
    (hscheme : scheme = Text.ofString "http" ∨ scheme = Text.ofString "https")
    (hplain : ∀ c ∈ netloc, isPlain c = true) (hbrackets : checkBrackets C netloc = true) :
    urlsplit C (urlunsplit scheme netloc) = some ⟨scheme, netloc, [], [], []⟩ := by
  have hrange : ∀ c ∈ netloc, 32 < c ∧ c < 127 := fun c hc => by
    have h := hplain c hc
    simp only [isPlain, Bool.and_eq_true, decide_eq_true_eq] at h
    exact h.1
  have hstrip : ((urlunsplit scheme netloc).dropWhile fun c => c ≤ 32).filter
      (fun c => !([9, 10, 13].contains c)) = urlunsplit scheme netloc := by
    have hdrop : (urlunsplit scheme netloc).dropWhile (· ≤ 32) =
        urlunsplit scheme netloc := by
      rcases hscheme with rfl | rfl <;> rfl
    rw [hdrop, List.filter_eq_self]
    intro c hc
    have hlarge : 32 < c := by
      simp only [urlunsplit, List.mem_append] at hc
      rcases hc with (hc | hc) | hc
      · have hletters : ∀ d ∈ scheme, 32 < d := by
          rcases hscheme with rfl | rfl <;> decide
        exact hletters c hc
      · exact (by decide : ∀ d ∈ [58, 47, 47], 32 < d) c hc
      · exact (hrange c hc).1
    simp
    omega
  have hsplit : splitScheme (urlunsplit scheme netloc) = (scheme, 47 :: 47 :: netloc) := by
    rcases hscheme with rfl | rfl <;> rfl
  have hnetloc : splitNetloc (47 :: 47 :: netloc) = (netloc, []) := by
    have hnone : ∀ c ∈ netloc, (!isDelimiter c) = true := fun c hc => by
      have h := hplain c hc
      simp only [isPlain, Bool.and_eq_true] at h
      exact h.2
    rw [splitNetloc, List.span_eq_takeWhile_dropWhile, List.takeWhile_eq_self_iff.mpr hnone,
      List.dropWhile_eq_nil_iff.mpr hnone]
  have hascii : checkNetloc C netloc = true :=
    Bool.or_eq_true_iff.mpr (.inl (List.all_eq_true.mpr fun c hc => by
      have h := hrange c hc
      simp
      omega))
  simp only [urlsplit, hstrip, hsplit, hnetloc, hbrackets, hascii, Bool.and_self, if_true]
  rfl

/-- A port as it stands after a host. -/
def portText : Option Nat → Text
  | none => []
  | some n => 58 :: Text.ofNat n

theorem mem_portText {port : Option Nat} {c : Nat} (h : c ∈ portText port) :
    c = 58 ∨ (48 ≤ c ∧ c ≤ 57) := by
  cases port with
  | none => cases h
  | some n =>
      rcases List.mem_cons.mp h with h | h
      · exact .inl h
      · exact .inr (Text.digits_ofNat h)

namespace SplitResult

/-- The port after the host of a location without brackets. -/
theorem hostinfo_plain {r : SplitResult} {host : Text} {port : Option Nat}
    (hr : r.netloc = host ++ portText port)
    (hhost : ∀ c ∈ host, c ≠ 58 ∧ c ≠ 64 ∧ c ≠ 91) :
    r.hostinfo = (host, port.map Text.ofNat) := by
  have hnot : ∀ {x}, (x = 64 ∨ x = 91) → x ∉ r.netloc := by
    intro x hx hm
    rw [hr] at hm
    rcases List.mem_append.mp hm with hm | hm
    · have := hhost x hm
      omega
    · have := mem_portText hm
      omega
  have hlast : Text.afterLast 64 r.netloc = r.netloc := Text.afterLast_of_notMem (hnot (.inl rfl))
  have hopen : r.netloc.contains 91 = false := by
    simpa using hnot (.inr rfl)
  have hcolon : 58 ∉ host := fun hm => (hhost 58 hm).1 rfl
  simp only [hostinfo, hlast, hopen, Bool.false_eq_true, if_false]
  rw [hr]
  cases port with
  | none =>
      rw [portText, List.append_nil, Text.cut_of_notMem hcolon]
      rfl
  | some n =>
      rw [portText, Text.cut_append_cons _ hcolon]
      simp only [Option.map_some, if_neg (Text.ofNat_ne_nil n)]

/-- The port after an address in brackets. -/
theorem hostinfo_bracketed {r : SplitResult} {host : Text} {port : Option Nat}
    (hr : r.netloc = 91 :: host ++ 93 :: portText port)
    (hhost : ∀ c ∈ host, c ≠ 64 ∧ c ≠ 93) :
    r.hostinfo = (host, port.map Text.ofNat) := by
  have hat : 64 ∉ r.netloc := by
    rw [hr]
    intro hm
    rcases List.mem_append.mp hm with hm | hm
    · rcases List.mem_cons.mp hm with hm | hm
      · omega
      · exact (hhost 64 hm).1 rfl
    · rcases List.mem_cons.mp hm with hm | hm
      · omega
      · have := mem_portText hm
        omega
  have hlast : Text.afterLast 64 r.netloc = r.netloc := Text.afterLast_of_notMem hat
  have hclose : 93 ∉ host := fun hm => (hhost 93 hm).2 rfl
  have hcut : Text.cut 91 (91 :: host ++ 93 :: portText port) =
      ([], host ++ 93 :: portText port) := Text.cut_append_cons (a := []) _ (by simp)
  have hopen : (91 :: host ++ 93 :: portText port).contains 91 = true := rfl
  have hport : (Text.cut 58 (portText port)).2 = (port.map Text.ofNat).getD [] := by
    cases port with
    | none => rfl
    | some n => exact congrArg Prod.snd (Text.cut_append_cons (a := []) (Text.ofNat n) (by simp))
  simp only [hostinfo, hlast]
  simp only [hr, hopen, if_true, hcut, Text.cut_append_cons _ hclose, hport]
  cases port with
  | none => rfl
  | some n => simp only [Option.map_some, Option.getD_some, if_neg (Text.ofNat_ne_nil n)]

theorem hostname_eq {r : SplitResult} {host : Text} {port : Option Text}
    (hinfo : r.hostinfo = (host, port)) (hne : host ≠ []) (hscope : 37 ∉ host)
    (hlower : host.isLowerAscii = true) : r.hostname C = some host := by
  have hdrop : host.dropWhile (· ≠ 37) = [] :=
    List.dropWhile_eq_nil_iff.mpr fun c hc => decide_eq_true fun he => hscope (he ▸ hc)
  rw [hostname, hinfo]
  simp only [if_neg hne, Text.cut_of_notMem hscope, UrlContext.lower_eq_self hlower, hdrop,
    List.append_nil]

theorem port_eq {r : SplitResult} {host : Text} {port : Option Nat}
    (hinfo : r.hostinfo = (host, port.map Text.ofNat)) (hle : ∀ n ∈ port, n ≤ 65535) :
    r.port = some port := by
  rw [SplitResult.port, hinfo]
  cases port with
  | none => rfl
  | some n =>
      have hn := hle n rfl
      have hdigits : (Text.ofNat n).all IPv4Address.isDigit = true :=
        List.all_eq_true.mpr fun c hc => IPv4Address.isDigit_iff.mpr (Text.digits_ofNat hc)
      have hlength : (Text.ofNat n).length ≤ 4300 := by
        have hfive : (Nat.toDigits 10 n).length ≤ 5 :=
          (Nat.length_toDigits_le_iff (by omega) (by omega)).mpr (by omega)
        have hsame : (Text.ofNat n).length = (Nat.toDigits 10 n).length := by
          rw [Text.ofNat, Text.ofString, List.length_map, ← Nat.toList_repr]
          rfl
        omega
      simp only [Option.map_some, hdigits, hlength, Text.toInt_ofNat, hn, decide_true,
        Bool.and_self, if_true]

end SplitResult

/-! ### Where the parts come from -/

theorem Text.cut_subset (sep : Nat) (t : Text) : (cut sep t).1 ⊆ t ∧ (cut sep t).2 ⊆ t :=
  ⟨(List.takeWhile_prefix _).subset,
    List.Subset.trans (List.tail_subset _) (List.dropWhile_suffix _).subset⟩

theorem splitScheme_subset (url : Text) : (splitScheme url).2 ⊆ url := by
  unfold splitScheme
  dsimp only
  split
  · exact (Text.cut_subset 58 url).2
  · exact List.Subset.refl url

theorem splitNetloc_subset (url : Text) : (splitNetloc url).1 ⊆ url := by
  unfold splitNetloc
  split
  · rename_i rest
    rw [List.span_eq_takeWhile_dropWhile]
    exact List.Subset.trans (List.takeWhile_prefix _).subset
      (List.Subset.trans (List.subset_cons_self _ _) (List.subset_cons_self _ _))
  · exact List.nil_subset _

theorem urlsplit_netloc_subset {url : Text} {r : SplitResult} (h : urlsplit C url = some r) :
    r.netloc ⊆ url := by
  unfold urlsplit at h
  dsimp only at h
  split at h
  · cases h
    have hstrip : (url.dropWhile fun c => c ≤ 32).filter (fun c => !([9, 10, 13].contains c)) ⊆ url :=
      List.Subset.trans (List.filter_subset_self _) (List.dropWhile_suffix _).subset
    exact List.Subset.trans (splitNetloc_subset _)
      (List.Subset.trans (splitScheme_subset _) hstrip)
  · cases h

theorem SplitResult.hostinfo_subset (r : SplitResult) : r.hostinfo.1 ⊆ r.netloc := by
  have hlast : Text.afterLast 64 r.netloc ⊆ r.netloc := (List.rtakeWhile_suffix _ _).subset
  unfold hostinfo
  dsimp only
  split
  · exact List.Subset.trans (Text.cut_subset 93 _).1
      (List.Subset.trans (Text.cut_subset 91 _).2 hlast)
  · exact List.Subset.trans (Text.cut_subset 58 _).1 hlast

/-- A value without a percent sign has a host without a scope. -/
theorem hostname_percent {url : Text} {r : SplitResult} {host : Text}
    (h : urlsplit C url = some r) (hnone : 37 ∉ url) (hhost : r.hostname C = some host) :
    37 ∉ host := by
  have hinfo : 37 ∉ r.hostinfo.1 := fun hm =>
    hnone (urlsplit_netloc_subset h (r.hostinfo_subset hm))
  unfold SplitResult.hostname at hhost
  dsimp only at hhost
  split at hhost
  · cases hhost
  · cases hhost
    intro hm
    rcases List.mem_append.mp hm with hm | hm
    · exact C.lower_percent (fun hc => hinfo ((Text.cut_subset 37 _).1 hc)) hm
    · exact hinfo ((List.dropWhile_suffix _).subset hm)

end SuperBoss.Core
