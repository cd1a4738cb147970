import SuperBoss.Core.Urls
import SuperBoss.Connector.Manifest

/-!
The connector's configuration: which text names a server, and the one spelling
that stands for it in file names and in the credential store.
-/

namespace SuperBoss.Connector

open SuperBoss.Core

variable {A : Type} (C : UrlContext A)

/-- `_is_loopback`. -/
def isLoopback (hostname : Text) : Bool :=
  C.lower hostname == Text.ofString "localhost" ||
    match C.ip.ipAddress hostname with
    | some a => (C.ip.traitsOf a).isLoopback
    | none => false

/-- `[0-9.]`. -/
def isNumeric (c : Nat) : Bool := IPv4Address.isDigit c || c == 46

def isLowerAlnum (c : Nat) : Bool := (97 ≤ c && c ≤ 122) || IPv4Address.isDigit c

/-- `_DNS_LABEL`. -/
def isDnsLabel (label : Text) : Bool :=
  (label.head?.any isLowerAlnum) && (label.getLast?.any isLowerAlnum) &&
    (label.all fun c => isLowerAlnum c || c == 45) && label.length ≤ 63

/-- `_canonical_host`; `none` is a `ValueError`. -/
def canonicalHost (hostname : Text) : Option (Text × Bool) :=
  let candidate := hostname.removeDot
  if candidate = [] ∨ candidate.getLast? = some 46 then none
  else
    match C.ip.ipAddress candidate with
    | some a => some (C.lower (C.ip.text a), match a with
        | .v4 _ => false
        | .v6 _ => true)
    | none => do
        if candidate.all isNumeric then none
        else
          let encoded ← encodeIdna C candidate
          if encoded.isAscii then
            let asciiHost := C.lower encoded
            if asciiHost.length > 253 || (asciiHost.splitOn 46).any (fun label => !isDnsLabel label)
            then none
            else some (asciiHost, false)
          else none

/-- The characters that `normalize_origin` refuses before it parses. -/
def refusedInOrigin (c : Nat) : Bool := Text.isSpace c || c < 33 || c == 127 || c == 37 || c == 92

/-- `parsed.hostname`, `parsed.port` and `_canonical_host` of an authority. -/
def authority (parsed : SplitResult) : Option ((Text × Bool) × Option Nat) := do
  let port ← parsed.port
  let hostname ← parsed.hostname C
  if port = some 0 then none
  else do
    let host ← canonicalHost C hostname
    some (host, port)

/-- The host as it stands in a network location. -/
def hostText (host : Text) (isIpv6 : Bool) : Text := if isIpv6 then [91] ++ host ++ [93] else host

/-- `normalize_origin`. -/
def normalizeOrigin (value : Text) : Except ConnectorError Text :=
  if value.utf8 = none ∨ value = [] ∨ value.any refusedInOrigin = true then .error invalidInput
  else
    match (do
      let parsed ← urlsplit C value
      let ((host, isIpv6), port) ← authority C parsed
      some (parsed, host, isIpv6, port)) with
    | none => .error invalidInput
    | some (parsed, host, isIpv6, port) =>
        let scheme := C.lower parsed.scheme
        if ¬ (scheme = Text.ofString "http" ∨ scheme = Text.ofString "https") ∨
            parsed.username ≠ none ∨ parsed.password ≠ none ∨ parsed.query ≠ [] ∨
            parsed.fragment ≠ [] ∨ ¬ (parsed.path = [] ∨ parsed.path = [47]) then
          .error invalidInput
        else if scheme = Text.ofString "http" ∧ isLoopback C host = false then .error invalidInput
        else
          let normalizedHost := hostText host isIpv6
          let defaultPort := scheme = Text.ofString "https" ∧ port = some 443 ∨
            scheme = Text.ofString "http" ∧ port = some 80
          let netloc := if port = none ∨ defaultPort then normalizedHost
            else normalizedHost ++ portText port
          .ok (urlunsplit scheme netloc)

/-! ### Hosts -/

/-- A DNS name, as `_DNS_LABEL` spells its labels. -/
def IsDnsName (host : Text) : Prop :=
  host.length ≤ 253 ∧ ∀ label ∈ host.splitOn 46, isDnsLabel label = true

/-- What `_canonical_host` returns: a literal in its canonical text, or a name. -/
inductive HostForm : Text → Bool → Prop
  | v4 {host : Text} {x : IPv4Address} : IPv4Address.parse host = some x → HostForm host false
  | v6 {host : Text} {a : A} : 37 ∉ host → C.ip.parse host = some a → C.ip.compressed a = host →
      HostForm host true
  | name {host : Text} : IsDnsName host → HostForm host false

/-- A canonical IP literal, or a DNS name that is not purely digits and dots. -/
def CanonicalHost (host : Text) : Prop :=
  (∃ a, C.ip.ipAddress host = some a ∧ C.ip.text a = host) ∨
    (IsDnsName host ∧ host.all isNumeric = false)

/-- Digits, lower-case letters, `-`, `.` and `:`. -/
def isHostChar (c : Nat) : Bool := isLowerAlnum c || c == 45 || c == 46 || c == 58

theorem isHostChar_iff {c : Nat} :
    isHostChar c = true ↔ (97 ≤ c ∧ c ≤ 122) ∨ (48 ≤ c ∧ c ≤ 57) ∨ c = 45 ∨ c = 46 ∨ c = 58 := by
  simp only [isHostChar, isLowerAlnum, Bool.or_eq_true, Bool.and_eq_true, decide_eq_true_eq,
    beq_iff_eq, IPv4Address.isDigit_iff]
  tauto

theorem isDnsLabel_iff {label : Text} : isDnsLabel label = true ↔
    (label.head?.any isLowerAlnum = true ∧ label.getLast?.any isLowerAlnum = true) ∧
      (∀ c ∈ label, isLowerAlnum c = true ∨ c = 45) ∧ label.length ≤ 63 := by
  simp only [isDnsLabel, Bool.and_eq_true, decide_eq_true_eq, List.all_eq_true, Bool.or_eq_true,
    beq_iff_eq]
  tauto

theorem dnsLabel_ne_nil {label : Text} (h : isDnsLabel label = true) : label ≠ [] := by
  rintro rfl
  cases h

theorem parseOctet_digits {t : Text} {b : UInt8} (h : IPv4Address.parseOctet t = some b) :
    t ≠ [] ∧ ∀ c ∈ t, IPv4Address.isDigit c = true := by
  obtain ⟨⟨hne, hdigits, -⟩, -⟩ := Option.ite_none_right_eq_some.mp h
  exact ⟨hne, List.all_eq_true.mp hdigits⟩

/-- The parts of a dotted quad. -/
theorem parse_parts {t : Text} {x : IPv4Address} (h : IPv4Address.parse t = some x) :
    ∀ part ∈ t.splitOn 46, part ≠ [] ∧ ∀ c ∈ part, IPv4Address.isDigit c = true := by
  obtain ⟨a, b, c, d, hsplit, ha, hb, hc, hd⟩ := IPv4Address.parse_eq_some h
  rw [hsplit]
  intro part hpart
  simp only [List.mem_cons, List.not_mem_nil, or_false] at hpart
  rcases hpart with rfl | rfl | rfl | rfl
  · exact parseOctet_digits ha
  · exact parseOctet_digits hb
  · exact parseOctet_digits hc
  · exact parseOctet_digits hd

theorem parse_numeric {t : Text} {x : IPv4Address} (h : IPv4Address.parse t = some x) :
    t.all isNumeric = true := by
  refine List.all_eq_true.mpr fun c hc => ?_
  rcases Text.mem_splitOn 46 hc with rfl | ⟨part, hpart, hmem⟩
  · rfl
  · exact Bool.or_eq_true_iff.mpr (.inl ((parse_parts h part hpart).2 c hmem))

variable {C}

namespace HostForm

theorem chars {host : Text} {b : Bool} (h : HostForm C host b) :
    ∀ c ∈ host, isHostChar c = true ∧ (b = false → c ≠ 58) := by
  intro c hc
  cases h with
  | v4 hparse =>
      have hnumeric := List.all_eq_true.mp (parse_numeric hparse) c hc
      simp only [isNumeric, Bool.or_eq_true, IPv4Address.isDigit_iff, beq_iff_eq] at hnumeric
      exact ⟨isHostChar_iff.mpr (by omega), fun _ => by omega⟩
  | v6 hscope hparse htext =>
      have hchar := C.ip.compressed_text hscope hparse c (htext.symm ▸ hc)
      simp only [Text.isLowerHex, Bool.or_eq_true, Bool.and_eq_true, decide_eq_true_eq] at hchar
      exact ⟨isHostChar_iff.mpr (by omega), fun hb => Bool.noConfusion hb⟩
  | name hname =>
      rcases Text.mem_splitOn 46 hc with rfl | ⟨label, hlabel, hmem⟩
      · exact ⟨rfl, fun _ => by decide⟩
      · have hchar := (isDnsLabel_iff.mp (hname.2 label hlabel)).2.1 c hmem
        simp only [isLowerAlnum, Bool.or_eq_true, Bool.and_eq_true, decide_eq_true_eq,
          IPv4Address.isDigit_iff] at hchar
        exact ⟨isHostChar_iff.mpr (by omega), fun _ => by omega⟩

theorem getLast {host : Text} {b : Bool} (h : HostForm C host b) : host.getLast? ≠ some 46 := by
  cases h with
  | v4 hparse => exact Text.getLast_of_splitOn fun part hpart => (parse_parts hparse part hpart).1
  | v6 hscope hparse _ => exact C.ip.parse_dot hscope hparse
  | name hname =>
      exact Text.getLast_of_splitOn fun label hlabel => dnsLabel_ne_nil (hname.2 label hlabel)

theorem ne_nil {host : Text} {b : Bool} (h : HostForm C host b) : host ≠ [] := by
  rintro rfl
  cases h with
  | v4 hparse => cases hparse
  | v6 _ hparse _ => cases C.ip.parse_colon hparse
  | name hname => cases hname.2 [] (by simp)

theorem isLowerAscii {host : Text} {b : Bool} (h : HostForm C host b) :
    host.isLowerAscii = true := by
  refine List.all_eq_true.mpr fun c hc => ?_
  have hchar := isHostChar_iff.mp (h.chars c hc).1
  simp
  omega

theorem literal {host : Text} (h : HostForm C host true) :
    ∃ a, 37 ∉ host ∧ C.ip.parse host = some a ∧ C.ip.compressed a = host := by
  cases h with
  | v6 hscope hparse htext => exact ⟨_, hscope, hparse, htext⟩

end HostForm

theorem parse_of_colon {host : Text} (h : 58 ∈ host) : IPv4Address.parse host = none := by
  cases hparse : IPv4Address.parse host with
  | none => rfl
  | some x => cases List.all_eq_true.mp (parse_numeric hparse) 58 h

theorem ipAddress_eq_none {host : Text} (hparse : IPv4Address.parse host = none)
    (hcolon : 58 ∉ host) : C.ip.ipAddress host = none := by
  rw [IPv6Library.ipAddress, hparse]
  cases hv6 : C.ip.parse host with
  | none => rfl
  | some a => exact absurd (C.ip.parse_colon hv6) hcolon

theorem encodeIdna_name {host : Text} (hname : IsDnsName host) (hascii : host.isAscii = true)
    (hne : host ≠ []) : encodeIdna C host = some host := by
  have hnonempty : (host.splitOn 46).dropLast.all (fun label => label != []) = true :=
    List.all_eq_true.mpr fun label hlabel => bne_iff_ne.mpr
      (dnsLabel_ne_nil (hname.2 label (List.dropLast_subset _ hlabel)))
  have hshort : (host.splitOn 46).all (fun label => label.length < 64) = true :=
    List.all_eq_true.mpr fun label hlabel => by
      have hlength := (isDnsLabel_iff.mp (hname.2 label hlabel)).2.2
      exact decide_eq_true (by omega)
  simp only [encodeIdna, if_neg hne, hascii, if_true, hnonempty, hshort, Bool.and_self]

/-- A canonical host is kept, unless it is a name of digits and dots. -/
theorem canonicalHost_form {host : Text} {b : Bool} (h : HostForm C host b) :
    canonicalHost C host =
      if host.all isNumeric = true ∧ IPv4Address.parse host = none then none
      else some (host, b) := by
  have hdot := Text.removeDot_of_getLast h.getLast
  have hlower : C.lower host = host := UrlContext.lower_eq_self h.isLowerAscii
  have hentry : ¬ (host = [] ∨ host.getLast? = some 46) :=
    fun hor => hor.elim h.ne_nil h.getLast
  have hv4 : ∀ x, IPv4Address.parse host = some x →
      canonicalHost C host = some (host, false) := by
    intro x hparse
    have hip := IPv6Library.ipAddress_eq_v4 (V := C.ip).mpr hparse
    simp only [canonicalHost, hdot, if_neg hentry, hip, IPv6Library.text,
      IPv4Address.compressed_parse hparse, hlower]
  cases h with
  | v4 hparse =>
      rw [hv4 _ hparse, if_neg fun hand => by simp [hparse] at hand]
  | @v6 a hscope hparse htext =>
      have hcolon := C.ip.parse_colon hparse
      have hip : C.ip.ipAddress host = some (.v6 a) := by
        rw [IPv6Library.ipAddress, parse_of_colon hcolon, hparse]
        rfl
      rw [if_neg fun hand => by cases List.all_eq_true.mp hand.1 58 hcolon]
      simp only [canonicalHost, hdot, if_neg hentry, hip, IPv6Library.text, htext, hlower]
  | name hname =>
      have hform : HostForm C host false := .name hname
      cases hparse : IPv4Address.parse host with
      | some x =>
          rw [hv4 x hparse, if_neg fun hand => by cases hand.2]
      | none =>
          have hip := ipAddress_eq_none (C := C) hparse fun hc => (hform.chars 58 hc).2 rfl rfl
          have hascii := Text.isAscii_of_isLowerAscii hform.isLowerAscii
          by_cases hnumeric : host.all isNumeric = true
          · rw [if_pos ⟨hnumeric, rfl⟩]
            simp only [canonicalHost, hdot, if_neg hentry, hip, hnumeric, if_true]
          · have hlong : ¬ host.length > 253 := Nat.not_lt.mpr hname.1
            have hlabels : (host.splitOn 46).any (fun label => !isDnsLabel label) = false :=
              List.any_eq_false.mpr fun label hlabel => by simp [hname.2 label hlabel]
            rw [if_neg fun hand => hnumeric hand.1]
            simp only [canonicalHost, hdot, if_neg hentry, hip, if_neg hnumeric,
              encodeIdna_name hname hascii hform.ne_nil, Option.bind_eq_bind, Option.bind_some,
              hascii, if_true, hlower, hlong, hlabels, decide_false, Bool.or_self,
              Bool.false_eq_true, if_false]

/-- Where the host of a text comes from: a literal, or a name that IDNA folds. -/
theorem canonicalHost_ok {hostname host : Text} {b : Bool}
    (h : canonicalHost C hostname = some (host, b)) (hscope : 37 ∉ hostname) :
    HostForm C host b ∧
      (C.ip.ipAddress hostname.removeDot ≠ none ∧
          ((∃ x, IPv4Address.parse host = some x) ∨ 58 ∈ host) ∨
        ∃ folded, C.ip.ipAddress hostname.removeDot = none ∧
          encodeIdna C hostname.removeDot = some folded ∧ folded.isAscii = true ∧
          host = C.lower folded) := by
  have hscope' : 37 ∉ hostname.removeDot := fun hm => hscope (Text.mem_of_mem_removeDot hm)
  unfold canonicalHost at h
  dsimp only at h
  split at h
  · cases h
  · split at h
    · rename_i a hip
      obtain ⟨hhost, hb⟩ := Prod.mk.inj (Option.some.inj h)
      cases a with
      | v4 x =>
          have hparse := IPv6Library.ipAddress_eq_v4.mp hip
          have hform : HostForm C hostname.removeDot false := .v4 hparse
          have hsame : C.lower (C.ip.text (.v4 x)) = hostname.removeDot :=
            (congrArg C.lower (IPv4Address.compressed_parse hparse)).trans
              (UrlContext.lower_eq_self hform.isLowerAscii)
          rw [← hb, ← hhost, hsame]
          exact ⟨hform, .inl ⟨hip ▸ Option.some_ne_none _, .inl ⟨x, hparse⟩⟩⟩
      | v6 a =>
          have hparse := IPv6Library.ipAddress_eq_v6 hip
          have hagain := C.ip.parse_compressed hparse
          have hnone : 37 ∉ C.ip.compressed a := fun hm => by
            have hchar := C.ip.compressed_text hscope' hparse 37 hm
            simp [Text.isLowerHex] at hchar
          have hform : HostForm C (C.ip.compressed a) true := .v6 hnone hagain rfl
          have hsame : C.lower (C.ip.text (.v6 a)) = C.ip.compressed a :=
            UrlContext.lower_eq_self hform.isLowerAscii
          rw [← hb, ← hhost, hsame]
          exact ⟨hform, .inl ⟨hip ▸ Option.some_ne_none _, .inr (C.ip.parse_colon hagain)⟩⟩
    · rename_i hip
      split at h
      · cases h
      · obtain ⟨folded, hfold, h⟩ := Option.bind_eq_some_iff.mp h
        split at h
        · rename_i hascii
          split at h
          · cases h
          · rename_i hok
            simp only [Bool.or_eq_true, decide_eq_true_eq, List.any_eq_true, not_or,
              not_exists, not_and, Nat.not_lt, Bool.not_eq_true', Bool.not_eq_false] at hok
            obtain ⟨hhost, hb⟩ := Prod.mk.inj (Option.some.inj h)
            rw [← hb, ← hhost]
            exact ⟨.name hok, .inr ⟨folded, hip, hfold, hascii, rfl⟩⟩
        · cases h

/-! ### Canonical spellings -/

theorem HostForm.netloc_chars {host : Text} {b : Bool} (h : HostForm C host b)
    (port : Option Nat) :
    ∀ c ∈ hostText host b ++ portText port,
      isHostChar c = true ∨ b = true ∧ (c = 91 ∨ c = 93) := by
  intro c hc
  rcases List.mem_append.mp hc with hc | hc
  · cases b with
    | false => exact .inl (h.chars c hc).1
    | true =>
        simp only [hostText, if_true, List.mem_append, List.mem_singleton] at hc
        rcases hc with (hc | hc) | hc
        · exact .inr ⟨rfl, .inl hc⟩
        · exact .inl (h.chars c hc).1
        · exact .inr ⟨rfl, .inr hc⟩
  · have := mem_portText hc
    exact .inl (isHostChar_iff.mpr (by omega))

theorem isPlain_of_netloc {c : Nat} (h : isHostChar c = true ∨ c = 91 ∨ c = 93) :
    isPlain c = true := by
  have hne : c ≠ 47 ∧ c ≠ 63 ∧ c ≠ 35 ∧ 32 < c ∧ c < 127 := by
    rcases h with h | h
    · have := isHostChar_iff.mp h
      omega
    · omega
  simp [isPlain, isDelimiter, hne]

/-- The brackets of a canonical spelling hold an IPv6 address. -/
theorem HostForm.checkBrackets {host : Text} {b : Bool} (h : HostForm C host b)
    (port : Option Nat) : checkBrackets C (hostText host b ++ portText port) = true := by
  cases b with
  | false =>
      have hnone : ∀ x, (x = 91 ∨ x = 93) →
          (hostText host false ++ portText port).contains x = false := by
        intro x hx
        rw [List.contains_eq_mem, decide_eq_false_iff_not]
        intro hm
        rcases h.netloc_chars port x hm with hchar | ⟨hfalse, -⟩
        · have := isHostChar_iff.mp hchar
          omega
        · cases hfalse
      rw [Core.checkBrackets, hnone 91 (.inl rfl), hnone 93 (.inr rfl)]
      rfl
  | true =>
      have ⟨a, hscope, hparse, htext⟩ := h.literal
      have hclose : 93 ∉ host := fun hm => by
        have := isHostChar_iff.mp (h.chars 93 hm).1
        omega
      have hat : 64 ∉ hostText host true ++ portText port := fun hm => by
        rcases h.netloc_chars port 64 hm with hchar | ⟨-, hbracket⟩
        · have := isHostChar_iff.mp hchar
          omega
        · omega
      have hsplit : hostText host true ++ portText port = 91 :: (host ++ 93 :: portText port) := by
        simp [hostText]
      have hfuture : host.head? ≠ some 118 := by
        intro hhead
        have hchar := C.ip.compressed_text hscope hparse 118
          (htext.symm ▸ List.mem_of_mem_head? hhead)
        simp [Text.isLowerHex] at hchar
      have hip : C.ip.ipAddress host = some (.v6 a) := by
        rw [IPv6Library.ipAddress, parse_of_colon (C.ip.parse_colon hparse), hparse]
        rfl
      have hcut : Text.cut 91 (91 :: (host ++ 93 :: portText port)) =
          ([], host ++ 93 :: portText port) := Text.cut_append_cons (a := []) _ (by simp)
      have hport : (portText port == [] || (portText port).head? == some 58) = true := by
        cases port <;> rfl
      have hbracketed : checkBracketedNetloc C (hostText host true ++ portText port) = true := by
        rw [checkBracketedNetloc, Text.afterLast_of_notMem hat, hsplit]
        simp only [hcut, Text.cut_append_cons _ hclose, hport, checkBracketedHost,
          if_neg hfuture, hip]
        rfl
      rw [Core.checkBrackets, hbracketed, hsplit]
      simp

/-- What a canonical spelling is read as. -/
structure ReadAs (value scheme host : Text) (port : Option Nat) : Prop where
  parsed : ∃ parsed, urlsplit C value = some parsed ∧ parsed.scheme = scheme ∧
    parsed.hostname C = some host ∧ parsed.port = some port ∧ parsed.username = none ∧
    parsed.password = none ∧ parsed.path = [] ∧ parsed.query = [] ∧ parsed.fragment = []

theorem HostForm.readAs {scheme host : Text} {b : Bool} {port : Option Nat}
    (h : HostForm C host b)
    (hscheme : scheme = Text.ofString "http" ∨ scheme = Text.ofString "https")
    (hport : ∀ n ∈ port, n ≤ 65535) :
    ReadAs (C := C) (urlunsplit scheme (hostText host b ++ portText port)) scheme host port := by
  have hsplit := urlsplit_urlunsplit (C := C) hscheme
    (fun c hc => isPlain_of_netloc ((h.netloc_chars port c hc).imp_right And.right))
    (h.checkBrackets port)
  have hinfo : SplitResult.hostinfo ⟨scheme, hostText host b ++ portText port, [], [], []⟩ =
      (host, port.map Text.ofNat) := by
    cases b with
    | false =>
        refine SplitResult.hostinfo_plain rfl fun c hc => ?_
        have hchar := h.chars c hc
        have := isHostChar_iff.mp hchar.1
        have := hchar.2 rfl
        omega
    | true =>
        refine SplitResult.hostinfo_bracketed (by simp [hostText]) fun c hc => ?_
        have := isHostChar_iff.mp (h.chars c hc).1
        omega
  have hat : (hostText host b ++ portText port).contains 64 = false := by
    rw [List.contains_eq_mem, decide_eq_false_iff_not]
    intro hm
    rcases h.netloc_chars port 64 hm with hchar | ⟨-, hbracket⟩
    · have := isHostChar_iff.mp hchar
      omega
    · omega
  have huser : SplitResult.userinfo ⟨scheme, hostText host b ++ portText port, [], [], []⟩ =
      none := by
    rw [SplitResult.userinfo, hat]
    rfl
  have hscope : 37 ∉ host := fun hm => by
    have := isHostChar_iff.mp (h.chars 37 hm).1
    omega
  refine ⟨_, hsplit, rfl, SplitResult.hostname_eq hinfo h.ne_nil hscope h.isLowerAscii,
    SplitResult.port_eq hinfo hport, ?_, ?_, rfl, rfl, rfl⟩
  · rw [SplitResult.username, huser]
    rfl
  · rw [SplitResult.password, huser]
    rfl

theorem refusedInOrigin_plain {c : Nat} (hlow : 32 < c) (hhigh : c < 127) (hpercent : c ≠ 37)
    (hslash : c ≠ 92) : refusedInOrigin c = false := by
  simp [refusedInOrigin, Text.isSpace, Text.isWhitespace]
  omega

/-- Not the port that the scheme implies. -/
def KeptPort (scheme : Text) (port : Option Nat) : Prop :=
  (∀ n ∈ port, n ≠ 0 ∧ n ≤ 65535) ∧ ¬ (scheme = Text.ofString "https" ∧ port = some 443) ∧
    ¬ (scheme = Text.ofString "http" ∧ port = some 80)

/-- A canonical spelling is kept, unless its host is a name of digits and dots. -/
theorem HostForm.normalizeOrigin {scheme host : Text} {b : Bool} {port : Option Nat}
    (h : HostForm C host b)
    (hscheme : scheme = Text.ofString "http" ∨ scheme = Text.ofString "https")
    (hport : KeptPort scheme port)
    (hloopback : scheme = Text.ofString "http" → isLoopback C host = true) :
    Connector.normalizeOrigin C (urlunsplit scheme (hostText host b ++ portText port)) =
      if host.all isNumeric = true ∧ IPv4Address.parse host = none then .error invalidInput
      else .ok (urlunsplit scheme (hostText host b ++ portText port)) := by
  have hrange : ∀ c ∈ urlunsplit scheme (hostText host b ++ portText port),
      32 < c ∧ c < 127 ∧ c ≠ 37 ∧ c ≠ 92 := by
    intro c hc
    rcases List.mem_append.mp hc with hc | hc
    · rcases hscheme with rfl | rfl
      · exact (by decide : ∀ c ∈ Text.ofString "http" ++ [58, 47, 47],
          32 < c ∧ c < 127 ∧ c ≠ 37 ∧ c ≠ 92) c hc
      · exact (by decide : ∀ c ∈ Text.ofString "https" ++ [58, 47, 47],
          32 < c ∧ c < 127 ∧ c ≠ 37 ∧ c ≠ 92) c hc
    · rcases h.netloc_chars port c hc with hchar | ⟨-, hbracket⟩
      · have := isHostChar_iff.mp hchar
        omega
      · omega
  have hentry : ¬ ((urlunsplit scheme (hostText host b ++ portText port)).utf8 = none ∨
      urlunsplit scheme (hostText host b ++ portText port) = [] ∨
      (urlunsplit scheme (hostText host b ++ portText port)).any refusedInOrigin = true) := by
    rintro (hutf8 | hnil | hrefused)
    · refine Text.utf8_of_isAscii (List.all_eq_true.mpr fun c hc => ?_) hutf8
      have := hrange c hc
      exact decide_eq_true (by omega)
    · simp [urlunsplit] at hnil
    · obtain ⟨c, hc, hrefused⟩ := List.any_eq_true.mp hrefused
      have hok := hrange c hc
      rw [refusedInOrigin_plain hok.1 hok.2.1 hok.2.2.1 hok.2.2.2] at hrefused
      cases hrefused
  obtain ⟨parsed, hsplit, hparsedScheme, hhostname, hparsedPort, huser, hpassword, hpath, hquery,
    hfragment⟩ := (h.readAs hscheme fun n hn => (hport.1 n hn).2).parsed
  have hzero : port ≠ some 0 := fun he => (hport.1 0 he).1 rfl
  have hauthority : authority C parsed = (canonicalHost C host).map fun p => (p, port) := by
    simp only [authority, hparsedPort, hhostname, Option.bind_eq_bind, Option.bind_some,
      if_neg hzero]
    cases canonicalHost C host <;> rfl
  have hlower : C.lower scheme = scheme := UrlContext.lower_eq_self (by
    rcases hscheme with rfl | rfl <;> rfl)
  unfold Connector.normalizeOrigin
  rw [if_neg hentry]
  simp only [hsplit, hauthority, canonicalHost_form h, Option.bind_eq_bind, Option.bind_some]
  by_cases hnumeric : host.all isNumeric = true ∧ IPv4Address.parse host = none
  · rw [if_pos hnumeric, if_pos hnumeric]
    rfl
  · rw [if_neg hnumeric, if_neg hnumeric]
    simp only [Option.map_some, Option.bind_some, hparsedScheme, hlower, huser, hpassword, hpath,
      hquery, hfragment, hscheme, not_true_eq_false, ne_eq, or_self, true_or, if_false]
    rw [if_neg fun hand => by simp [hloopback hand.1] at hand]
    have hkeep : (if port = none ∨ scheme = Text.ofString "https" ∧ port = some 443 ∨
        scheme = Text.ofString "http" ∧ port = some 80 then hostText host b
        else hostText host b ++ portText port) = hostText host b ++ portText port := by
      cases port with
      | none => simp [portText]
      | some n =>
          rw [if_neg]
          rintro (hnone | hdefault | hdefault)
          · cases hnone
          · exact hport.2.1 hdefault
          · exact hport.2.2 hdefault
    exact congrArg (fun t => Except.ok (urlunsplit scheme t)) hkeep

theorem port_le {parsed : SplitResult} {port : Option Nat} (h : parsed.port = some port) :
    ∀ n ∈ port, n ≤ 65535 := by
  intro n hn
  rw [Option.mem_def.mp hn, SplitResult.port] at h
  split at h
  · cases h
  · split at h
    · rename_i hok
      obtain rfl := Option.some.inj (Option.some.inj h)
      exact of_decide_eq_true (Bool.and_eq_true_iff.mp hok).2
    · cases h

theorem authority_ok {parsed : SplitResult} {host : Text} {b : Bool} {port : Option Nat}
    (h : authority C parsed = some ((host, b), port)) :
    ∃ hostname, parsed.hostname C = some hostname ∧ canonicalHost C hostname = some (host, b) ∧
      ∀ n ∈ port, n ≠ 0 ∧ n ≤ 65535 := by
  obtain ⟨port', hport, h⟩ := Option.bind_eq_some_iff.mp h
  obtain ⟨hostname, hhostname, h⟩ := Option.bind_eq_some_iff.mp h
  split at h
  · cases h
  · rename_i hzero
    obtain ⟨found, hcanonical, h⟩ := Option.bind_eq_some_iff.mp h
    cases h
    exact ⟨hostname, hhostname, hcanonical,
      fun n hn => ⟨fun he => hzero (he ▸ hn), port_le hport n hn⟩⟩

/-- What `normalize_origin` read and wrote when it accepted a value. -/
theorem normalizeOrigin_ok {value result : Text}
    (h : Connector.normalizeOrigin C value = .ok result) :
    ∃ parsed hostname host b scheme port, urlsplit C value = some parsed ∧
      parsed.hostname C = some hostname ∧ canonicalHost C hostname = some (host, b) ∧
      37 ∉ value ∧ (scheme = Text.ofString "http" ∨ scheme = Text.ofString "https") ∧
      KeptPort scheme port ∧ (scheme = Text.ofString "http" → isLoopback C host = true) ∧
      result = urlunsplit scheme (hostText host b ++ portText port) := by
  unfold Connector.normalizeOrigin at h
  split at h
  · cases h
  · rename_i hentry
    have hscope : 37 ∉ value := fun hm =>
      hentry (.inr (.inr (List.any_eq_true.mpr ⟨37, hm, rfl⟩)))
    split at h
    · cases h
    · rename_i parsed host b port hread
      obtain ⟨parsed', hsplit, hread⟩ := Option.bind_eq_some_iff.mp hread
      obtain ⟨⟨⟨host', b'⟩, port'⟩, hauthority, hread⟩ := Option.bind_eq_some_iff.mp hread
      cases hread
      obtain ⟨hostname, hhostname, hcanonical, hport⟩ := authority_ok hauthority
      dsimp only at h
      split at h
      · cases h
      · rename_i hshape
        split at h
        · cases h
        · rename_i hloopback
          have hscheme : C.lower parsed.scheme = Text.ofString "http" ∨
              C.lower parsed.scheme = Text.ofString "https" := by
            by_contra hother
            exact hshape (.inl hother)
          have hloop : C.lower parsed.scheme = Text.ofString "http" →
              isLoopback C host = true := by
            intro hhttp
            by_contra hfalse
            exact hloopback ⟨hhttp, Bool.eq_false_iff.mpr hfalse⟩
          split at h
          · refine ⟨parsed, hostname, host, b, _, none, hsplit, hhostname, hcanonical, hscope,
              hscheme, ⟨nofun, nofun, nofun⟩, hloop, ?_⟩
            rw [portText, List.append_nil]
            exact (Except.ok.inj h).symm
          · rename_i hdefault
            refine ⟨parsed, hostname, host, b, _, port, hsplit, hhostname, hcanonical, hscope,
              hscheme, ⟨hport, fun he => hdefault (.inr (.inl he)),
                fun he => hdefault (.inr (.inr he))⟩, hloop, (Except.ok.inj h).symm⟩

/-! ### The normal form -/

variable (C) in
/-- An https origin, or an http one of this machine, that is read back as its
own canonical spelling. -/
structure NormalForm (origin : Text) : Prop where
  parts : ∃ parsed host, urlsplit C origin = some parsed ∧ parsed.hostname C = some host ∧
    (parsed.scheme = Text.ofString "https" ∨
      parsed.scheme = Text.ofString "http" ∧ isLoopback C host = true) ∧
    parsed.username = none ∧ parsed.password = none ∧ parsed.path = [] ∧ parsed.query = [] ∧
    parsed.fragment = [] ∧ CanonicalHost C host
  stable : Connector.normalizeOrigin C origin = .ok origin

variable (C) in
/-- The host of a value is a name that IDNA folds to digits and dots, and these
are no IPv4 literal. -/
def FoldsToNumber (value : Text) : Prop :=
  ∃ parsed hostname folded, urlsplit C value = some parsed ∧ parsed.hostname C = some hostname ∧
    C.ip.ipAddress hostname.removeDot = none ∧
    encodeIdna C hostname.removeDot = some folded ∧ folded.all isNumeric = true ∧
    IPv4Address.parse folded = none

theorem HostForm.canonicalHost {host : Text} {b : Bool} (h : HostForm C host b)
    (hnumeric : ¬ (host.all isNumeric = true ∧ IPv4Address.parse host = none)) :
    CanonicalHost C host := by
  have hv4 : ∀ x, IPv4Address.parse host = some x → CanonicalHost C host := fun x hparse =>
    .inl ⟨.v4 x, IPv6Library.ipAddress_eq_v4.mpr hparse, IPv4Address.compressed_parse hparse⟩
  cases h with
  | v4 hparse => exact hv4 _ hparse
  | @v6 a hscope hparse htext =>
      refine .inl ⟨.v6 a, ?_, htext⟩
      rw [IPv6Library.ipAddress, parse_of_colon (C.ip.parse_colon hparse), hparse]
      rfl
  | name hname =>
      cases hparse : IPv4Address.parse host with
      | some x => exact hv4 x hparse
      | none => exact .inr ⟨hname, Bool.eq_false_iff.mpr fun hall => hnumeric ⟨hall, hparse⟩⟩

/-- Folding a text to lower case makes no digits and dots. -/
theorem lower_numeric {folded : Text} (hascii : folded.isAscii = true)
    (h : (C.lower folded).all isNumeric = true) : C.lower folded = folded := by
  rw [C.lower_ascii hascii] at h ⊢
  refine (List.map_congr_left fun c hc => ?_).trans (List.map_id folded)
  have hc := List.all_eq_true.mp h _ (List.mem_map_of_mem hc)
  unfold Text.asciiLower at hc ⊢
  split
  · rename_i hupper
    rw [if_pos hupper] at hc
    simp only [isNumeric, Bool.or_eq_true, IPv4Address.isDigit_iff, beq_iff_eq] at hc
    omega
  · rfl

/-- An accepted value is written in normal form unless its host folds to a number. -/
theorem normalizeOrigin_normalForm_iff {value origin : Text}
    (h : Connector.normalizeOrigin C value = .ok origin) :
    NormalForm C origin ↔ ¬ FoldsToNumber C value := by
  obtain ⟨parsed, hostname, host, b, scheme, port, hsplit, hhostname, hcanonical, hscope, hscheme,
    hport, hloop, rfl⟩ := normalizeOrigin_ok h
  obtain ⟨hform, hsource⟩ :=
    canonicalHost_ok hcanonical (hostname_percent hsplit hscope hhostname)
  have hagain := hform.normalizeOrigin hscheme hport hloop
  have hfolds : FoldsToNumber C value ↔
      (host.all isNumeric = true ∧ IPv4Address.parse host = none) := by
    constructor
    · rintro ⟨parsed', hostname', folded, hsplit', hhostname', hip, hfold, hall, hnone⟩
      obtain rfl := Option.some.inj (hsplit.symm.trans hsplit')
      obtain rfl := Option.some.inj (hhostname.symm.trans hhostname')
      rcases hsource with ⟨hliteral, -⟩ | ⟨folded', -, hfold', hascii, rfl⟩
      · exact absurd hip hliteral
      · obtain rfl := Option.some.inj (hfold.symm.trans hfold')
        have hlower : C.lower folded = folded := by
          refine UrlContext.lower_eq_self (List.all_eq_true.mpr fun c hc => ?_)
          have hc := List.all_eq_true.mp hall c hc
          simp only [isNumeric, Bool.or_eq_true, IPv4Address.isDigit_iff, beq_iff_eq] at hc
          simp
          omega
        rw [hlower]
        exact ⟨hall, hnone⟩
    · rintro ⟨hall, hnone⟩
      rcases hsource with ⟨-, ⟨x, hx⟩ | hcolon⟩ | ⟨folded, hip, hfold, hascii, rfl⟩
      · cases hnone.symm.trans hx
      · cases List.all_eq_true.mp hall 58 hcolon
      · have hlower := lower_numeric hascii hall
        rw [hlower] at hall hnone
        exact ⟨parsed, hostname, folded, hsplit, hhostname, hip, hfold, hall, hnone⟩
  rw [hfolds]
  constructor
  · intro hnormal hnumeric
    rw [if_pos hnumeric, hnormal.stable] at hagain
    cases hagain
  · intro hnumeric
    rw [if_neg hnumeric] at hagain
    obtain ⟨read, hread, rfl, hname, -, huser, hpassword, hpath, hquery, hfragment⟩ :=
      (hform.readAs hscheme fun n hn => (hport.1 n hn).2).parsed
    refine ⟨⟨read, host, hread, hname, ?_, huser, hpassword, hpath, hquery, hfragment,
      hform.canonicalHost hnumeric⟩, hagain⟩
    rcases hscheme with hhttp | hhttps
    · exact .inr ⟨hhttp, hloop hhttp⟩
    · exact .inl hhttps

namespace SampleUrls

/-- The loopback address alone among the IPv6 addresses. -/
def ipv6 : IPv6Library Unit where
  parse t := if t = Text.ofString "::1" then some () else none
  compressed _ := Text.ofString "::1"
  traits _ := ⟨false, true, false, false, false, true, true⟩
  parse_colon h := by
    obtain ⟨rfl, -⟩ := Option.ite_none_right_eq_some.mp h
    decide
  parse_dot _ h := by
    obtain ⟨rfl, -⟩ := Option.ite_none_right_eq_some.mp h
    decide
  parse_compressed _ := rfl
  compressed_text _ _ := by decide

/-- Fullwidth forms of ASCII, which compatibility normalization narrows. -/
def narrow (t : Text) : Text := t.map fun c => if 0xFF01 ≤ c ∧ c ≤ 0xFF5E then c - 0xFEE0 else c

def context : UrlContext Unit where
  lower t := t.map Text.asciiLower
  nfkc := narrow
  nameprep t := some ((narrow t).map Text.asciiLower)
  punycode t := t
  ip := ipv6
  lower_ascii _ := rfl
  lower_percent h hm := by
    obtain ⟨c, hc, hlower⟩ := List.mem_map.mp hm
    unfold Text.asciiLower at hlower
    split at hlower
    · omega
    · exact h (hlower ▸ hc)

end SampleUrls

/-- A spelling of a name, with capitals, a final dot and the port of the scheme. -/
theorem normalizeOrigin_normalForm_sample :
    NormalForm SampleUrls.context (Text.ofString "https://files.example") ↔
      ¬ FoldsToNumber SampleUrls.context (Text.ofString "HTTPS://Files.Example.:443/") :=
  normalizeOrigin_normalForm_iff (by decide +kernel)

/-- Fullwidth digits pass the filter of numeric hosts and are folded to `127.1`,
which the next normalization refuses. -/
theorem normalizeOrigin_unstable :
    Connector.normalizeOrigin SampleUrls.context
        (Text.ofString "https://" ++ [0xFF11, 0xFF12, 0xFF17, 46, 0xFF11]) =
      .ok (Text.ofString "https://127.1") ∧
    Connector.normalizeOrigin SampleUrls.context (Text.ofString "https://127.1") =
      .error invalidInput ∧
    ¬ NormalForm SampleUrls.context (Text.ofString "https://127.1") := by
  have hrefused : Connector.normalizeOrigin SampleUrls.context (Text.ofString "https://127.1") =
      .error invalidInput := by decide +kernel
  refine ⟨by decide +kernel, hrefused, fun h => ?_⟩
  have hstable := h.stable
  rw [hrefused] at hstable
  cases hstable

end SuperBoss.Connector
