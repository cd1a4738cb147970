import SuperBoss.Core.WebUrls

/-!
`safePostLoginPath`: the path that a page goes to after a login stays in the application.
-/

namespace SuperBoss.Web

open SuperBoss.Core
open SuperBoss.Core.JsString
open SuperBoss.Core.WebUrl

/-- `code <= 31 || code === 127`. -/
def isUnsafeUnit (c : UInt16) : Bool := c.toNat ≤ 31 || c.toNat == 127

/-- The loop of `hasUnsafePathText`. Behind a high surrogate at the end `charCodeAt` is
`NaN`, and no comparison with it holds. -/
def hasUnsafePathText : JsString → Bool
  | [] => false
  | [c] => isUnsafeUnit c || isLow c
  | c :: d :: rest =>
      if isUnsafeUnit c then true
      else if isHigh c then !isLow d || hasUnsafePathText rest
      else if isLow c then true
      else hasUnsafePathText (d :: rest)

def fallbackOwnerPath : JsString := ofString "/owner"

/-- `https://superboss.invalid`. -/
def invalidOrigin : HttpsOrigin := ⟨Text.ofString "superboss.invalid", none⟩

/-- The loop over the decoding passes. -/
def decodePasses : Nat → Text → Option Text
  | 0, t => some t
  | n + 1, t =>
      (decodeURIComponent t).bind fun next => if next = t then some t else decodePasses n next

/-- `/(^|\/)\.{1,2}(\/|$)/.test(value)`. -/
def hasDotSegment (value : Text) : Bool :=
  (value.splitOn 47).any fun s => s == Text.ofString "." || s == Text.ofString ".."

/-- The paths that a login does not lead back to. -/
def loginPaths : List Text :=
  [Text.ofString "/login", Text.ofString "/auth/callback", Text.ofString "/password/change"]

/-- `safePostLoginPath`; none is a value that is no string. -/
def safePostLoginPath (elsewhere : Text → HttpsOrigin → Option WebUrl.Url)
    (value : Option JsString) : JsString :=
  match value with
  | none => fallbackOwnerPath
  | some value =>
      if value.head? ≠ some 47 ∨ [47, 47].isPrefixOf value ∨ 92 ∈ value ∨
          hasUnsafePathText value then fallbackOwnerPath
      else
        match parse elsewhere value invalidOrigin with
        | none => fallbackOwnerPath
        | some parsed =>
            let pathname := parsed.pieces.pathname
            match decodePasses 2 pathname with
            | none => fallbackOwnerPath
            | some decodedPath =>
                if parsed.origin ≠ invalidOrigin.serialize ∨ pathname.head? ≠ some 47 ∨
                    [47, 47].isPrefixOf pathname ∨ 92 ∈ decodedPath ∨
                    [47, 47].isPrefixOf decodedPath ∨ hasDotSegment decodedPath ∨
                    pathname ∈ loginPaths then fallbackOwnerPath
                else ofText (pathname ++ parsed.pieces.search ++ parsed.pieces.hash)

/-! ### The checks on the value -/

theorem not_unsafeUnit_of_mem {s : JsString} (h : hasUnsafePathText s = false) {c : UInt16}
    (hc : c ∈ s) : isUnsafeUnit c = false := by
  induction s using hasUnsafePathText.induct with
  | case1 => cases hc
  | case2 d =>
      rw [List.mem_singleton.mp hc]
      exact (Bool.or_eq_false_iff.mp h).1
  | case3 d e rest hd =>
      rw [hasUnsafePathText, if_pos hd] at h
      cases h
  | case4 d e rest hd hhigh ih =>
      rw [hasUnsafePathText, if_neg hd, if_pos hhigh, Bool.or_eq_false_iff,
        Bool.not_eq_false'] at h
      rcases List.mem_cons.mp hc with rfl | hc
      · exact Bool.eq_false_iff.mpr hd
      · rcases List.mem_cons.mp hc with rfl | hc
        · -- A low surrogate is no control.
          have hlow := isLow_iff.mp h.1
          simp only [isUnsafeUnit, Bool.or_eq_false_iff, decide_eq_false_iff_not,
            beq_eq_false_iff_ne]
          omega
        · exact ih h.2 hc
  | case5 d e rest hd hhigh hlow =>
      rw [hasUnsafePathText, if_neg hd, if_neg hhigh, if_pos hlow] at h
      cases h
  | case6 d e rest hd hhigh hlow ih =>
      rw [hasUnsafePathText, if_neg hd, if_neg hhigh, if_neg hlow] at h
      rcases List.mem_cons.mp hc with rfl | hc
      · exact Bool.eq_false_iff.mpr hd
      · exact ih h hc

/-- A small code point is a code unit. -/
theorem unit_of_codePoint {s : JsString} {q : Nat} (hq : q ∈ s.codePoints) (hlt : q < 0x10000) :
    ∃ c ∈ s, c.toNat = q := by
  induction s using codePoints.induct with
  | case1 => cases hq
  | case2 c => exact ⟨c, List.mem_singleton.mpr rfl, (List.mem_singleton.mp hq).symm⟩
  | case3 c d rest hpair ih =>
      obtain ⟨hc, hd⟩ := Bool.and_eq_true_iff.mp hpair
      rw [codePoints_pair hc hd] at hq
      rcases List.mem_cons.mp hq with heq | hq
      · have hlarge := (pair_range hc hd).1
        omega
      · obtain ⟨e, he, heq⟩ := ih hq
        exact ⟨e, List.mem_cons_of_mem _ (List.mem_cons_of_mem _ he), heq⟩
  | case4 c d rest hpair ih =>
      rw [codePoints, if_neg hpair] at hq
      rcases List.mem_cons.mp hq with rfl | hq
      · exact ⟨c, List.mem_cons_self, rfl⟩
      · obtain ⟨e, he, heq⟩ := ih hq
        exact ⟨e, List.mem_cons_of_mem _ he, heq⟩

theorem head_of_codePoint {s : JsString} {q : Nat} (hq : s.codePoints.head? = some q)
    (hlt : q < 0x10000) : ∃ c, s.head? = some c ∧ c.toNat = q := by
  unfold codePoints at hq
  split at hq
  · cases hq
  · rename_i c
    exact ⟨c, rfl, Option.some.inj hq⟩
  · rename_i c d rest
    split at hq
    · rename_i hpair
      obtain ⟨hc, hd⟩ := Bool.and_eq_true_iff.mp hpair
      have hlarge := (pair_range hc hd).1
      have heq : JsString.pair c d = q := Option.some.inj hq
      omega
    · exact ⟨c, rfl, Option.some.inj hq⟩

/-- What the parser is given is a path behind one slash. -/
theorem cleanInput_of_checked {value : JsString} (hslash : value.head? = some 47)
    (hslashes : [47, 47].isPrefixOf value = false) (hbackslash : 92 ∉ value)
    (hcontrols : hasUnsafePathText value = false) :
    ∃ rest, cleanInput value.scalarValues = 47 :: rest ∧
      ¬(rest.head? = some 47 ∨ rest.head? = some 92) ∧ 92 ∉ rest := by
  obtain ⟨v, rfl⟩ := List.head?_eq_some_iff.mp hslash
  have hscalar : ∀ c, (if Text.isSurrogate c then 0xFFFD else c) < 0xFFFD →
      (if Text.isSurrogate c then 0xFFFD else c) = c := by
    intro c hc
    split at hc
    · omega
    · rename_i hsurrogate
      rw [if_neg hsurrogate]
  obtain ⟨sv, hsv⟩ : ∃ sv, sv = scalarValues v := ⟨_, rfl⟩
  have hvalue : scalarValues (47 :: v) = 47 :: sv := by
    rw [scalarValues, codePoints_unit (by decide), hsv]
    rfl
  have hsmall : ∀ q ∈ sv, q < 0xFFFD → ∃ c ∈ v, c.toNat = q := by
    intro q hq hlt
    rw [hsv] at hq
    obtain ⟨c, hc, rfl⟩ := List.mem_map.mp hq
    have heq := hscalar c hlt
    rw [heq] at hlt ⊢
    exact unit_of_codePoint hc (by omega)
  have hhead : ∀ q, sv.head? = some q → q < 0xFFFD → ∃ c, v.head? = some c ∧ c.toNat = q := by
    intro q hq hlt
    rw [hsv, scalarValues, List.head?_map] at hq
    obtain ⟨c, hc, rfl⟩ := Option.map_eq_some_iff.mp hq
    have heq := hscalar c hlt
    rw [heq] at hlt ⊢
    exact head_of_codePoint hc (by omega)
  -- The strip at the end leaves the slash, and there is nothing else to remove.
  have hstart : (47 :: sv).dropWhile isC0ControlOrSpace = 47 :: sv :=
    List.dropWhile_cons_of_neg (by decide)
  obtain ⟨rest, hrest⟩ : ∃ rest, (47 :: sv).rdropWhile isC0ControlOrSpace = 47 :: rest := by
    cases hstrip : (47 :: sv).rdropWhile isC0ControlOrSpace with
    | nil =>
        have hall := List.rdropWhile_eq_nil_iff.mp hstrip 47 List.mem_cons_self
        exact absurd hall (by decide)
    | cons q rest =>
        have hpre : q :: rest <+: 47 :: sv := hstrip ▸ List.rdropWhile_prefix _ _
        obtain ⟨rfl, -⟩ := List.cons_prefix_cons.mp hpre
        exact ⟨rest, rfl⟩
  have hpre : rest <+: sv := by
    have hpre : 47 :: rest <+: 47 :: sv := hrest ▸ List.rdropWhile_prefix _ _
    exact (List.cons_prefix_cons.mp hpre).2
  have hnewline : ∀ q ∈ 47 :: rest, (!List.contains [9, 10, 13] q) = true := by
    intro q hq
    rcases List.mem_cons.mp hq with rfl | hq
    · rfl
    · rw [Bool.not_eq_true', ← Bool.not_eq_true]
      intro hcontains
      have hmem : q ∈ [9, 10, 13] := List.contains_iff_mem.mp hcontains
      have hq13 : q ≤ 13 := by
        revert hmem
        simp only [List.mem_cons, List.not_mem_nil, or_false]
        omega
      obtain ⟨c, hc, rfl⟩ := hsmall q (hpre.subset hq) (by omega)
      have hsafe := not_unsafeUnit_of_mem hcontrols (List.mem_cons_of_mem _ hc)
      simp only [isUnsafeUnit, Bool.or_eq_false_iff, decide_eq_false_iff_not] at hsafe
      omega
  have hrest92 : 92 ∉ rest := by
    intro hmem
    obtain ⟨c, hc, hc92⟩ := hsmall 92 (hpre.subset hmem) (by decide)
    obtain rfl : c = 92 := UInt16.toNat_inj.mp hc92
    exact hbackslash (List.mem_cons_of_mem _ hc)
  refine ⟨rest, ?_, ?_, hrest92⟩
  · rw [cleanInput, hvalue, hstart, hrest, List.filter_eq_self.mpr hnewline]
  · have hfirst : ∀ q, rest.head? = some q → sv.head? = some q := by
      intro q hq
      obtain ⟨tail, htail⟩ := hpre
      rw [← htail, List.head?_append, hq]
      rfl
    rintro (hq | hq)
    · obtain ⟨c, hc, hc47⟩ := hhead 47 (hfirst 47 hq) (by decide)
      obtain ⟨v', rfl⟩ := List.head?_eq_some_iff.mp hc
      obtain rfl : c = 47 := UInt16.toNat_inj.mp hc47
      cases hslashes
    · exact hrest92 (List.mem_of_head? hq)

/-! ### Decoding and dot segments -/

/-- A segment that decodes to one without a slash is a segment of what the whole decodes
to. -/
theorem mem_splitOn_decode {segments : List Text} {t' s s' : Text}
    (h : decodeURIComponent ([47].intercalate segments) = some t') (hs : s ∈ segments)
    (hdecode : decodeURIComponent s = some s') (hslash : 47 ∉ s') : s' ∈ t'.splitOn 47 := by
  induction segments generalizing t' with
  | nil => cases hs
  | cons x segments ih =>
      cases segments with
      | nil =>
          obtain rfl := List.mem_singleton.mp hs
          rw [List.intercalate_singleton, hdecode, Option.some.injEq] at h
          rw [← h, List.splitOn_eq_singleton hslash]
          exact List.mem_singleton.mpr rfl
      | cons y segments =>
          rw [List.intercalate_cons_cons, List.append_assoc, List.singleton_append] at h
          obtain ⟨a, b, ha, hb, rfl⟩ := decodeURIComponent_append_slash h
          rw [List.splitOn_append_cons_self]
          rcases List.mem_cons.mp hs with rfl | hs
          · obtain rfl : s' = a := Option.some.inj (hdecode.symm.trans ha)
            rw [List.splitOn_eq_singleton hslash]
            exact List.mem_append_left _ (List.mem_singleton.mpr rfl)
          · exact List.mem_append_right _ (ih hb hs)

theorem hasDotSegment_iff {t : Text} : hasDotSegment t = true ↔
    ∃ s ∈ t.splitOn 47, s = Text.ofString "." ∨ s = Text.ofString ".." := by
  rw [hasDotSegment, List.any_eq_true]
  refine exists_congr fun s => and_congr_right fun _ => ?_
  rw [Bool.or_eq_true, beq_iff_eq, beq_iff_eq]

/-- Decoding keeps the segments of dots. -/
theorem hasDotSegment_decode {t t' : Text} (h : decodeURIComponent t = some t')
    (hdot : hasDotSegment t = true) : hasDotSegment t' = true := by
  obtain ⟨s, hs, hdots⟩ := hasDotSegment_iff.mp hdot
  have hsplit : [47].intercalate (t.splitOn 47) = t := List.intercalate_splitOn 47
  rw [← hsplit] at h
  have hdot1 : decodeURIComponent (Text.ofString ".") = some (Text.ofString ".") := by decide
  have hdot2 : decodeURIComponent (Text.ofString "..") = some (Text.ofString "..") := by decide
  rcases hdots with rfl | rfl
  · exact hasDotSegment_iff.mpr ⟨_, mem_splitOn_decode h hs hdot1 (by decide), .inl rfl⟩
  · exact hasDotSegment_iff.mpr ⟨_, mem_splitOn_decode h hs hdot2 (by decide), .inr rfl⟩

/-- `n` percent-decodings. -/
def decodings : Nat → Text → Option Text
  | 0, t => some t
  | n + 1, t => (decodeURIComponent t).bind (decodings n)

/-- The passes of the loop end where two decodings do. -/
theorem decodings_of_decodePasses {t decoded : Text} (h : decodePasses 2 t = some decoded) :
    ∃ once, decodeURIComponent t = some once ∧ decodeURIComponent once = some decoded := by
  obtain ⟨once, honce, h⟩ := Option.bind_eq_some_iff.mp h
  refine ⟨once, honce, ?_⟩
  split at h
  · rename_i hsame
    rw [hsame, ← Option.some.inj h, ← hsame]
    rwa [hsame] at honce ⊢
  · obtain ⟨twice, htwice, h⟩ := Option.bind_eq_some_iff.mp h
    split at h
    · rename_i hsame
      rw [htwice, hsame]
      exact h
    · rw [htwice]
      exact h

/-! ### Accepted paths -/

/-- What `safePostLoginPath` checks of a pathname. -/
structure Accepted (pathname : Text) : Prop where
  slash : pathname.head? = some 47
  slashes : [47, 47].isPrefixOf pathname = false
  decoded : ∃ decoded, decodePasses 2 pathname = some decoded ∧ 92 ∉ decoded ∧
    [47, 47].isPrefixOf decoded = false ∧ hasDotSegment decoded = false
  login : pathname ∉ loginPaths

def fallbackPieces : Pieces := ⟨[Text.ofString "owner"], none, none⟩

theorem parsed_fallback : fallbackPieces.Parsed where
  segments s hs := by
    rw [List.mem_singleton.mp hs]
    exact ⟨by decide, by decide, by decide⟩
  path := List.cons_ne_nil _ _
  query := nofun
  fragment := nofun

theorem accepted_fallback : Accepted fallbackPieces.pathname :=
  ⟨by decide, by decide, ⟨fallbackPieces.pathname, by decide, by decide, by decide, by decide⟩,
    by decide⟩

theorem not_mem_of_pathState {path : List Text} {buffer t : Text} (h : 92 ∉ t) :
    92 ∉ (pathState path buffer t).search ++ (pathState path buffer t).hash := by
  have hfrom : ∀ encoded, From t encoded → 92 ∉ encoded := by
    intro encoded hencoded hmem
    rcases hencoded 92 hmem with hmem | hescape
    · exact h hmem
    · omega
  obtain ⟨hquery, hfragment⟩ := from_pathState path buffer t
  rw [List.mem_append]
  rintro (hmem | hmem)
  · unfold Pieces.search at hmem
    split at hmem
    · cases hmem
    · cases hmem
    · rename_i q _ hq
      rcases List.mem_cons.mp hmem with hfirst | hmem
      · cases hfirst
      · exact hfrom q (hquery q hq) hmem
  · unfold Pieces.hash at hmem
    split at hmem
    · cases hmem
    · cases hmem
    · rename_i f _ hf
      rcases List.mem_cons.mp hmem with hfirst | hmem
      · cases hfirst
      · exact hfrom f (hfragment f hf) hmem

/-- A path is a reference that the parser has made, with an accepted pathname. -/
theorem safePostLoginPath_cases (elsewhere : Text → HttpsOrigin → Option WebUrl.Url)
    (value : Option JsString) :
    ∃ p : Pieces, p.Parsed ∧ Accepted p.pathname ∧ 92 ∉ p.search ++ p.hash ∧
      safePostLoginPath elsewhere value = ofText p.reference := by
  have hfallback : ∃ p : Pieces, p.Parsed ∧ Accepted p.pathname ∧ 92 ∉ p.search ++ p.hash ∧
      fallbackOwnerPath = ofText p.reference :=
    ⟨fallbackPieces, parsed_fallback, accepted_fallback, by decide, by decide⟩
  unfold safePostLoginPath
  split
  · exact hfallback
  · rename_i value
    split
    · exact hfallback
    · rename_i hchecked
      rw [not_or, not_or, not_or, not_not, Bool.not_eq_true, Bool.not_eq_true] at hchecked
      obtain ⟨hslash, hslashes, hbackslash, hcontrols⟩ := hchecked
      obtain ⟨rest, hinput, hrest, hrest92⟩ :=
        cleanInput_of_checked hslash hslashes hbackslash hcontrols
      have hparse : parse elsewhere value invalidOrigin =
          some ⟨invalidOrigin.serialize, pathState [] [] rest⟩ := by
        rw [parse, hinput]
        exact if_neg hrest
      have hparsed : (pathState [] [] rest).Parsed :=
        parsed_pathState rest (List.forall_mem_nil _) (List.forall_mem_nil _)
      rw [hparse]
      dsimp only
      split
      · exact hfallback
      · rename_i decoded hdecoded
        split
        · exact hfallback
        · rename_i haccepted
          simp only [not_or, not_not, Bool.not_eq_true] at haccepted
          obtain ⟨-, hhead, hslashes, hback, hdecodedSlashes, hdot, hlogin⟩ := haccepted
          exact ⟨_, hparsed, ⟨hhead, hslashes, ⟨decoded, hdecoded, hback, hdecodedSlashes, hdot⟩,
            hlogin⟩, not_mem_of_pathState hrest92, rfl⟩

/-! ### References -/

/-- The checks on the value hold for a text of printable characters. -/
theorem hasUnsafePathText_ofText {t : Text} (h : ∀ c ∈ t, 0x20 < c ∧ c ≤ 0x7E) :
    hasUnsafePathText (ofText t) = false := by
  rw [(ofText_ascii fun c hc => Nat.lt_of_le_of_lt (h c hc).2 (by decide)).1]
  have hunit : ∀ c ∈ t, isUnsafeUnit (UInt16.ofNat c) = false ∧
      isHigh (UInt16.ofNat c) = false ∧ isLow (UInt16.ofNat c) = false := by
    intro c hc
    have hrange := h c hc
    simp only [isUnsafeUnit, isHigh, isLow, toNat_ofNat_ascii (show c < 128 by omega),
      Bool.or_eq_false_iff, Bool.and_eq_false_iff, decide_eq_false_iff_not, beq_eq_false_iff_ne]
    omega
  induction t with
  | nil => rfl
  | cons c t ih =>
      obtain ⟨hsafe, hhigh, hlow⟩ := hunit c List.mem_cons_self
      have htail := ih (fun d hd => h d (List.mem_cons_of_mem c hd))
        fun d hd => hunit d (List.mem_cons_of_mem c hd)
      cases t with
      | nil =>
          change (isUnsafeUnit _ || isLow _) = false
          rw [hsafe, hlow]
          rfl
      | cons d t =>
          rw [List.map_cons, List.map_cons, hasUnsafePathText, hsafe, hhigh, hlow]
          exact htail

theorem cleanInput_of_printable {t : Text} (h : ∀ c ∈ t, 0x20 < c ∧ c ≤ 0x7E) :
    cleanInput t = t := by
  have hnot : ∀ c ∈ t, isC0ControlOrSpace c = false := by
    intro c hc
    have hrange := h c hc
    rw [isC0ControlOrSpace, decide_eq_false_iff_not]
    omega
  have hleft : t.dropWhile isC0ControlOrSpace = t := by
    cases t with
    | nil => rfl
    | cons c t =>
        rw [List.dropWhile_cons_of_neg]
        rw [hnot c List.mem_cons_self]
        decide
  have hright : t.rdropWhile isC0ControlOrSpace = t := by
    rw [List.rdropWhile_eq_self_iff]
    intro hne hlast
    rw [hnot _ (List.getLast_mem hne)] at hlast
    cases hlast
  rw [cleanInput, hleft, hright, List.filter_eq_self]
  intro c hc
  have hrange := h c hc
  simp only [List.contains_cons, List.contains_nil, Bool.or_false, Bool.not_eq_true',
    Bool.or_eq_false_iff, beq_eq_false_iff_ne]
  omega

/-- The second character of a reference belongs to its pathname, or it begins the query or
the fragment. -/
theorem second_of_reference {p : Pieces} {rest : Text} (h : p.reference = 47 :: rest) {c : Nat}
    (hc : rest.head? = some c) (hpath : p.pathname.head? = some 47) :
    c = 63 ∨ c = 35 ∨ [47, c] <+: p.pathname := by
  obtain ⟨tail, htail⟩ := List.head?_eq_some_iff.mp hpath
  have hrest : rest = tail ++ (p.search ++ p.hash) := by
    rw [Pieces.reference, htail, List.append_assoc] at h
    exact (List.cons_eq_cons.mp h).2.symm
  rw [hrest] at hc
  cases tail with
  | cons d tail =>
      obtain rfl : d = c := Option.some.inj hc
      rw [htail]
      exact .inr (.inr ⟨tail, rfl⟩)
  | nil =>
      rw [List.nil_append, List.head?_append] at hc
      unfold Pieces.search Pieces.hash at hc
      split at hc
      · split at hc
        · cases hc
        · cases hc
        · exact .inr (.inl (Option.some.inj hc).symm)
      · split at hc
        · cases hc
        · cases hc
        · exact .inr (.inl (Option.some.inj hc).symm)
      · exact .inl (Option.some.inj hc).symm

/-- Behind its slash an accepted reference goes on with no slash and no backslash. -/
theorem second_of_accepted {p : Pieces} {rest : Text} (h : p.Parsed)
    (haccepted : Accepted p.pathname) (hrest : p.reference = 47 :: rest) :
    ¬(rest.head? = some 47 ∨ rest.head? = some 92) := by
  rintro (hq | hq)
  · rcases second_of_reference hrest hq haccepted.slash with h63 | h35 | hpre
    · cases h63
    · cases h35
    · have hslashes := haccepted.slashes
      rw [List.isPrefixOf_iff_prefix.mpr hpre] at hslashes
      cases hslashes
  · rcases second_of_reference hrest hq haccepted.slash with h63 | h35 | hpre
    · cases h63
    · cases h35
    · exact h.mem_pathname (hpre.subset (List.mem_cons_of_mem _ (List.mem_singleton.mpr rfl))) rfl

/-- An accepted reference resolves to the origin it is resolved against. -/
theorem parse_reference {p : Pieces} (h : p.Parsed) (haccepted : Accepted p.pathname)
    (elsewhere : Text → HttpsOrigin → Option WebUrl.Url) (base : HttpsOrigin) :
    parse elsewhere (ofText p.reference) base = some ⟨base.serialize, p.normalize⟩ := by
  obtain ⟨rest, hrest, hstate⟩ := h.reference
  have hprintable : ∀ c ∈ p.reference, 0x20 < c ∧ c ≤ 0x7E := fun c hc => h.mem_reference hc
  have hscalar : scalarValues (ofText p.reference) = p.reference := by
    rw [scalarValues, (ofText_ascii fun c hc => Nat.lt_of_le_of_lt (hprintable c hc).2
      (by decide)).2]
    refine (List.map_congr_left fun c hc => ?_).trans (List.map_id _)
    have hrange := hprintable c hc
    refine if_neg ?_
    simp only [Text.isSurrogate, Bool.or_eq_true, Bool.and_eq_true, decide_eq_true_eq]
    omega
  rw [parse, hscalar, cleanInput_of_printable hprintable, hrest]
  refine (if_neg (second_of_accepted h haccepted hrest)).trans ?_
  rw [hstate]

/-- An accepted reference begins with exactly one slash. -/
theorem ofText_reference {p : Pieces} (h : p.Parsed) (haccepted : Accepted p.pathname) :
    ∃ tail, ofText p.reference = 47 :: tail ∧ tail.head? ≠ some 47 := by
  obtain ⟨rest, hrest, -⟩ := h.reference
  have hascii : ∀ c ∈ p.reference, c < 128 := fun c hc =>
    Nat.lt_of_le_of_lt (h.mem_reference hc).2 (by decide)
  refine ⟨rest.map UInt16.ofNat, ?_, fun hhead => ?_⟩
  · rw [(ofText_ascii hascii).1, hrest]
    rfl
  · rw [List.head?_map] at hhead
    obtain ⟨c, hc, hc47⟩ := Option.map_eq_some_iff.mp hhead
    have hmem : c ∈ p.reference := by
      rw [hrest]
      exact List.mem_cons_of_mem _ (List.mem_of_head? hc)
    have heq : c = 47 := by
      rw [← toNat_ofNat_ascii (hascii c hmem), hc47]
      rfl
    exact second_of_accepted h haccepted hrest (.inl (heq ▸ hc))

/-- An accepted reference passes all checks. -/
theorem safePostLoginPath_reference {p : Pieces} (h : p.Parsed) (haccepted : Accepted p.pathname)
    (hbackslash : 92 ∉ p.search ++ p.hash) (elsewhere : Text → HttpsOrigin → Option WebUrl.Url) :
    safePostLoginPath elsewhere (some (ofText p.reference)) = ofText p.reference := by
  have hprintable : ∀ c ∈ p.reference, 0x20 < c ∧ c ≤ 0x7E := fun c hc => h.mem_reference hc
  have hascii : ∀ c ∈ p.reference, c < 128 := fun c hc =>
    Nat.lt_of_le_of_lt (hprintable c hc).2 (by decide)
  obtain ⟨tail, htail, hsecond⟩ := ofText_reference h haccepted
  have hslash : (ofText p.reference).head? = some 47 := by
    rw [htail]
    rfl
  have hslashes : [47, 47].isPrefixOf (ofText p.reference) = false := by
    rw [← Bool.not_eq_true, List.isPrefixOf_iff_prefix, htail]
    intro hpre
    obtain ⟨-, rest, hrest⟩ := List.cons_prefix_cons.mp hpre
    refine hsecond ?_
    rw [← hrest]
    rfl
  have hback : 92 ∉ ofText p.reference := by
    rw [(ofText_ascii hascii).1]
    intro hmem
    obtain ⟨c, hc, hc92⟩ := List.mem_map.mp hmem
    obtain rfl : c = 92 := by
      rw [← toNat_ofNat_ascii (hascii c hc), hc92]
      rfl
    rw [Pieces.reference, List.append_assoc] at hc
    rcases List.mem_append.mp hc with hc | hc
    · exact h.mem_pathname hc rfl
    · exact hbackslash hc
  have hcontrols := hasUnsafePathText_ofText hprintable
  obtain ⟨decoded, hdecoded, hdecodedBack, hdecodedSlashes, hdot⟩ := haccepted.decoded
  unfold safePostLoginPath
  dsimp only
  rw [if_neg (by simp [hslash, hslashes, hback, hcontrols]),
    parse_reference h haccepted elsewhere invalidOrigin]
  dsimp only
  rw [Pieces.pathname_normalize, hdecoded]
  dsimp only
  rw [if_neg (by simp [haccepted.slash, haccepted.slashes, haccepted.login, hdecodedBack,
    hdecodedSlashes, hdot]), Pieces.search_normalize, Pieces.hash_normalize]
  rfl

/-- The path after a login resolves to the origin it is resolved against, begins with one
slash, has no backslash, no segment of dots after at most two decodings, is none of the
paths of the login, and passes the checks again. -/
theorem safePostLoginPath_safe (elsewhere : Text → HttpsOrigin → Option WebUrl.Url)
    (value : Option JsString) :
    ∃ pieces : Pieces,
      safePostLoginPath elsewhere value =
        ofText (pieces.pathname ++ pieces.search ++ pieces.hash) ∧
      (∀ origin, parse elsewhere (safePostLoginPath elsewhere value) origin =
        some ⟨origin.serialize, pieces⟩) ∧
      ((safePostLoginPath elsewhere value)[0]? = some 47 ∧
        (safePostLoginPath elsewhere value)[1]? ≠ some 47) ∧
      92 ∉ pieces.pathname ∧
      (∀ n ≤ 2, ∃ decoded, decodings n pieces.pathname = some decoded ∧
        ∀ segment ∈ decoded.splitOn 47,
          segment ≠ Text.ofString "." ∧ segment ≠ Text.ofString "..") ∧
      pieces.pathname ∉ loginPaths ∧
      safePostLoginPath elsewhere (some (safePostLoginPath elsewhere value)) =
        safePostLoginPath elsewhere value := by
  obtain ⟨p, h, haccepted, hbackslash, hpath⟩ := safePostLoginPath_cases elsewhere value
  rw [hpath]
  refine ⟨p.normalize, ?_, fun origin => parse_reference h haccepted elsewhere origin, ?_,
    fun hmem => h.mem_pathname hmem rfl, ?_, haccepted.login,
    safePostLoginPath_reference h haccepted hbackslash elsewhere⟩
  · rw [Pieces.pathname_normalize, Pieces.search_normalize, Pieces.hash_normalize]
    rfl
  · obtain ⟨tail, htail, hsecond⟩ := ofText_reference h haccepted
    rw [htail, List.getElem?_cons_succ]
    rw [List.head?_eq_getElem?] at hsecond
    exact ⟨rfl, hsecond⟩
  · obtain ⟨decoded, hdecoded, -, -, hdot⟩ := haccepted.decoded
    obtain ⟨once, honce, htwice⟩ := decodings_of_decodePasses hdecoded
    have hnone : ∀ {t : Text}, hasDotSegment t = false → ∀ segment ∈ t.splitOn 47,
        segment ≠ Text.ofString "." ∧ segment ≠ Text.ofString ".." := by
      intro t ht segment hsegment
      rw [← Bool.not_eq_true, hasDotSegment_iff] at ht
      exact ⟨fun h => ht ⟨segment, hsegment, .inl h⟩, fun h => ht ⟨segment, hsegment, .inr h⟩⟩
    have hdotOnce : hasDotSegment once = false := by
      rw [← Bool.not_eq_true]
      intro hsegment
      rw [hasDotSegment_decode htwice hsegment] at hdot
      cases hdot
    have hdotPath : hasDotSegment p.pathname = false := by
      rw [← Bool.not_eq_true]
      intro hsegment
      rw [hasDotSegment_decode honce hsegment] at hdotOnce
      cases hdotOnce
    intro n hn
    rw [Pieces.pathname_normalize]
    rcases n with _ | _ | _ | n
    · exact ⟨_, rfl, hnone hdotPath⟩
    · exact ⟨once, by rw [decodings, honce]; rfl, hnone hdotOnce⟩
    · refine ⟨decoded, ?_, hnone hdot⟩
      rw [decodings, honce, Option.bind_some, decodings, htwice]
      rfl
    · omega

end SuperBoss.Web
