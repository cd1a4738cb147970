import SuperBoss.Core.JsonText

/-!
Texts and JSON values that have a UTF-8 encoding, and how long it can be.
-/

namespace SuperBoss.Core

namespace Text

/-- A text without surrogates. -/
def Encodable (t : Text) : Prop := ∀ c ∈ t, isSurrogate c = false

theorem length_encodePoint {c : Nat} (h : isSurrogate c = false) :
    ∃ b, encodePoint c = some b ∧ b.length ≤ 4 := by
  rw [encodePoint, h]
  simp only [Bool.false_eq_true, if_false]
  split_ifs
  · exact ⟨_, rfl, Nat.le_of_ble_eq_true rfl⟩
  · exact ⟨_, rfl, Nat.le_of_ble_eq_true rfl⟩
  · exact ⟨_, rfl, Nat.le_of_ble_eq_true rfl⟩
  · exact ⟨_, rfl, Nat.le_refl 4⟩

theorem Encodable.utf8 {t : Text} (h : t.Encodable) :
    ∃ b, t.utf8 = some b ∧ b.length ≤ 4 * t.length := by
  induction t with
  | nil => exact ⟨[], rfl, Nat.le_refl 0⟩
  | cons c t ih =>
      obtain ⟨hc, ht⟩ := List.forall_mem_cons.mp h
      obtain ⟨x, hx, hxlength⟩ := length_encodePoint hc
      obtain ⟨b, hb, hblength⟩ := ih ht
      obtain ⟨l, hl, rfl⟩ := Option.map_eq_some_iff.mp hb
      refine ⟨x ++ l.flatten, ?_, ?_⟩
      · simp [Text.utf8, List.mapM_cons, hx, hl]
      · rw [List.length_append, List.length_cons]
        omega

theorem encodable_nil : Encodable [] := List.forall_mem_nil _

theorem encodable_append {t u : Text} : (t ++ u).Encodable ↔ t.Encodable ∧ u.Encodable :=
  List.forall_mem_append

theorem encodable_cons {c : Nat} {t : Text} :
    Encodable (c :: t) ↔ isSurrogate c = false ∧ t.Encodable :=
  List.forall_mem_cons

/-- A `String` has no surrogates. -/
theorem encodable_ofString (s : String) : (ofString s).Encodable := by
  intro c hc
  obtain ⟨x, -, rfl⟩ := List.mem_map.mp hc
  have hvalid := x.valid
  simp only [isSurrogate, Bool.or_eq_false_iff, Bool.and_eq_false_iff, decide_eq_false_iff_not,
    Nat.not_le]
  change (x.toNat < 0xD800 ∨ 0xDFFF < x.toNat ∧ x.toNat < 0x110000) at hvalid
  omega

theorem encodable_of_isAscii {t : Text} (h : ∀ c ∈ t, c < 128) : t.Encodable := by
  intro c hc
  have hlt := h c hc
  simp only [isSurrogate, Bool.or_eq_false_iff, Bool.and_eq_false_iff, decide_eq_false_iff_not,
    Nat.not_le]
  omega

theorem encodable_join {sep : Text} {ts : List Text} (hsep : sep.Encodable)
    (h : ∀ t ∈ ts, t.Encodable) : (join sep ts).Encodable := by
  intro c hc
  rcases mem_join hc with hcsep | ⟨t, ht, hct⟩
  · exact hsep c hcsep
  · exact h t ht c hct

theorem length_join_le (sep : Text) (ts : List Text) :
    (join sep ts).length ≤ (ts.map fun t => t.length + sep.length).sum := by
  induction ts with
  | nil => exact Nat.le_refl 0
  | cons t ts ih =>
      cases ts with
      | nil => simp [join]
      | cons u us =>
          rw [List.map_cons, List.sum_cons]
          change (t ++ sep ++ join sep (u :: us)).length ≤ _
          rw [List.length_append, List.length_append]
          exact Nat.add_le_add_left ih _

end Text

theorem UUID.encodable_text (u : UUID) : u.text.Encodable := by
  have hdigit : ∀ i, UUID.digit u i < 128 := by
    intro i
    have hlt := Nat.mod_lt (u.toNat / 16 ^ (31 - i)) (by decide : 0 < 16)
    unfold UUID.digit Json.hexDigit
    split <;> omega
  refine Text.encodable_join (Text.encodable_of_isAscii (by decide)) fun t ht => ?_
  refine Text.encodable_of_isAscii fun c hc => ?_
  simp only [List.mem_cons, List.not_mem_nil, or_false] at ht
  rcases ht with rfl | rfl | rfl | rfl | rfl <;>
    · obtain ⟨i, -, rfl⟩ := List.mem_map.mp hc
      exact hdigit _

namespace Json

mutual

/-- No text of the value has a surrogate. -/
def Encodable : Json → Prop
  | .null | .bool _ | .int _ => True
  | .float literal => literal.Encodable
  | .str t => t.Encodable
  | .arr items => EncodableItems items
  | .obj fields => EncodableFields fields

def EncodableItems : List Json → Prop
  | [] => True
  | x :: xs => x.Encodable ∧ EncodableItems xs

def EncodableFields : List (Text × Json) → Prop
  | [] => True
  | (k, x) :: fs => (k.Encodable ∧ x.Encodable) ∧ EncodableFields fs

end

theorem hexDigit_lt {n : Nat} (h : n < 16) : hexDigit n < 128 := by
  unfold hexDigit
  split <;> omega

theorem encodable_escape {c : Nat} (h : Text.isSurrogate c = false) :
    Text.Encodable (escape c) := by
  unfold escape
  split_ifs with _ _ _ _ _ _ _ hlow
  iterate 7 exact Text.encodable_of_isAscii (by decide)
  · refine Text.encodable_of_isAscii fun d hd => ?_
    simp only [List.mem_cons, List.not_mem_nil, or_false] at hd
    rcases hd with rfl | rfl | rfl | rfl | rfl | rfl
    · decide
    · decide
    · decide
    · decide
    · exact hexDigit_lt (by omega)
    · exact hexDigit_lt (Nat.mod_lt c (by decide))
  · exact List.forall_mem_singleton.mpr h

theorem length_escape (c : Nat) : (escape c).length ≤ 6 := by
  unfold escape
  split_ifs <;> simp

theorem encodable_quote {t : Text} (h : t.Encodable) : Text.Encodable (quote t) := by
  refine Text.encodable_cons.mpr ⟨rfl, Text.encodable_append.mpr ⟨fun c hc => ?_, ?_⟩⟩
  · obtain ⟨d, hd, hcd⟩ := List.mem_flatMap.mp hc
    exact encodable_escape (h d hd) c hcd
  · exact List.forall_mem_singleton.mpr rfl

theorem length_quote (t : Text) : (quote t).length ≤ 6 * t.length + 2 := by
  have hescaped : (t.flatMap escape).length ≤ 6 * t.length := by
    induction t with
    | nil => exact Nat.le_refl 0
    | cons c t ih =>
        have hc := length_escape c
        rw [List.flatMap_cons, List.length_append, List.length_cons]
        omega
  rw [quote, List.length_cons, List.length_append, List.length_singleton]
  omega

mutual

theorem encodable_render : ∀ {j : Json}, j.Encodable → Text.Encodable (render compact j)
  | .null, _ => Text.encodable_ofString "null"
  | .bool true, _ => Text.encodable_ofString "true"
  | .bool false, _ => Text.encodable_ofString "false"
  | .int n, _ => by
      rw [render, renderInt]
      split
      · exact Text.encodable_ofString _
      · exact Text.encodable_cons.mpr ⟨rfl, Text.encodable_ofString _⟩
  | .float _, h => h
  | .str _, h => encodable_quote h
  | .arr items, h => by
      have hitems : ∀ t ∈ renderItems compact items, Text.Encodable t := encodable_renderItems h
      exact Text.encodable_cons.mpr ⟨rfl, Text.encodable_append.mpr
        ⟨Text.encodable_join (Text.encodable_ofString ",") hitems,
          List.forall_mem_singleton.mpr rfl⟩⟩
  | .obj fields, h => by
      have hfields : ∀ f ∈ renderFields compact fields,
          Text.Encodable f.1 ∧ Text.Encodable f.2 := encodable_renderFields h
      refine Text.encodable_cons.mpr ⟨rfl, Text.encodable_append.mpr
        ⟨Text.encodable_join (Text.encodable_ofString ",") fun t ht => ?_,
          List.forall_mem_singleton.mpr rfl⟩⟩
      obtain ⟨f, hf, rfl⟩ := List.mem_map.mp ht
      obtain ⟨hk, hx⟩ := hfields f ((List.mem_insertionSort _).mp hf)
      exact Text.encodable_append.mpr
        ⟨Text.encodable_append.mpr ⟨encodable_quote hk, Text.encodable_ofString ":"⟩, hx⟩

theorem encodable_renderItems : ∀ {items : List Json}, EncodableItems items →
    ∀ t ∈ renderItems compact items, Text.Encodable t
  | [], _ => List.forall_mem_nil _
  | _ :: _, h => List.forall_mem_cons.mpr ⟨encodable_render h.1, encodable_renderItems h.2⟩

theorem encodable_renderFields : ∀ {fields : List (Text × Json)}, EncodableFields fields →
    ∀ f ∈ renderFields compact fields, Text.Encodable f.1 ∧ Text.Encodable f.2
  | [], _ => List.forall_mem_nil _
  | (_, _) :: _, h => List.forall_mem_cons.mpr
      ⟨⟨h.1.1, encodable_render h.1.2⟩, encodable_renderFields h.2⟩

end

theorem Encodable.jsonBytes {j : Json} (h : j.Encodable) :
    ∃ b, j.jsonBytes compact = some b ∧ b.length ≤ 4 * (render compact j).length :=
  (encodable_render h).utf8

/-! ### Objects -/

theorem encodableFields_of {fields : List (Text × Json)} (names : List String)
    (hkeys : fields.map Prod.fst = names.map Text.ofString)
    (h : ∀ f ∈ fields, f.2.Encodable) : Encodable (.obj fields) := by
  induction fields generalizing names with
  | nil => trivial
  | cons f fields ih =>
      obtain ⟨name, names, rfl⟩ : ∃ n ns, names = n :: ns := by
        cases names with
        | nil => cases hkeys
        | cons n ns => exact ⟨n, ns, rfl⟩
      obtain ⟨hname, hrest⟩ := List.cons.inj hkeys
      obtain ⟨hf, hfields⟩ := List.forall_mem_cons.mp h
      exact ⟨⟨hname ▸ Text.encodable_ofString name, hf⟩, ih names hrest hfields⟩

theorem encodable_map {α : Type} {dump : α → Json} {l : List α} (h : ∀ a ∈ l, (dump a).Encodable) :
    Encodable (.arr (l.map dump)) := by
  induction l with
  | nil => trivial
  | cons a l ih =>
      exact ⟨h a List.mem_cons_self, ih fun b hb => h b (List.mem_cons_of_mem a hb)⟩

theorem encodable_ofOption {α : Type} {dump : α → Json} {o : Option α}
    (h : ∀ a ∈ o, (dump a).Encodable) : (ofOption dump o).Encodable := by
  cases o with
  | none => trivial
  | some a => exact h a rfl

/-- An object is as long as its fields, whatever their order. -/
theorem length_render_obj (fields : List (Text × Json)) :
    (render compact (.obj fields)).length ≤
      (fields.map fun f => (quote f.1).length + (render compact f.2).length + 2).sum + 2 := by
  have hperm := List.perm_insertionSort (fun f g : Text × Text => f.1 ≤ g.1)
    (renderFields compact fields)
  have hjoin := Text.length_join_le compact.item
    (((renderFields compact fields).insertionSort fun f g => f.1 ≤ g.1).map
      fun f => quote f.1 ++ compact.key ++ f.2)
  have hfield : ∀ k t : Text, (quote k ++ compact.key ++ t).length + compact.item.length =
      (quote k).length + t.length + 2 := by
    intro k t
    have hkey : compact.key.length = 1 := rfl
    have hitem : compact.item.length = 1 := rfl
    simp only [List.length_append, hkey, hitem]
    omega
  simp only [List.map_map, Function.comp_def, hfield] at hjoin
  rw [(hperm.map _).sum_nat, renderFields_eq, List.map_map] at hjoin
  rw [render, List.length_cons, List.length_append, List.length_singleton, renderFields_eq]
  exact Nat.add_le_add_right hjoin 2

end Json

end SuperBoss.Core
