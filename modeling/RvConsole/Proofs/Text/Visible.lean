import Mathlib
import RvConsole.Text.Blank

/-! Visible text: what the console writes itself.

Every byte of visible text is a rune of its own and no white space. So trimming and cutting at white
space, which look at runes, do to such text what one sees: only the blanks between its parts count. Parts
that have no separator in them are found again when what they were joined to is split. -/
namespace RvConsole.Text

/-- A byte that is seen: an ASCII character which is neither a control nor the blank. -/
def Seen (b : UInt8) : Prop := 33 ≤ b.toNat ∧ b.toNat < 127

instance (b : UInt8) : Decidable (Seen b) := inferInstanceAs (Decidable (_ ∧ _))

/-- Text of bytes that are seen. -/
def Visible (t : Text) : Prop := ∀ b ∈ t, Seen b

instance (t : Text) : Decidable (Visible t) := List.decidableBAll Seen t

/-- Text of ASCII characters. -/
def Ascii (t : Text) : Prop := ∀ b ∈ t, b.toNat < 128

theorem Visible.ascii {t : Text} (h : Visible t) : Ascii t := fun b hb => by
  have := (h b hb).2
  omega

theorem visible_append {s t : Text} (hs : Visible s) (ht : Visible t) : Visible (s ++ t) :=
  List.forall_mem_append.mpr ⟨hs, ht⟩

theorem ascii_append {s t : Text} (hs : Ascii s) (ht : Ascii t) : Ascii (s ++ t) :=
  List.forall_mem_append.mpr ⟨hs, ht⟩

/-! ### Runes -/

/-- The rune that an ASCII character is. -/
def asciiRune (b : UInt8) : Rune := ⟨b.toNat, [b]⟩

theorem first_of_ascii {b : UInt8} (hb : b.toNat < 128) (rest : Text) :
    Rune.first b rest = asciiRune b := by
  have hlength : Rune.sequenceLength b = 1 := if_pos (UInt8.lt_iff_toNat_lt.mpr hb)
  simp only [Rune.first, hlength]
  rfl

theorem runes_of_ascii {t : Text} (h : Ascii t) : t.runes = t.map asciiRune := by
  unfold runes
  induction t with
  | nil => rfl
  | cons b rest ih =>
    obtain ⟨hb, hrest⟩ := List.forall_mem_cons.mp h
    simp only [runesFrom, first_of_ascii hb, List.map_cons]
    exact congrArg _ (ih hrest)

theorem ofRunes_asciiRune (t : Text) : ofRunes (t.map asciiRune) = t := by
  induction t with
  | nil => rfl
  | cons b rest ih => exact congrArg (b :: ·) ih

/-! ### White space -/

theorem not_isBlank_of_seen {b : UInt8} (h : Seen b) : (asciiRune b).isBlank = false := by
  obtain ⟨hlow, hhigh⟩ := h
  show isBlankCode b.toNat = false
  generalize b.toNat = c at hlow hhigh
  simp only [isBlankCode, Bool.or_eq_false_iff, Bool.and_eq_false_iff, decide_eq_false_iff_not,
    beq_eq_false_iff_ne]
  omega

/-- Text between visible ends is its own trimmed text. -/
theorem trim_eq_self {t : Text} (h : Ascii t) (hhead : ∀ b ∈ t.head?, Seen b)
    (hlast : ∀ b ∈ t.getLast?, Seen b) : trim t = t := by
  have hfront : (t.map asciiRune).dropWhile Rune.isBlank = t.map asciiRune := by
    cases t with
    | nil => rfl
    | cons b rest => exact List.dropWhile_cons_of_neg (by simp [not_isBlank_of_seen (hhead b rfl)])
  have hback : (t.map asciiRune).reverse.dropWhile Rune.isBlank = (t.map asciiRune).reverse := by
    rw [← List.map_reverse]
    cases ht : t.reverse with
    | nil => rfl
    | cons b rest =>
      have hb : Seen b := hlast b (by rw [List.getLast?_eq_head?_reverse, ht]; rfl)
      exact List.dropWhile_cons_of_neg (by simp [not_isBlank_of_seen hb])
  rw [trim, runes_of_ascii h, hfront, trimEnd, hback, List.reverse_reverse, ofRunes_asciiRune]

theorem Visible.trim {t : Text} (h : Visible t) : trim t = t :=
  trim_eq_self h.ascii (fun b hb => h b (List.mem_of_mem_head? hb))
    fun b hb => h b (List.mem_of_mem_getLast? hb)

/-- A blank in front is trimmed off. -/
theorem trim_blank {t : Text} (h : Ascii t) : trim (byte ' ' :: t) = trim t := by
  have hblank : Ascii (byte ' ' :: t) := List.forall_mem_cons.mpr ⟨by decide, h⟩
  rw [trim, trim, runes_of_ascii hblank, runes_of_ascii h]
  rfl

/-- The first blank ends a visible text. -/
theorem splitBlank_blank {s t : Text} (hs : Visible s) (ht : Ascii t) :
    splitBlank (s ++ byte ' ' :: t) = (s, byte ' ' :: t) := by
  have hblank : Ascii (byte ' ' :: t) := List.forall_mem_cons.mpr ⟨by decide, ht⟩
  have hseen : ∀ r ∈ s.map asciiRune, (!r.isBlank) = true := by
    intro r hr
    obtain ⟨b, hb, rfl⟩ := List.mem_map.mp hr
    rw [not_isBlank_of_seen (hs b hb)]
    rfl
  rw [splitBlank, runes_of_ascii (ascii_append hs.ascii hblank), List.map_append,
    List.span_eq_takeWhile_dropWhile, List.takeWhile_append_of_pos hseen,
    List.dropWhile_append_of_pos hseen]
  show (ofRunes (s.map asciiRune ++ []), ofRunes ((byte ' ' :: t).map asciiRune)) = _
  rw [List.append_nil, ofRunes_asciiRune, ofRunes_asciiRune]

/-! ### Separators -/

theorem split_eq_splitOn (sep : UInt8) (t : Text) : split sep t = t.splitOn sep := by
  unfold split
  induction t with
  | nil => rfl
  | cons b rest ih =>
    rw [List.foldr_cons, ih, List.splitOn_eq_splitOnP, List.splitOn_eq_splitOnP,
      List.splitOnP_cons_eq_if_modifyHead]
    cases hrest : rest.splitOnP (· == sep) with
    | nil => exact absurd hrest (List.splitOnP_ne_nil _ _)
    | cons piece pieces => simp [splitStep]

/-- The first separator ends a text that has none. -/
theorem span_sep {sep : UInt8} {s : Text} (h : sep ∉ s) (t : Text) :
    (s ++ sep :: t).span (· ≠ sep) = (s, sep :: t) := by
  have hne : ∀ b ∈ s, decide (b ≠ sep) = true := fun b hb =>
    decide_eq_true fun hsep => h (hsep ▸ hb)
  rw [List.span_eq_takeWhile_dropWhile, List.takeWhile_append_of_pos hne,
    List.dropWhile_append_of_pos hne]
  simp

theorem span_of_not_mem {sep : UInt8} {t : Text} (h : sep ∉ t) : t.span (· ≠ sep) = (t, []) := by
  have hne : ∀ b ∈ t, decide (b ≠ sep) = true := fun b hb => decide_eq_true fun hsep => h (hsep ▸ hb)
  rw [List.span_eq_takeWhile_dropWhile, List.takeWhile_eq_self_iff.mpr hne, List.dropWhile_eq_nil_iff.mpr hne]

/-- Parts without the separator are found again. -/
theorem split_join {sep : UInt8} {parts : List Text} (hne : parts ≠ []) (h : ∀ t ∈ parts, sep ∉ t) :
    split sep (join [sep] parts) = parts := by
  rw [split_eq_splitOn]
  exact List.splitOn_intercalate sep h hne

theorem split_of_not_mem {sep : UInt8} {t : Text} (h : sep ∉ t) : split sep t = [t] := by
  have hjoin : split sep (join [sep] [t]) = [t] :=
    split_join (List.cons_ne_nil t []) (List.forall_mem_singleton.mpr h)
  simpa [join] using hjoin

/-- Joined parts are the first one and the others, each with the separator in front. -/
theorem join_cons (sep part : Text) (rest : List Text) : join sep (part :: rest) = part ++ rest.flatMap (sep ++ ·) := by
  unfold join
  induction rest generalizing part with
  | nil => simp
  | cons next rest ih => rw [List.intercalate_cons_cons, ih, List.flatMap_cons, List.append_assoc, List.append_assoc]

theorem forall_mem_join {P : UInt8 → Prop} {sep : Text} {parts : List Text} (hsep : ∀ b ∈ sep, P b)
    (h : ∀ t ∈ parts, ∀ b ∈ t, P b) : ∀ b ∈ join sep parts, P b := by
  cases parts with
  | nil => exact List.forall_mem_nil _
  | cons part rest =>
    obtain ⟨hpart, hrest⟩ := List.forall_mem_cons.mp h
    rw [join_cons, List.forall_mem_append, List.forall_mem_flatMap]
    exact ⟨hpart, fun t ht => List.forall_mem_append.mpr ⟨hsep, hrest t ht⟩⟩

theorem visible_join {sep : Text} {parts : List Text} (hsep : Visible sep)
    (h : ∀ t ∈ parts, Visible t) : Visible (join sep parts) := forall_mem_join hsep h

/-! ### Plain text -/

/-- Text of letters, digits and signs: none of its bytes is one that a line is cut at. -/
def Plain (t : Text) : Prop := ∀ b ∈ t, 45 ≤ b.toNat ∧ b.toNat < 127

instance (t : Text) : Decidable (Plain t) := List.decidableBAll _ t

theorem Plain.visible {t : Text} (h : Plain t) : Visible t := by
  intro b hb
  obtain ⟨hlow, hhigh⟩ := h b hb
  exact ⟨by omega, hhigh⟩

theorem Plain.not_mem {t : Text} (h : Plain t) {b : UInt8} (hb : b.toNat < 45) : b ∉ t := by
  intro hmem
  have hlow := (h b hmem).1
  omega

/-! ### Leads -/

theorem after?_eq_some {lead t rest : Text} (h : after? lead t = some rest) : t = lead ++ rest := by
  fun_induction after? lead t with
  | case1 t => exact Option.some.inj h
  | case2 => cases h
  | case3 lead a t ih => exact congrArg (a :: ·) (ih h)
  | case4 => cases h

theorem after?_eq_none {lead t : Text} {b : UInt8} (hb : b ∈ lead) (ht : b ∉ t) :
    after? lead t = none := by
  cases h : after? lead t with
  | none => rfl
  | some rest =>
    rw [after?_eq_some h] at ht
    exact absurd (List.mem_append_left rest hb) ht

end RvConsole.Text
