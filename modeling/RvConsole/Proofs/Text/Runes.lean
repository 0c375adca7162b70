import RvConsole.Proofs.Text.Visible
import RvConsole.Text.Lower

/-! Runes put back together.

Cutting a text into runes loses nothing, whatever its bytes are (`ofRunes_runes`), and an ASCII byte is always
a rune of its own. So a text none of whose runes is white space is one field, and trimming leaves it as it is.
Lower case maps neither white space nor signs to letters: a text that reads as a word in lower case has no
white space in it and no signs (`blankless_of_lower`, `not_mem_of_lower`). -/
namespace RvConsole

/-! ### The bytes of runes -/

namespace Rune

/-- A rune keeps the bytes it was read from. -/
theorem bytes_first (b : UInt8) (rest : Text) :
    (first b rest).bytes = b :: rest.take ((first b rest).bytes.length - 1) := by
  unfold first
  split
  · rfl
  · split <;> rfl
  · split <;> rfl
  · split <;> rfl
  · rfl

theorem not_ascii_of_isTail {b : UInt8} (h : isTail b = true) : ¬ b.toNat < 128 := by
  simp only [isTail, Bool.and_eq_true, decide_eq_true_eq, UInt8.le_iff_toNat_le] at h
  exact not_lt.mpr h.1

theorem isTail_of_inSecond {b c : UInt8} (h : inSecond b c = true) : isTail c = true := by
  have hrange : 0x80 ≤ (secondRange b).1.toNat ∧ (secondRange b).2.toNat ≤ 0xBF := by
    unfold secondRange
    split_ifs <;> decide
  simp only [inSecond, isTail, Bool.and_eq_true, decide_eq_true_eq, UInt8.le_iff_toNat_le] at h ⊢
  exact ⟨hrange.1.trans h.1, h.2.trans hrange.2⟩

/-- All bytes of a rune but the first belong inside a sequence. -/
theorem isTail_of_mem_tail (b : UInt8) (rest : Text) : ∀ c ∈ (first b rest).bytes.tail, isTail c = true := by
  fun_cases first b rest with
  | case1 | case3 | case5 | case7 | case8 => exact List.forall_mem_nil _
  | case2 _ _ _ hc => exact List.forall_mem_singleton.mpr hc
  | case4 _ _ _ _ hcd =>
    obtain ⟨hsecond, hd⟩ := Bool.and_eq_true_iff.mp hcd
    simp [isTail_of_inSecond hsecond, hd]
  | case6 _ _ _ _ _ hcde =>
    simp only [Bool.and_eq_true] at hcde
    simp [isTail_of_inSecond hcde.1.1, hcde.1.2, hcde.2]

/-- An ASCII byte is a rune of its own. -/
theorem first_of_mem_bytes {b c : UInt8} {rest : Text} (hmem : c ∈ (first b rest).bytes)
    (hc : c.toNat < 128) : first b rest = Text.asciiRune c := by
  have htail := isTail_of_mem_tail b rest
  rw [bytes_first] at hmem htail
  rcases List.mem_cons.mp hmem with rfl | hmem
  · exact Text.first_of_ascii hc rest
  · exact absurd hc (not_ascii_of_isTail (htail c hmem))

end Rune

namespace Text
variable {t : Text}

theorem ofRunes_runesFrom (skip : Nat) (t : Text) : ofRunes (runesFrom skip t) = t.drop skip := by
  fun_induction runesFrom skip t with
  | case1 => simp [ofRunes]
  | case2 skip b rest ih => exact ih
  | case3 b rest r ih =>
    show r.bytes ++ ofRunes (runesFrom (r.bytes.length - 1) rest) = b :: rest
    have hbytes : r.bytes = b :: rest.take (r.bytes.length - 1) := Rune.bytes_first b rest
    rw [ih]
    nth_rewrite 1 [hbytes]
    rw [List.cons_append, List.take_append_drop]

/-- **The runes of a text put back together are the text.** -/
theorem ofRunes_runes (t : Text) : ofRunes t.runes = t := ofRunes_runesFrom 0 t

theorem exists_first_of_mem {skip : Nat} {r : Rune} (h : r ∈ runesFrom skip t) :
    ∃ b rest, r = Rune.first b rest := by
  fun_induction runesFrom skip t with
  | case1 => cases h
  | case2 skip b rest ih => exact ih h
  | case3 b rest r' ih =>
    rcases List.mem_cons.mp h with rfl | h
    · exact ⟨b, rest, rfl⟩
    · exact ih h

theorem asciiRune_mem_runes {b : UInt8} (h : b ∈ t) (hb : b.toNat < 128) : asciiRune b ∈ t.runes := by
  rw [← ofRunes_runes t] at h
  obtain ⟨r, hr, hbytes⟩ := List.mem_flatMap.mp h
  obtain ⟨c, rest, rfl⟩ := exists_first_of_mem hr
  rw [Rune.first_of_mem_bytes hbytes hb] at hr
  exact hr

/-! ### Text without white space -/

/-- Text none of whose runes is white space. -/
def Blankless (t : Text) : Prop := ∀ r ∈ t.runes, r.isBlank = false

instance (t : Text) : Decidable (Blankless t) := List.decidableBAll _ t.runes

theorem Blankless.dropWhile_eq {rs : List Rune} (h : ∀ r ∈ rs, r.isBlank = false) :
    rs.dropWhile Rune.isBlank = rs := by
  cases rs with
  | nil => rfl
  | cons r rest => exact List.dropWhile_cons_of_neg (by simp [h r List.mem_cons_self])

theorem Blankless.trim_eq (h : Blankless t) : trim t = t := by
  have hback : t.runes.reverse.dropWhile Rune.isBlank = t.runes.reverse :=
    dropWhile_eq fun r hr => h r (List.mem_reverse.mp hr)
  rw [trim, dropWhile_eq h, trimEnd, hback, List.reverse_reverse, ofRunes_runes]

theorem Blankless.splitBlank_eq (h : Blankless t) : splitBlank t = (t, []) := by
  have hall : ∀ r ∈ t.runes, (!r.isBlank) = true := fun r hr => by rw [h r hr]; rfl
  have hspan : t.runes.span (fun r => !r.isBlank) = (t.runes, []) := by
    rw [List.span_eq_takeWhile_dropWhile, List.takeWhile_eq_self_iff.mpr hall,
      List.dropWhile_eq_nil_iff.mpr hall]
  simp only [splitBlank, hspan, ofRunes_runes]
  rfl

theorem Blankless.fields_eq (h : Blankless t) (hne : t ≠ []) : fields t = [t] := by
  have hfold : ∀ rs : List Rune, (∀ r ∈ rs, r.isBlank = false) →
      rs.foldr fieldStep [[]] = [ofRunes rs] := by
    intro rs hrs
    induction rs with
    | nil => rfl
    | cons r rest ih =>
      obtain ⟨hr, hrest⟩ := List.forall_mem_cons.mp hrs
      rw [List.foldr_cons, ih hrest, fieldStep, hr]
      rfl
  rw [fields, hfold _ h, ofRunes_runes]
  simp [hne]

/-! ### Lower case -/

/-- A text that is one word of lower-case letters. -/
def Letters (t : Text) : Prop := ∀ b ∈ t, 97 ≤ b.toNat ∧ b.toNat ≤ 122

instance (t : Text) : Decidable (Letters t) := List.decidableBAll _ t

theorem mem_lower {r : Rune} (h : r ∈ t.runes) {b : UInt8} (hb : b ∈ Rune.encode (lowerCode r.code)) :
    b ∈ t.lower := by
  refine List.mem_flatMap.mpr ⟨lowerCode r.code, ?_, hb⟩
  exact List.mem_map_of_mem h

/-- The code points that are white space. -/
def blankCodes : List Nat := [9, 10, 11, 12, 13, 0x20, 0x85, 0xA0, 0x1680, 0x2000, 0x2001, 0x2002, 0x2003,
  0x2004, 0x2005, 0x2006, 0x2007, 0x2008, 0x2009, 0x200A, 0x2028, 0x2029, 0x202F, 0x205F, 0x3000]

theorem mem_blankCodes {c : Nat} (h : isBlankCode c = true) : c ∈ blankCodes := by
  simp only [isBlankCode, Bool.or_eq_true, Bool.and_eq_true, decide_eq_true_eq, beq_iff_eq] at h
  simp only [blankCodes, List.mem_cons, List.not_mem_nil, or_false]
  omega

/-- White space stays what it is in lower case. -/
theorem not_letters_of_blank : ∀ c ∈ blankCodes, ¬ Letters (Rune.encode (lowerCode c)) := by
  decide +kernel

theorem blankless_of_lower (h : Letters t.lower) : Blankless t := by
  intro r hr
  cases hblank : r.isBlank with
  | false => rfl
  | true =>
    have hcode := not_letters_of_blank r.code (mem_blankCodes hblank)
    exact absurd (fun b hb => h b (mem_lower hr hb)) hcode

/-- What stands before the letters in ASCII stays what it is in lower case. -/
theorem not_mem_of_lower (h : Letters t.lower) {b : UInt8} (hb : b.toNat < 65) : b ∉ t := by
  intro hmem
  have hrune := asciiRune_mem_runes hmem (by omega)
  have hlower : lowerCode b.toNat = b.toNat := by
    rw [lowerCode, if_pos (by omega), if_neg (by omega)]
  have hencode : b ∈ Rune.encode (lowerCode (asciiRune b).code) := by
    show b ∈ Rune.encode (lowerCode b.toNat)
    rw [hlower, Rune.encode, if_pos (by omega)]
    simp
  have := (h b (mem_lower hrune hencode)).1
  omega

end Text

end RvConsole
