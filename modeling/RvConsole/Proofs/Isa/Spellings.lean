import RvConsole.Proofs.Isa.Layout
import RvConsole.Text.Integer

/-! Literals of one number.

A literal is an integer as equates have them, and the same one (`Literal.integer_of_fits`): its digits have no
underscores between them, and no literal but zero starts as an octal number does. To an argument it makes no
difference how the number is written (`Slot.alike_of_fits`), also where something stands in front of the literal and
the argument is read as nothing (`Slot.alike_behind`). -/
namespace RvConsole
open Text (byte Blanks Seen Visible IsNumeral)

/-! ### Numerals as integers -/

namespace Text
variable {base value n : Nat} {t : Text}

theorem digit?_underscore (base : Nat) : digit? base underscore = none := by
  have hbyte : underscore.toNat = 95 := by decide
  simp [digit?, hbyte]

theorem le_of_digitsFrom? (hbase : 0 < base) (h : digitsFrom? base value t = some n) : value ≤ n := by
  induction t generalizing value with
  | nil => exact (Option.some.inj h).le
  | cons b rest ih =>
    simp only [digitsFrom?] at h
    split at h
    case h_1 d hd =>
      calc value ≤ value * base := Nat.le_mul_of_pos_right value hbase
        _ ≤ value * base + d := Nat.le_add_right ..
        _ ≤ n := ih h
    case h_2 => cases h

/-- Digits that lead to no more than 64 bits never lead past them. -/
theorem magnitudeFrom_of_digitsFrom? (hbase : 0 < base) (h : digitsFrom? base value t = some n)
    (hn : n < 0x10000000000000000) : magnitudeFrom base value t = .ok n := by
  induction t generalizing value with
  | nil =>
    obtain rfl := Option.some.inj h
    rfl
  | cons b rest ih =>
    simp only [digitsFrom?] at h
    split at h
    case h_1 d hd =>
      have hb : b ≠ underscore := by
        intro hb
        rw [hb, digit?_underscore] at hd
        cases hd
      have hle := le_of_digitsFrom? hbase h
      simp only [magnitudeFrom, if_neg hb, hd, if_neg (not_le.mpr (hle.trans_lt hn)), ih h]
    case h_2 => cases h

theorem underscoresFit_of_not_mem (h : underscore ∉ t) (behindDigit : Bool) : underscoresFit behindDigit t = true := by
  induction t generalizing behindDigit with
  | nil => rfl
  | cons b rest ih =>
    obtain ⟨hb, hrest⟩ := not_or.mp (mt List.mem_cons.mpr h)
    rw [underscoresFit, if_neg (Ne.symm hb), ih hrest]

/-- A number whose digits are a numeral behind the mark of their base. -/
theorem magnitude_of_baseMark {digits : Text} (hmark : baseMark t = (base, digits)) (hbase : 0 < base ∧ base ≤ 16)
    (hdigits : IsNumeral base digits n) (hn : n < 0x10000000000000000) (ht : underscore ∉ t)
    (hsub : digits <:+ t) : magnitude t = .ok n := by
  have hnatural := (natural?_eq_some_iff hbase.2 digits).mpr hdigits
  have hne : digits ≠ [] := by
    rintro rfl
    cases hnatural
  have hne' : t ≠ [] := by
    rintro rfl
    exact hne (List.suffix_nil.mp hsub)
  rw [natural?_of_ne_nil hne] at hnatural
  have hunderscores : underscoresOk t = true := by
    simp only [underscoresOk, hmark]
    split_ifs
    · exact underscoresFit_of_not_mem ht _
    · exact underscoresFit_of_not_mem (fun hmem => ht (hsub.mem hmem)) _
  simp only [magnitude, if_neg hne', hmark, magnitudeFrom_of_digitsFrom? hbase.1 hnatural hn, hunderscores]
  rfl

theorem IsNumeral.not_mem {radix : Nat} {b : UInt8} (h : IsNumeral radix t n) (hb : ∀ row ∈ digitRows, b ∉ row) :
    b ∉ t := by
  obtain ⟨digits, -, hfigures, -⟩ := h
  induction hfigures with
  | nil => exact List.not_mem_nil
  | cons hfigure _ ih =>
    obtain ⟨row, hrow, hd⟩ := hfigure
    intro hmem
    rcases List.mem_cons.mp hmem with rfl | hmem
    · exact hb row hrow (List.mem_of_getElem? hd)
    · exact ih hmem

end Text

/-! ### Literals as integers -/

namespace Literal
variable {t token : Text} {n : Nat} {v u : Int}

/-- A literal without a sign starts with a decimal digit. -/
theorem Unsigned.head (h : Unsigned t n) : ∃ b rest, t = b :: rest ∧ 48 ≤ b.toNat ∧ b.toNat ≤ 57 := by
  cases h with
  | hex => exact ⟨_, _, rfl, by decide, by decide⟩
  | binary => exact ⟨_, _, rfl, by decide, by decide⟩
  | zero => exact ⟨_, _, rfl, by decide, by decide⟩
  | @decimal first rest _ _ hdigits =>
    refine ⟨first, rest, rfl, ?_⟩
    have hfirst : ∃ d, Text.digit? 10 first = some d := by
      obtain ⟨_, -, _ | ⟨hfigure, -⟩, hlt, -⟩ := hdigits
      exact ⟨_, (Text.digit?_eq_some_iff (by decide) first).mpr ⟨hfigure, hlt _ List.mem_cons_self⟩⟩
    obtain ⟨d, hd⟩ := hfirst
    obtain ⟨hlt, rfl⟩ := Text.eq_digitChar_of_digit? hd
    have hchars : ∀ d < 10, 48 ≤ d.digitChar.toUInt8.toNat ∧ d.digitChar.toUInt8.toNat ≤ 57 := by decide
    exact hchars d hlt

theorem Unsigned.underscore_not_mem (h : Unsigned t n) : Text.underscore ∉ t := by
  have hrows : ∀ row ∈ Text.digitRows, Text.underscore ∉ row := by decide
  have happend {lead digits : Text} {radix : Nat} (hlead : Text.underscore ∉ lead)
      (hdigits : IsNumeral radix digits n) : Text.underscore ∉ lead ++ digits :=
    List.not_mem_append hlead (hdigits.not_mem hrows)
  cases h with
  | hex hdigits => exact happend (by decide) hdigits
  | binary hdigits => exact happend (by decide) hdigits
  | zero => decide
  | decimal _ hdigits => exact hdigits.not_mem hrows

theorem Unsigned.magnitude_eq (h : Unsigned t n) (hn : n < 0x10000000000000000) : Text.magnitude t = .ok n := by
  have hunderscore := h.underscore_not_mem
  have hne {radix : Nat} {digits : Text} (hdigits : IsNumeral radix digits n) : digits ≠ [] := by
    rintro rfl
    obtain ⟨digits, hne, hfigures, -⟩ := hdigits
    exact hne (List.forall₂_nil_left_iff.mp hfigures)
  cases h with
  | @hex digits _ hdigits =>
    have hmark : Text.baseMark (Text.ofString "0x" ++ digits) = (16, digits) := by
      show Text.baseMark (byte '0' :: byte 'x' :: digits) = _
      have hletter : Text.lowerByte (byte 'x') = byte 'x' := by decide
      have hb : byte 'x' ≠ byte 'b' := by decide
      have ho : byte 'x' ≠ byte 'o' := by decide
      simp [Text.baseMark, hne hdigits, hletter, hb, ho]
    exact Text.magnitude_of_baseMark hmark (by decide) hdigits hn hunderscore (List.suffix_append _ _)
  | @binary digits _ hdigits =>
    have hmark : Text.baseMark (Text.ofString "0b" ++ digits) = (2, digits) := by
      show Text.baseMark (byte '0' :: byte 'b' :: digits) = _
      have hletter : Text.lowerByte (byte 'b') = byte 'b' := by decide
      simp [Text.baseMark, hne hdigits, hletter]
    exact Text.magnitude_of_baseMark hmark (by decide) hdigits hn hunderscore (List.suffix_append _ _)
  | zero => rfl
  | @decimal first rest _ hfirst hdigits =>
    have hmark : Text.baseMark (first :: rest) = (10, first :: rest) := by
      cases rest with
      | nil => rfl
      | cons second rest => simp [Text.baseMark, hfirst]
    exact Text.magnitude_of_baseMark hmark (by decide) hdigits hn hunderscore List.suffix_rfl

/-- **A literal is the integer that it spells.** -/
theorem integer_of_fits (h : Fits token v) : Text.integer token = .ok v := by
  obtain ⟨hspelled, hmin, hmax⟩ := h
  unfold least at hmin
  unfold greatest at hmax
  cases hspelled with
  | @plain t n hunsigned =>
    obtain ⟨b, rest, rfl, hlow, -⟩ := hunsigned.head
    have hminus : b ≠ byte '-' := by
      rintro rfl
      exact absurd hlow (by decide)
    have hplus : b ≠ byte '+' := by
      rintro rfl
      exact absurd hlow (by decide)
    have hrange : n < 0x8000000000000000 := by omega
    simp only [Text.integer, if_neg hminus, if_neg hplus, hunsigned.magnitude_eq (by omega)]
    exact if_pos hrange
  | @negated t n hunsigned =>
    have hrange : n ≤ 0x8000000000000000 := by omega
    simp only [Text.integer, if_true, hunsigned.magnitude_eq (by omega)]
    exact if_pos hrange

/-- A number that a literal has can be written in decimal. -/
theorem fits_decimal (h : Fits token v) : Fits (Text.decimal v) v :=
  ⟨spelled_of_value? (value?_decimal v), h.2⟩

theorem Fits.unique (h : Fits token v) (h' : Fits token u) : v = u := by
  have hvalue := value?_of_spelled h.1
  rw [value?_of_spelled h'.1] at hvalue
  exact (Option.some.inj hvalue).symm

theorem Fits.plain (h : Fits token v) : token.Plain :=
  (show ImmKind.Means .i token v from .literal h).plain

/-- A literal starts with a sign or a digit, and no name does. -/
theorem Fits.head (h : Fits token v) : ∃ b rest, token = b :: rest ∧ b.toNat < 58 := by
  cases h.1 with
  | plain hunsigned =>
    obtain ⟨b, rest, rfl, -, hb⟩ := hunsigned.head
    exact ⟨b, rest, rfl, Nat.lt_succ_of_le hb⟩
  | negated => exact ⟨_, _, rfl, by decide⟩

theorem Fits.ne_nil (h : Fits token v) : token ≠ [] := by
  obtain ⟨b, rest, rfl, -⟩ := h.head
  exact List.cons_ne_nil b rest

theorem Fits.not_named (h : Fits token v) (k : Nat) : ¬ Register.Named token k := by
  obtain ⟨b, rest, rfl, hb⟩ := h.head
  intro hnamed
  generalize htoken : b :: rest = token at hnamed
  cases hnamed with
  | own hmem =>
    have haliases : ∀ p ∈ Register.aliases, 58 ≤ (p.1.headD 0).toNat := by decide
    have hletter := haliases _ hmem
    rw [← htoken] at hletter
    exact absurd hletter (not_le.mpr hb)
  | x | a | sLow | sHigh | tLow | tHigh =>
    rw [(List.cons.inj htoken).1] at hb
    exact absurd hb (by decide)

theorem Fits.not_lists (h : Fits token v) (bits : Word) : ¬ Order.Lists token bits := by
  obtain ⟨b, rest, rfl, hb⟩ := h.head
  rintro ⟨chosen, hsublist, htoken, -⟩
  have haccesses : Order.accesses.all (fun access => 58 ≤ access.1.toNat) := by decide
  cases chosen with
  | nil => cases htoken
  | cons access chosen =>
    obtain ⟨rfl, -⟩ := List.cons.inj htoken
    have hletter := List.all_eq_true.mp haccesses access (hsublist.subset List.mem_cons_self)
    exact absurd (of_decide_eq_true hletter) (not_le.mpr hb)

end Literal

/-! ### Literals as arguments -/

namespace Slot
variable {slot : Slot} {datum : Datum} {f s s' : Text} {v : Int}

/-- A literal is read as an immediate of its number, and as nothing else. -/
theorem reads_of_fits_iff (h : Literal.Fits s v) :
    Reads slot s datum ↔ ∃ kind : ImmKind, slot = .immediate kind ∧ kind.Admits v ∧ datum = .number v := by
  constructor
  · intro hreads
    cases hreads with
    | register hnamed => exact absurd hnamed (h.not_named _)
    | immediate hmeans hadmits =>
      cases hmeans with
      | name hname => exact absurd h (ImmKind.not_fits_of_name hname)
      | literal hfits =>
        obtain rfl := h.unique hfits
        exact ⟨_, rfl, hadmits, rfl⟩
    | memory hwritten =>
      cases hwritten with
      | bare hnamed => exact absurd hnamed (h.not_named _)
      | indexed => exact absurd (MemoryOperand.open_mem_around _ _) (h.plain.not_mem (by decide))
    | order hlists => exact absurd hlists (h.not_lists _)
  · rintro ⟨kind, rfl, hadmits, rfl⟩
    exact .immediate (.literal h) hadmits

/-- **Literals of one number read alike.** -/
theorem alike_of_fits (h : Literal.Fits s v) (h' : Literal.Fits s' v) : Alike s s' := fun _ _ =>
  (reads_of_fits_iff h).trans (reads_of_fits_iff h').symm

/-- A literal with more than white space in front of it is not read. -/
theorem not_reads_behind (hf : ∀ b ∈ f.getLast?, ¬ Seen b) (hblanks : ¬ Blanks f) (h : Literal.Fits s v) :
    ¬ Reads slot (f ++ s).trim datum := by
  have hvisible : Visible s := h.plain.visible
  have hplain : ¬ Text.Plain (f ++ s).trim := fun hplain =>
    hblanks (Text.blanks_of_visible_trim hf hvisible h.ne_nil hplain.visible)
  intro hreads
  generalize htoken : (f ++ s).trim = token at hreads hplain
  cases hreads with
  | register hnamed => exact hplain hnamed.plain
  | immediate hmeans => exact hplain hmeans.plain
  | memory hwritten =>
    cases hwritten with
    | bare hnamed => exact hplain hnamed.plain
    | @indexed offset base _ =>
      have hlast := Text.getLast?_trim_append hvisible h.ne_nil f
      have hclose : (MemoryOperand.around offset base).getLast? = some (byte ')') := List.getLast?_concat
      rw [htoken, hclose] at hlast
      exact h.plain.not_mem (by decide) (List.mem_of_getLast? hlast.symm)
  | order hlists => exact hplain hlists.plain

/-- **Literals of one number read alike, whatever stands in front of them**, if it ends with white space. -/
theorem alike_behind (hf : ∀ b ∈ f.getLast?, ¬ Seen b) (h : Literal.Fits s v) (h' : Literal.Fits s' v) :
    Alike (f ++ s).trim (f ++ s').trim := by
  by_cases hblanks : Blanks f
  · rw [Text.trim_blanks_append hblanks, Text.trim_blanks_append hblanks, h.plain.visible.trim, h'.plain.visible.trim]
    exact alike_of_fits h h'
  · exact fun _ _ => iff_of_false (not_reads_behind hf hblanks h) (not_reads_behind hf hblanks h')

end Slot

end RvConsole
