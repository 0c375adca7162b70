import RvConsole.Proofs.Isa.Operand

/-! What a literal is, and what an immediate is.

A literal is said here without its reader: an optional minus sign, then hexadecimal digits behind `0x`, binary
digits behind `0b`, zero, or a decimal numeral that does not start with a zero (`Literal.Spelled`). Reading
takes these as far as their value fits a signed word, and refuses every other token with itself
(`Literal.parse_eq_ok_iff`). A token means a number to a kind of immediate as a literal or as the name of a CSR
(`ImmKind.Means`), and what the kind makes of the token is up to that number (`ImmKind.parse_of_means`). -/
namespace RvConsole
open Text (byte IsNumeral IsFigure)

/-! ### Literals -/

namespace Literal
variable {t : Text} {n : Nat} {v : Int}

/-- Literals without a sign, with their values. -/
inductive Unsigned : Text → Nat → Prop where
  | hex {digits : Text} {n : Nat} : IsNumeral 16 digits n → Unsigned ("0x" ++ digits) n
  | binary {digits : Text} {n : Nat} : IsNumeral 2 digits n → Unsigned ("0b" ++ digits) n
  | zero : Unsigned "0" 0
  | decimal {first : UInt8} {rest : Text} {n : Nat} :
    first ≠ byte '0' → IsNumeral 10 (first :: rest) n → Unsigned (first :: rest) n

/-- Literals of any size, with their values. -/
inductive Spelled : Text → Int → Prop where
  | plain {t : Text} {n : Nat} : Unsigned t n → Spelled t n
  | negated {t : Text} {n : Nat} : Unsigned t n → Spelled (byte '-' :: t) (-n)

theorem unsigned_of_magnitude? (h : magnitude? t = some n) : Unsigned t n := by
  unfold magnitude? at h
  split at h
  case h_1 digits hlead =>
    rw [Text.after?_eq_some hlead]
    exact .hex ((Text.natural?_eq_some_iff (by decide) digits).mp h)
  case h_2 =>
    split at h
    case h_1 digits hlead =>
      rw [Text.after?_eq_some hlead]
      exact .binary ((Text.natural?_eq_some_iff (by decide) digits).mp h)
    case h_2 =>
      split_ifs at h with hzero
      cases t with
      | nil => cases h
      | cons first rest =>
        by_cases hfirst : first = byte '0'
        -- only zero itself may start with a zero
        · subst hfirst
          have hrest : rest = [] := by
            by_contra hne
            exact hzero ⟨by simpa using List.length_pos_iff.mpr hne, rfl⟩
          subst hrest
          obtain rfl : 0 = n := Option.some.inj h
          exact .zero
        · exact .decimal hfirst ((Text.natural?_eq_some_iff (by decide) _).mp h)

theorem magnitude?_of_unsigned (h : Unsigned t n) : magnitude? t = some n := by
  cases h with
  | hex hdigits => exact (Text.natural?_eq_some_iff (by decide) _).mpr hdigits
  | binary hdigits => exact (Text.natural?_eq_some_iff (by decide) _).mpr hdigits
  | zero => rfl
  | @decimal first rest _ hfirst hdigits =>
    have hx : Text.after? "0x" (first :: rest) = none := if_neg (Ne.symm hfirst)
    have hb : Text.after? "0b" (first :: rest) = none := if_neg (Ne.symm hfirst)
    have hzero : ¬((first :: rest).length > 1 ∧ (first :: rest).head? = some (byte '0')) := by
      rintro ⟨-, hhead⟩
      exact hfirst (Option.some.inj hhead)
    simp only [magnitude?, hx, hb, if_neg hzero]
    exact (Text.natural?_eq_some_iff (by decide) _).mpr hdigits

/-- A minus sign starts no literal that has no sign. -/
theorem Unsigned.after?_minus (h : Unsigned t n) : Text.after? "-" t = none := by
  cases h with
  | hex | binary | zero => rfl
  | @decimal first rest _ _ hdigits =>
    have hfirst : first ≠ byte '-' := by
      rintro rfl
      obtain ⟨_, -, _ | ⟨hfigure, -⟩, -⟩ := hdigits
      obtain ⟨row, hrow, hd⟩ := hfigure
      have hrows : ∀ row ∈ Text.digitRows, byte '-' ∉ row := by decide
      exact hrows row hrow (List.mem_of_getElem? hd)
    exact if_neg (Ne.symm hfirst)

theorem spelled_of_value? (h : value? t = some v) : Spelled t v := by
  unfold value? at h
  split at h
  case h_1 rest hlead =>
    rw [Text.after?_eq_some hlead]
    cases hn : magnitude? rest with
    | none =>
      rw [hn] at h
      cases h
    | some n =>
      rw [hn] at h
      obtain rfl := Option.some.inj h
      exact .negated (unsigned_of_magnitude? hn)
  case h_2 =>
    cases hn : magnitude? t with
    | none =>
      rw [hn] at h
      cases h
    | some n =>
      rw [hn] at h
      obtain rfl := Option.some.inj h
      exact .plain (unsigned_of_magnitude? hn)

theorem value?_of_spelled (h : Spelled t v) : value? t = some v := by
  cases h with
  | plain hn =>
    simp only [value?, hn.after?_minus, magnitude?_of_unsigned hn]
    rfl
  | @negated rest n hn =>
    have hlead : Text.after? "-" (byte '-' :: rest) = some rest := rfl
    simp only [value?, hlead, magnitude?_of_unsigned hn]
    rfl

/-- A token spells a number that fits a signed word. -/
def Fits (token : Text) (v : Int) : Prop := Spelled token v ∧ least ≤ v ∧ v ≤ greatest

/-- **Reading takes the literals that fit a word.** -/
theorem parse_eq_ok_iff {token : Text} : parse token = .ok v ↔ Fits token v := by
  unfold parse Fits
  constructor
  · intro h
    split at h
    case h_1 u hu =>
      split_ifs at h with hrange
      obtain rfl := Except.ok.inj h
      exact ⟨spelled_of_value? hu, hrange⟩
    case h_2 => cases h
  · rintro ⟨hspelled, hrange⟩
    simp only [value?_of_spelled hspelled, if_pos hrange]

/-- A token that spells nothing fits nothing. -/
theorem not_fits_of_value? {token : Text} (h : value? token = none) : ¬ ∃ v, Fits token v := by
  rintro ⟨v, hspelled, -⟩
  rw [value?_of_spelled hspelled] at h
  cases h

/-- What is no such literal is refused with the token itself. -/
theorem parse_of_not_fits {token : Text} (h : ¬ ∃ v, Fits token v) : parse token = .error (.notLiteral token) := by
  cases hparse : parse token with
  | ok v => exact absurd ⟨v, parse_eq_ok_iff.mp hparse⟩ h
  | error e =>
    unfold parse at hparse
    split at hparse
    · split_ifs at hparse
      rw [← hparse]
    · rw [← hparse]

end Literal

/-! ### Immediates -/

namespace ImmKind
variable {kind : ImmKind} {token : Text} {v : Int}

/-- A token means a number to a kind of immediate: it is the name of a CSR, or a literal. -/
inductive Means : ImmKind → Text → Int → Prop where
  | name {token : Text} {v : Int} : (token, v) ∈ csrNames → Means .csr token v
  | literal {kind : ImmKind} {token : Text} {v : Int} : Literal.Fits token v → Means kind token v

theorem named?_eq_some_iff : kind.named? token = some v ↔ kind = .csr ∧ (token, v) ∈ csrNames := by
  cases kind with
  | csr =>
    have hread : ∀ entry ∈ csrNames, csrNames.lookup entry.1 = some entry.2 := by decide
    constructor
    · intro h
      obtain ⟨before, rest, hnames, -⟩ := List.lookup_eq_some_iff.mp h
      exact ⟨rfl, hnames ▸ List.mem_append_right before List.mem_cons_self⟩
    · rintro ⟨-, h⟩
      exact hread _ h
  | _ => simp [named?]

/-- No name is a literal. -/
theorem not_fits_of_name (h : (token, v) ∈ csrNames) {u : Int} : ¬ Literal.Fits token u := by
  have hnames : ∀ entry ∈ csrNames, Literal.parse entry.1 = .error (.notLiteral entry.1) := by decide
  intro hfits
  have hparse := hnames _ h
  rw [Literal.parse_eq_ok_iff.mpr hfits] at hparse
  cases hparse

/-- **A kind goes by the number that a token means to it.** -/
theorem parse_of_means (h : kind.Means token v) : kind.parse token = kind.check v := by
  cases h with
  | name hname => simp only [parse, named?_eq_some_iff.mpr ⟨rfl, hname⟩]
  | literal hfits =>
    have hnamed : kind.named? token = none := by
      rw [Option.eq_none_iff_forall_ne_some]
      intro u hu
      exact not_fits_of_name (named?_eq_some_iff.mp hu).2 hfits
    simp only [parse, hnamed, Literal.parse_eq_ok_iff.mpr hfits]

theorem parse_of_not_means (h : ¬ ∃ v, kind.Means token v) : kind.parse token = .error (.notLiteral token) := by
  have hnamed : kind.named? token = none := by
    rw [Option.eq_none_iff_forall_ne_some]
    intro u hu
    obtain ⟨rfl, hname⟩ := named?_eq_some_iff.mp hu
    exact h ⟨u, .name hname⟩
  have hliteral : ¬ ∃ v, Literal.Fits token v := by
    rintro ⟨u, hu⟩
    exact h ⟨u, .literal hu⟩
  simp only [parse, hnamed, Literal.parse_of_not_fits hliteral]

theorem parse_eq_ok_iff : kind.parse token = .ok v ↔ kind.Means token v ∧ kind.Admits v := by
  constructor
  · intro h
    by_cases hmeans : ∃ u, kind.Means token u
    · obtain ⟨u, hu⟩ := hmeans
      rw [parse_of_means hu] at h
      obtain ⟨rfl, hadmits⟩ := check_eq_ok.mp h
      exact ⟨hu, hadmits⟩
    · rw [parse_of_not_means hmeans] at h
      cases h
  · rintro ⟨hmeans, hadmits⟩
    rw [parse_of_means hmeans]
    exact check_eq_ok.mpr ⟨rfl, hadmits⟩

end ImmKind

/-- **Literals and immediates are read exactly.** A token is read as a literal of a value if and only if it spells
that value and the value fits a signed word, and every other token is refused with itself. A kind of immediate
reads a token as a value if and only if the token means that value to it, as the name of a CSR or as a literal,
and the value is within the bounds and even where that is asked. A value outside the bounds is refused as such
whether it is odd or not, an odd one within them for being odd, and a token that means nothing with itself. -/
theorem immediates_read_exactly :
    (∀ (token : Text) (v : Int), Literal.parse token = .ok v ↔
        Literal.Spelled token v ∧ -0x80000000 ≤ v ∧ v ≤ 0x7FFFFFFF) ∧
      (∀ token : Text, (¬ ∃ v, Literal.Spelled token v ∧ -0x80000000 ≤ v ∧ v ≤ 0x7FFFFFFF) →
        Literal.parse token = .error (.notLiteral token)) ∧
      ∀ (kind : ImmKind) (token : Text),
        (∀ v, kind.parse token = .ok v ↔ kind.Means token v ∧ kind.bounds.min ≤ v ∧ v ≤ kind.bounds.max ∧
          (kind.bounds.even = true → v % 2 = 0)) ∧
        (∀ v, kind.Means token v → v < kind.bounds.min ∨ kind.bounds.max < v →
          kind.parse token = .error (.outsideRange v kind.bounds.min kind.bounds.max)) ∧
        (∀ v, kind.Means token v → kind.bounds.min ≤ v ∧ v ≤ kind.bounds.max → kind.bounds.even = true →
          v % 2 = 1 → kind.parse token = .error .oddNumber) ∧
        ((¬ ∃ v, kind.Means token v) → kind.parse token = .error (.notLiteral token)) := by
  refine ⟨fun _ _ => Literal.parse_eq_ok_iff, fun _ h => Literal.parse_of_not_fits h, fun kind token =>
    ⟨fun v => ImmKind.parse_eq_ok_iff, ?_, ?_, ImmKind.parse_of_not_means⟩⟩
  · intro v hmeans hrange
    rw [ImmKind.parse_of_means hmeans]
    exact if_pos hrange
  · intro v hmeans hrange heven hodd
    rw [ImmKind.parse_of_means hmeans]
    simp only [ImmKind.check]
    rw [if_neg (by omega), if_pos ⟨heven, by omega⟩]

/-- The least literal; a digit of the wrong radix; offsets of a branch that are out of range and odd, and odd;
the name of a CSR, and a word that is none. -/
theorem immediates_read_exactly_branch :
    Literal.Spelled "-0x80000000" (-0x80000000) ∧
      ((¬ ∃ v, Literal.Fits "0b2" v) ∧ Literal.parse "0b2" = .error (.notLiteral "0b2")) ∧
      (ImmKind.Means .b "-4097" (-4097) ∧
        ImmKind.parse .b "-4097" = .error (.outsideRange (-4097) (-4096) 4095)) ∧
      (ImmKind.Means .b "0xFff" 4095 ∧ ImmKind.parse .b "0xFff" = .error .oddNumber) ∧
      (ImmKind.Means .csr "cycleh" 0xC80 ∧ ImmKind.parse .csr "cycleh" = .ok 0xC80) ∧
      ((¬ ∃ v, ImmKind.Means .csr "mcycle" v) ∧ ImmKind.parse .csr "mcycle" = .error (.notLiteral "mcycle")) := by
  obtain ⟨hliteral, hrefused, himmediate⟩ := immediates_read_exactly
  have hdigit : ¬ ∃ v, Literal.Fits "0b2" v := Literal.not_fits_of_value? rfl
  have hfar : ImmKind.Means .b "-4097" (-4097) := .literal (Literal.parse_eq_ok_iff.mp rfl)
  have hodd : ImmKind.Means .b "0xFff" 4095 := .literal (Literal.parse_eq_ok_iff.mp rfl)
  have hname : ImmKind.Means .csr "cycleh" 0xC80 := .name (by decide)
  have hword : ¬ ∃ v, ImmKind.Means .csr "mcycle" v := by
    have hnames : ∀ entry ∈ ImmKind.csrNames, entry.1 ≠ Text.ofString "mcycle" := by decide
    rintro ⟨v, h | h⟩
    · exact hnames _ h rfl
    · exact Literal.not_fits_of_value? rfl ⟨v, h⟩
  exact ⟨((hliteral _ _).mp rfl).1, ⟨hdigit, hrefused _ hdigit⟩,
    ⟨hfar, (himmediate .b _).2.1 _ hfar (by decide)⟩,
    ⟨hodd, (himmediate .b _).2.2.1 _ hodd (by decide) rfl (by decide)⟩,
    ⟨hname, ((himmediate .csr _).1 _).mpr ⟨hname, by decide⟩⟩,
    ⟨hword, (himmediate .csr _).2.2.2 hword⟩⟩

end RvConsole
