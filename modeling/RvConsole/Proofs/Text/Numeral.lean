import Mathlib
import RvConsole.Text.Numeral

/-! A numeral is read as the number it was written for.

Digits are written one by one, each by a byte that is read as that digit again (`Spells`); that is all the
round trip needs, so it is proved once for the decimal numerals and the hexadecimal ones. Of their bytes
only what tells them from other text is kept: where they lie, and that no numeral starts with a zero that
it does not need. What a numeral is at all is said without the reader (`IsNumeral`), which takes these and no
others (`natural?_eq_some_iff`); of the numerals of one number, the written one has no zero to spare
(`eq_numeral`). Words are written with zeros in front and are read back all the same (`natural?_hexWord`). -/
namespace RvConsole.Text

/-- The bytes that a function writes for the digits of a radix are read as those digits. -/
def Spells (radix : Nat) (write : Char → UInt8) : Prop :=
  ∀ d < radix, digit? radix (write d.digitChar) = some d

theorem spells_decimal : Spells 10 Char.toUInt8 := by
  unfold Spells
  decide

theorem spells_hex : Spells 16 fun c => c.toUpper.toUInt8 := by
  unfold Spells
  decide

/-! ### Reading back -/

theorem digitsFrom?_append (radix value : Nat) (front back : Text) :
    digitsFrom? radix value (front ++ back) =
      (digitsFrom? radix value front).bind fun value => digitsFrom? radix value back := by
  induction front generalizing value with
  | nil => rfl
  | cons b rest ih =>
    simp only [List.cons_append, digitsFrom?]
    cases digit? radix b with
    | none => rfl
    | some d => exact ih _

theorem digitsFrom?_toDigits {radix : Nat} {write : Char → UInt8} (hradix : 1 < radix)
    (hwrite : Spells radix write) (n : Nat) :
    digitsFrom? radix 0 ((Nat.toDigits radix n).map write) = some n := by
  induction n using Nat.strong_induction_on with
  | _ n ih =>
    by_cases hn : n < radix
    · simp [Nat.toDigits_of_lt_base hn, digitsFrom?, hwrite n hn]
    · have hdiv : n / radix < n := Nat.div_lt_self (by omega) hradix
      have hdigit := hwrite (n % radix) (Nat.mod_lt _ (by omega))
      rw [Nat.toDigits_of_base_le hradix (not_lt.mp hn), List.map_append, digitsFrom?_append,
        ih (n / radix) hdiv]
      simp only [Option.bind_some, List.map_cons, List.map_nil, digitsFrom?, hdigit]
      rw [Nat.div_add_mod']

theorem natural?_of_ne_nil {radix : Nat} {t : Text} (ht : t ≠ []) : natural? radix t = digitsFrom? radix 0 t := by
  cases t with
  | nil => exact absurd rfl ht
  | cons b rest => rfl

theorem natural?_toDigits {radix : Nat} {write : Char → UInt8} (hradix : 1 < radix)
    (hwrite : Spells radix write) (n : Nat) :
    natural? radix ((Nat.toDigits radix n).map write) = some n := by
  rw [natural?_of_ne_nil (by simp), digitsFrom?_toDigits hradix hwrite]

theorem natural?_numeral (n : Nat) : natural? 10 (numeral 10 n) = some n :=
  natural?_toDigits (by decide) spells_decimal n

theorem natural?_hex (n : Nat) : natural? 16 (hex n) = some n :=
  natural?_toDigits (by decide) spells_hex n

/-! ### The bytes of a numeral -/

theorem digit_of_mem_toDigits {radix n : Nat} {c : Char} (hradix : 1 < radix)
    (hc : c ∈ Nat.toDigits radix n) : ∃ d < radix, c = d.digitChar := by
  induction n using Nat.strong_induction_on with
  | _ n ih =>
    by_cases hn : n < radix
    · rw [Nat.toDigits_of_lt_base hn] at hc
      exact ⟨n, hn, List.mem_singleton.mp hc⟩
    · rw [Nat.toDigits_of_base_le hradix (not_lt.mp hn)] at hc
      rcases List.mem_append.mp hc with hc | hc
      · exact ih (n / radix) (Nat.div_lt_self (by omega) hradix) hc
      · exact ⟨n % radix, Nat.mod_lt _ (by omega), List.mem_singleton.mp hc⟩

/-- The bytes of decimal numerals. -/
theorem mem_numeral {n : Nat} {b : UInt8} (hb : b ∈ numeral 10 n) : 48 ≤ b.toNat ∧ b.toNat ≤ 57 := by
  obtain ⟨c, hc, rfl⟩ := List.mem_map.mp hb
  obtain ⟨d, hd, rfl⟩ := digit_of_mem_toDigits (by decide) hc
  exact (by decide : ∀ d < 10, 48 ≤ d.digitChar.toUInt8.toNat ∧ d.digitChar.toUInt8.toNat ≤ 57) d hd

/-- The bytes of hexadecimal numerals: digits and upper-case letters. -/
theorem mem_hex {n : Nat} {b : UInt8} (hb : b ∈ hex n) : 48 ≤ b.toNat ∧ b.toNat ≤ 70 := by
  obtain ⟨c, hc, rfl⟩ := List.mem_map.mp hb
  obtain ⟨d, hd, rfl⟩ := digit_of_mem_toDigits (by decide) hc
  exact (by decide : ∀ d < 16, 48 ≤ d.digitChar.toUpper.toUInt8.toNat ∧
    d.digitChar.toUpper.toUInt8.toNat ≤ 70) d hd

/-- Only zero itself starts with a zero. -/
theorem head?_numeral {n : Nat} (hn : n ≠ 0) : (numeral 10 n).head? ≠ some (byte '0') := by
  induction n using Nat.strong_induction_on with
  | _ n ih =>
    by_cases hlt : n < 10
    · rw [numeral, Nat.toDigits_of_lt_base hlt]
      exact (by decide : ∀ n < 10, n ≠ 0 → [n.digitChar.toUInt8].head? ≠ some (byte '0')) n hlt hn
    · rw [numeral, Nat.toDigits_of_base_le (by decide) (not_lt.mp hlt), List.map_append,
        List.head?_append_of_ne_nil _ (by simp)]
      exact ih (n / 10) (by omega) (by omega)

/-! ### What a numeral is -/

/-- The digits in order, the letters in lower case and in upper case. -/
def digitRows : List Text := ["0123456789abcdef", "0123456789ABCDEF"]

/-- A byte is written for a digit. -/
def IsFigure (b : UInt8) (d : Nat) : Prop := ∃ row ∈ digitRows, row[d]? = some b

instance (b : UInt8) (d : Nat) : Decidable (IsFigure b d) := List.decidableBEx _ digitRows

/-- A text is one or more digits of a radix, most significant first, and has their value. -/
def IsNumeral (radix : Nat) (t : Text) (n : Nat) : Prop :=
  ∃ digits : List Nat, digits ≠ [] ∧ List.Forall₂ IsFigure t digits ∧ (∀ d ∈ digits, d < radix) ∧
    Nat.ofDigits radix digits.reverse = n

theorem digit?_eq_some_iff_sixteen {radix d : Nat} (hradix : radix ≤ 16) (b : UInt8) :
    digit? radix b = some d ↔ digit? 16 b = some d ∧ d < radix := by
  simp only [digit?]
  split_ifs <;> simp only [Option.some.injEq, false_iff, false_and, not_and, not_lt] <;> omega

theorem digit?_sixteen (b : UInt8) (d : Nat) : digit? 16 b = some d ↔ IsFigure b d := by
  have hread : ∀ row ∈ digitRows, ∀ p ∈ row.zipIdx, digit? 16 p.1 = some p.2 := by decide
  have hwritten : ∀ d < 16, (d < 10 → IsFigure (UInt8.ofNat (d + 48)) d) ∧
      (10 ≤ d → IsFigure (UInt8.ofNat (d + 87)) d ∧ IsFigure (UInt8.ofNat (d + 55)) d) := by decide
  constructor
  · intro h
    have hcases : d < 16 ∧ (d < 10 ∧ b.toNat = d + 48 ∨ 10 ≤ d ∧ (b.toNat = d + 87 ∨ b.toNat = d + 55)) := by
      simp only [digit?] at h
      split_ifs at h <;> simp only [Option.some.injEq] at h <;> omega
    obtain ⟨hlt, hcases⟩ := hcases
    obtain ⟨hlow, hhigh⟩ := hwritten d hlt
    rw [← UInt8.ofNat_toNat (x := b)]
    rcases hcases with ⟨hd, hb⟩ | ⟨hd, hb | hb⟩
    · exact hb ▸ hlow hd
    · exact hb ▸ (hhigh hd).1
    · exact hb ▸ (hhigh hd).2
  · rintro ⟨row, hmem, hd⟩
    exact hread row hmem (b, d) (List.mk_mem_zipIdx_iff_getElem?.mpr hd)

theorem digit?_eq_some_iff {radix d : Nat} (hradix : radix ≤ 16) (b : UInt8) :
    digit? radix b = some d ↔ IsFigure b d ∧ d < radix := by
  rw [digit?_eq_some_iff_sixteen hradix, digit?_sixteen]

theorem digitsFrom?_eq_some_iff {radix value n : Nat} (hradix : radix ≤ 16) (t : Text) :
    digitsFrom? radix value t = some n ↔
      ∃ digits, List.Forall₂ IsFigure t digits ∧ (∀ d ∈ digits, d < radix) ∧
        value * radix ^ digits.length + Nat.ofDigits radix digits.reverse = n := by
  induction t generalizing value with
  | nil => simp [digitsFrom?]
  | cons b rest ih =>
    -- a digit read moves the value before it one place up
    have hstep : ∀ (d : Nat) (digits : List Nat),
        value * radix ^ (d :: digits).length + Nat.ofDigits radix (d :: digits).reverse =
          (value * radix + d) * radix ^ digits.length + Nat.ofDigits radix digits.reverse := by
      intro d digits
      rw [List.reverse_cons, Nat.ofDigits_append, Nat.ofDigits_singleton, List.length_reverse, List.length_cons]
      ring
    constructor
    · intro h
      simp only [digitsFrom?] at h
      split at h
      case h_1 d hd =>
        obtain ⟨hfigure, hlt⟩ := (digit?_eq_some_iff hradix b).mp hd
        obtain ⟨digits, hfigures, hall, hvalue⟩ := ih.mp h
        exact ⟨d :: digits, .cons hfigure hfigures, List.forall_mem_cons.mpr ⟨hlt, hall⟩,
          (hstep d digits).trans hvalue⟩
      case h_2 => cases h
    · rintro ⟨_, _ | ⟨hfigure, hfigures⟩, hall, hvalue⟩
      case cons d digits =>
        obtain ⟨hlt, hall⟩ := List.forall_mem_cons.mp hall
        have hd := (digit?_eq_some_iff hradix b).mpr ⟨hfigure, hlt⟩
        simp only [digitsFrom?, hd]
        exact ih.mpr ⟨digits, hfigures, hall, (hstep d digits).symm.trans hvalue⟩

/-- **Reading takes numerals and nothing else.** -/
theorem natural?_eq_some_iff {radix n : Nat} (hradix : radix ≤ 16) (t : Text) :
    natural? radix t = some n ↔ IsNumeral radix t n := by
  cases t with
  | nil =>
    constructor
    · intro h
      cases h
    · rintro ⟨digits, hne, hfigures, -⟩
      exact absurd (List.forall₂_nil_left_iff.mp hfigures) hne
  | cons b rest =>
    rw [natural?_of_ne_nil (List.cons_ne_nil b rest), digitsFrom?_eq_some_iff hradix]
    constructor
    · rintro ⟨digits, hfigures, hall, hvalue⟩
      refine ⟨digits, ?_, hfigures, hall, by simpa using hvalue⟩
      rintro rfl
      cases hfigures
    · rintro ⟨digits, -, hfigures, hall, hvalue⟩
      exact ⟨digits, hfigures, hall, by simpa using hvalue⟩

/-! ### Numerals without spare zeros -/

theorem eq_digitChar_of_digit? {b : UInt8} {d : Nat} (h : digit? 10 b = some d) :
    d < 10 ∧ b = d.digitChar.toUInt8 := by
  obtain ⟨⟨row, hrow, hb⟩, hlt⟩ := (digit?_eq_some_iff (by decide) b).mp h
  have hrows : ∀ row ∈ digitRows, ∀ d < 10, row[d]? = some d.digitChar.toUInt8 := by decide
  rw [hrows row hrow d hlt] at hb
  exact ⟨hlt, (Option.some.inj hb).symm⟩

/-- A numeral without a zero in front that could be left out is the one that is written for its value. -/
theorem eq_numeral {t : Text} {n : Nat} (h : natural? 10 t = some n)
    (hzero : 1 < t.length → t.head? ≠ some (byte '0')) : t = numeral 10 n := by
  induction t using List.reverseRecOn generalizing n with
  | nil => cases h
  | append_singleton front b ih =>
    rw [natural?_of_ne_nil (List.concat_ne_nil b front), digitsFrom?_append] at h
    obtain ⟨m, hm, hlast⟩ := Option.bind_eq_some_iff.mp h
    simp only [digitsFrom?] at hlast
    split at hlast
    case h_2 => cases hlast
    case h_1 d hd =>
      obtain ⟨hlt, rfl⟩ := eq_digitChar_of_digit? hd
      obtain rfl := Option.some.inj hlast
      by_cases hne : front = []
      · subst hne
        obtain rfl : 0 = m := Option.some.inj hm
        rw [numeral, Nat.zero_mul, Nat.zero_add, Nat.toDigits_of_lt_base hlt]
        rfl
      · have hhead : front.head? ≠ some (byte '0') := by
          rw [← List.head?_append_of_ne_nil _ hne]
          apply hzero
          simpa using List.length_pos_iff.mpr hne
        have hfront : front = numeral 10 m := ih (by rwa [natural?_of_ne_nil hne]) fun _ => hhead
        -- the digits in front do not start with a zero, so they are not zero
        have hpos : m ≠ 0 := by
          rintro rfl
          rw [hfront] at hhead
          exact hhead rfl
        rw [numeral, Nat.toDigits_of_base_le (by decide) (by omega), List.map_append, hfront,
          show (m * 10 + d) / 10 = m by omega, show (m * 10 + d) % 10 = d by omega]
        rfl

/-! ### Words in hexadecimal -/

/-- Zeros in front do not count. -/
theorem digitsFrom?_zeros {radix : Nat} (hradix : 0 < radix) (n : Nat) (t : Text) :
    digitsFrom? radix 0 (List.replicate n (byte '0') ++ t) = digitsFrom? radix 0 t := by
  have hzero : digit? radix (byte '0') = some 0 := if_pos hradix
  induction n with
  | zero => rfl
  | succ n ih =>
    rw [List.replicate_succ, List.cons_append, digitsFrom?, hzero]
    simpa using ih

theorem natural?_hexWord (w : BitVec 32) : natural? 16 (hexWord w) = some w.toNat := by
  have hne : hexWord w ≠ [] := by simp [hexWord, padLeft, hex]
  rw [natural?_of_ne_nil hne, hexWord, padLeft, digitsFrom?_zeros (by decide)]
  exact digitsFrom?_toDigits (by decide) spells_hex w.toNat

theorem hexWord_injective : Function.Injective hexWord := by
  intro v w h
  have hread := natural?_hexWord v
  rw [h, natural?_hexWord] at hread
  exact BitVec.eq_of_toNat_eq (Option.some.inj hread).symm

/-- A word has eight digits. -/
theorem length_hexWord (w : BitVec 32) : (hexWord w).length = 8 := by
  have hle : (hex w.toNat).length ≤ 8 := by
    rw [hex, List.length_map, Nat.length_toDigits_le_iff (by decide) (by decide)]
    exact w.isLt
  rw [hexWord, padLeft, List.length_append, List.length_replicate, Nat.sub_add_cancel hle]

theorem mem_hexWord {w : BitVec 32} {b : UInt8} (hb : b ∈ hexWord w) : 48 ≤ b.toNat ∧ b.toNat ≤ 70 := by
  rcases List.mem_append.mp hb with hb | hb
  · rw [List.eq_of_mem_replicate hb]
    decide
  · exact mem_hex hb

end RvConsole.Text
