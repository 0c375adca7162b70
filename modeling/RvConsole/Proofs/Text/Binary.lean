import RvConsole.Proofs.Text.Numeral

/-! Binary digits.

The bits of a vector are written one by one from the top, which is the same as writing its number in binary and filling
up with zeros (`bits_eq_binary`). Digits at chosen places (`digitsAt`) stand between the two. -/
namespace RvConsole.Text

/-- The digit of a bit. -/
def figure (b : Bool) : UInt8 := if b then byte '1' else byte '0'

/-- The digits at some places, in the order in which the places are listed. -/
def digitsAt (bit : Nat → Bool) (places : List Nat) : Text := places.map fun k => figure (bit k)

/-- So many places from the lowest one up, the highest first. -/
def places (low width : Nat) : List Nat := (List.range' low width).reverse

/-- A number in binary, filled up with zeros to a width. -/
def binary (width n : Nat) : Text := padLeft (byte '0') width (numeral 2 n)

theorem digitsAt_congr {f g : Nat → Bool} {as bs : List Nat} (hlength : as.length = bs.length)
    (h : ∀ q ∈ as.zip bs, f q.1 = g q.2) : digitsAt f as = digitsAt g bs := by
  induction as generalizing bs with
  | nil =>
    rw [List.length_eq_zero_iff.mp hlength.symm]
    rfl
  | cons a as ih =>
    obtain ⟨b, bs, rfl⟩ := List.exists_cons_of_length_eq_add_one hlength.symm
    obtain ⟨hfirst, hrest⟩ := List.forall_mem_cons.mp h
    exact congrArg₂ List.cons (congrArg figure hfirst) (ih (Nat.succ.inj hlength) hrest)

theorem places_zero (width : Nat) : places 0 width = (List.range width).reverse := by
  rw [places, List.range_eq_range']

theorem bits_eq_digitsAt {width : Nat} (v : BitVec width) :
    bits v = digitsAt v.getLsbD (places 0 width) := by
  induction width with
  | zero => rfl
  | succ k ih =>
    rw [places_zero, List.range_succ, List.reverse_append, List.reverse_singleton, List.singleton_append, bits, ih,
      places_zero]
    refine congrArg (figure (v.getLsbD k) :: ·) (List.map_congr_left fun i hi => ?_)
    have hlt : i < k := List.mem_range.mp (List.mem_reverse.mp hi)
    rw [BitVec.truncate, BitVec.getLsbD_setWidth, decide_eq_true hlt, Bool.true_and]

theorem length_bits {width : Nat} (v : BitVec width) : (bits v).length = width := by
  rw [bits_eq_digitsAt, digitsAt, List.length_map, places, List.length_reverse, List.length_range']

theorem numeral_two_of_lt {n : Nat} (h : n < 2) : numeral 2 n = [figure (n.testBit 0)] := by
  exact (by decide : ∀ n < 2, numeral 2 n = [figure (n.testBit 0)]) n h

/-- The last digit of a number in binary is its lowest bit. -/
theorem binary_succ {width : Nat} (hwidth : 0 < width) (n : Nat) :
    binary (width + 1) n = binary width (n / 2) ++ [figure (n.testBit 0)] := by
  by_cases hn : n < 2
  · have hhalf : n / 2 = 0 := Nat.div_eq_of_lt hn
    have hzero : numeral 2 0 = [byte '0'] := rfl
    obtain ⟨k, rfl⟩ := Nat.exists_eq_succ_of_ne_zero hwidth.ne'
    rw [binary, binary, hhalf, hzero, numeral_two_of_lt hn, padLeft, padLeft, List.append_assoc]
    simp [List.replicate_succ']
  · have hlast : (n % 2).digitChar.toUInt8 = figure (n.testBit 0) := by
      rw [Nat.testBit_zero]
      rcases Nat.mod_two_eq_zero_or_one n with h | h <;> rw [h] <;> rfl
    have hnumeral : numeral 2 n = numeral 2 (n / 2) ++ [figure (n.testBit 0)] := by
      rw [numeral, Nat.toDigits_of_base_le (by decide) (not_lt.mp hn), List.map_append, ← hlast]
      rfl
    rw [binary, binary, padLeft, padLeft, hnumeral, List.length_append, List.length_singleton, Nat.add_sub_add_right,
      List.append_assoc]

/-- A number that fits a width has its bits for digits. -/
theorem digitsAt_testBit {width n : Nat} (hwidth : 0 < width) (hn : n < 2 ^ width) :
    digitsAt n.testBit (places 0 width) = binary width n := by
  induction width, hwidth using Nat.le_induction generalizing n with
  | base => exact (by decide : ∀ n < 2 ^ 1, digitsAt n.testBit (places 0 1) = binary 1 n) n hn
  | succ k hk ih =>
    have hhalf : n / 2 < 2 ^ k := by
      rw [pow_succ] at hn
      omega
    rw [binary_succ hk, ← ih hhalf, places_zero, places_zero, List.range_succ_eq_map, List.reverse_cons, digitsAt,
      List.map_append, ← List.map_reverse, List.map_map]
    refine congrArg (· ++ [figure (n.testBit 0)]) (List.map_congr_left fun i _ => ?_)
    exact congrArg figure (Nat.testBit_succ n i)

/-- **The bits of a vector are its number in binary.** -/
theorem bits_eq_binary {width : Nat} (hwidth : 0 < width) (v : BitVec width) : bits v = binary width v.toNat := by
  rw [bits_eq_digitsAt, ← digitsAt_testBit hwidth v.isLt]
  rfl

end RvConsole.Text
