import Mathlib

/-! Maps of bit vectors that only move bits.

Placing a value in a word and taking it out again are made of shifts, masks and unions. Each of these
sends nothing to nothing and a union to a union, so two such maps are equal as soon as they agree on
the vectors that have one bit set (`Wiring.ext`): a check of as many cases as there are bits, whatever
the number of vectors. -/
namespace RvConsole

/-- A map in which every bit of the result is a union of bits of the argument. -/
@[fun_prop]
structure Wiring {n k : Nat} (F : BitVec n → BitVec k) : Prop where
  zero : F 0#n = 0#k
  union : ∀ a b, F (a ||| b) = F a ||| F b

namespace Wiring
variable {n k l : Nat} {F G : BitVec n → BitVec k}

/-- **Wirings are known by what they do to single bits.** -/
theorem ext (hF : Wiring F) (hG : Wiring G)
    (h : ∀ i : Fin n, F (BitVec.twoPow n i) = G (BitVec.twoPow n i)) (a : BitVec n) : F a = G a := by
  -- By induction on how many of the low bits of `a` are kept: each bit set adds one power of two.
  have low : ∀ j, j ≤ n → F ((a.setWidth j).setWidth n) = G ((a.setWidth j).setWidth n) := by
    intro j hj
    induction j with
    | zero =>
      have hzero : (a.setWidth 0).setWidth n = 0#n := by
        rw [BitVec.eq_nil (a.setWidth 0)]
        simp
      rw [hzero, hF.zero, hG.zero]
    | succ j ih =>
      cases hbit : a.getLsbD j
      · rw [BitVec.setWidth_setWidth_succ_eq_setWidth_setWidth_of_getLsbD_false hbit]
        exact ih (by omega)
      · rw [BitVec.setWidth_setWidth_succ_eq_setWidth_setWidth_or_twoPow_of_getLsbD_true hbit,
          hF.union, hG.union, ih (by omega), h ⟨j, hj⟩]
  simpa using low n le_rfl

/-! ### What wirings are made of -/

@[fun_prop]
theorem id : Wiring fun a : BitVec n => a := ⟨rfl, fun _ _ => rfl⟩

@[fun_prop]
theorem comp {H : BitVec k → BitVec l} (hH : Wiring H) (hF : Wiring F) : Wiring fun a => H (F a) :=
  ⟨by rw [hF.zero, hH.zero], fun a b => by rw [hF.union, hH.union]⟩

@[fun_prop]
theorem or (hF : Wiring F) (hG : Wiring G) : Wiring fun a => F a ||| G a :=
  ⟨by rw [hF.zero, hG.zero, BitVec.or_self], fun a b => by rw [hF.union, hG.union]; ac_rfl⟩

@[fun_prop]
theorem and (hF : Wiring F) (c : BitVec k) : Wiring fun a => F a &&& c :=
  ⟨by rw [hF.zero, BitVec.zero_and], fun a b => by rw [hF.union, BitVec.and_or_distrib_right]⟩

@[fun_prop]
theorem shiftLeft (hF : Wiring F) (s : Nat) : Wiring fun a => F a <<< s :=
  ⟨by rw [hF.zero, BitVec.zero_shiftLeft],
    fun a b => by rw [hF.union, BitVec.shiftLeft_or_distrib]⟩

@[fun_prop]
theorem ushiftRight (hF : Wiring F) (s : Nat) : Wiring fun a => F a >>> s :=
  ⟨by rw [hF.zero, BitVec.zero_ushiftRight],
    fun a b => by rw [hF.union, BitVec.ushiftRight_or_distrib]⟩

@[fun_prop]
theorem sshiftRight (hF : Wiring F) (s : Nat) : Wiring fun a => (F a).sshiftRight s :=
  ⟨by rw [hF.zero, BitVec.zero_sshiftRight],
    fun a b => by rw [hF.union, BitVec.sshiftRight_or_distrib]⟩

@[fun_prop]
theorem setWidth (hF : Wiring F) (w : Nat) : Wiring fun a => (F a).setWidth w :=
  ⟨by rw [hF.zero, BitVec.setWidth_zero], fun a b => by rw [hF.union, BitVec.setWidth_or]⟩

@[fun_prop]
theorem signExtend (hF : Wiring F) (w : Nat) : Wiring fun a => (F a).signExtend w :=
  ⟨by rw [hF.zero]; exact BitVec.eq_of_toInt_eq (by simp [BitVec.toInt_signExtend]),
    fun a b => by rw [hF.union, BitVec.signExtend_or]⟩

@[fun_prop]
theorem extract (hF : Wiring F) (s w : Nat) : Wiring fun a => (F a).extractLsb' s w :=
  ⟨by simp [hF.zero], fun a b => by rw [hF.union, BitVec.extractLsb'_or]⟩

end Wiring

end RvConsole
