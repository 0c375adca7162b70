import RvConsole.Machine.Execute
import RvConsole.Proofs.Isa.Wiring
import RvConsole.Proofs.Machine.Effect

/-! The values the machine computes are the ones the effects name.

Arithmetic, loads, stores and CSRs, one after the other: what the machine does with shifts, slices and
bytes on one side, numbers on the other. -/
namespace RvConsole

/-! ### Words -/

theorem and_not_one (x : Word) : x &&& ~~~1#32 = BitVec.ofNat 32 (x.toNat / 2 * 2) := by
  have hshift : x &&& ~~~1#32 = x >>> 1 <<< 1 :=
    Wiring.ext (.and .id _) (.shiftLeft (.ushiftRight .id 1) 1) (by decide +kernel) x
  apply BitVec.eq_of_toNat_eq
  rw [hshift, BitVec.toNat_shiftLeft, BitVec.toNat_ushiftRight, BitVec.toNat_ofNat,
    Nat.shiftRight_eq_div_pow, Nat.shiftLeft_eq]

theorem and_31 (x : Word) : (x &&& 0x1F#32).toNat = x.toNat % 32 := by
  rw [BitVec.toNat_and]
  exact Nat.and_two_pow_sub_one_eq_mod x.toNat 5

theorem ushiftRight_eq (x : Word) (k : Nat) : x >>> k = BitVec.ofNat 32 (x.toNat / 2 ^ k) := by
  apply BitVec.eq_of_toNat_eq
  have hlt : x.toNat / 2 ^ k < 2 ^ 32 := lt_of_le_of_lt (Nat.div_le_self _ _) x.isLt
  rw [BitVec.toNat_ushiftRight, BitVec.toNat_ofNat, Nat.shiftRight_eq_div_pow, Nat.mod_eq_of_lt hlt]

theorem sshiftRight_eq (x : Word) (k : Nat) : x.sshiftRight k = BitVec.ofInt 32 (x.toInt / 2 ^ k) := by
  rw [BitVec.sshiftRight, Int.shiftRight_eq_div_pow]
  norm_cast

/-! ### Memory -/

namespace Memory
variable (mem : Memory) (a : Nat)

theorem toNat_append_byte {n : Nat} (x : BitVec n) (b : UInt8) :
    (x ++ b.toBitVec).toNat = b.toNat + 256 * x.toNat := by
  rw [BitVec.toNat_append, ← Nat.shiftLeft_add_eq_or_of_lt b.toBitVec.isLt, Nat.shiftLeft_eq,
    UInt8.toNat_toBitVec]
  omega

theorem toNat_ofBytes (b₀ b₁ b₂ b₃ : UInt8) :
    (Word.ofBytes b₀ b₁ b₂ b₃).toNat =
      b₀.toNat + 256 * (b₁.toNat + 256 * (b₂.toNat + 256 * b₃.toNat)) := by
  rw [Word.ofBytes, toNat_append_byte, toNat_append_byte, toNat_append_byte, UInt8.toNat_toBitVec]

theorem toNat_read (access : Access) : (mem.read a access).toNat = mem.number a access.size := by
  cases access <;> simp only [read, toNat_ofBytes, Access.size, number] <;> rfl

/-- A load gives the number that its bytes make. -/
theorem loaded_eq_extend (access : Access) (sign : Bool) :
    mem.loaded a access.size sign = extend sign access (mem.read a access) := by
  cases sign with
  | false =>
    rw [loaded, if_neg (by decide), ← toNat_read, BitVec.ofNat_toNat, BitVec.setWidth_eq]
    cases access <;> rfl
  | true =>
    rw [loaded, if_pos rfl, ← toNat_read]
    cases access with
    | byte =>
      show _ = BitVec.ofInt 32 ((mem.read a .byte).setWidth 8).toInt
      rw [BitVec.toInt_setWidth]
      rfl
    | half =>
      show _ = BitVec.ofInt 32 ((mem.read a .half).setWidth 16).toInt
      rw [BitVec.toInt_setWidth]
      rfl
    | word =>
      show BitVec.ofInt 32 (Int.bmod (mem.read a .word).toNat (2 ^ 32)) = _
      rw [← BitVec.toInt_eq_toNat_bmod, BitVec.ofInt_toInt]
      rfl

/-- Writing bytes changes those bytes and nothing else. -/
theorem getElem?_writeBytes (bytes : Text) (i : Nat) :
    (mem.writeBytes a bytes)[i]? =
      if a ≤ i ∧ i < a + bytes.length then mem[i]?.map fun _ => bytes.getD (i - a) 0 else mem[i]? := by
  induction bytes generalizing mem a with
  | nil => simp [writeBytes]
  | cons b rest ih =>
    rw [writeBytes, ih, Array.getElem?_setIfInBounds, List.length_cons]
    by_cases hi : a = i
    · subst hi
      rw [if_neg (by omega), if_pos rfl]
      by_cases hsize : a < mem.size <;> simp [hsize]
    · rw [if_neg hi]
      by_cases hin : a + 1 ≤ i ∧ i < a + 1 + rest.length
      · rw [if_pos hin, if_pos (by omega), show i - a = i - (a + 1) + 1 by omega]
        rfl
      · rw [if_neg hin, if_neg (by omega)]

theorem byteAt_eq (w : Word) (k : Nat) : w.byteAt k = UInt8.ofNat (w.toNat / 256 ^ k) := by
  apply UInt8.toBitVec_inj.mp
  apply BitVec.eq_of_toNat_eq
  show (w.extractLsb' (8 * k) 8).toNat = _
  rw [BitVec.extractLsb'_toNat, Nat.shiftRight_eq_div_pow, pow_mul]
  simp

theorem getD_take_toBytes {n j : Nat} (hn : n ≤ 4) (hj : j < n) (w : Word) :
    (w.toBytes.take n).getD j 0 = w.byteAt j := by
  rw [List.getD_eq_getElem?_getD, List.getElem?_take_of_lt hj]
  have hj4 : j < 4 := by omega
  interval_cases j <;> rfl

/-- A store changes the bytes of its range to the low bytes of the word. -/
theorem stored_eq_write (access : Access) (value : Word) :
    mem.stored a access.size value = mem.write a access value := by
  have hsize : access.size ≤ 4 := by cases access <;> decide
  have hlength : (value.toBytes.take access.size).length = access.size := by
    cases access <;> rfl
  apply Array.ext_getElem?
  intro i
  rw [write, getElem?_writeBytes, hlength, stored, Array.getElem?_mapIdx]
  by_cases hin : a ≤ i ∧ i < a + access.size
  · rw [if_pos hin, getD_take_toBytes hsize (by omega), byteAt_eq]
    simp [hin]
  · simp [hin]

end Memory

/-! ### Control and status registers -/

namespace Machine
variable (m : Machine) {number : Int}

theorem ofInt_csr_toNat (h : ImmKind.csr.Admits number) :
    ((BitVec.ofInt 32 number).toNat : Int) = number := by
  simp only [ImmKind.Admits, ImmKind.bounds] at h
  rw [BitVec.toNat_ofInt]
  omega

theorem ofInt_csr_eq_iff (h : ImmKind.csr.Admits number) (csr : Word) :
    BitVec.ofInt 32 number = csr ↔ number = csr.toNat := by
  rw [← BitVec.toNat_inj, ← ofInt_csr_toNat h]
  norm_cast
  rw [ofInt_csr_toNat h]

theorem readCsr_ofInt (h : ImmKind.csr.Admits number) :
    m.readCsr (BitVec.ofInt 32 number) = m.csrValue number := by
  have hlow : ∀ x : BitVec 64, x.extractLsb' 0 32 = BitVec.ofNat 32 x.toNat := fun x =>
    BitVec.eq_of_toNat_eq (by rw [BitVec.extractLsb'_toNat, BitVec.toNat_ofNat, Nat.shiftRight_zero])
  have hhigh : ∀ x : BitVec 64, x.extractLsb' 32 32 = BitVec.ofNat 32 (x.toNat / 2 ^ 32) := fun x =>
    BitVec.eq_of_toNat_eq (by
      rw [BitVec.extractLsb'_toNat, BitVec.toNat_ofNat, Nat.shiftRight_eq_div_pow])
  simp only [readCsr, csrValue, ofInt_csr_eq_iff h, hlow, hhigh]
  rfl

theorem readOnly_ofInt (h : ImmKind.csr.Admits number) :
    Csr.readOnlyFrom ≤ BitVec.ofInt 32 number ↔ 0xC00 ≤ number := by
  have hnat := ofInt_csr_toNat h
  rw [BitVec.le_def]
  show 0xC00 ≤ (BitVec.ofInt 32 number).toNat ↔ _
  omega

/-! ### Registers -/

theorem held_setWidth (r : BitVec 5) : m.held ⟨r.setWidth 32⟩ = m.reg r := by
  have hr : (r.setWidth 32).toNat = r.toNat := BitVec.toNat_setWidth_of_le (by decide)
  have hlt : r.toNat < m.regs.toArray.size := by rw [m.regs.size_toArray]; exact r.isLt
  rw [held, hr, Array.getD, dif_pos hlt]
  rfl

theorem setIfInBounds_setWidth (r : BitVec 5) (v : Word) :
    m.regs.setIfInBounds (r.setWidth 32).toNat v = (m.setReg r v).regs := by
  have hr : (r.setWidth 32).toNat = r.toNat := BitVec.toNat_setWidth_of_le (by decide)
  rw [hr]
  apply Vector.ext
  intro i hi
  rw [Vector.getElem_setIfInBounds]
  exact (Vector.getElem_set r.isLt hi).symm

end Machine

end RvConsole
