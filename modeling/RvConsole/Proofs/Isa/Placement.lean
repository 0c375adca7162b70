import RvConsole.Isa.Instruction
import RvConsole.Machine.Extract
import RvConsole.Proofs.Isa.Wiring

/-! Placing a value in its field and taking it out again.

`scatter` moves a value to the bits of its field; `gather` is how the machine finds it there again. The
two are inverse on what fits the field (`gather_bits`) and on what stands in the word (`bits_gather`),
and neither sees anything outside the field's mask. What fits is what is admitted: a value below the
field's width, or an immediate within its kind's bounds (`fits_imm_iff`). -/
namespace RvConsole.Field

/-- The value in a field of a word, as the machine takes it: with its sign where it has one. -/
def gather : Field → Word → Word
  | opcode, w => Extract.opcode w
  | funct3, w => (Extract.funct3 w).setWidth 32
  | funct7, w => (Extract.funct7 w).setWidth 32
  | fm, w => w >>> 28
  | pred, w => (w >>> 24) &&& 0xF
  | succ, w => (w >>> 20) &&& 0xF
  | rd, w => (Extract.rd w).setWidth 32
  | rs1, w => (Extract.rs1 w).setWidth 32
  | rs2, w => (Extract.rs2 w).setWidth 32
  | imm .u, w => Extract.immU w >>> 12
  | imm .j, w => Extract.immJ w
  | imm .i, w => Extract.immI w
  | imm .s, w => Extract.immS w
  | imm .b, w => Extract.immB w
  | imm .shift, w => (Extract.shamt w).setWidth 32
  | imm .csr, w => Extract.csr w
  | imm .uimm, w => (Extract.rs1 w).setWidth 32

/-- How many bits of a value count. -/
def width : Field → Nat
  | opcode | funct7 => 7
  | funct3 => 3
  | fm | pred | succ => 4
  | rd | rs1 | rs2 | imm .shift | imm .uimm => 5
  | imm .i | imm .s | imm .csr => 12
  | imm .b => 13
  | imm .u => 20
  | imm .j => 21

/-- Whether a field's values have a sign. -/
def signed : Field → Bool
  | imm .j | imm .i | imm .s | imm .b => true
  | _ => false

/-- The low `width` bits of a value, with their sign or without. -/
def extend (field : Field) (v : Word) : Word :=
  if field.signed then (v.setWidth field.width).signExtend 32 else (v.setWidth field.width).setWidth 32

/-- What is left of a value that went through the field: jump and branch offsets also lose bit zero. -/
def keep (field : Field) (v : Word) : Word :=
  match field with
  | imm .j | imm .b => field.extend v &&& ~~~1#32
  | _ => field.extend v

/-- A value that goes through the field unchanged. -/
def Fits (field : Field) (v : Word) : Prop := field.keep v = v

/-- A value at the bits of its field. -/
def bits (field : Field) (v : Word) : Word := (field.scatter v).truncate 32

/-! ### Wirings of fields -/

/-- All fields. -/
def all : List Field := [opcode, funct3, funct7, fm, pred, succ, rd, rs1, rs2, imm .u, imm .j, imm .i,
  imm .s, imm .b, imm .shift, imm .csr, imm .uimm]

theorem mem_all (field : Field) : field ∈ all := by
  cases field with
  | imm kind => cases kind <;> decide
  | _ => decide

theorem wiring_scatter (field : Field) : Wiring field.scatter := by
  cases field with
  | imm kind => cases kind <;> unfold scatter <;> fun_prop
  | _ => unfold scatter; fun_prop

theorem wiring_bits (field : Field) : Wiring field.bits := .setWidth (wiring_scatter field) 32

theorem wiring_gather (field : Field) : Wiring field.gather := by
  cases field with
  | imm kind =>
    cases kind <;> unfold gather <;>
      simp only [Extract.immU, Extract.immJ, Extract.immI, Extract.immS, Extract.immB, Extract.shamt,
        Extract.csr, Extract.rs1] <;>
      fun_prop
  | _ =>
    unfold gather
    simp only [Extract.opcode, Extract.funct3, Extract.funct7, Extract.rd, Extract.rs1, Extract.rs2]
    fun_prop

theorem wiring_extend (field : Field) : Wiring field.extend := by
  unfold extend
  cases field.signed
  · exact .setWidth (.setWidth .id _) _
  · exact .signExtend (.setWidth .id _) _

theorem wiring_keep (field : Field) : Wiring field.keep := by
  have h := wiring_extend field
  unfold keep
  split <;> fun_prop

/-- Wirings of every field are equal when they agree on single bits, field by field. -/
theorem ext_all {k : Nat} {F G : Field → Word → BitVec k} (hF : ∀ field, Wiring (F field))
    (hG : ∀ field, Wiring (G field))
    (h : ∀ field ∈ all, ∀ i : Fin 32, F field (BitVec.twoPow 32 i) = G field (BitVec.twoPow 32 i))
    (field : Field) (v : Word) : F field v = G field v :=
  Wiring.ext (hF field) (hG field) (h field (mem_all field)) v

/-! ### In and out -/

/-- Taking out looks at the field's own bits only. -/
theorem gather_mask (field : Field) (w : Word) : field.gather (w &&& field.mask) = field.gather w :=
  ext_all (F := fun field w => field.gather (w &&& field.mask)) (G := gather)
    (fun field => .comp (wiring_gather field) (.and .id field.mask)) wiring_gather
    (by decide +kernel) field w

/-- A value put in and taken out. -/
theorem gather_bits (field : Field) (v : Word) : field.gather (field.bits v) = field.keep v :=
  ext_all (F := fun field v => field.gather (field.bits v)) (G := keep)
    (fun field => .comp (wiring_gather field) (wiring_bits field)) wiring_keep
    (by decide +kernel) field v

/-- What stands in a field taken out and put back. -/
theorem bits_gather (field : Field) (w : Word) : field.bits (field.gather w) = w &&& field.mask :=
  ext_all (F := fun field w => field.bits (field.gather w)) (G := fun field w => w &&& field.mask)
    (fun field => .comp (wiring_bits field) (wiring_gather field)) (fun field => .and .id field.mask)
    (by decide +kernel) field w

/-- What fits stays inside the mask, also past the end of the word. -/
theorem scatter_keep (field : Field) (v : Word) :
    field.scatter (field.keep v) &&& ~~~field.mask.zeroExtend 64 = 0 :=
  ext_all (F := fun field v => field.scatter (field.keep v) &&& ~~~field.mask.zeroExtend 64)
    (G := fun _ _ => 0)
    (fun field => .and (.comp (wiring_scatter field) (wiring_keep field)) _)
    (fun _ => ⟨rfl, fun _ _ => rfl⟩) (by decide +kernel) field v

/-- What stands in a field fits it. -/
theorem gather_fits (field : Field) (w : Word) : field.Fits (field.gather w) := by
  unfold Fits
  rw [← gather_bits, bits_gather, gather_mask]

theorem gather_bits_of_fits {field : Field} {v : Word} (h : field.Fits v) :
    field.gather (field.bits v) = v := (gather_bits field v).trans h

/-- A value that fits has no bit outside the mask. -/
theorem bits_and_mask {field : Field} {v : Word} (h : field.Fits v) :
    field.bits v &&& field.mask = field.bits v := by
  rw [← bits_gather, gather_bits_of_fits h]

/-- A value that fits can be placed. -/
theorem place_of_fits {field : Field} {v : Word} (h : field.Fits v) :
    field.place v = .ok (field.bits v) := by
  have hmask := scatter_keep field v
  rw [show field.keep v = v from h] at hmask
  simp only [place, hmask, if_true]
  rfl

/-! ### What fits -/

theorem setWidth_setWidth_eq_iff {k : Nat} (hk : k ≤ 32) (v : Word) :
    (v.setWidth k).setWidth 32 = v ↔ v.toNat < 2 ^ k := by
  have hpow : 2 ^ k ≤ 2 ^ 32 := Nat.pow_le_pow_right (by decide) hk
  have hmod : v.toNat % 2 ^ k < 2 ^ k := Nat.mod_lt _ (Nat.two_pow_pos k)
  rw [← BitVec.toNat_inj, BitVec.toNat_setWidth, BitVec.toNat_setWidth,
    Nat.mod_eq_of_lt (lt_of_lt_of_le hmod hpow)]
  exact Nat.mod_eq_iff_lt (Nat.two_pow_pos k).ne'

theorem signExtend_setWidth_eq_iff {k : Nat} (hk : k < 32) (v : Word) :
    (v.setWidth (k + 1)).signExtend 32 = v ↔ -2 ^ k ≤ v.toInt ∧ v.toInt ≤ 2 ^ k - 1 := by
  have hdvd : 2 ^ (k + 1) ∣ 2 ^ 32 := Nat.pow_dvd_pow 2 hk
  have hcut : (v.setWidth (k + 1)).toInt = v.toInt.bmod (2 ^ (k + 1)) := by
    rw [BitVec.toInt_setWidth, BitVec.toInt_eq_toNat_bmod, Int.bmod_bmod_of_dvd hdvd]
  rw [← BitVec.toInt_inj, BitVec.toInt_signExtend_of_le hk]
  constructor
  · intro h
    rw [← h]
    exact ⟨BitVec.le_toInt _, Int.le_sub_one_of_lt BitVec.toInt_lt⟩
  · intro ⟨hlow, hhigh⟩
    rw [hcut]
    apply Int.bmod_eq_of_le_mul_two
    · push_cast; rw [pow_succ]; omega
    · push_cast; rw [pow_succ]; omega

/-- Bit zero is clear exactly in the even values. -/
theorem and_not_one_eq_iff (v : Word) : v &&& ~~~1#32 = v ↔ v.toInt % 2 = 0 := by
  have hbit : v &&& ~~~1#32 = v ↔ v.getLsbD 0 = false := by
    constructor
    · intro h
      rw [← h]
      simp
    · intro h
      apply BitVec.eq_of_getLsbD_eq
      intro i hi
      rw [BitVec.getLsbD_and, BitVec.getLsbD_not, BitVec.getLsbD_one]
      rcases i with _ | i
      · rw [h, Bool.false_and]
      · simp [hi]
  have hnat : v.getLsbD 0 = decide (v.toNat % 2 = 1) := by
    simp [BitVec.getLsbD, Nat.testBit_zero]
  rw [hbit, hnat, BitVec.toInt_eq_toNat_cond, decide_eq_false_iff_not]
  split <;> omega

theorem extend_and_not_one (field : Field) (v : Word) :
    field.extend (v &&& ~~~1#32) = field.extend v &&& ~~~1#32 :=
  ext_all (F := fun field v => field.extend (v &&& ~~~1#32))
    (G := fun field v => field.extend v &&& ~~~1#32)
    (fun field => .comp (wiring_extend field) (.and .id _)) (fun field => .and (wiring_extend field) _)
    (by decide +kernel) field v

/-- Fitting a field of even values is fitting its width and being even. -/
theorem extend_and_not_one_eq_iff (field : Field) (v : Word) :
    field.extend v &&& ~~~1#32 = v ↔ field.extend v = v ∧ v &&& ~~~1#32 = v := by
  constructor
  · intro h
    have heven : v &&& ~~~1#32 = v := by
      rw [← h, BitVec.and_assoc, BitVec.and_self]
    refine ⟨?_, heven⟩
    rw [← extend_and_not_one, heven] at h
    exact h
  · intro ⟨hextend, heven⟩
    rw [hextend, heven]

/-- An unsigned field holds what is below its width. -/
theorem fits_iff_lt {field : Field} (h : field.signed = false) (v : Word) :
    field.Fits v ↔ v.toNat < 2 ^ field.width := by
  have hkeep : field.keep v = (v.setWidth field.width).setWidth 32 := by
    cases field with
    | imm kind =>
      cases kind with
      | u | shift | csr | uimm => rfl
      | j | i | s | b => cases h
    | _ => rfl
  have hwidth : field.width ≤ 32 := by
    revert h
    exact (by decide : ∀ field ∈ all, field.signed = false → field.width ≤ 32) field (mem_all field)
  unfold Fits
  rw [hkeep, setWidth_setWidth_eq_iff hwidth]

theorem toNat_lt_iff {k : Nat} (hk : k < 32) (v : Word) :
    v.toNat < 2 ^ k ↔ 0 ≤ v.toInt ∧ v.toInt ≤ 2 ^ k - 1 := by
  have hpow : 2 ^ k ≤ 2 ^ 31 := Nat.pow_le_pow_right (by decide) (by omega)
  have hlt := v.isLt
  rw [BitVec.toInt_eq_toNat_cond]
  push_cast
  zify at hpow ⊢
  split <;> omega

/-- **An immediate field holds exactly the values its kind admits.** -/
theorem fits_imm_iff (kind : ImmKind) (v : Word) : (imm kind).Fits v ↔ kind.Admits v.toInt := by
  cases kind with
  | u | shift | csr | uimm =>
    rw [fits_iff_lt rfl, toNat_lt_iff (by decide)]
    simp [ImmKind.Admits, ImmKind.bounds, width]
  | i | s =>
    refine (signExtend_setWidth_eq_iff (k := 11) (by decide) v).trans ?_
    simp [ImmKind.Admits, ImmKind.bounds]
  | j =>
    have hextend : (imm .j).extend v = v ↔ _ := signExtend_setWidth_eq_iff (k := 20) (by decide) v
    show (imm .j).extend v &&& ~~~1#32 = v ↔ _
    rw [extend_and_not_one_eq_iff, and_not_one_eq_iff, hextend, and_assoc]
    simp [ImmKind.Admits, ImmKind.bounds]
  | b =>
    have hextend : (imm .b).extend v = v ↔ _ := signExtend_setWidth_eq_iff (k := 12) (by decide) v
    show (imm .b).extend v &&& ~~~1#32 = v ↔ _
    rw [extend_and_not_one_eq_iff, and_not_one_eq_iff, hextend, and_assoc]
    simp [ImmKind.Admits, ImmKind.bounds]

/-- Admitted values are small enough to come back from a word as they went in. -/
theorem toInt_wordOf {kind : ImmKind} {v : Int} (h : kind.Admits v) :
    (Instruction.wordOf v).toInt = v := by
  have hlow : -2 ^ 31 ≤ v ∧ v < 2 ^ 31 := by
    cases kind <;> simp only [ImmKind.Admits, ImmKind.bounds] at h <;> omega
  rw [Instruction.wordOf, BitVec.toInt_ofInt]
  exact Int.bmod_eq_of_le_mul_two (by push_cast; omega) (by push_cast; omega)

theorem fits_wordOf {kind : ImmKind} {v : Int} (h : kind.Admits v) :
    (imm kind).Fits (Instruction.wordOf v) := by
  rw [fits_imm_iff, toInt_wordOf h]
  exact h

end RvConsole.Field
