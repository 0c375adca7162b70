import RvConsole.Proofs.Isa.Placement

/-! The word of an instruction, field by field.

The fields of an instruction share no bit and leave none out, so its word holds every field as it was
placed (`gather_word`), and a word is put together again from its fields (`union_gather`). Operands that
are admissible always fit their fields: encoding them does not fail (`encode_eq_word`). -/
namespace RvConsole

namespace Field

/-- The bits of several fields together. -/
def union : List (Field × Word) → Word
  | [] => 0#32
  | (field, v) :: rest => field.bits v ||| union rest

/-- The bits that several fields occupy. -/
def cover : List Field → Word
  | [] => 0#32
  | field :: rest => field.mask ||| cover rest

/-- No two of the fields share a bit. -/
def Apart (fields : List Field) : Prop := fields.Pairwise fun a b => a.mask &&& b.mask = 0#32

instance (field : Field) (v : Word) : Decidable (field.Fits v) := inferInstanceAs (Decidable (_ = _))

instance (fields : List Field) : Decidable (Apart fields) :=
  inferInstanceAs (Decidable (List.Pairwise _ _))

/-- A value that fits one field has no bit in another that is apart from it. -/
theorem bits_and_apart {a b : Field} (h : a.mask &&& b.mask = 0#32) {v : Word} (hv : a.Fits v) :
    a.bits v &&& b.mask = 0#32 := by
  rw [← bits_and_mask hv, BitVec.and_assoc, h, BitVec.and_zero]

theorem union_and_apart {fields : List (Field × Word)} {field : Field}
    (hfit : ∀ p ∈ fields, p.1.Fits p.2) (happart : ∀ p ∈ fields, p.1.mask &&& field.mask = 0#32) :
    union fields &&& field.mask = 0#32 := by
  induction fields with
  | nil => exact BitVec.zero_and
  | cons p rest ih =>
    obtain ⟨hp, hrest⟩ := List.forall_mem_cons.mp hfit
    obtain ⟨hpa, hresta⟩ := List.forall_mem_cons.mp happart
    rw [union, BitVec.and_or_distrib_right, bits_and_apart hpa hp, ih hrest hresta, BitVec.or_zero]

/-- Fields that are apart keep their values in the union. -/
theorem union_and_mask {fields : List (Field × Word)} (hfit : ∀ p ∈ fields, p.1.Fits p.2)
    (happart : Apart (fields.map Prod.fst)) {field : Field} {v : Word} (hmem : (field, v) ∈ fields) :
    union fields &&& field.mask = field.bits v := by
  induction fields with
  | nil => cases hmem
  | cons p rest ih =>
    obtain ⟨hp, hrest⟩ := List.forall_mem_cons.mp hfit
    obtain ⟨hhead, htail⟩ := List.pairwise_cons.mp happart
    rw [union, BitVec.and_or_distrib_right]
    rcases List.mem_cons.mp hmem with rfl | hmem
    · have hzero : union rest &&& field.mask = 0#32 := by
        apply union_and_apart hrest
        intro q hq
        rw [BitVec.and_comm]
        exact hhead q.1 (List.mem_map_of_mem hq)
      rw [hzero, bits_and_mask hp, BitVec.or_zero]
    · have hzero := bits_and_apart (hhead field (List.mem_map_of_mem hmem)) hp
      rw [hzero, ih hrest htail hmem, BitVec.zero_or]

theorem gather_union {fields : List (Field × Word)} (hfit : ∀ p ∈ fields, p.1.Fits p.2)
    (happart : Apart (fields.map Prod.fst)) {field : Field} {v : Word} (hmem : (field, v) ∈ fields) :
    field.gather (union fields) = v := by
  rw [← gather_mask, union_and_mask hfit happart hmem]
  exact gather_bits_of_fits (hfit _ hmem)

/-- What a word holds in some fields, put together: the word, as far as the fields reach. -/
theorem union_gather (fields : List (Field × Word)) (w : Word)
    (h : ∀ p ∈ fields, p.2 = p.1.gather w) : union fields = w &&& cover (fields.map Prod.fst) := by
  induction fields with
  | nil => exact BitVec.and_zero.symm
  | cons p rest ih =>
    obtain ⟨hp, hrest⟩ := List.forall_mem_cons.mp h
    rw [union, ih hrest, hp, bits_gather]
    exact BitVec.and_or_distrib_left.symm

theorem fits_register {field : Field} (hsigned : field.signed = false) (hwidth : field.width = 5)
    {r : Register} (h : Operands.IsRegister r) : field.Fits r.index := by
  rw [fits_iff_lt hsigned, hwidth]
  exact h

end Field

/-- The fields of an instruction whose operands have a shape. -/
def Shape.fields : Shape → List Field
  | u => [.opcode, .rd, .imm .u]
  | j => [.opcode, .rd, .imm .j]
  | i | load | system => [.opcode, .rd, .funct3, .rs1, .imm .i]
  | s => [.opcode, .funct3, .rs1, .rs2, .imm .s]
  | b => [.opcode, .funct3, .rs1, .rs2, .imm .b]
  | r => [.opcode, .rd, .funct3, .rs1, .rs2, .funct7]
  | shift => [.opcode, .rd, .funct3, .rs1, .imm .shift, .funct7]
  | fence => [.opcode, .rd, .funct3, .rs1, .succ, .pred, .fm]
  | csr => [.opcode, .rd, .funct3, .rs1, .imm .csr]
  | csri => [.opcode, .rd, .funct3, .imm .uimm, .imm .csr]

theorem Shape.fields_apart (shape : Shape) : Field.Apart shape.fields := by cases shape <;> decide

theorem Shape.fields_cover (shape : Shape) : Field.cover shape.fields = BitVec.allOnes 32 := by
  cases shape <;> decide

namespace Op

theorem mem_all (op : Op) : op ∈ all := by cases op <;> decide

/-- What is so row by row of the table is so for every operation. -/
instance : Fintype Op := ⟨⟨all, by decide⟩, mem_all⟩

theorem fits_opcode : ∀ op : Op, Field.opcode.Fits op.info.opcode := by decide

theorem fits_funct3 : ∀ op : Op, Field.funct3.Fits op.info.funct3 := by decide

theorem fits_funct7 : ∀ op : Op, Field.funct7.Fits op.info.funct7 := by decide

end Op

namespace Instruction

/-! ### The word -/

/-- Which fields an instruction has is up to the shape of its operands. -/
theorem fields_fst (inst : Instruction) :
    inst.fields.map Prod.fst = inst.operands.shape.fields := by
  rcases inst with ⟨op, operands⟩
  cases operands <;> rfl

/-- Every field of an instruction with admissible operands can be placed. -/
theorem fields_fit {inst : Instruction} (h : inst.operands.Valid) :
    ∀ p ∈ inst.fields, p.1.Fits p.2 := by
  rcases inst with ⟨op, operands⟩
  have hopcode := op.fits_opcode
  have hfunct3 := op.fits_funct3
  have hfunct7 := op.fits_funct7
  have hzero : ∀ field : Field, field.Fits 0 := fun field => (Field.wiring_keep field).zero
  cases operands <;>
    simp only [Operands.Valid] at h <;>
    simp only [fields, List.forall_mem_cons, List.not_mem_nil, IsEmpty.forall_iff, implies_true,
      and_true, hopcode, hfunct3, hfunct7, hzero, true_and]
  case u rd imm | j rd imm => exact ⟨Field.fits_register rfl rfl h.1, Field.fits_wordOf h.2⟩
  case i rd rs1 imm | load rd rs1 imm | s rs1 rs2 imm | b rs1 rs2 imm | shift rd rs1 imm =>
    exact ⟨Field.fits_register rfl rfl h.1, Field.fits_register rfl rfl h.2.1,
      Field.fits_wordOf h.2.2⟩
  case r rd rs1 rs2 =>
    exact ⟨Field.fits_register rfl rfl h.1, Field.fits_register rfl rfl h.2.1,
      Field.fits_register rfl rfl h.2.2⟩
  case fence pred succ fm =>
    obtain ⟨hpred, hsucc, rfl⟩ := h
    exact ⟨(Field.fits_iff_lt rfl _).mpr hsucc, (Field.fits_iff_lt rfl _).mpr hpred, hzero _⟩
  case csr rd number rs1 =>
    exact ⟨Field.fits_register rfl rfl h.1, Field.fits_register rfl rfl h.2.2,
      Field.fits_wordOf h.2.1⟩
  case csri rd number uimm =>
    exact ⟨Field.fits_register rfl rfl h.1, Field.fits_wordOf h.2.2, Field.fits_wordOf h.2.1⟩
  case system imm => exact Field.fits_wordOf h

theorem word_eq_union (inst : Instruction) : inst.word = Field.union inst.fields := by
  suffices ∀ (fields : List (Field × Word)) (w : Word),
      fields.foldl (fun word field => word ||| (field.1.scatter field.2).truncate 32) w =
        w ||| Field.union fields by
    rw [word, this]
    exact BitVec.zero_or
  intro fields
  induction fields with
  | nil => intro w; exact BitVec.or_zero.symm
  | cons p rest ih =>
    intro w
    rw [List.foldl_cons, ih, BitVec.or_assoc]
    rfl

theorem placeAll_of_fits (fields : List (Field × Word)) (hfit : ∀ p ∈ fields, p.1.Fits p.2)
    (w : Word) : placeAll fields w = .ok (w ||| Field.union fields) := by
  induction fields generalizing w with
  | nil => rw [placeAll, Field.union]; exact congrArg Except.ok BitVec.or_zero.symm
  | cons p rest ih =>
    obtain ⟨hp, hrest⟩ := List.forall_mem_cons.mp hfit
    show (p.1.place p.2 >>= fun bits => placeAll rest (w ||| bits)) = _
    rw [Field.place_of_fits hp]
    show placeAll rest (w ||| p.1.bits p.2) = _
    rw [ih hrest, Field.union, BitVec.or_assoc]

/-- Encoding an instruction with admissible operands succeeds. -/
theorem encode_eq_word {inst : Instruction} (h : inst.operands.Valid) :
    inst.encode = .ok inst.word := by
  rw [encode, placeAll_of_fits _ (fields_fit h), word_eq_union]
  exact congrArg Except.ok BitVec.zero_or

/-- **Every field of the word holds what was placed in it.** -/
theorem gather_word {inst : Instruction} (h : inst.operands.Valid) {field : Field} {v : Word}
    (hmem : (field, v) ∈ inst.fields) : field.gather inst.word = v := by
  rw [word_eq_union]
  exact Field.gather_union (fields_fit h) (by rw [fields_fst]; exact Shape.fields_apart _) hmem

end Instruction

end RvConsole
