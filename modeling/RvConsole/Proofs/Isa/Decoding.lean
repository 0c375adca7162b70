import RvConsole.Proofs.Isa.Encoding

/-! From a word back to its instruction.

A word is of an operation when it holds the operation's constants (`Op.Matches`); its operands are then
what its other fields hold (`Operands.ofWord`). Every well-formed instruction is found again in its word
(`instruction_word`). The other way round, a word of any operation but the fences is the word of the
well-formed instruction it decodes to (`word_instruction`): nothing of the word is left over. No word is
of two operations, so there is one decoder (`decode?`). -/
namespace RvConsole

/-- The operations whose operands have a shape. -/
def Op.ofShape (shape : Shape) : List Op := all.filter (·.info.shape = shape)

theorem Op.mem_ofShape {op : Op} {shape : Shape} (h : op.info.shape = shape) : op ∈ ofShape shape := by
  simp [ofShape, mem_all, h]

/-- The fields an operation is known by, with its values for them. No more is looked at of the fences,
whose other fields the machine does not need; `ecall` and `ebreak` are one word each. -/
def Op.fixed (op : Op) : List (Field × Word) :=
  let info := op.info
  (.opcode, info.opcode) :: match info.shape with
    | .u | .j => []
    | .r | .shift => [(.funct3, info.funct3), (.funct7, info.funct7)]
    | .system =>
      if op = .fenceI then [(.funct3, info.funct3)]
      else [(.rd, 0), (.funct3, info.funct3), (.rs1, 0), (.imm .i, Instruction.wordOf info.imm)]
    | _ => [(.funct3, info.funct3)]

/-- Whether a word is of an operation. -/
def Op.Matches (op : Op) (w : Word) : Prop := ∀ p ∈ op.fixed, p.1.gather w = p.2

instance (op : Op) (w : Word) : Decidable (op.Matches w) :=
  inferInstanceAs (Decidable (∀ p ∈ op.fixed, _))

/-- The register whose number stands in a field. -/
def Register.ofWord (field : Field) (w : Word) : Register := ⟨field.gather w⟩

/-- The immediate of a kind that a word holds. -/
def ImmKind.ofWord (kind : ImmKind) (w : Word) : Int := ((Field.imm kind).gather w).toInt

/-- The operands in a word of an operation. -/
def Operands.ofWord (op : Op) (w : Word) : Operands :=
  let rd := Register.ofWord .rd w
  let rs1 := Register.ofWord .rs1 w
  let rs2 := Register.ofWord .rs2 w
  match op.info.shape with
  | .u => .u rd (ImmKind.u.ofWord w)
  | .j => .j rd (ImmKind.j.ofWord w)
  | .i => .i rd rs1 (ImmKind.i.ofWord w)
  | .load => .load rd rs1 (ImmKind.i.ofWord w)
  | .s => .s rs1 rs2 (ImmKind.s.ofWord w)
  | .b => .b rs1 rs2 (ImmKind.b.ofWord w)
  | .r => .r rd rs1 rs2
  | .shift => .shift rd rs1 (ImmKind.shift.ofWord w)
  | .fence => .fence (Field.pred.gather w) (Field.succ.gather w) (Field.fm.gather w)
  | .csr => .csr rd (ImmKind.csr.ofWord w) rs1
  | .csri => .csri rd (ImmKind.csr.ofWord w) (ImmKind.uimm.ofWord w)
  | .system => .system op.info.imm

/-- The instruction that a word of an operation is. -/
def Op.instruction (op : Op) (w : Word) : Instruction := ⟨op, Operands.ofWord op w⟩

theorem Operands.shape_ofWord (op : Op) (w : Word) : (Operands.ofWord op w).shape = op.info.shape := by
  unfold Operands.ofWord
  cases op.info.shape <;> rfl

theorem Register.isRegister_ofWord (field : Field) (hsigned : field.signed = false)
    (hwidth : field.width = 5) (w : Word) : Operands.IsRegister (Register.ofWord field w) := by
  have h := (Field.fits_iff_lt hsigned _).mp (field.gather_fits w)
  rw [hwidth] at h
  exact h

theorem ImmKind.admits_ofWord (kind : ImmKind) (w : Word) : kind.Admits (kind.ofWord w) :=
  (Field.fits_imm_iff kind _).mp (Field.gather_fits (.imm kind) w)

@[simp]
theorem ImmKind.wordOf_ofWord (kind : ImmKind) (w : Word) :
    Instruction.wordOf (kind.ofWord w) = (Field.imm kind).gather w := BitVec.ofInt_toInt

/-! ### The constants of an operation -/

namespace Op.Matches
variable {op : Op} {w : Word}

theorem opcode (h : op.Matches w) : Extract.opcode w = op.info.opcode := h _ List.mem_cons_self

theorem gather_funct3 (h : op.Matches w) (hs : op.info.shape ≠ .u ∧ op.info.shape ≠ .j) :
    Field.funct3.gather w = op.info.funct3 := by
  refine h (.funct3, op.info.funct3) (List.mem_cons_of_mem _ ?_)
  obtain ⟨hu, hj⟩ := hs
  cases hs : op.info.shape with
  | u => exact absurd hs hu
  | j => exact absurd hs hj
  | system => dsimp only; split <;> simp
  | _ => simp

theorem gather_funct7 (h : op.Matches w) (hs : op.info.shape = .r ∨ op.info.shape = .shift) :
    Field.funct7.gather w = op.info.funct7 := by
  refine h (.funct7, op.info.funct7) (List.mem_cons_of_mem _ ?_)
  rcases hs with hs | hs <;> simp [hs]

theorem funct3 (h : op.Matches w) (hs : op.info.shape ≠ .u ∧ op.info.shape ≠ .j) :
    Extract.funct3 w = op.info.funct3.setWidth 3 := by
  rw [← h.gather_funct3 hs]
  simp [Field.gather]

theorem funct7 (h : op.Matches w) (hs : op.info.shape = .r ∨ op.info.shape = .shift) :
    Extract.funct7 w = op.info.funct7.setWidth 7 := by
  rw [← h.gather_funct7 hs]
  simp [Field.gather]

/-- A word of `ecall` or `ebreak` has nothing but the operation's constants. -/
theorem system (h : op.Matches w) (hs : op.info.shape = .system) (hop : op ≠ .fenceI) :
    Field.rd.gather w = 0 ∧ Field.rs1.gather w = 0 ∧
      (Field.imm .i).gather w = Instruction.wordOf op.info.imm := by
  refine ⟨h (.rd, 0) ?_, h (.rs1, 0) ?_, h (.imm .i, Instruction.wordOf op.info.imm) ?_⟩ <;>
    simp [fixed, hs, hop]

end Op.Matches

/-- The words of `ecall` and `ebreak`. -/
theorem Op.matches_of_system {op : Op} {w : Word} (hs : op.info.shape = .system) (hop : op ≠ .fenceI)
    (hopcode : Field.opcode.gather w = op.info.opcode) (hrd : Field.rd.gather w = 0)
    (hfunct3 : Field.funct3.gather w = op.info.funct3) (hrs1 : Field.rs1.gather w = 0)
    (himm : (Field.imm .i).gather w = Instruction.wordOf op.info.imm) : op.Matches w := by
  simp only [Matches, fixed, hs, hop, if_false, List.forall_mem_cons, List.not_mem_nil, false_imp_iff,
    implies_true, and_true]
  exact ⟨hopcode, hrd, hfunct3, hrs1, himm⟩

/-! ### There and back -/

namespace Op

/-- The fences are the operations of their major opcode. -/
theorem ne_fence_of_opcode {op : Op} (h : op.info.opcode ≠ Opcode.miscMem) :
    op.info.shape ≠ .fence ∧ op ≠ .fenceI := by
  revert op
  decide

theorem admits_imm : ∀ op : Op, ImmKind.i.Admits op.info.imm := by decide

variable {op : Op} {w : Word}

/-- A word of any operation but the fences decodes to a well-formed instruction. -/
theorem wellFormed_instruction (hmisc : op.info.opcode ≠ Opcode.miscMem) :
    (op.instruction w).WellFormed := by
  have hrd := Register.isRegister_ofWord .rd rfl rfl w
  have hrs1 := Register.isRegister_ofWord .rs1 rfl rfl w
  have hrs2 := Register.isRegister_ofWord .rs2 rfl rfl w
  have himm := fun kind => ImmKind.admits_ofWord kind w
  refine ⟨Operands.shape_ofWord op w, ?_, ?_⟩
  · show (Operands.ofWord op w).Valid
    unfold Operands.ofWord
    cases hs : op.info.shape with
    | fence => exact absurd hs (ne_fence_of_opcode hmisc).1
    | system => exact op.admits_imm
    | u | j => exact ⟨hrd, himm _⟩
    | i | load | shift => exact ⟨hrd, hrs1, himm _⟩
    | s | b => exact ⟨hrs1, hrs2, himm _⟩
    | r => exact ⟨hrd, hrs1, hrs2⟩
    | csr => exact ⟨hrd, himm _, hrs1⟩
    | csri => exact ⟨hrd, himm _, himm _⟩
  · intro imm himm
    have hshape := Operands.shape_ofWord op w
    simp only [instruction] at himm
    rw [himm] at hshape
    simp only [Operands.ofWord, ← hshape, Operands.shape, Operands.system.injEq] at himm
    exact himm.symm

/-- Every field of the instruction is what the word holds there. -/
theorem fields_instruction (h : op.Matches w) (hmisc : op.info.opcode ≠ Opcode.miscMem) :
    ∀ p ∈ (op.instruction w).fields, p.2 = p.1.gather w := by
  have hopcode : op.info.opcode = Field.opcode.gather w := h.opcode.symm
  cases hs : op.info.shape with
  | fence => exact absurd hs (ne_fence_of_opcode hmisc).1
  | u | j =>
    simp [instruction, Operands.ofWord, hs, Instruction.fields, hopcode, Register.ofWord]
  | r | shift =>
    have hfunct3 := h.gather_funct3 (by simp [hs])
    have hfunct7 := h.gather_funct7 (by simp [hs])
    simp [instruction, Operands.ofWord, hs, Instruction.fields, hopcode, hfunct3, hfunct7,
      Register.ofWord]
  | system =>
    have hfunct3 := h.gather_funct3 (by simp [hs])
    obtain ⟨hrd, hrs1, himm⟩ := h.system hs (ne_fence_of_opcode hmisc).2
    simp [instruction, Operands.ofWord, hs, Instruction.fields, hopcode, hfunct3, hrd, hrs1, himm]
  | _ =>
    have hfunct3 := h.gather_funct3 (by simp [hs])
    simp [instruction, Operands.ofWord, hs, Instruction.fields, hopcode, hfunct3, Register.ofWord]

/-- **A word of any operation but the fences is its instruction's word.** -/
theorem word_instruction (h : op.Matches w) (hmisc : op.info.opcode ≠ Opcode.miscMem) :
    (op.instruction w).word = w := by
  rw [Instruction.word_eq_union, Field.union_gather _ w (fields_instruction h hmisc),
    Instruction.fields_fst, Shape.fields_cover, BitVec.and_allOnes]

end Op

namespace Instruction

/-- The operation's constants stand in the word of its instructions. -/
theorem matches_word {inst : Instruction} (h : inst.WellFormed) : inst.op.Matches inst.word := by
  obtain ⟨hshape, hvalid, himm⟩ := h
  intro p hp
  apply gather_word hvalid
  rcases inst with ⟨op, operands⟩
  cases operands with
  | system imm =>
    simp only [Op.fixed, ← hshape, Operands.shape] at hp
    simp only [fields, himm imm rfl, List.mem_cons, List.not_mem_nil, or_false]
    split at hp <;> simp only [List.mem_cons, List.not_mem_nil, or_false] at hp <;> tauto
  | _ =>
    simp only [Op.fixed, ← hshape, Operands.shape] at hp
    simp only [fields, List.mem_cons, List.not_mem_nil, or_false] at hp ⊢
    tauto

/-- **A well-formed instruction is found again in its word.** -/
theorem instruction_word {inst : Instruction} (h : inst.WellFormed) :
    inst.op.instruction inst.word = inst := by
  obtain ⟨hshape, hvalid, himm⟩ := h
  have hgather : ∀ p ∈ inst.fields, p.1.gather inst.word = p.2 := fun p hp => gather_word hvalid hp
  rcases inst with ⟨op, operands⟩
  simp only [Op.instruction, Operands.ofWord, ← hshape, Operands.shape, Register.ofWord,
    ImmKind.ofWord, mk.injEq, true_and]
  cases operands with
  | system imm => rw [himm imm rfl]
  | r rd rs1 rs2 | fence pred succ fm =>
    simp only [fields, List.forall_mem_cons] at hgather
    simp [hgather]
  | u rd imm | j rd imm =>
    simp only [fields, List.forall_mem_cons] at hgather
    simp [hgather, Field.toInt_wordOf hvalid.2]
  | i rd rs1 imm | load rd rs1 imm | s rs1 rs2 imm | b rs1 rs2 imm | shift rd rs1 imm =>
    simp only [fields, List.forall_mem_cons] at hgather
    simp [hgather, Field.toInt_wordOf hvalid.2.2]
  | csr rd number rs1 =>
    simp only [fields, List.forall_mem_cons] at hgather
    simp [hgather, Field.toInt_wordOf hvalid.2.1]
  | csri rd number uimm =>
    simp only [fields, List.forall_mem_cons] at hgather
    simp [hgather, Field.toInt_wordOf hvalid.2.1, Field.toInt_wordOf hvalid.2.2]

end Instruction

/-! ### The decoder -/

namespace Op

/-- Different operations differ in a field that both are known by. -/
theorem eq_of_fixed : ∀ op op' : Op,
    (∀ p ∈ op.fixed, ∀ q ∈ op'.fixed, p.1 = q.1 → p.2 = q.2) → op = op' := by
  decide +kernel

/-- A word is of one operation at most. -/
theorem Matches.unique {op op' : Op} {w : Word} (h : op.Matches w) (h' : op'.Matches w) : op = op' := by
  apply eq_of_fixed
  intro p hp q hq hfield
  rw [← h p hp, ← h' q hq, hfield]

end Op

namespace Instruction
variable {inst : Instruction} {w : Word}

/-- The instruction that a word is, if it is one. -/
def decode? (w : Word) : Option Instruction :=
  (Op.all.find? fun op => op.Matches w).map fun op => op.instruction w

theorem decode?_eq_some_iff :
    decode? w = some inst ↔ inst.op.Matches w ∧ inst.op.instruction w = inst := by
  constructor
  · intro h
    obtain ⟨op, hfind, rfl⟩ := Option.map_eq_some_iff.mp h
    have hop : op.Matches w := by simpa using List.find?_some hfind
    exact ⟨hop, rfl⟩
  · rintro ⟨hop, hinst⟩
    cases hfind : Op.all.find? fun op => op.Matches w with
    | none =>
      have hnone := List.find?_eq_none.mp hfind inst.op inst.op.mem_all
      exact absurd (decide_eq_true hop) hnone
    | some op =>
      have hop' : op.Matches w := by simpa using List.find?_some hfind
      obtain rfl := hop.unique hop'
      rw [decode?, hfind, Option.map_some, hinst]

theorem decode?_eq_none_iff : decode? w = none ↔ ∀ op : Op, ¬ op.Matches w := by
  rw [decode?, Option.map_eq_none_iff, List.find?_eq_none]
  simp [Op.mem_all]

theorem decode?_word (h : inst.WellFormed) : decode? inst.word = some inst :=
  decode?_eq_some_iff.mpr ⟨matches_word h, instruction_word h⟩

/-- What a word outside of the fences decodes to is well formed, and the word is its own. -/
theorem wellFormed_of_decode? (h : decode? w = some inst) (hmisc : Extract.opcode w ≠ Opcode.miscMem) :
    inst.WellFormed ∧ inst.word = w := by
  obtain ⟨hop, hinst⟩ := decode?_eq_some_iff.mp h
  have hopcode : inst.op.info.opcode ≠ Opcode.miscMem := hop.opcode ▸ hmisc
  rw [← hinst]
  exact ⟨Op.wellFormed_instruction hopcode, Op.word_instruction hop hopcode⟩

end Instruction

end RvConsole
