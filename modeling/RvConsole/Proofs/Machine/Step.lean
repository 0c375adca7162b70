import RvConsole.Proofs.Machine.Dispatch
import RvConsole.Proofs.Machine.Values

/-! A word does what its instruction says.

`perform` is what an instruction does to a machine by its operands: it is refused, or it has its effect.
The machine, which only sees the word, does the same (`step_eq`). The proof goes by the shape of the
operands; within a shape the operations differ in a value, a condition or an access only, and one lemma
for each of these says that the machine picks the operation's own. -/
namespace RvConsole

/-- Why a machine refuses an instruction, if it does. -/
def Instruction.refusal? (inst : Instruction) (x : Register → Word) (m : Machine) : Option Cause :=
  match inst.access? x, inst.written? with
  | some (a, access), _ =>
    if a.toNat + access.size ≤ m.memory.size then none else some (.address a access.size)
  | none, some number => if number < 0xC00 then none else some .readOnlyCsr
  | none, none => none

namespace Instruction
variable {inst : Instruction} {x : Register → Word} {m : Machine}

theorem written?_of_access? {p : Word × Access} (h : inst.access? x = some p) : inst.written? = none := by
  rcases inst with ⟨op, operands⟩
  cases operands with
  | load | s => rfl
  | _ => cases h

/-- What is not refused is allowed. -/
theorem refusal?_eq_none_iff : inst.refusal? x m = none ↔ inst.Allowed x m := by
  cases haccess : inst.access? x with
  | some p =>
    obtain ⟨a, access⟩ := p
    simp [refusal?, Allowed, haccess, written?_of_access? haccess]
  | none =>
    cases hwritten : inst.written? <;> simp [refusal?, Allowed, haccess, hwritten]

end Instruction

namespace Machine

/-- The machine after an effect, the counters apart. Register zero is set like any other. -/
def moved (m : Machine) (e : Effect) : Machine :=
  { m with
    regs := match e.register with
      | some (r, v) => m.regs.setIfInBounds r.index.toNat v
      | none => m.regs
    pc := e.next
    memory := match e.store with
      | some (a, access, v) => m.memory.stored a.toNat access.size v
      | none => m.memory
    csrs := match e.csr with
      | some (number, v) => fun n => if n = BitVec.ofInt 32 number then v else m.csrs n
      | none => m.csrs }

/-- What an instruction does to a machine, the counters apart. -/
def perform (m : Machine) (inst : Instruction) : Except Cause Machine :=
  match inst.refusal? m.held m with
  | some cause => .error cause
  | none => .ok (m.moved (inst.effect m.held m))

variable {m : Machine} {op : Op} {w : Word}

/-! ### Operands of a word -/

theorem held_ofWord_rs1 : m.held (Register.ofWord .rs1 w) = m.reg (Extract.rs1 w) := m.held_setWidth _

theorem held_ofWord_rs2 : m.held (Register.ofWord .rs2 w) = m.reg (Extract.rs2 w) := m.held_setWidth _

theorem setWidth_eq_zero_iff (r : BitVec 5) : r.setWidth 32 = 0#32 ↔ r = 0 := by
  revert r
  decide

theorem ofWord_rs1_eq_zero_iff : Register.ofWord .rs1 w = .zero ↔ Extract.rs1 w = 0 := by
  rw [← setWidth_eq_zero_iff, Register.ofWord, Register.zero, Register.mk.injEq]
  rfl

theorem ofWord_uimm_eq_zero_iff : ImmKind.uimm.ofWord w = 0 ↔ Extract.rs1 w = 0 := by
  rw [← setWidth_eq_zero_iff]
  exact BitVec.toInt_inj (y := 0#32)

theorem moved_rd (next v : Word) :
    m.moved { next, register := some (Register.ofWord .rd w, v) } =
      { m.setReg (Extract.rd w) v with pc := next } := by
  have hregs := m.setIfInBounds_setWidth (Extract.rd w) v
  simp only [moved, Register.ofWord, Field.gather, hregs, setReg]

theorem ofInt_upper (w : Word) : BitVec.ofInt 32 (ImmKind.u.ofWord w * 2 ^ 12) = Extract.immU w := by
  have hwiring : Extract.immU w >>> 12 <<< 12 = Extract.immU w := by
    refine Wiring.ext (.shiftLeft (.ushiftRight ?_ 12) 12) ?_ (by decide +kernel) w <;>
      exact .and .id _
  rw [BitVec.ofInt_mul]
  show Instruction.wordOf (ImmKind.u.ofWord w) * BitVec.ofInt 32 (2 ^ 12) = _
  rw [ImmKind.wordOf_ofWord, ← hwiring, BitVec.shiftLeft_eq_mul_twoPow]
  rfl

theorem ofInt_ofWord (kind : ImmKind) (w : Word) :
    BitVec.ofInt 32 (kind.ofWord w) = (Field.imm kind).gather w := BitVec.ofInt_toInt

/-- An instruction that neither goes to memory nor writes a CSR is not refused. -/
theorem perform_free {inst : Instruction} (ha : inst.access? m.held = none) (hw : inst.written? = none) :
    m.perform inst = .ok (m.moved (inst.effect m.held m)) := by
  simp only [perform, Instruction.refusal?, ha, hw]

theorem perform_access {inst : Instruction} {a : Word} {access : Access}
    (ha : inst.access? m.held = some (a, access)) :
    m.perform inst =
      if a.toNat + access.size ≤ m.memory.size then .ok (m.moved (inst.effect m.held m))
      else .error (.address a access.size) := by
  simp only [perform, Instruction.refusal?, ha]
  split_ifs <;> rfl

theorem perform_written {inst : Instruction} {number : Int} (ha : inst.access? m.held = none)
    (hw : inst.written? = some number) :
    m.perform inst =
      if number < 0xC00 then .ok (m.moved (inst.effect m.held m)) else .error .readOnlyCsr := by
  simp only [perform, Instruction.refusal?, ha, hw]
  split_ifs <;> rfl

/-! ### Words of an operation -/

theorem step_of_u (h : op.Matches w) (hs : op.info.shape = .u) :
    m.step w = m.perform (op.instruction w) := by
  have hop : op ∈ [Op.lui, .auipc] := Op.mem_ofShape hs
  fin_cases hop
  · rw [step_lui h.opcode, perform_free rfl rfl, ← ofInt_upper, ← moved_rd]
    rfl
  · rw [step_auipc h.opcode, perform_free rfl rfl, ← ofInt_upper, ← moved_rd]
    rfl

theorem step_of_j (h : op.Matches w) (hs : op.info.shape = .j) :
    m.step w = m.perform (op.instruction w) := by
  have hop : op ∈ [Op.jal] := Op.mem_ofShape hs
  obtain rfl := List.mem_singleton.mp hop
  have himm : BitVec.ofInt 32 (ImmKind.j.ofWord w) = Extract.immJ w := ofInt_ofWord .j w
  rw [step_jal h.opcode, perform_free rfl rfl, ← himm, ← moved_rd]
  rfl

theorem taken_eq_condition (h : op.Matches w) (hs : op.info.shape = .b) (a b : Word) :
    taken? (Extract.funct3 w) a b = some (op.condition a b) := by
  have hop : op ∈ [Op.beq, .bne, .blt, .bge, .bltu, .bgeu] := Op.mem_ofShape hs
  rw [h.funct3 (by simp [hs])]
  fin_cases hop
  · exact congrArg some (beq_eq_decide a b)
  · simp [taken?, Op.info, Op.condition, bne, beq_eq_decide]
  · rfl
  · simp [taken?, Op.info, Op.condition, BitVec.slt_eq_decide, ← decide_not]
  · rfl
  · simp [taken?, Op.info, Op.condition, BitVec.ult_eq_decide, ← decide_not]

theorem step_of_b (h : op.Matches w) (hs : op.info.shape = .b) :
    m.step w = m.perform (op.instruction w) := by
  have hinst : op.instruction w =
      ⟨op, .b (.ofWord .rs1 w) (.ofWord .rs2 w) (ImmKind.b.ofWord w)⟩ := by
    simp [Op.instruction, Operands.ofWord, hs]
  have hopcode : op.info.opcode = Opcode.branch :=
    (by decide : ∀ op : Op, op.info.shape = .b → op.info.opcode = Opcode.branch) op hs
  have himm : BitVec.ofInt 32 (ImmKind.b.ofWord w) = Extract.immB w := ofInt_ofWord .b w
  rw [step_branch (h.opcode.trans hopcode), taken_eq_condition h hs, hinst, perform_free rfl rfl]
  simp only [Instruction.effect, held_ofWord_rs1, held_ofWord_rs2, himm]
  cases op.condition (m.reg (Extract.rs1 w)) (m.reg (Extract.rs2 w)) <;> rfl

theorem alu_eq_compute (h : op.Matches w) (hs : op.info.shape = .r) (a b : Word) :
    alu? w a b = some (op.compute a b) := by
  have hop : op ∈ [Op.add, .sub, .sll, .slt, .sltu, .xor, .srl, .sra, .or, .and] := Op.mem_ofShape hs
  have h3 := h.funct3 (by simp [hs])
  have h7 := h.funct7 (by simp [hs])
  simp only [alu?, h3, h7]
  fin_cases hop
  · rfl
  · rfl
  · simp [Op.info, Op.compute, ← and_31]
  · simp [Op.info, Op.compute, bool, BitVec.slt_eq_decide]
  · simp [Op.info, Op.compute, bool, BitVec.ult_eq_decide]
  · rfl
  · simp [Op.info, Op.compute, ← and_31, ushiftRight_eq]
  · simp [Op.info, Op.compute, ← and_31, sshiftRight_eq]
  · rfl
  · rfl

theorem step_of_r (h : op.Matches w) (hs : op.info.shape = .r) :
    m.step w = m.perform (op.instruction w) := by
  have hinst : op.instruction w =
      ⟨op, .r (.ofWord .rd w) (.ofWord .rs1 w) (.ofWord .rs2 w)⟩ := by
    simp [Op.instruction, Operands.ofWord, hs]
  have hopcode : op.info.opcode = Opcode.op :=
    (by decide : ∀ op : Op, op.info.shape = .r → op.info.opcode = Opcode.op) op hs
  rw [step_op (h.opcode.trans hopcode), alu_eq_compute h hs, hinst, perform_free rfl rfl]
  simp only [Instruction.effect, held_ofWord_rs1, held_ofWord_rs2, moved_rd]

theorem aluImm_eq_compute (h : op.Matches w) (hs : op.info.shape = .i) (hne : op ≠ .jalr) (a : Word) :
    aluImm? w a = some (op.compute a (Extract.immI w)) := by
  have hop : op ∈ [Op.jalr, .addi, .slti, .sltiu, .xori, .ori, .andi] := Op.mem_ofShape hs
  have h3 := h.funct3 (by simp [hs])
  simp only [aluImm?, h3]
  fin_cases hop
  · exact absurd rfl hne
  · rfl
  · simp [Op.info, Op.compute, bool, BitVec.slt_eq_decide]
  · simp [Op.info, Op.compute, bool, BitVec.ult_eq_decide]
  · rfl
  · rfl
  · rfl

theorem aluImm_eq_compute_shift (h : op.Matches w) (hs : op.info.shape = .shift) (a : Word) :
    aluImm? w a = some (op.compute a ((Extract.shamt w).setWidth 32)) := by
  have hop : op ∈ [Op.slli, .srli, .srai] := Op.mem_ofShape hs
  have h3 := h.funct3 (by simp [hs])
  have h7 := h.funct7 (by simp [hs])
  have hshamt : (Extract.shamt w).toNat % 32 = (Extract.shamt w).toNat :=
    Nat.mod_eq_of_lt (Extract.shamt w).isLt
  simp only [aluImm?, h3, h7]
  fin_cases hop
  · simp [Op.info, Op.compute, hshamt]
  · simp [Op.info, Op.compute, hshamt, ushiftRight_eq]
  · simp [Op.info, Op.compute, hshamt, sshiftRight_eq]

theorem step_of_i (h : op.Matches w) (hs : op.info.shape = .i) :
    m.step w = m.perform (op.instruction w) := by
  have hinst : op.instruction w =
      ⟨op, .i (.ofWord .rd w) (.ofWord .rs1 w) (ImmKind.i.ofWord w)⟩ := by
    simp [Op.instruction, Operands.ofWord, hs]
  have himm : BitVec.ofInt 32 (ImmKind.i.ofWord w) = Extract.immI w := ofInt_ofWord .i w
  rw [hinst, perform_free rfl rfl]
  by_cases hjalr : op = .jalr
  · subst hjalr
    have h3 : Extract.funct3 w = 0 := h.funct3 (by decide)
    rw [step_jalr h.opcode, if_pos h3]
    simp only [Instruction.effect, if_true, held_ofWord_rs1, moved_rd, himm, ← and_not_one]
    rfl
  · have hopcode : op.info.opcode = Opcode.opImm :=
      (by decide : ∀ op : Op, op.info.shape = .i → op ≠ .jalr → op.info.opcode = Opcode.opImm) op
        hs hjalr
    rw [step_opImm (h.opcode.trans hopcode), aluImm_eq_compute h hs hjalr]
    simp only [Instruction.effect, if_neg hjalr, held_ofWord_rs1, moved_rd, himm]

theorem step_of_shift (h : op.Matches w) (hs : op.info.shape = .shift) :
    m.step w = m.perform (op.instruction w) := by
  have hinst : op.instruction w =
      ⟨op, .shift (.ofWord .rd w) (.ofWord .rs1 w) (ImmKind.shift.ofWord w)⟩ := by
    simp [Op.instruction, Operands.ofWord, hs]
  have himm : BitVec.ofInt 32 (ImmKind.shift.ofWord w) = (Extract.shamt w).setWidth 32 :=
    ofInt_ofWord .shift w
  have hopcode : op.info.opcode = Opcode.opImm :=
    (by decide : ∀ op : Op, op.info.shape = .shift → op.info.opcode = Opcode.opImm) op hs
  rw [step_opImm (h.opcode.trans hopcode), aluImm_eq_compute_shift h hs, hinst, perform_free rfl rfl]
  simp only [Instruction.effect, held_ofWord_rs1, moved_rd, himm]

theorem loadAccess_eq (h : op.Matches w) (hs : op.info.shape = .load) :
    loadAccess? (Extract.funct3 w) = some (op.access, op.takesSign) := by
  have hop : op ∈ [Op.lb, .lh, .lw, .lbu, .lhu] := Op.mem_ofShape hs
  rw [h.funct3 (by simp [hs])]
  fin_cases hop <;> rfl

theorem storeAccess_eq (h : op.Matches w) (hs : op.info.shape = .s) :
    storeAccess? (Extract.funct3 w) = some op.access := by
  have hop : op ∈ [Op.sb, .sh, .sw] := Op.mem_ofShape hs
  rw [h.funct3 (by simp [hs])]
  fin_cases hop <;> rfl

theorem step_of_load (h : op.Matches w) (hs : op.info.shape = .load) :
    m.step w = m.perform (op.instruction w) := by
  have hinst : op.instruction w =
      ⟨op, .load (.ofWord .rd w) (.ofWord .rs1 w) (ImmKind.i.ofWord w)⟩ := by
    simp [Op.instruction, Operands.ofWord, hs]
  have himm : BitVec.ofInt 32 (ImmKind.i.ofWord w) = Extract.immI w := ofInt_ofWord .i w
  have hopcode : op.info.opcode = Opcode.load :=
    (by decide : ∀ op : Op, op.info.shape = .load → op.info.opcode = Opcode.load) op hs
  rw [step_load (h.opcode.trans hopcode), loadAccess_eq h hs, hinst, perform_access rfl]
  simp only [Memory.load, Memory.holds, decide_eq_true_eq, Instruction.effect, held_ofWord_rs1, himm,
    moved_rd, Memory.loaded_eq_extend]
  split_ifs <;> rfl

theorem step_of_s (h : op.Matches w) (hs : op.info.shape = .s) :
    m.step w = m.perform (op.instruction w) := by
  have hinst : op.instruction w =
      ⟨op, .s (.ofWord .rs1 w) (.ofWord .rs2 w) (ImmKind.s.ofWord w)⟩ := by
    simp [Op.instruction, Operands.ofWord, hs]
  have himm : BitVec.ofInt 32 (ImmKind.s.ofWord w) = Extract.immS w := ofInt_ofWord .s w
  have hopcode : op.info.opcode = Opcode.store :=
    (by decide : ∀ op : Op, op.info.shape = .s → op.info.opcode = Opcode.store) op hs
  rw [step_store (h.opcode.trans hopcode), storeAccess_eq h hs, hinst, perform_access rfl]
  simp only [Memory.store, Memory.holds, decide_eq_true_eq, Instruction.effect, held_ofWord_rs1,
    held_ofWord_rs2, himm, moved, Memory.stored_eq_write]
  split_ifs <;> rfl

theorem step_of_fence (h : op.Matches w) (hs : op.info.shape = .fence) :
    m.step w = m.perform (op.instruction w) := by
  have hop : op ∈ [Op.fence] := Op.mem_ofShape hs
  obtain rfl := List.mem_singleton.mp hop
  have h3 : Extract.funct3 w = 0 := h.funct3 (by decide)
  rw [step_miscMem h.opcode, if_pos (by rw [h3]; decide), perform_free rfl rfl]
  rfl

theorem step_of_system (h : op.Matches w) (hs : op.info.shape = .system) :
    m.step w = m.perform (op.instruction w) := by
  have hinst : op.instruction w = ⟨op, .system op.info.imm⟩ := by
    simp [Op.instruction, Operands.ofWord, hs]
  rw [hinst, perform_free rfl rfl]
  by_cases hfence : op = .fenceI
  · subst hfence
    have h3 : Extract.funct3 w = 1 := h.funct3 (by decide)
    rw [step_miscMem h.opcode, if_pos (by rw [h3]; decide)]
    rfl
  · obtain ⟨hrd, hrs1, himm⟩ := h.system hs hfence
    obtain ⟨hopcode, hzero, hone⟩ : op.info.opcode = Opcode.system ∧
        op.info.funct3.setWidth 3 = 0 ∧ Instruction.wordOf op.info.imm &&& 0xFFF#32 ≤ 1 := by
      clear h himm hinst
      revert op
      decide
    have h3 : Extract.funct3 w = 0 := (h.funct3 (by simp [hs])).trans hzero
    -- the machine looks at the upper bits as a CSR number, the table gives them as an immediate
    have hcsr : Extract.csr w ≤ 1 := by
      rw [Extract.csr_eq_and_immI, show Extract.immI w = _ from himm]
      exact hone
    have hsystem : m.system w = .ok m := by
      simp only [system, h3, (setWidth_eq_zero_iff _).mp hrd, (setWidth_eq_zero_iff _).mp hrs1, hcsr,
        and_self, if_true]
    rw [step_system (h.opcode.trans hopcode), hsystem]
    rfl

section Csr
variable (h : op.Matches w) (hs : op.info.shape = .csr ∨ op.info.shape = .csri)
include h hs

theorem funct3_csr : Extract.funct3 w = op.info.funct3.setWidth 3 := by
  rcases hs with hs | hs <;> exact h.funct3 (by simp [hs])

theorem opcode_csr : Extract.opcode w = Opcode.system := by
  rw [h.opcode]
  clear h
  revert op
  decide

/-- Bit two of funct3 is what tells the two shapes apart. -/
theorem funct3_csr_bits :
    Extract.funct3 w ≠ 0 ∧ (Extract.funct3 w &&& 0b100 = 0 ↔ op.info.shape = .csr) := by
  rw [funct3_csr h hs]
  clear h
  revert op
  decide

/-- What a CSR operation writes, if it writes. -/
theorem csrWrite_eq (source : BitVec 5) (old operand : Word) :
    csrWrite (Extract.funct3 w) source old operand =
      if op.alwaysWrites ∨ source ≠ 0 then .write (op.combine old operand) else .keep := by
  have hop : op ∈ [Op.csrrw, .csrrs, .csrrc] ++ [.csrrwi, .csrrsi, .csrrci] :=
    List.mem_append.mpr (hs.imp Op.mem_ofShape Op.mem_ofShape)
  rw [funct3_csr h hs]
  by_cases hsource : source = 0 <;> fin_cases hop <;>
    simp [csrWrite, Op.info, Op.alwaysWrites, Op.combine, hsource]

/-- The CSR operations differ in their operand only. -/
theorem system_eq_perform {inst : Instruction} (operand : Word)
    (hoperand : operand =
      if op.info.shape = .csr then m.reg (Extract.rs1 w) else (Extract.rs1 w).zeroExtend 32)
    (haccess : inst.access? m.held = none)
    (hwritten : inst.written? =
      if op.alwaysWrites ∨ Extract.rs1 w ≠ 0 then some (ImmKind.csr.ofWord w) else none)
    (heffect : inst.effect m.held m =
      { next := m.pc + 4
        register := some (.ofWord .rd w, m.csrValue (ImmKind.csr.ofWord w))
        csr := inst.written?.map fun number =>
          (number, op.combine (m.csrValue (ImmKind.csr.ofWord w)) operand) }) :
    m.step w = m.perform inst := by
  obtain ⟨hne, hfour⟩ := funct3_csr_bits h hs
  have hadmits := ImmKind.admits_ofWord .csr w
  have hcsr : BitVec.ofInt 32 (ImmKind.csr.ofWord w) = Extract.csr w := ofInt_ofWord .csr w
  have hold : m.readCsr (Extract.csr w) = m.csrValue (ImmKind.csr.ofWord w) := by
    rw [← hcsr, readCsr_ofInt m hadmits]
  have hreadOnly : Csr.readOnlyFrom ≤ Extract.csr w ↔ ¬ ImmKind.csr.ofWord w < 0xC00 := by
    rw [← hcsr, readOnly_ofInt hadmits, not_lt]
  rw [step_system (opcode_csr h hs)]
  simp only [system, if_neg hne, hfour, ← hoperand, hold, csrWrite_eq h hs]
  by_cases hwrites : op.alwaysWrites ∨ Extract.rs1 w ≠ 0
  · rw [if_pos hwrites] at hwritten
    rw [if_pos hwrites, perform_written haccess hwritten, heffect, hwritten]
    simp only [writeCsr, hreadOnly]
    by_cases hlow : ImmKind.csr.ofWord w < 0xC00
    · have hregs := m.setIfInBounds_setWidth (Extract.rd w) (m.csrValue (ImmKind.csr.ofWord w))
      simp only [hlow, not_true_eq_false, if_true, if_false, moved, Register.ofWord, Field.gather, hregs,
        Option.map_some, hcsr, setReg]
    · simp only [hlow, not_false_eq_true, if_true, if_false]
  · rw [if_neg hwrites] at hwritten
    rw [if_neg hwrites, perform_free haccess hwritten, heffect, hwritten]
    exact congrArg Except.ok (moved_rd _ _).symm

end Csr

theorem step_of_csr (h : op.Matches w) (hs : op.info.shape = .csr) :
    m.step w = m.perform (op.instruction w) := by
  have hinst : op.instruction w =
      ⟨op, .csr (.ofWord .rd w) (ImmKind.csr.ofWord w) (.ofWord .rs1 w)⟩ := by
    simp [Op.instruction, Operands.ofWord, hs]
  rw [hinst]
  refine system_eq_perform h (.inl hs) (m.reg (Extract.rs1 w)) (by rw [if_pos hs]) rfl ?_ ?_
  · simp only [Instruction.written?, ne_eq, ofWord_rs1_eq_zero_iff]
  · simp only [Instruction.effect, held_ofWord_rs1]

theorem step_of_csri (h : op.Matches w) (hs : op.info.shape = .csri) :
    m.step w = m.perform (op.instruction w) := by
  have hinst : op.instruction w =
      ⟨op, .csri (.ofWord .rd w) (ImmKind.csr.ofWord w) (ImmKind.uimm.ofWord w)⟩ := by
    simp [Op.instruction, Operands.ofWord, hs]
  have huimm : BitVec.ofInt 32 (ImmKind.uimm.ofWord w) = (Extract.rs1 w).setWidth 32 :=
    ofInt_ofWord .uimm w
  have hoperand : (Extract.rs1 w).setWidth 32 =
      if op.info.shape = .csr then m.reg (Extract.rs1 w) else (Extract.rs1 w).zeroExtend 32 := by
    rw [if_neg (by simp [hs])]
  rw [hinst]
  refine system_eq_perform h (.inr hs) _ hoperand rfl ?_ ?_
  · simp only [Instruction.written?, ne_eq, ofWord_uimm_eq_zero_iff]
  · simp only [Instruction.effect, huimm]

/-- A word of an operation does what its instruction says. -/
theorem step_eq_perform (h : op.Matches w) : m.step w = m.perform (op.instruction w) := by
  cases hs : op.info.shape with
  | u => exact step_of_u h hs
  | j => exact step_of_j h hs
  | i => exact step_of_i h hs
  | load => exact step_of_load h hs
  | s => exact step_of_s h hs
  | b => exact step_of_b h hs
  | r => exact step_of_r h hs
  | shift => exact step_of_shift h hs
  | fence => exact step_of_fence h hs
  | csr => exact step_of_csr h hs
  | csri => exact step_of_csri h hs
  | system => exact step_of_system h hs

/-- **What the machine does with any word**: what the instruction says that the word decodes to. -/
theorem step_eq (m : Machine) (w : Word) :
    m.step w =
      match Instruction.decode? w with
      | some inst => m.perform inst
      | none => .error (.illegal w) := by
  cases h : Instruction.decode? w with
  | none => exact step_illegal (Instruction.decode?_eq_none_iff.mp h)
  | some inst =>
    obtain ⟨hop, hinst⟩ := Instruction.decode?_eq_some_iff.mp h
    rw [step_eq_perform hop, hinst]

end Machine

end RvConsole
