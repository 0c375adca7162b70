import RvConsole.Machine.Execute
import RvConsole.Proofs.Isa.Decoding

/-! Words by their major opcode, and words of no operation.

The machine looks at a word level by level: major opcode, funct3, funct7, and the fields that have to be
zero. What it does at each major opcode is one equation (`step_lui` to `step_system`). The table of
operations says which values of the lower levels are taken; all the others are illegal, so a word that
no operation matches is an illegal one (`step_illegal`). -/
namespace RvConsole

/-! ### The codes of the table -/

namespace Op
variable {op : Op} {w : Word}

theorem gather_funct3_of_extract (h : Extract.funct3 w = op.info.funct3.setWidth 3) :
    Field.funct3.gather w = op.info.funct3 := by
  rw [Field.gather, h]
  exact (by decide : ∀ op : Op, (op.info.funct3.setWidth 3).setWidth 32 = op.info.funct3) op

theorem gather_funct7_of_extract (h : Extract.funct7 w = op.info.funct7.setWidth 7) :
    Field.funct7.gather w = op.info.funct7 := by
  rw [Field.gather, h]
  exact (by decide : ∀ op : Op, (op.info.funct7.setWidth 7).setWidth 32 = op.info.funct7) op

/-- The values of funct3 by which operations of a major opcode are known. -/
def codes (opcode : Word) : List (BitVec 3) :=
  (all.filter fun op => op.fixed = [(.opcode, opcode), (.funct3, op.info.funct3)]).map
    (·.info.funct3.setWidth 3)

/-- The values of funct3 and funct7 by which operations of a major opcode are known. -/
def codePairs (opcode : Word) : List (BitVec 3 × BitVec 7) :=
  (all.filter fun op =>
      op.fixed = [(.opcode, opcode), (.funct3, op.info.funct3), (.funct7, op.info.funct7)]).map
    fun op => (op.info.funct3.setWidth 3, op.info.funct7.setWidth 7)

theorem exists_matches_of_mem_codes (h : Extract.funct3 w ∈ codes (Extract.opcode w)) :
    ∃ op : Op, op.Matches w := by
  simp only [codes, List.mem_map, List.mem_filter, decide_eq_true_eq] at h
  obtain ⟨op, ⟨-, hfixed⟩, h3⟩ := h
  refine ⟨op, ?_⟩
  rw [Matches, hfixed, List.forall_mem_cons, List.forall_mem_singleton]
  exact ⟨rfl, gather_funct3_of_extract h3.symm⟩

theorem exists_matches_of_mem_codePairs
    (h : (Extract.funct3 w, Extract.funct7 w) ∈ codePairs (Extract.opcode w)) :
    ∃ op : Op, op.Matches w := by
  simp only [codePairs, List.mem_map, List.mem_filter, decide_eq_true_eq, Prod.mk.injEq] at h
  obtain ⟨op, ⟨-, hfixed⟩, h3, h7⟩ := h
  refine ⟨op, ?_⟩
  rw [Matches, hfixed, List.forall_mem_cons, List.forall_mem_cons, List.forall_mem_singleton]
  exact ⟨rfl, gather_funct3_of_extract h3.symm, gather_funct7_of_extract h7.symm⟩

end Op

/-! ### The two readings of the upper twelve bits -/

namespace Extract

theorem csr_eq_and_immI (w : Word) : csr w = immI w &&& 0xFFF#32 :=
  Wiring.ext (.ushiftRight .id 20) (.and (.sshiftRight .id 20) _) (by decide +kernel) w

theorem immI_eq_extend_csr (w : Word) :
    immI w = ((csr w).setWidth 12).signExtend 32 :=
  Wiring.ext (.sshiftRight .id 20) (.signExtend (.setWidth (.ushiftRight .id 20) 12) 32)
    (by decide +kernel) w

end Extract

namespace Machine
variable {m : Machine} {w : Word}

/-! ### Words by major opcode -/

theorem step_lui (h : Extract.opcode w = Opcode.lui) :
    m.step w = .ok { m.setReg (Extract.rd w) (Extract.immU w) with pc := m.pc + 4 } := by
  simp only [step, h]
  rfl

theorem step_auipc (h : Extract.opcode w = Opcode.auipc) :
    m.step w = .ok { m.setReg (Extract.rd w) (m.pc + Extract.immU w) with pc := m.pc + 4 } := by
  simp only [step, h]
  rfl

theorem step_jal (h : Extract.opcode w = Opcode.jal) :
    m.step w = .ok { m.setReg (Extract.rd w) (m.pc + 4) with pc := m.pc + Extract.immJ w } := by
  simp only [step, h]
  rfl

theorem step_jalr (h : Extract.opcode w = Opcode.jalr) :
    m.step w =
      if Extract.funct3 w = 0 then
        .ok { m.setReg (Extract.rd w) (m.pc + 4) with
          pc := (m.reg (Extract.rs1 w) + Extract.immI w) &&& ~~~1 }
      else .error (.illegal w) := by
  simp only [step, h]
  rfl

theorem step_branch (h : Extract.opcode w = Opcode.branch) :
    m.step w =
      match taken? (Extract.funct3 w) (m.reg (Extract.rs1 w)) (m.reg (Extract.rs2 w)) with
      | some true => .ok { m with pc := m.pc + Extract.immB w }
      | some false => .ok { m with pc := m.pc + 4 }
      | none => .error (.illegal w) := by
  simp only [step, h]
  rfl

theorem step_load (h : Extract.opcode w = Opcode.load) :
    m.step w =
      match loadAccess? (Extract.funct3 w) with
      | some (access, signed) =>
        match m.memory.load (m.reg (Extract.rs1 w) + Extract.immI w) access signed with
        | .ok value => .ok { m.setReg (Extract.rd w) value with pc := m.pc + 4 }
        | .error cause => .error cause
      | none => .error (.illegal w) := by
  simp only [step, h]
  rfl

theorem step_store (h : Extract.opcode w = Opcode.store) :
    m.step w =
      match storeAccess? (Extract.funct3 w) with
      | some access =>
        match m.memory.store (m.reg (Extract.rs1 w) + Extract.immS w) access (m.reg (Extract.rs2 w)) with
        | .ok memory => .ok { m with memory, pc := m.pc + 4 }
        | .error cause => .error cause
      | none => .error (.illegal w) := by
  simp only [step, h]
  rfl

theorem step_opImm (h : Extract.opcode w = Opcode.opImm) :
    m.step w =
      match aluImm? w (m.reg (Extract.rs1 w)) with
      | some value => .ok { m.setReg (Extract.rd w) value with pc := m.pc + 4 }
      | none => .error (.illegal w) := by
  simp only [step, h]
  rfl

theorem step_op (h : Extract.opcode w = Opcode.op) :
    m.step w =
      match alu? w (m.reg (Extract.rs1 w)) (m.reg (Extract.rs2 w)) with
      | some value => .ok { m.setReg (Extract.rd w) value with pc := m.pc + 4 }
      | none => .error (.illegal w) := by
  simp only [step, h]
  rfl

theorem step_miscMem (h : Extract.opcode w = Opcode.miscMem) :
    m.step w =
      if Extract.funct3 w ≤ 1 then .ok { m with pc := m.pc + 4 } else .error (.illegal w) := by
  simp only [step, h]
  rfl

theorem step_system (h : Extract.opcode w = Opcode.system) :
    m.step w =
      match m.system w with
      | .ok m' => .ok { m' with pc := m.pc + 4 }
      | .error cause => .error cause := by
  simp only [step, h]
  rfl

/-- There are no other major opcodes. -/
theorem opcode_cases (m : Machine) (w : Word) :
    (Extract.opcode w = Opcode.lui ∨ Extract.opcode w = Opcode.auipc ∨
      Extract.opcode w = Opcode.jal ∨ Extract.opcode w = Opcode.jalr ∨
      Extract.opcode w = Opcode.branch ∨ Extract.opcode w = Opcode.load ∨
      Extract.opcode w = Opcode.store ∨ Extract.opcode w = Opcode.opImm ∨
      Extract.opcode w = Opcode.op ∨ Extract.opcode w = Opcode.miscMem ∨
      Extract.opcode w = Opcode.system) ∨ m.step w = .error (.illegal w) := by
  rw [or_iff_not_imp_left]
  intro h
  simp only [not_or] at h
  simp only [step, h, if_false]

/-! ### Words of no operation

The codes that are left free, and what the machine makes of them. -/

variable {f : BitVec 3}

theorem taken_none (hf : f ∉ Op.codes Opcode.branch) (a b : Word) : taken? f a b = none := by
  have hfree : ∀ f ∉ Op.codes Opcode.branch, f = 2 ∨ f = 3 := by decide
  rcases hfree f hf with rfl | rfl <;> rfl

theorem loadAccess_none (hf : f ∉ Op.codes Opcode.load) : loadAccess? f = none := by
  have hfree : ∀ f ∉ Op.codes Opcode.load, f = 3 ∨ f = 6 ∨ f = 7 := by decide
  rcases hfree f hf with rfl | rfl | rfl <;> rfl

theorem storeAccess_none (hf : f ∉ Op.codes Opcode.store) : storeAccess? f = none := by
  have hfree : ∀ f ∉ Op.codes Opcode.store, f = 3 ∨ f = 4 ∨ f = 5 ∨ f = 6 ∨ f = 7 := by decide
  rcases hfree f hf with rfl | rfl | rfl | rfl | rfl <;> rfl

theorem csrWrite_illegal (hf : f ∉ Op.codes Opcode.system) (hne : f ≠ 0) (source : BitVec 5)
    (old operand : Word) : csrWrite f source old operand = .illegal := by
  have hfree : ∀ f ∉ Op.codes Opcode.system, f ≠ 0 → f = 4 := by decide
  rw [hfree f hf hne]
  rfl

theorem aluImm_none (h3 : Extract.funct3 w ∉ Op.codes Opcode.opImm)
    (h7 : (Extract.funct3 w, Extract.funct7 w) ∉ Op.codePairs Opcode.opImm) (a : Word) :
    aluImm? w a = none := by
  have hfree : ∀ f ∉ Op.codes Opcode.opImm, f = 1 ∨ f = 5 := by decide
  simp only [aluImm?]
  rcases hfree _ h3 with hf | hf
  · rw [hf] at h7 ⊢
    have hslli : Extract.funct7 w ≠ 0 := fun h => h7 (by rw [h]; decide)
    exact if_neg hslli
  · rw [hf] at h7 ⊢
    have hsrli : Extract.funct7 w ≠ 0 := fun h => h7 (by rw [h]; decide)
    have hsrai : Extract.funct7 w ≠ 0b0100000 := fun h => h7 (by rw [h]; decide)
    exact (if_neg hsrli).trans (if_neg hsrai)

theorem alu_none (h : (Extract.funct3 w, Extract.funct7 w) ∉ Op.codePairs Opcode.op) (a b : Word) :
    alu? w a b = none := by
  simp only [alu?]
  generalize Extract.funct3 w = f at h ⊢
  -- with funct7 zero every funct3 is taken, with the other value two are
  split_ifs with hzero hother
  · have hall : ∀ f, (f, 0) ∈ Op.codePairs Opcode.op := by decide
    exact absurd (hzero ▸ hall f) h
  · rw [hother] at h
    have hzero : f ≠ 0 := fun hf => h (by rw [hf]; decide)
    have hfive : f ≠ 5 := fun hf => h (by rw [hf]; decide)
    split
    · exact absurd rfl hzero
    · exact absurd rfl hfive
    · rfl
  · rfl

theorem immI_of_csr_le_one (h : Extract.csr w ≤ 1) : Extract.immI w = 0 ∨ Extract.immI w = 1 := by
  have hcsr : Extract.csr w = 0 ∨ Extract.csr w = 1 := by
    rw [BitVec.le_def, show (1 : Word).toNat = 1 from rfl] at h
    rw [← BitVec.toNat_inj, ← BitVec.toNat_inj]
    exact Nat.le_one_iff_eq_zero_or_eq_one.mp h
  rw [Extract.immI_eq_extend_csr]
  rcases hcsr with h | h
  · exact .inl (by rw [h]; decide)
  · exact .inr (by rw [h]; decide)

theorem exists_matches_of_call (hop : Extract.opcode w = Opcode.system) (h3 : Extract.funct3 w = 0)
    (hrd : Extract.rd w = 0) (hrs1 : Extract.rs1 w = 0) (hcsr : Extract.csr w ≤ 1) :
    ∃ op : Op, op.Matches w := by
  have hfields : Field.rd.gather w = 0 ∧ Field.funct3.gather w = 0 ∧ Field.rs1.gather w = 0 := by
    simp only [Field.gather, h3, hrd, hrs1]
    decide
  obtain ⟨hrd, h3, hrs1⟩ := hfields
  rcases immI_of_csr_le_one hcsr with himm | himm
  · exact ⟨.ecall, Op.matches_of_system rfl (by decide) hop hrd h3 hrs1 himm⟩
  · exact ⟨.ebreak, Op.matches_of_system rfl (by decide) hop hrd h3 hrs1 himm⟩

theorem system_illegal (h : ∀ op : Op, ¬ op.Matches w) (hop : Extract.opcode w = Opcode.system) :
    m.system w = .error (.illegal w) := by
  have hf : Extract.funct3 w ∉ Op.codes Opcode.system := fun hf =>
    (Op.exists_matches_of_mem_codes (hop ▸ hf)).elim h
  simp only [system]
  by_cases h3 : Extract.funct3 w = 0
  · rw [if_pos h3, if_neg]
    rintro ⟨hrd, hrs1, hcsr⟩
    exact (exists_matches_of_call hop h3 hrd hrs1 hcsr).elim h
  · rw [if_neg h3, csrWrite_illegal hf h3]

/-- **A word of no operation is illegal.** -/
theorem step_illegal (h : ∀ op : Op, ¬ op.Matches w) : m.step w = .error (.illegal w) := by
  have h3 : Extract.funct3 w ∉ Op.codes (Extract.opcode w) := fun h3 =>
    (Op.exists_matches_of_mem_codes h3).elim h
  have h7 : (Extract.funct3 w, Extract.funct7 w) ∉ Op.codePairs (Extract.opcode w) := fun h7 =>
    (Op.exists_matches_of_mem_codePairs h7).elim h
  have hopcode : ∀ op : Op, op.fixed = [(.opcode, Extract.opcode w)] → False := by
    intro op hfixed
    refine h op ?_
    rw [Op.Matches, hfixed, List.forall_mem_singleton]
    rfl
  rcases opcode_cases m w with hcases | hillegal
  · rcases hcases with hop | hop | hop | hop | hop | hop | hop | hop | hop | hop | hop
    -- three major opcodes are operations by themselves
    case inl => exact (hopcode .lui (by rw [hop]; rfl)).elim
    case inr.inl => exact (hopcode .auipc (by rw [hop]; rfl)).elim
    case inr.inr.inl => exact (hopcode .jal (by rw [hop]; rfl)).elim
    all_goals rw [hop] at h3 h7
    · have hfree : ∀ f ∉ Op.codes Opcode.jalr, f ≠ 0 := by decide
      rw [step_jalr hop, if_neg (hfree _ h3)]
    · rw [step_branch hop, taken_none h3]
    · rw [step_load hop, loadAccess_none h3]
    · rw [step_store hop, storeAccess_none h3]
    · rw [step_opImm hop, aluImm_none h3 h7]
    · rw [step_op hop, alu_none h7]
    · have hfree : ∀ f ∉ Op.codes Opcode.miscMem, ¬ f ≤ 1 := by decide
      rw [step_miscMem hop, if_neg (hfree _ h3)]
    · rw [step_system hop, system_illegal h hop]
  · exact hillegal

end Machine

end RvConsole
