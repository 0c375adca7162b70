import RvConsole.Proofs.Isa.Printing
import RvConsole.Proofs.Machine.Step

/-! Words that fail.

Why a word fails is known from the instruction that it decodes to (`cause?_eq`): none at all is illegal, and
one that is refused fails for the reason it is refused for. Whatever the reason, the machine is as it was
but for the cycle that has passed (`execute_failed`). Outside of the fences, the words that decode are the
words of the lines that can be written (`decode?_eq_none_iff_not_assembled`), so the machine has no
instruction that the assembler does not have, nor the other way round. -/
namespace RvConsole

/-! ### Why a word fails -/

namespace Instruction
variable (inst : Instruction) (x : Register → Word) (m : Machine)

/-- No instruction is refused as illegal. -/
theorem refusal?_ne_illegal (w : Word) : inst.refusal? x m ≠ some (.illegal w) := by
  unfold refusal?
  split
  · split_ifs <;> simp
  · split_ifs <;> simp
  · simp

/-- An access is refused when its last byte is past the end of the memory; the address does not wrap. -/
theorem refusal?_eq_address_iff (a : Word) (size : Nat) :
    inst.refusal? x m = some (.address a size) ↔
      ∃ access, inst.access? x = some (a, access) ∧ access.size = size ∧
        m.memory.size < a.toNat + size := by
  cases haccess : inst.access? x with
  | none => cases hwritten : inst.written? <;> simp [refusal?, haccess, hwritten]
  | some p =>
    obtain ⟨b, access⟩ := p
    simp only [refusal?, haccess]
    split_ifs with hin
    · simp only [false_iff]
      rintro ⟨access', hsome, rfl, hout⟩
      obtain ⟨rfl, rfl⟩ := Prod.mk.inj (Option.some.inj hsome)
      omega
    · constructor
      · intro h
        obtain ⟨rfl, rfl⟩ := Cause.address.inj (Option.some.inj h)
        exact ⟨access, rfl, rfl, by omega⟩
      · rintro ⟨access', hsome, rfl, -⟩
        obtain ⟨rfl, rfl⟩ := Prod.mk.inj (Option.some.inj hsome)
        rfl

theorem refusal?_eq_readOnlyCsr_iff :
    inst.refusal? x m = some .readOnlyCsr ↔ ∃ number, inst.written? = some number ∧ 0xC00 ≤ number := by
  cases haccess : inst.access? x with
  | none => cases hwritten : inst.written? <;> simp [refusal?, haccess, hwritten]
  | some p =>
    obtain ⟨a, access⟩ := p
    simp [refusal?, haccess, written?_of_access? haccess]

end Instruction

namespace Machine

/-- Why a word fails, if it does. -/
def cause? (m : Machine) (w : Word) : Option Cause := (m.execute w).2.map Trap.cause

theorem cause?_step (m : Machine) (w : Word) :
    m.cause? w =
      match m.step w with
      | .ok _ => none
      | .error cause => some cause := by
  unfold cause? execute
  cases m.step w <;> rfl

theorem cause?_eq (m : Machine) (w : Word) :
    m.cause? w =
      match Instruction.decode? w with
      | some inst => inst.refusal? m.held m
      | none => some (.illegal w) := by
  rw [cause?_step, step_eq]
  cases Instruction.decode? w with
  | none => rfl
  | some inst =>
    simp only [perform]
    cases inst.refusal? m.held m <;> rfl

/-- The illegal words are those that do not decode. -/
theorem cause?_eq_illegal_iff (m : Machine) (w : Word) :
    m.cause? w = some (.illegal w) ↔ Instruction.decode? w = none := by
  rw [cause?_eq]
  cases Instruction.decode? w with
  | none => simp
  | some inst => simp [inst.refusal?_ne_illegal m.held m w]

/-- The other words fail as their instruction is refused, or do not fail. -/
theorem cause?_eq_iff (m : Machine) {w : Word} {cause : Option Cause} (hcause : cause ≠ some (.illegal w)) :
    m.cause? w = cause ↔ ∃ inst, Instruction.decode? w = some inst ∧ inst.refusal? m.held m = cause := by
  rw [cause?_eq]
  cases Instruction.decode? w with
  | none => simpa using hcause.symm
  | some inst => simp

/-- A word that fails leaves the machine as it was: only a cycle has passed, and register zero is zero. -/
theorem execute_failed {m done : Machine} {w : Word} {trap : Trap} (h : m.execute w = (done, some trap)) :
    trap.pc = m.pc ∧ done = { m.setReg 0 0 with cycle := m.cycle + 1 } := by
  unfold execute at h
  split at h
  · cases h
  · obtain ⟨rfl, htrap⟩ := Prod.mk.inj h
    rw [← Option.some.inj htrap]
    exact ⟨rfl, rfl⟩

theorem setReg_reg_ne (m : Machine) {r s : BitVec 5} (h : s ≠ r) (v : Word) :
    (m.setReg r v).reg s = m.reg s :=
  Vector.getElem_set_ne r.isLt s.isLt fun hrs => h (BitVec.eq_of_toNat_eq hrs.symm)

theorem setReg_reg (m : Machine) (r : BitVec 5) (v : Word) : (m.setReg r v).reg r = v :=
  Vector.getElem_set_self r.isLt

end Machine

/-! ### Words that can be written -/

/-- A line encodes to the word of the instruction that it is read as. -/
theorem decode?_of_assembled {line : Text} {inst : Instruction} {w : Word} (hline : assemble line = .ok inst)
    (hword : inst.encode = .ok w) : Instruction.decode? w = some inst := by
  have hinst := wellFormed_of_assemble hline
  rw [Instruction.encode_eq_word hinst.2.1] at hword
  rw [← Except.ok.inj hword, Instruction.decode?_word hinst]

theorem decode?_eq_none_iff_not_assembled {w : Word} (hmisc : Extract.opcode w ≠ Opcode.miscMem) :
    Instruction.decode? w = none ↔
      ¬∃ line inst, assemble line = .ok inst ∧ inst.encode = .ok w := by
  constructor
  · rintro hnone ⟨line, inst, hline, hword⟩
    rw [decode?_of_assembled hline hword] at hnone
    cases hnone
  · intro hline
    cases h : Instruction.decode? w with
    | none => rfl
    | some inst =>
      -- the line that is wanted is the text of the instruction
      obtain ⟨hinst, hword⟩ := Instruction.wellFormed_of_decode? h hmisc
      refine absurd ⟨inst.text, inst, assemble_text hinst, ?_⟩ hline
      rw [Instruction.encode_eq_word hinst.2.1, hword]

/-- Of the fences the machine only looks at funct3. -/
theorem cause?_miscMem (m : Machine) {w : Word} (hmisc : Extract.opcode w = Opcode.miscMem) :
    m.cause? w = some (.illegal w) ↔ 1 < Extract.funct3 w := by
  rw [Machine.cause?_step, Machine.step_miscMem hmisc]
  by_cases hle : Extract.funct3 w ≤ 1
  · rw [if_pos hle]
    exact ⟨nofun, fun hlt => absurd hle (BitVec.not_le.mpr hlt)⟩
  · rw [if_neg hle]
    exact ⟨fun _ => BitVec.not_le.mp hle, fun _ => rfl⟩

/-- **The legal words are the words that can be written.** Outside of `MISC-MEM`, a word is illegal just
when no line encodes to it; there, just when its funct3 is of no fence. No line ever encodes to an illegal
word. -/
theorem illegal_iff_not_assembled :
    (∀ (m : Machine) (w : Word), w &&& 0x7F ≠ Opcode.miscMem →
      (m.cause? w = some (.illegal w) ↔ ¬∃ line inst, assemble line = .ok inst ∧ inst.encode = .ok w)) ∧
    (∀ (m : Machine) (w : Word), w &&& 0x7F = Opcode.miscMem →
      (m.cause? w = some (.illegal w) ↔ 1 < w.extractLsb' 12 3)) ∧
    ∀ (line : Text) (inst : Instruction), assemble line = .ok inst →
      ∃ w, inst.encode = .ok w ∧ ∀ (m : Machine) (v : Word), m.cause? w ≠ some (.illegal v) := by
  refine ⟨fun m w hmisc => ?_, fun m w hmisc => cause?_miscMem m hmisc, fun line inst hline => ?_⟩
  · exact (m.cause?_eq_illegal_iff w).trans (decode?_eq_none_iff_not_assembled hmisc)
  · have hword := Instruction.encode_eq_word (wellFormed_of_assemble hline).2.1
    refine ⟨inst.word, hword, fun m v => ?_⟩
    rw [m.cause?_eq, decode?_of_assembled hline hword]
    exact inst.refusal?_ne_illegal m.held m v

/-- A word that does not decode, one of `MISC-MEM` that is no fence, and a fence. -/
theorem illegal_iff_not_assembled_zero :
    ((0 : Word) &&& 0x7F ≠ Opcode.miscMem ∧
      ((Machine.ofSize 4).cause? 0 = some (.illegal 0) ↔
        ¬∃ line inst, assemble line = .ok inst ∧ inst.encode = .ok 0)) ∧
    ((0x200F : Word) &&& 0x7F = Opcode.miscMem ∧
      ((Machine.ofSize 4).cause? 0x200F = some (.illegal 0x200F) ↔
        1 < (0x200F : Word).extractLsb' 12 3)) ∧
    assemble "fence.i" = .ok ⟨.fenceI, .system 0⟩ ∧
      ∃ w, Instruction.encode ⟨.fenceI, .system 0⟩ = .ok w ∧
        ∀ (m : Machine) (v : Word), m.cause? w ≠ some (.illegal v) := by
  have hline : assemble "fence.i" = .ok ⟨.fenceI, .system 0⟩ := by decide
  obtain ⟨hwritten, hmisc, hassembled⟩ := illegal_iff_not_assembled
  exact ⟨⟨by decide, hwritten _ 0 (by decide)⟩, ⟨by decide, hmisc _ 0x200F (by decide)⟩, hline,
    hassembled _ _ hline⟩

/-! ### Every word -/

/-- **A failing word is a no-op but for the cycle counter**, and when each of the causes is met. -/
theorem failing_word (m : Machine) (w : Word) :
    (∀ done trap, m.execute w = (done, some trap) →
      trap.pc = m.pc ∧ done.pc = m.pc ∧ done.reg 0 = 0 ∧ (∀ r, r ≠ 0 → done.reg r = m.reg r) ∧
        done.memory = m.memory ∧ done.csrs = m.csrs ∧ done.instret = m.instret ∧
        done.cycle = m.cycle + 1) ∧
    (m.cause? w = some (.illegal w) ↔ Instruction.decode? w = none) ∧
    (∀ a size, m.cause? w = some (.address a size) ↔
      ∃ inst access, Instruction.decode? w = some inst ∧ inst.access? m.held = some (a, access) ∧
        access.size = size ∧ m.memory.size < a.toNat + size) ∧
    (m.cause? w = some .readOnlyCsr ↔
      ∃ inst number, Instruction.decode? w = some inst ∧ inst.written? = some number ∧
        0xC00 ≤ number) ∧
    ((m.execute w).2 = none ↔ ∃ inst, Instruction.decode? w = some inst ∧ inst.Allowed m.held m) := by
  refine ⟨?_, m.cause?_eq_illegal_iff w, fun a size => ?_, ?_, ?_⟩
  · intro done trap h
    obtain ⟨hpc, rfl⟩ := Machine.execute_failed h
    exact ⟨hpc, rfl, m.setReg_reg 0 0, fun r hr => m.setReg_reg_ne hr 0, rfl, rfl, rfl, rfl⟩
  · rw [m.cause?_eq_iff (by simp)]
    simp only [Instruction.refusal?_eq_address_iff, exists_and_left]
  · rw [m.cause?_eq_iff (by simp)]
    simp only [Instruction.refusal?_eq_readOnlyCsr_iff, exists_and_left]
  · have hnone : (m.execute w).2 = none ↔ m.cause? w = none := Option.map_eq_none_iff.symm
    rw [hnone, m.cause?_eq_iff (by simp)]
    simp only [Instruction.refusal?_eq_none_iff]

/-- A store over the end of the memory. -/
theorem failing_word_sw :
    (Machine.ofSize 4).execute 0x20A3 =
        (((Machine.ofSize 4).execute 0x20A3).1, some ⟨0, .address 1 4⟩) ∧
      ((Machine.ofSize 4).execute 0x20A3).1.pc = (Machine.ofSize 4).pc ∧
      ((Machine.ofSize 4).execute 0x20A3).1.reg 0 = 0 ∧
      ((Machine.ofSize 4).execute 0x20A3).1.reg 1 = (Machine.ofSize 4).reg 1 ∧
      ((Machine.ofSize 4).execute 0x20A3).1.memory = (Machine.ofSize 4).memory ∧
      ∃ inst access, Instruction.decode? 0x20A3 = some inst ∧
        inst.access? (Machine.ofSize 4).held = some (1, access) ∧ access.size = 4 ∧
        (Machine.ofSize 4).memory.size < (1 : Word).toNat + 4 := by
  have htrap : ((Machine.ofSize 4).execute 0x20A3).2 = some ⟨0, .address 1 4⟩ := by decide
  obtain ⟨hkept, -, haddress, -, -⟩ := failing_word (Machine.ofSize 4) 0x20A3
  obtain ⟨-, hpc, hzero, hregs, hmemory, -⟩ := hkept _ _ (Prod.ext rfl htrap)
  exact ⟨Prod.ext rfl htrap, hpc, hzero, hregs 1 (by decide), hmemory, (haddress 1 4).mp (by decide)⟩

end RvConsole
