import RvConsole.Proofs.Isa.Printing
import RvConsole.Proofs.Machine.Step

/-! The assembler and the machine mean the same instructions.

What is left between a step and a whole word is register zero: the machine lets it be written and sets it
back at the end, the effects let it take nothing. On a machine where it starts at zero the two come to the
same, and the word of an instruction has the effect that its operands say. -/
namespace RvConsole

namespace Machine
variable {m : Machine} {w : Word}

theorem value_eq_held (h0 : m.reg 0 = 0) : m.value = m.held := by
  have hzero : m.held .zero = 0 := (m.held_setWidth 0).trans h0
  funext r
  by_cases hr : r = .zero
  · rw [value, if_pos hr, hr, hzero]
  · rw [value, if_neg hr]

theorem set_first_self {regs : RegisterFile} (h0 : regs[0] = 0) : regs.set 0 0 = regs := by
  rw [← h0]
  exact Vector.set_getElem_self (by decide)

/-- Setting the first register back undoes what was written there, and nothing else. -/
theorem set_first_setIfInBounds {regs : RegisterFile} (h0 : regs[0] = 0) (n : Nat) (v : Word) :
    (regs.setIfInBounds n v).set 0 0 = if n = 0 then regs else regs.setIfInBounds n v := by
  apply Vector.ext
  intro i hi
  rw [Vector.getElem_set, Vector.getElem_setIfInBounds]
  by_cases hn : n = 0
  · subst hn
    by_cases hi0 : 0 = i
    · subst hi0
      simp [h0]
    · simp [hi0]
  · by_cases hi0 : 0 = i
    · subst hi0
      simp [hn, Vector.getElem_setIfInBounds_ne hi hn, h0]
    · simp [hn, hi0, Vector.getElem_setIfInBounds]

/-- Register zero is set back, so it takes nothing. -/
theorem setReg_moved_regs (h0 : m.reg 0 = 0) (e : Effect) :
    ((m.moved e).setReg 0 0).regs = (m.after e).regs := by
  show (m.moved e).regs.set 0 0 = _
  cases hregister : e.register with
  | none =>
    simp only [moved, after, hregister]
    exact set_first_self h0
  | some p =>
    obtain ⟨r, v⟩ := p
    have hr : r = .zero ↔ r.index.toNat = 0 := by
      rw [Register.zero, Register.mk.injEq, ← BitVec.toNat_inj]
      rfl
    simp only [moved, after, hregister, hr]
    exact set_first_setIfInBounds h0 _ v

theorem execute_eq_after {e : Effect} (h0 : m.reg 0 = 0) (h : m.step w = .ok (m.moved e)) :
    m.execute w = (m.after e, none) := by
  have hregs := setReg_moved_regs h0 e
  simp only [execute, h]
  rw [Prod.mk.injEq]
  refine ⟨?_, rfl⟩
  simp only [setReg] at hregs ⊢
  rw [hregs]
  rfl

end Machine

namespace Instruction
variable {inst : Instruction} {m : Machine}

/-- **The word of an instruction has the instruction's effect.** -/
theorem execute_word (hinst : inst.WellFormed) (h0 : m.reg 0 = 0)
    (hallowed : inst.Allowed m.value m) :
    m.execute inst.word = (m.after (inst.effect m.value m), none) := by
  rw [Machine.value_eq_held h0] at hallowed ⊢
  apply Machine.execute_eq_after h0
  rw [Machine.step_eq, decode?_word hinst]
  simp only [Machine.perform, refusal?_eq_none_iff.mpr hallowed]

end Instruction

/-- **Assembler and machine agree.** Every operation with all operands it admits can be written, and
whatever is written encodes to a word that has the effect its operands say, wherever the machine allows
it. -/
theorem assembled_executes :
    (∀ inst : Instruction, inst.WellFormed → ∃ line, assemble line = .ok inst) ∧
      ∀ (line : Text) (inst : Instruction), assemble line = .ok inst →
        ∀ m : Machine, m.reg 0 = 0 → inst.Allowed m.value m →
          ∃ w, inst.encode = .ok w ∧ m.execute w = (m.after (inst.effect m.value m), none) := by
  refine ⟨fun inst h => ⟨inst.text, assemble_text h⟩, ?_⟩
  intro line inst hline m h0 hallowed
  have hinst := wellFormed_of_assemble hline
  exact ⟨inst.word, Instruction.encode_eq_word hinst.2.1, Instruction.execute_word hinst h0 hallowed⟩

/-- A load of the last byte of memory. -/
theorem assembled_executes_lb :
    Instruction.WellFormed ⟨.lb, .load ⟨5⟩ .zero 3⟩ ∧
      (∃ line, assemble line = .ok ⟨.lb, .load ⟨5⟩ .zero 3⟩) ∧
      assemble "LB t0, 3(zero)" = .ok ⟨.lb, .load ⟨5⟩ .zero 3⟩ ∧ (Machine.ofSize 4).reg 0 = 0 ∧
      Instruction.Allowed ⟨.lb, .load ⟨5⟩ .zero 3⟩ (Machine.ofSize 4).value (Machine.ofSize 4) ∧
      ∃ w, Instruction.encode ⟨.lb, .load ⟨5⟩ .zero 3⟩ = .ok w ∧
        (Machine.ofSize 4).execute w =
          ((Machine.ofSize 4).after
            (Instruction.effect ⟨.lb, .load ⟨5⟩ .zero 3⟩ (Machine.ofSize 4).value (Machine.ofSize 4)),
            none) := by
  have hinst : Instruction.WellFormed ⟨.lb, .load ⟨5⟩ .zero 3⟩ :=
    ⟨rfl, ⟨by decide, by decide, by decide⟩, nofun⟩
  have hline : assemble "LB t0, 3(zero)" = .ok ⟨.lb, .load ⟨5⟩ .zero 3⟩ := by decide
  have hallowed := Instruction.refusal?_eq_none_iff.mp
    (by decide : Instruction.refusal? ⟨.lb, .load ⟨5⟩ .zero 3⟩ (Machine.ofSize 4).value
      (Machine.ofSize 4) = none)
  exact ⟨hinst, assembled_executes.1 _ hinst, hline, rfl, hallowed,
    assembled_executes.2 _ _ hline _ rfl hallowed⟩

end RvConsole
