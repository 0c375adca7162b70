import RvConsole.Proofs.Machine.Run

/-! Memory over whole runs.

The only thing that reaches memory is a store that succeeds, and it writes the low bytes of its register
from its address on (`bytesStored`). So a byte of memory is the one that was stored there last, or zero, and
a load makes its number from such bytes, whatever stores of whatever width they came from
(`memory_last_stored`). -/
namespace RvConsole

namespace Memory

/-- The number of some bytes as a sum of their places. -/
theorem number_eq_sum (mem : Memory) (a n : Nat) :
    mem.number a n = ∑ j ∈ Finset.range n, (mem.byteAt (a + j)).toNat * 256 ^ j := by
  induction n generalizing a with
  | zero => rfl
  | succ n ih =>
    rw [number, ih, Finset.sum_range_succ', Finset.mul_sum, add_comm]
    congr 1
    · apply Finset.sum_congr rfl
      intro j _
      rw [show a + (j + 1) = a + 1 + j by omega, pow_succ]
      ring
    · simp

/-- A store inside the memory writes its bytes and no other. -/
theorem byteAt_stored {mem : Memory} {a n : Nat} (hin : a + n ≤ mem.size) (v : Word) (i : Nat) :
    (mem.stored a n v).byteAt i =
      if a ≤ i ∧ i < a + n then UInt8.ofNat (v.toNat / 256 ^ (i - a)) else mem.byteAt i := by
  simp only [byteAt, Array.getD_eq_getD_getElem?, stored, Array.getElem?_mapIdx]
  by_cases hrange : a ≤ i ∧ i < a + n
  · have hi : i < mem.size := by omega
    simp [hrange, hi]
  · simp [hrange]

end Memory

namespace Instruction

/-- Only stores store. -/
theorem effect_store (inst : Instruction) (x : Register → Word) (m : Machine) :
    (inst.effect x m).store =
      match inst.operands with
      | .s rs1 rs2 imm => some (x rs1 + BitVec.ofInt 32 imm, inst.op.access, x rs2)
      | _ => none := by
  rcases inst with ⟨op, operands⟩
  cases operands with
  | i rd rs1 imm =>
    simp only [effect]
    split <;> rfl
  | _ => rfl

/-- The operations of what decodes are those of its shape. -/
theorem mem_ofShape_of_decode? {inst : Instruction} {w : Word} (h : decode? w = some inst) :
    inst.op ∈ Op.ofShape inst.operands.shape := by
  obtain ⟨-, hinst⟩ := decode?_eq_some_iff.mp h
  apply Op.mem_ofShape
  rw [← hinst]
  exact (Operands.shape_ofWord _ _).symm

end Instruction

namespace Machine
variable {m : Machine}

/-- The bytes that an act stores and where: the low bytes of a register from the effective address on,
if the act is a store that succeeds. -/
def bytesStored (m : Machine) : Act → List (Nat × UInt8)
  | .execute w =>
    match (m.execute w).2, Instruction.decode? w with
    | none, some ⟨op, .s rs1 rs2 imm⟩ =>
      let a := m.value rs1 + BitVec.ofInt 32 imm
      (List.range op.access.size).map fun j =>
        (a.toNat + j, UInt8.ofNat ((m.value rs2).toNat / 256 ^ j))
    | _, _ => []
  | _ => []

theorem lookup_bytes (a n i : Nat) (f : Nat → UInt8) :
    ((List.range n).map fun j => (a + j, f j)).lookup i =
      if a ≤ i ∧ i < a + n then some (f (i - a)) else none := by
  induction n with
  | zero => simp
  | succ n ih =>
    rw [List.range_succ, List.map_append, List.lookup_append, ih, List.map_singleton, List.lookup_cons]
    by_cases hin : a ≤ i ∧ i < a + n
    · rw [if_pos hin, if_pos (by omega)]
      rfl
    · by_cases hlast : i = a + n
      · subst hlast
        simp
      · have hbeq : (i == a + n) = false := beq_eq_false_iff_ne.mpr hlast
        rw [if_neg hin, if_neg (by omega), hbeq]
        rfl

theorem byteAt_ofSize (size i : Nat) : (ofSize size).memory.byteAt i = 0 := by
  simp only [ofSize, Memory.byteAt, Array.getD_eq_getD_getElem?, Array.getElem?_replicate]
  split_ifs <;> rfl

/-- One act leaves every byte as it was stored last. -/
theorem byteAt_act {notes : List (Nat × UInt8)} (h0 : m.reg 0 = 0)
    (h : ∀ i, m.memory.byteAt i = latest notes i) {a : Act} (ha : a ≠ .reset) (i : Nat) :
    (m.act a).memory.byteAt i = latest (m.bytesStored a ++ notes) i := by
  rw [latest_append, ← h i]
  cases a with
  | reset => exact absurd rfl ha
  | wait clock => rfl
  | writeCsr csr value =>
    simp only [act, writeCsr]
    split_ifs <;> rfl
  | execute w =>
    simp only [act, bytesStored]
    rcases execute_cases h0 w with ⟨⟨op, operands⟩, hdecode, hallowed, hexec⟩ | ⟨trap, hexec⟩
    · have hstore := Instruction.effect_store ⟨op, operands⟩ m.value m
      simp only [hexec, hdecode, after]
      cases operands with
      | s rs1 rs2 imm =>
        have hin := hallowed.1 _ _ rfl
        simp only [hstore, lookup_bytes, Memory.byteAt_stored hin]
        split_ifs <;> rfl
      | _ => simp only [hstore]; rfl
    · simp only [hexec]
      rfl

/-- Nothing but a store that succeeds changes the memory. -/
theorem stored_of_memory_ne (h0 : m.reg 0 = 0) {w : Word} (h : (m.execute w).1.memory ≠ m.memory) :
    (m.execute w).2 = none ∧ ∃ op rs1 rs2 imm,
      Instruction.decode? w = some ⟨op, .s rs1 rs2 imm⟩ ∧ op ∈ [Op.sb, .sh, .sw] := by
  rcases execute_cases h0 w with ⟨⟨op, operands⟩, hdecode, -, hexec⟩ | ⟨trap, hexec⟩
  · have hstore := Instruction.effect_store ⟨op, operands⟩ m.value m
    simp only [hexec, after] at h
    cases operands with
    | s rs1 rs2 imm =>
      exact ⟨by rw [hexec], op, rs1, rs2, imm, hdecode, Instruction.mem_ofShape_of_decode? hdecode⟩
    | _ =>
      simp only [hstore] at h
      exact absurd rfl h
  · simp only [hexec] at h
    exact absurd rfl h

/-- A load that succeeds sets its register to the number of the bytes at its address. -/
theorem value_load (h0 : m.reg 0 = 0) {w : Word} {op : Op} {rd rs1 : Register} {imm : Int}
    (hdecode : Instruction.decode? w = some ⟨op, .load rd rs1 imm⟩) (hok : (m.execute w).2 = none)
    (hrd : rd ≠ .zero) :
    (m.execute w).1.value rd =
      m.memory.loaded (m.value rs1 + BitVec.ofInt 32 imm).toNat op.access.size op.takesSign := by
  have hvalid := Instruction.valid_of_decode? hdecode nofun nofun
  rw [(execute_of_decode? h0 hdecode hok).2]
  exact value_after rfl hrd hvalid.1

/-- **Every byte of memory is the one stored there last, or zero**, after every run; nothing but a store
that succeeds changes the memory; and a load gives the number that such bytes make, least significant
first, with its sign or without. -/
theorem memory_last_stored (size : Nat) (acts : List Act) :
    let m := (ofSize size).run acts
    let byte := latest ((ofSize size).noted bytesStored [] acts)
    m.memory.size = size ∧ (∀ i, m.memory.byteAt i = byte i) ∧
    (∀ w, (m.execute w).1.memory ≠ m.memory →
      (m.execute w).2 = none ∧ ∃ op rs1 rs2 imm,
        Instruction.decode? w = some ⟨op, .s rs1 rs2 imm⟩ ∧ op ∈ [Op.sb, .sh, .sw]) ∧
    ∀ w op rd rs1 imm, Instruction.decode? w = some ⟨op, .load rd rs1 imm⟩ →
      (m.execute w).2 = none → rd ≠ .zero →
        let a := (m.value rs1 + BitVec.ofInt 32 imm).toNat
        let n := op.access.size
        let number := ∑ j ∈ Finset.range n, (byte (a + j)).toNat * 256 ^ j
        (m.execute w).1.value rd =
          if op.takesSign then BitVec.ofInt 32 (Int.bmod number (256 ^ n)) else BitVec.ofNat 32 number := by
  intro m byte
  obtain ⟨hsound, hbytes⟩ : Sound size m ∧ ∀ i, m.memory.byteAt i = byte i := by
    refine run_noted (R := fun m notes => Sound size m ∧ ∀ i, m.memory.byteAt i = latest notes i)
      ?_ ?_ acts ⟨sound_ofSize size, byteAt_ofSize size⟩
    · intro m notes h
      exact ⟨h.1.reset, byteAt_ofSize m.memory.size⟩
    · intro m notes a ha h
      exact ⟨h.1.act a, byteAt_act h.1.zero h.2 ha⟩
  refine ⟨hsound.size_eq, hbytes, fun w => stored_of_memory_ne hsound.zero, ?_⟩
  intro w op rd rs1 imm hdecode hok hrd a n number
  have hnumber : m.memory.number a n = number := by
    simp only [Memory.number_eq_sum, hbytes, number]
  rw [value_load hsound.zero hdecode hok hrd, Memory.loaded, hnumber, pow_mul]
  rfl

/-- A byte stored over the upper byte of a half, and the half loaded from an odd address. -/
theorem memory_last_stored_lh :
    let acts := [Act.execute 0xFFE00093, .execute 0x00101123, .execute 0x000001A3]
    let before := (ofSize 8).run [.execute 0xFFE00093]
    let m := (ofSize 8).run acts
    let byte := latest ((ofSize 8).noted bytesStored [] acts)
    let a := (m.value .zero + BitVec.ofInt 32 1).toNat
    (before.execute 0x00101123).1.memory ≠ before.memory ∧
      (∃ op rs1 rs2 imm, Instruction.decode? 0x00101123 = some ⟨op, .s rs1 rs2 imm⟩ ∧
        op ∈ [Op.sb, .sh, .sw]) ∧
      Instruction.decode? 0x00101103 = some ⟨.lh, .load ⟨2⟩ .zero 1⟩ ∧ (m.execute 0x00101103).2 = none ∧
      (⟨2⟩ : Register) ≠ .zero ∧ a = 1 ∧ byte 1 = 0 ∧ byte 2 = 0xFE ∧
      (m.execute 0x00101103).1.value ⟨2⟩ =
        BitVec.ofInt 32 (Int.bmod (∑ j ∈ Finset.range 2, (byte (a + j)).toNat * 256 ^ j : Nat) (256 ^ 2)) := by
  intro acts before m byte a
  have hchanged : (before.execute 0x00101123).1.memory ≠ before.memory := by decide
  have hdecode : Instruction.decode? 0x00101103 = some ⟨.lh, .load ⟨2⟩ .zero 1⟩ := by decide
  have hok : (m.execute 0x00101103).2 = none := by decide
  have hrd : (⟨2⟩ : Register) ≠ .zero := by decide
  obtain ⟨-, -, hstores, -⟩ := memory_last_stored 8 [.execute 0xFFE00093]
  obtain ⟨-, -, -, hloads⟩ := memory_last_stored 8 acts
  exact ⟨hchanged, (hstores _ hchanged).2, hdecode, hok, hrd, by decide, by decide, by decide,
    (hloads _ _ _ _ _ hdecode hok hrd).trans (if_pos rfl)⟩

end Machine

end RvConsole
