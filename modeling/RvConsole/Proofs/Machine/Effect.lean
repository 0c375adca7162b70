import Mathlib
import RvConsole.Isa.Instruction
import RvConsole.Machine.State

/-! What an instruction does, said over its operands.

No word and no field of one appears here: registers are registers, immediates are integers, bytes make
numbers. An instruction changes the program counter and at most one register, one place of memory and
one CSR (`Effect`); it reads the registers through a function, so that the same text says what it does
when register zero reads as zero and when it reads as what the register file holds. -/
namespace RvConsole

/-! ### Values -/

namespace Op

/-- What an operation makes of two values: two registers, or a register and an immediate. Shifts go by
the second value modulo 32. -/
def compute : Op → Word → Word → Word
  | add, x, y | addi, x, y => x + y
  | sub, x, y => x - y
  | sll, x, y | slli, x, y => x <<< (y.toNat % 32)
  | slt, x, y | slti, x, y => if x.toInt < y.toInt then 1 else 0
  | sltu, x, y | sltiu, x, y => if x.toNat < y.toNat then 1 else 0
  | xor, x, y | xori, x, y => x ^^^ y
  | srl, x, y | srli, x, y => BitVec.ofNat 32 (x.toNat / 2 ^ (y.toNat % 32))
  | sra, x, y | srai, x, y => BitVec.ofInt 32 (x.toInt / 2 ^ (y.toNat % 32))
  | or, x, y | ori, x, y => x ||| y
  | and, x, y | andi, x, y => x &&& y
  | _, x, _ => x

/-- Whether a branch is taken. -/
def condition : Op → Word → Word → Bool
  | beq, x, y => x = y
  | bne, x, y => x ≠ y
  | blt, x, y => x.toInt < y.toInt
  | bge, x, y => y.toInt ≤ x.toInt
  | bltu, x, y => x.toNat < y.toNat
  | bgeu, x, y => y.toNat ≤ x.toNat
  | _, _, _ => false

/-- What a load or store moves. -/
def access : Op → Access
  | lb | lbu | sb => .byte
  | lh | lhu | sh => .half
  | _ => .word

/-- Whether a load takes the sign of what it moves. -/
def takesSign : Op → Bool
  | lb | lh => true
  | _ => false

/-- What a CSR operation makes of the old value and its operand. -/
def combine : Op → (old operand : Word) → Word
  | csrrs, old, operand | csrrsi, old, operand => old ||| operand
  | csrrc, old, operand | csrrci, old, operand => old &&& ~~~operand
  | _, _, operand => operand

/-- Whether a CSR operation writes even when its source is zero. -/
def alwaysWrites : Op → Bool
  | csrrw | csrrwi => true
  | _ => false

end Op

namespace Memory

/-- The number that `n` bytes from an address on make, least significant first. -/
def number (mem : Memory) (a : Nat) : Nat → Nat
  | 0 => 0
  | n + 1 => (mem.byteAt a).toNat + 256 * number mem (a + 1) n

/-- The word that a load of `n` bytes gives, with their sign or without. -/
def loaded (mem : Memory) (a n : Nat) (sign : Bool) : Word :=
  if sign then BitVec.ofInt 32 (Int.bmod (mem.number a n) (2 ^ (8 * n)))
  else BitVec.ofNat 32 (mem.number a n)

/-- The memory in which `n` bytes from an address on are the low bytes of a word. -/
def stored (mem : Memory) (a n : Nat) (value : Word) : Memory :=
  mem.mapIdx fun i b => if a ≤ i ∧ i < a + n then UInt8.ofNat (value.toNat / 256 ^ (i - a)) else b

end Memory

namespace Machine

/-- What the register file holds for a register. -/
def held (m : Machine) (r : Register) : Word := m.regs.toArray.getD r.index.toNat 0

/-- What a register reads as: zero for register zero. -/
def value (m : Machine) (r : Register) : Word := if r = .zero then 0 else m.held r

/-- The value of a CSR by its number. The counters and the clock are shown by halves. -/
def csrValue (m : Machine) (number : Int) : Word :=
  if number = 0xC00 then BitVec.ofNat 32 m.cycle.toNat
  else if number = 0xC80 then BitVec.ofNat 32 (m.cycle.toNat / 2 ^ 32)
  else if number = 0xC01 then BitVec.ofNat 32 m.clock.toNat
  else if number = 0xC81 then BitVec.ofNat 32 (m.clock.toNat / 2 ^ 32)
  else if number = 0xC02 then BitVec.ofNat 32 m.instret.toNat
  else if number = 0xC82 then BitVec.ofNat 32 (m.instret.toNat / 2 ^ 32)
  else m.csrs (BitVec.ofInt 32 number)

end Machine

/-! ### Effects -/

/-- What an instruction changes. -/
structure Effect where
  /-- Where the machine goes on. -/
  next : Word
  /-- The register that is set, and to what. -/
  register : Option (Register × Word) := none
  /-- The address that is stored at, how much is stored, and of which word. -/
  store : Option (Word × Access × Word) := none
  /-- The CSR that is written, and with what. -/
  csr : Option (Int × Word) := none

namespace Instruction

/-- The address and the size of a load or store, given what the registers read as. -/
def access? (inst : Instruction) (x : Register → Word) : Option (Word × Access) :=
  match inst.operands with
  | .load _ rs1 imm | .s rs1 _ imm => some (x rs1 + BitVec.ofInt 32 imm, inst.op.access)
  | _ => none

/-- The CSR that is written: setting and clearing bits writes only when the source is not zero. -/
def written? (inst : Instruction) : Option Int :=
  match inst.operands with
  | .csr _ number rs1 => if inst.op.alwaysWrites ∨ rs1 ≠ .zero then some number else none
  | .csri _ number uimm => if inst.op.alwaysWrites ∨ uimm ≠ 0 then some number else none
  | _ => none

/-- Whether a machine lets an instruction do what it does: it stays inside the memory, and it writes no
CSR that only reads. -/
def Allowed (inst : Instruction) (x : Register → Word) (m : Machine) : Prop :=
  (∀ a access, inst.access? x = some (a, access) → a.toNat + access.size ≤ m.memory.size) ∧
    ∀ number, inst.written? = some number → number < 0xC00

/-- What an instruction changes in a machine whose registers read as `x`. -/
def effect (inst : Instruction) (x : Register → Word) (m : Machine) : Effect :=
  let next := m.pc + 4
  match inst.operands with
  | .u rd imm =>
    let upper := BitVec.ofInt 32 (imm * 2 ^ 12)
    { next, register := some (rd, if inst.op = .auipc then m.pc + upper else upper) }
  | .j rd imm => { next := m.pc + BitVec.ofInt 32 imm, register := some (rd, next) }
  | .i rd rs1 imm =>
    let y := BitVec.ofInt 32 imm
    if inst.op = .jalr then
      { next := BitVec.ofNat 32 ((x rs1 + y).toNat / 2 * 2), register := some (rd, next) }
    else { next, register := some (rd, inst.op.compute (x rs1) y) }
  | .load rd rs1 imm =>
    let a := x rs1 + BitVec.ofInt 32 imm
    { next, register := some (rd, m.memory.loaded a.toNat inst.op.access.size inst.op.takesSign) }
  | .s rs1 rs2 imm => { next, store := some (x rs1 + BitVec.ofInt 32 imm, inst.op.access, x rs2) }
  | .b rs1 rs2 imm =>
    { next := if inst.op.condition (x rs1) (x rs2) then m.pc + BitVec.ofInt 32 imm else next }
  | .r rd rs1 rs2 => { next, register := some (rd, inst.op.compute (x rs1) (x rs2)) }
  | .shift rd rs1 shamt => { next, register := some (rd, inst.op.compute (x rs1) (BitVec.ofInt 32 shamt)) }
  | .csr rd number rs1 =>
    let old := m.csrValue number
    { next, register := some (rd, old),
      csr := inst.written?.map fun number => (number, inst.op.combine old (x rs1)) }
  | .csri rd number uimm =>
    let old := m.csrValue number
    { next, register := some (rd, old),
      csr := inst.written?.map fun number => (number, inst.op.combine old (BitVec.ofInt 32 uimm)) }
  | .fence .. | .system .. => { next }

end Instruction

/-- The machine after an effect: register zero takes nothing, and both counters go on. -/
def Machine.after (m : Machine) (e : Effect) : Machine where
  regs := match e.register with
    | some (r, v) => if r = .zero then m.regs else m.regs.setIfInBounds r.index.toNat v
    | none => m.regs
  pc := e.next
  memory := match e.store with
    | some (a, access, v) => m.memory.stored a.toNat access.size v
    | none => m.memory
  cycle := m.cycle + 1
  instret := m.instret + 1
  csrs := match e.csr with
    | some (number, v) => fun n => if n = BitVec.ofInt 32 number then v else m.csrs n
    | none => m.csrs
  clock := m.clock

end RvConsole
