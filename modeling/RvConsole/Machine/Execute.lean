import RvConsole.Isa.Op
import RvConsole.Machine.Extract
import RvConsole.Machine.State

/-! Executing one word.

`step` is what a word does when it succeeds; a word that fails does nothing. `execute` adds what
happens either way: a cycle passes, and register zero is zero again. -/
namespace RvConsole.Machine

def bool (b : Bool) : Word := if b then 1 else 0

/-- Whether a branch is taken; none for a condition that there is not. -/
def taken? (funct3 : BitVec 3) (a b : Word) : Option Bool :=
  match funct3 with
  | 0b000 => some (a == b)
  | 0b001 => some (a != b)
  | 0b100 => some (a.slt b)
  | 0b101 => some (!a.slt b)
  | 0b110 => some (a.ult b)
  | 0b111 => some (!a.ult b)
  | _ => none

/-- What a load moves, and whether with its sign. -/
def loadAccess? (funct3 : BitVec 3) : Option (Access × Bool) :=
  match funct3 with
  | 0b000 => some (.byte, true)
  | 0b001 => some (.half, true)
  | 0b010 => some (.word, false)
  | 0b100 => some (.byte, false)
  | 0b101 => some (.half, false)
  | _ => none

def storeAccess? (funct3 : BitVec 3) : Option Access :=
  match funct3 with
  | 0b000 => some .byte
  | 0b001 => some .half
  | 0b010 => some .word
  | _ => none

/-- The value of an operation on a register and an immediate. -/
def aluImm? (w a : Word) : Option Word :=
  let imm := Extract.immI w
  let shamt := (Extract.shamt w).toNat
  match Extract.funct3 w with
  | 0b000 => some (a + imm)
  | 0b010 => some (bool (a.slt imm))
  | 0b011 => some (bool (a.ult imm))
  | 0b100 => some (a ^^^ imm)
  | 0b110 => some (a ||| imm)
  | 0b111 => some (a &&& imm)
  | 0b001 => if Extract.funct7 w = 0 then some (a <<< shamt) else none
  | _ =>
    if Extract.funct7 w = 0 then some (a >>> shamt)
    else if Extract.funct7 w = 0b0100000 then some (a.sshiftRight shamt)
    else none

/-- The value of an operation on two registers. -/
def alu? (w a b : Word) : Option Word :=
  let shamt := (b &&& 0x1F).toNat
  if Extract.funct7 w = 0 then
    match Extract.funct3 w with
    | 0b000 => some (a + b)
    | 0b001 => some (a <<< shamt)
    | 0b010 => some (bool (a.slt b))
    | 0b011 => some (bool (a.ult b))
    | 0b100 => some (a ^^^ b)
    | 0b101 => some (a >>> shamt)
    | 0b110 => some (a ||| b)
    | _ => some (a &&& b)
  else if Extract.funct7 w = 0b0100000 then
    match Extract.funct3 w with
    | 0b000 => some (a - b)
    | 0b101 => some (a.sshiftRight shamt)
    | _ => none
  else none

/-- What a CSR operation writes to a CSR that holds `old`: none for no write at all. -/
inductive CsrWrite where
  | illegal
  | keep
  | write (value : Word)

def csrWrite (funct3 : BitVec 3) (source : BitVec 5) (old operand : Word) : CsrWrite :=
  match funct3.extractLsb' 0 2 with
  | 0b01 => .write operand
  | 0b10 => if source = 0 then .keep else .write (old ||| operand)
  | 0b11 => if source = 0 then .keep else .write (old &&& ~~~operand)
  | _ => .illegal

/-- A word of the system opcode. There is no handler to call, so `ecall` and `ebreak` do nothing. -/
def system (m : Machine) (w : Word) : Except Cause Machine :=
  let csr := Extract.csr w
  let source := Extract.rs1 w
  let funct3 := Extract.funct3 w
  if funct3 = 0 then
    if Extract.rd w = 0 ∧ source = 0 ∧ csr ≤ 1 then .ok m else .error (.illegal w)
  else
    let operand := if funct3 &&& 0b100 = 0 then m.reg source else source.zeroExtend 32
    let old := m.readCsr csr
    match csrWrite funct3 source old operand with
    | .illegal => .error (.illegal w)
    | .keep => .ok (m.setReg (Extract.rd w) old)
    | .write value =>
      match m.writeCsr csr value with
      | .ok m => .ok (m.setReg (Extract.rd w) old)
      | .error cause => .error cause

/-- What a word does to the machine, the counters apart. -/
def step (m : Machine) (w : Word) : Except Cause Machine :=
  let illegal := Except.error (.illegal w)
  let rd := Extract.rd w
  let a := m.reg (Extract.rs1 w)
  let b := m.reg (Extract.rs2 w)
  let next := m.pc + 4
  let opcode := Extract.opcode w
  if opcode = Opcode.lui then .ok { m.setReg rd (Extract.immU w) with pc := next }
  else if opcode = Opcode.auipc then .ok { m.setReg rd (m.pc + Extract.immU w) with pc := next }
  else if opcode = Opcode.jal then .ok { m.setReg rd next with pc := m.pc + Extract.immJ w }
  else if opcode = Opcode.jalr then
    if Extract.funct3 w = 0 then
      .ok { m.setReg rd next with pc := (a + Extract.immI w) &&& ~~~1 }
    else illegal
  else if opcode = Opcode.branch then
    match taken? (Extract.funct3 w) a b with
    | some true => .ok { m with pc := m.pc + Extract.immB w }
    | some false => .ok { m with pc := next }
    | none => illegal
  else if opcode = Opcode.load then
    match loadAccess? (Extract.funct3 w) with
    | some (access, signed) =>
      match m.memory.load (a + Extract.immI w) access signed with
      | .ok value => .ok { m.setReg rd value with pc := next }
      | .error cause => .error cause
    | none => illegal
  else if opcode = Opcode.store then
    match storeAccess? (Extract.funct3 w) with
    | some access =>
      match m.memory.store (a + Extract.immS w) access b with
      | .ok memory => .ok { m with memory, pc := next }
      | .error cause => .error cause
    | none => illegal
  else if opcode = Opcode.opImm then
    match aluImm? w a with
    | some value => .ok { m.setReg rd value with pc := next }
    | none => illegal
  else if opcode = Opcode.op then
    match alu? w a b with
    | some value => .ok { m.setReg rd value with pc := next }
    | none => illegal
  else if opcode = Opcode.miscMem then
    if Extract.funct3 w ≤ 1 then .ok { m with pc := next } else illegal
  else if opcode = Opcode.system then
    match m.system w with
    | .ok m => .ok { m with pc := next }
    | .error cause => .error cause
  else illegal

/-- The machine after a word, and the trap if the word failed. -/
def execute (m : Machine) (w : Word) : Machine × Option Trap :=
  match m.step w with
  | .ok done =>
    ({ done.setReg 0 0 with cycle := m.cycle + 1, instret := m.instret + 1 }, none)
  | .error cause => ({ m.setReg 0 0 with cycle := m.cycle + 1 }, some ⟨m.pc, cause⟩)

end RvConsole.Machine
