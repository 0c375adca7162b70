import RvConsole.Isa.Instruction
import RvConsole.Isa.MemoryOperand
import RvConsole.Text.Lower

/-! Assembling: from a line of text to an instruction.

A line is a mnemonic in any letter case, then its arguments between commas. White space around the
line and around each argument does not count. Faults are found from the left: the mnemonic, the
number of arguments, then the arguments in order. -/
namespace RvConsole

/-- Why a line is not an instruction. -/
inductive ParseError where
  | unknownMnemonic (name : Text)
  | argumentCount (actual : Nat) (expected : List Nat)
  | argument (index : Nat) (cause : OperandError)
  deriving DecidableEq, Repr

def ParseError.message (style : NumberStyle) : ParseError → Text
  | unknownMnemonic name => Message.render style ⟨"'%v' is not an instruction", [.text name]⟩
  | argumentCount actual expected =>
    Message.render style ⟨"%d arguments given, expected %v",
      [.number actual, .text (Text.join " or " (expected.map style.natural))]⟩
  | argument index cause =>
    Message.render style ⟨"argument %d: %v", [.number index, .text (cause.message style)]⟩

/-! ### Mnemonics -/

/-- What a mnemonic stands for: an operation, or one of the abbreviations. -/
inductive Mnemonic where
  | op (op : Op)
  /-- `li rd,imm`, which is `addi rd,x0,imm`. -/
  | li
  /-- `nop`, which is `addi x0,x0,0`. -/
  | nop
  deriving DecidableEq, Repr

namespace Mnemonic

/-- The abbreviations, in alphabetical order. -/
def abbreviations : List (Text × Mnemonic) := [("li", .li), ("nop", .nop)]

def operations : List (Text × Mnemonic) := Op.all.map fun op => (op.name, .op op)

def ofName? (name : Text) : Option Mnemonic := (operations ++ abbreviations).lookup name

def concat {α : Type} (seqs : List (List α)) : List α := seqs.flatten

/-- All names: the operations in alphabetical order, then the abbreviations. -/
def names : List Text :=
  concat [(Op.all.map Op.name).mergeSort fun a b => decide (a ≤ b), abbreviations.map Prod.fst]

end Mnemonic

/-! ### Operands -/

/-- The result of reading argument `index`. -/
def argument {α : Type} (index : Nat) : Except OperandError α → Except ParseError α
  | .ok a => .ok a
  | .error cause => .error (.argument index cause)

def Op.readOperands (op : Op) (args : List Text) : Except ParseError Operands :=
  match op.info.shape, args with
  | .u, [rd, imm] => do
    return .u (← argument 0 (Register.parse rd)) (← argument 1 (ImmKind.u.parse imm))
  | .j, [rd, imm] => do
    return .j (← argument 0 (Register.parse rd)) (← argument 1 (ImmKind.j.parse imm))
  | .i, [rd, rs1, imm] => do
    return .i (← argument 0 (Register.parse rd)) (← argument 1 (Register.parse rs1))
      (← argument 2 (ImmKind.i.parse imm))
  | .load, [rd, memory] => do
    let rd ← argument 0 (Register.parse rd)
    let memory ← argument 1 (MemoryOperand.parse .i memory)
    return .load rd memory.base memory.offset
  | .s, [rs2, memory] => do
    let rs2 ← argument 0 (Register.parse rs2)
    let memory ← argument 1 (MemoryOperand.parse .s memory)
    return .s memory.base rs2 memory.offset
  | .b, [rs1, rs2, imm] => do
    return .b (← argument 0 (Register.parse rs1)) (← argument 1 (Register.parse rs2))
      (← argument 2 (ImmKind.b.parse imm))
  | .r, [rd, rs1, rs2] => do
    return .r (← argument 0 (Register.parse rd)) (← argument 1 (Register.parse rs1))
      (← argument 2 (Register.parse rs2))
  | .shift, [rd, rs1, shamt] => do
    return .shift (← argument 0 (Register.parse rd)) (← argument 1 (Register.parse rs1))
      (← argument 2 (ImmKind.shift.parse shamt))
  | .fence, [] => return .fence Order.all Order.all 0
  | .fence, [pred, succ] => do
    return .fence (← argument 0 (Order.parse pred)) (← argument 1 (Order.parse succ)) 0
  | .csr, [rd, csr, rs1] => do
    return .csr (← argument 0 (Register.parse rd)) (← argument 1 (ImmKind.csr.parse csr))
      (← argument 2 (Register.parse rs1))
  | .csri, [rd, csr, uimm] => do
    return .csri (← argument 0 (Register.parse rd)) (← argument 1 (ImmKind.csr.parse csr))
      (← argument 2 (ImmKind.uimm.parse uimm))
  | .system, [] => return .system op.info.imm
  | .u, _ | .j, _ | .load, _ | .s, _ => .error (.argumentCount args.length [2])
  | .i, _ | .b, _ | .r, _ | .shift, _ | .csr, _ | .csri, _ =>
    .error (.argumentCount args.length [3])
  | .fence, _ => .error (.argumentCount args.length [0, 2])
  | .system, _ => .error (.argumentCount args.length [0])

def Mnemonic.read : Mnemonic → List Text → Except ParseError Instruction
  | .op operation, args => do return ⟨operation, ← operation.readOperands args⟩
  | .li, [rd, imm] => do
    let rd ← argument 0 (Register.parse rd)
    let imm ← argument 1 (ImmKind.i.parse imm)
    return ⟨.addi, .i rd .zero imm⟩
  | .li, args => .error (.argumentCount args.length [2])
  | .nop, [] => return ⟨.addi, .i .zero .zero 0⟩
  | .nop, args => .error (.argumentCount args.length [0])

/-! ### Lines -/

/-- The mnemonic of a line, in lower case, and its arguments. -/
def cutLine (line : Text) : Text × List Text :=
  let (name, rest) := Text.splitBlank (Text.trim line)
  let rest := Text.trim rest
  (Text.lower name, if rest = [] then [] else (Text.split (Text.byte ',') rest).map Text.trim)

/-- Reads a line as an instruction. -/
def assemble (line : Text) : Except ParseError Instruction :=
  let (name, args) := cutLine line
  match Mnemonic.ofName? name with
  | none => .error (.unknownMnemonic name)
  | some mnemonic => mnemonic.read args

end RvConsole
