import RvConsole.Isa.Field
import RvConsole.Isa.Immediate
import RvConsole.Isa.Op
import RvConsole.Isa.Register

/-! Instructions: an operation with its operands.

An instruction is a row of fields; its word is their bits put together. Operands hold whatever
values they were given: `WellFormed` says that the operands are of the operation's shape and every
value is admissible, which is so for every instruction read from text. -/
namespace RvConsole

/-- Operands, by the shape in which they are written. -/
inductive Operands where
  | u (rd : Register) (imm : Int)
  | j (rd : Register) (imm : Int)
  | i (rd rs1 : Register) (imm : Int)
  | load (rd rs1 : Register) (imm : Int)
  | s (rs1 rs2 : Register) (imm : Int)
  | b (rs1 rs2 : Register) (imm : Int)
  | r (rd rs1 rs2 : Register)
  | shift (rd rs1 : Register) (shamt : Int)
  | fence (pred succ fm : Word)
  | csr (rd : Register) (number : Int) (rs1 : Register)
  | csri (rd : Register) (number uimm : Int)
  | system (imm : Int)
  deriving DecidableEq, Repr

namespace Operands

def shape : Operands → Shape
  | u .. => .u
  | j .. => .j
  | i .. => .i
  | load .. => .load
  | s .. => .s
  | b .. => .b
  | r .. => .r
  | shift .. => .shift
  | fence .. => .fence
  | csr .. => .csr
  | csri .. => .csri
  | system .. => .system

/-- Operands as they are written after the mnemonic. -/
def text : Operands → Text
  | u rd imm => rd.text ++ "," ++ ImmKind.u.text imm
  | j rd imm => rd.text ++ "," ++ ImmKind.j.text imm
  | i rd rs1 imm => rd.text ++ "," ++ rs1.text ++ "," ++ ImmKind.i.text imm
  | load rd rs1 imm => rd.text ++ "," ++ ImmKind.i.text imm ++ "(" ++ rs1.text ++ ")"
  | s rs1 rs2 imm => rs2.text ++ "," ++ ImmKind.s.text imm ++ "(" ++ rs1.text ++ ")"
  | b rs1 rs2 imm => rs1.text ++ "," ++ rs2.text ++ "," ++ ImmKind.b.text imm
  | r rd rs1 rs2 => rd.text ++ "," ++ rs1.text ++ "," ++ rs2.text
  | shift rd rs1 shamt => rd.text ++ "," ++ rs1.text ++ "," ++ ImmKind.shift.text shamt
  | fence pred succ _ => Order.text pred ++ "," ++ Order.text succ
  | csr rd number rs1 => rd.text ++ "," ++ ImmKind.csr.text number ++ "," ++ rs1.text
  | csri rd number uimm =>
    rd.text ++ "," ++ ImmKind.csr.text number ++ "," ++ ImmKind.uimm.text uimm
  | system _ => []

/-- A register number that there is. -/
def IsRegister (r : Register) : Prop := r.index.toNat < registerCount

instance (r : Register) : Decidable (IsRegister r) := inferInstanceAs (Decidable (_ < _))

/-- Whether every value is admissible where it stands. -/
def Valid : Operands → Prop
  | u rd imm => IsRegister rd ∧ ImmKind.u.Admits imm
  | j rd imm => IsRegister rd ∧ ImmKind.j.Admits imm
  | i rd rs1 imm => IsRegister rd ∧ IsRegister rs1 ∧ ImmKind.i.Admits imm
  | load rd rs1 imm => IsRegister rd ∧ IsRegister rs1 ∧ ImmKind.i.Admits imm
  | s rs1 rs2 imm => IsRegister rs1 ∧ IsRegister rs2 ∧ ImmKind.s.Admits imm
  | b rs1 rs2 imm => IsRegister rs1 ∧ IsRegister rs2 ∧ ImmKind.b.Admits imm
  | r rd rs1 rs2 => IsRegister rd ∧ IsRegister rs1 ∧ IsRegister rs2
  | shift rd rs1 shamt => IsRegister rd ∧ IsRegister rs1 ∧ ImmKind.shift.Admits shamt
  | fence pred succ fm => pred.toNat < 16 ∧ succ.toNat < 16 ∧ fm = 0
  | csr rd number rs1 => IsRegister rd ∧ ImmKind.csr.Admits number ∧ IsRegister rs1
  | csri rd number uimm => IsRegister rd ∧ ImmKind.csr.Admits number ∧ ImmKind.uimm.Admits uimm
  | system imm => ImmKind.i.Admits imm

end Operands

structure Instruction where
  op : Op
  operands : Operands
  deriving DecidableEq, Repr

namespace Instruction

def text (inst : Instruction) : Text :=
  let operands := inst.operands.text
  if operands = [] then inst.op.name else inst.op.name ++ " " ++ operands

/-- Whether an instruction is one that can be written: operands of the operation's shape, every
value admissible, and the operation's own immediate where none is written. -/
def WellFormed (inst : Instruction) : Prop :=
  inst.operands.shape = inst.op.info.shape ∧ inst.operands.Valid ∧
    ∀ imm, inst.operands = .system imm → imm = inst.op.info.imm

/-! ### Encoding -/

def wordOf (v : Int) : Word := BitVec.ofInt 32 v

/-- The fields of an instruction and their values, in the order in which they are placed. -/
def fields (inst : Instruction) : List (Field × Word) :=
  let info := inst.op.info
  match inst.operands with
  | .u rd imm => [(.opcode, info.opcode), (.rd, rd.index), (.imm .u, wordOf imm)]
  | .j rd imm => [(.opcode, info.opcode), (.rd, rd.index), (.imm .j, wordOf imm)]
  | .i rd rs1 imm | .load rd rs1 imm =>
    [(.opcode, info.opcode), (.rd, rd.index), (.funct3, info.funct3), (.rs1, rs1.index),
      (.imm .i, wordOf imm)]
  | .s rs1 rs2 imm =>
    [(.opcode, info.opcode), (.funct3, info.funct3), (.rs1, rs1.index), (.rs2, rs2.index),
      (.imm .s, wordOf imm)]
  | .b rs1 rs2 imm =>
    [(.opcode, info.opcode), (.funct3, info.funct3), (.rs1, rs1.index), (.rs2, rs2.index),
      (.imm .b, wordOf imm)]
  | .r rd rs1 rs2 =>
    [(.opcode, info.opcode), (.rd, rd.index), (.funct3, info.funct3), (.rs1, rs1.index),
      (.rs2, rs2.index), (.funct7, info.funct7)]
  | .shift rd rs1 shamt =>
    [(.opcode, info.opcode), (.rd, rd.index), (.funct3, info.funct3), (.rs1, rs1.index),
      (.imm .shift, wordOf shamt), (.funct7, info.funct7)]
  | .fence pred succ fm =>
    [(.opcode, info.opcode), (.rd, 0), (.funct3, info.funct3), (.rs1, 0), (.succ, succ),
      (.pred, pred), (.fm, fm)]
  | .csr rd number rs1 =>
    [(.opcode, info.opcode), (.rd, rd.index), (.funct3, info.funct3), (.rs1, rs1.index),
      (.imm .csr, wordOf number)]
  | .csri rd number uimm =>
    [(.opcode, info.opcode), (.rd, rd.index), (.funct3, info.funct3), (.imm .uimm, wordOf uimm),
      (.imm .csr, wordOf number)]
  | .system imm =>
    [(.opcode, info.opcode), (.rd, 0), (.funct3, info.funct3), (.rs1, 0), (.imm .i, wordOf imm)]

/-- Places fields one after the other over a word; the first misfit ends it. -/
def placeAll : List (Field × Word) → Word → Except Misfit Word
  | [], word => .ok word
  | (field, value) :: rest, word => do
    let bits ← field.place value
    placeAll rest (word ||| bits)

/-- The word of an instruction, or its first field that does not fit. -/
def encode (inst : Instruction) : Except Misfit Word := placeAll inst.fields 0

/-- The word of an instruction whose fields all fit. -/
def word (inst : Instruction) : Word :=
  inst.fields.foldl (fun word field => word ||| (field.1.scatter field.2).truncate 32) 0

/-! ### Bit columns -/

/-- A labelled slice of the word: the label and its binary digits. -/
structure Slice where
  header : Text
  bits : Text
  deriving DecidableEq, Repr

/-- Cuts binary digits into the columns of a format. -/
def slice : List Column → Text → List Slice
  | [], _ => []
  | column :: rest, digits =>
    ⟨column.header, digits.take column.width⟩ :: slice rest (digits.drop column.width)

/-- The columns of an instruction's format with the bits of its word. -/
def slices (inst : Instruction) : List Slice :=
  slice inst.op.info.format.columns (Text.bits inst.word)

end Instruction

end RvConsole
