import RvConsole.Isa.Format
import RvConsole.Isa.Register
import RvConsole.Locale.Message

/-! The operations of RV32I with their fixed encodings.

One table gives each operation its mnemonic, its format, the operands it is written with and the
constants of its word. Reading, printing, encoding and the bit columns all go by this table. -/
namespace RvConsole

/-- How the operands of an operation are written. -/
inductive Shape where
  /-- `rd,imm` with an upper immediate. -/
  | u
  /-- `rd,imm` with a jump offset. -/
  | j
  /-- `rd,rs1,imm`. -/
  | i
  /-- `rd,offset(rs1)`. -/
  | load
  /-- `rs2,offset(rs1)`. -/
  | s
  /-- `rs1,rs2,imm`. -/
  | b
  /-- `rd,rs1,rs2`. -/
  | r
  /-- `rd,rs1,shamt`. -/
  | shift
  /-- `pred,succ`, or nothing for all accesses. -/
  | fence
  /-- `rd,csr,rs1`. -/
  | csr
  /-- `rd,csr,uimm`. -/
  | csri
  /-- Nothing. -/
  | system
  deriving DecidableEq, Repr

/-! ### Major opcodes -/

namespace Opcode

def lui : Word := 0b0110111
def auipc : Word := 0b0010111
def jal : Word := 0b1101111
def jalr : Word := 0b1100111
def branch : Word := 0b1100011
def load : Word := 0b0000011
def store : Word := 0b0100011
def opImm : Word := 0b0010011
def op : Word := 0b0110011
def miscMem : Word := 0b0001111
def system : Word := 0b1110011

end Opcode

/-! ### The table -/

/-- The operations, in the order of their numbers. -/
inductive Op where
  | lui | auipc | jal | jalr | beq | bne | blt | bge | bltu | bgeu | lb | lh | lw | lbu | lhu
  | sb | sh | sw | addi | slti | sltiu | xori | ori | andi | slli | srli | srai | add | sub | sll
  | slt | sltu | xor | srl | sra | or | and | fence | fenceI | ecall | ebreak | csrrw | csrrs
  | csrrc | csrrwi | csrrsi | csrrci
  deriving DecidableEq, Repr

/-- What is fixed about an operation. -/
structure OpInfo where
  name : Text
  format : Format
  shape : Shape
  opcode : Word
  funct3 : Word := 0
  funct7 : Word := 0
  /-- The immediate of an operation that is written without operands. -/
  imm : Int := 0

namespace Op

/-- The operations in the order of their numbers. -/
def all : List Op := [
  lui, auipc, jal, jalr, beq, bne, blt, bge, bltu, bgeu, lb, lh, lw, lbu, lhu, sb, sh, sw, addi,
  slti, sltiu, xori, ori, andi, slli, srli, srai, add, sub, sll, slt, sltu, xor, srl, sra, or,
  and, fence, fenceI, ecall, ebreak, csrrw, csrrs, csrrc, csrrwi, csrrsi, csrrci]

/-- The operation of a number. -/
def ofNumber? : Int → Option Op
  | .ofNat n => all[n]?
  | .negSucc _ => none

/-- The number of an operation. -/
def number (op : Op) : Nat := all.idxOf op

/-- The table. -/
def info : Op → OpInfo
  | lui => ⟨"lui", .u, .u, Opcode.lui, 0b000, 0, 0⟩
  | auipc => ⟨"auipc", .u, .u, Opcode.auipc, 0b000, 0, 0⟩
  | jal => ⟨"jal", .j, .j, Opcode.jal, 0b000, 0, 0⟩
  | jalr => ⟨"jalr", .i, .i, Opcode.jalr, 0b000, 0, 0⟩
  | beq => ⟨"beq", .b, .b, Opcode.branch, 0b000, 0, 0⟩
  | bne => ⟨"bne", .b, .b, Opcode.branch, 0b001, 0, 0⟩
  | blt => ⟨"blt", .b, .b, Opcode.branch, 0b100, 0, 0⟩
  | bge => ⟨"bge", .b, .b, Opcode.branch, 0b101, 0, 0⟩
  | bltu => ⟨"bltu", .b, .b, Opcode.branch, 0b110, 0, 0⟩
  | bgeu => ⟨"bgeu", .b, .b, Opcode.branch, 0b111, 0, 0⟩
  | lb => ⟨"lb", .i, .load, Opcode.load, 0b000, 0, 0⟩
  | lh => ⟨"lh", .i, .load, Opcode.load, 0b001, 0, 0⟩
  | lw => ⟨"lw", .i, .load, Opcode.load, 0b010, 0, 0⟩
  | lbu => ⟨"lbu", .i, .load, Opcode.load, 0b100, 0, 0⟩
  | lhu => ⟨"lhu", .i, .load, Opcode.load, 0b101, 0, 0⟩
  | sb => ⟨"sb", .s, .s, Opcode.store, 0b000, 0, 0⟩
  | sh => ⟨"sh", .s, .s, Opcode.store, 0b001, 0, 0⟩
  | sw => ⟨"sw", .s, .s, Opcode.store, 0b010, 0, 0⟩
  | addi => ⟨"addi", .i, .i, Opcode.opImm, 0b000, 0, 0⟩
  | slti => ⟨"slti", .i, .i, Opcode.opImm, 0b010, 0, 0⟩
  | sltiu => ⟨"sltiu", .i, .i, Opcode.opImm, 0b011, 0, 0⟩
  | xori => ⟨"xori", .i, .i, Opcode.opImm, 0b100, 0, 0⟩
  | ori => ⟨"ori", .i, .i, Opcode.opImm, 0b110, 0, 0⟩
  | andi => ⟨"andi", .i, .i, Opcode.opImm, 0b111, 0, 0⟩
  | slli => ⟨"slli", .shift, .shift, Opcode.opImm, 0b001, 0, 0⟩
  | srli => ⟨"srli", .shift, .shift, Opcode.opImm, 0b101, 0, 0⟩
  | srai => ⟨"srai", .shift, .shift, Opcode.opImm, 0b101, 0b0100000, 0⟩
  | add => ⟨"add", .r, .r, Opcode.op, 0b000, 0, 0⟩
  | sub => ⟨"sub", .r, .r, Opcode.op, 0b000, 0b0100000, 0⟩
  | sll => ⟨"sll", .r, .r, Opcode.op, 0b001, 0, 0⟩
  | slt => ⟨"slt", .r, .r, Opcode.op, 0b010, 0, 0⟩
  | sltu => ⟨"sltu", .r, .r, Opcode.op, 0b011, 0, 0⟩
  | xor => ⟨"xor", .r, .r, Opcode.op, 0b100, 0, 0⟩
  | srl => ⟨"srl", .r, .r, Opcode.op, 0b101, 0, 0⟩
  | sra => ⟨"sra", .r, .r, Opcode.op, 0b101, 0b0100000, 0⟩
  | or => ⟨"or", .r, .r, Opcode.op, 0b110, 0, 0⟩
  | and => ⟨"and", .r, .r, Opcode.op, 0b111, 0, 0⟩
  | fence => ⟨"fence", .fence, .fence, Opcode.miscMem, 0b000, 0, 0⟩
  | fenceI => ⟨"fence.i", .i, .system, Opcode.miscMem, 0b001, 0, 0⟩
  | ecall => ⟨"ecall", .i, .system, Opcode.system, 0b000, 0, 0⟩
  | ebreak => ⟨"ebreak", .i, .system, Opcode.system, 0b000, 0, 1⟩
  | csrrw => ⟨"csrrw", .iCsr, .csr, Opcode.system, 0b001, 0, 0⟩
  | csrrs => ⟨"csrrs", .iCsr, .csr, Opcode.system, 0b010, 0, 0⟩
  | csrrc => ⟨"csrrc", .iCsr, .csr, Opcode.system, 0b011, 0, 0⟩
  | csrrwi => ⟨"csrrwi", .iCsri, .csri, Opcode.system, 0b101, 0, 0⟩
  | csrrsi => ⟨"csrrsi", .iCsri, .csri, Opcode.system, 0b110, 0, 0⟩
  | csrrci => ⟨"csrrci", .iCsri, .csri, Opcode.system, 0b111, 0, 0⟩

/-- The mnemonic of an operation. -/
def name (op : Op) : Text := op.info.name

/-- The mnemonic of an operation by its number; a number that is no operation names itself. -/
def nameOfNumber (style : NumberStyle) (n : Int) : Text :=
  match ofNumber? n with
  | some op => op.name
  | none => Message.render style ⟨"Op(%d)", [.number n]⟩

end Op

end RvConsole
