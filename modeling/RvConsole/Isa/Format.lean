import RvConsole.Text.Numeral

/-! Encoding formats: how the word divides into labelled columns. -/
namespace RvConsole

inductive Format where
  | u | j | i | iCsr | iCsri | b | r | s | shift | fence
  deriving DecidableEq, Repr

/-- A column of a format: its label and how many bits it has. -/
structure Column where
  header : Text
  width : Nat
  deriving DecidableEq, Repr

namespace Format

/-- The formats in the order of their numbers. -/
def all : List Format := [u, j, i, iCsr, iCsri, b, r, s, shift, fence]

def name : Format → Text
  | u => "U"
  | j => "J"
  | i => "I"
  | iCsr => "I-CSR"
  | iCsri => "I-CSRI"
  | b => "B"
  | r => "R"
  | s => "S"
  | shift => "Shift"
  | fence => "Fence"

def ofNumber? : Int → Option Format
  | .ofNat n => all[n]?
  | .negSucc _ => none

/-- The name of a format by its number; a number that is no format names itself. -/
def nameOfNumber (n : Int) : Text :=
  match ofNumber? n with
  | some format => format.name
  | none => "Format(" ++ Text.decimal n ++ ")"

/-- The columns of a format, most significant first. -/
def columns : Format → List Column
  | u => [⟨"imm[31:12]", 20⟩, ⟨"rd", 5⟩, ⟨"opcode", 7⟩]
  | j => [⟨"imm[20|10:1|11|19:12]", 20⟩, ⟨"rd", 5⟩, ⟨"opcode", 7⟩]
  | i => [⟨"imm[11:0]", 12⟩, ⟨"rs1", 5⟩, ⟨"funct3", 3⟩, ⟨"rd", 5⟩, ⟨"opcode", 7⟩]
  | iCsr => [⟨"csr", 12⟩, ⟨"rs1", 5⟩, ⟨"funct3", 3⟩, ⟨"rd", 5⟩, ⟨"opcode", 7⟩]
  | iCsri => [⟨"csr", 12⟩, ⟨"uimm[4:0]", 5⟩, ⟨"funct3", 3⟩, ⟨"rd", 5⟩, ⟨"opcode", 7⟩]
  | b => [⟨"imm[12|10:5]", 7⟩, ⟨"rs2", 5⟩, ⟨"rs1", 5⟩, ⟨"funct3", 3⟩, ⟨"imm[4:1|11]", 5⟩,
      ⟨"opcode", 7⟩]
  | r => [⟨"funct7", 7⟩, ⟨"rs2", 5⟩, ⟨"rs1", 5⟩, ⟨"funct3", 3⟩, ⟨"rd", 5⟩, ⟨"opcode", 7⟩]
  | s => [⟨"imm[11:5]", 7⟩, ⟨"rs2", 5⟩, ⟨"rs1", 5⟩, ⟨"funct3", 3⟩, ⟨"imm[4:0]", 5⟩, ⟨"opcode", 7⟩]
  | shift => [⟨"funct7", 7⟩, ⟨"shamt", 5⟩, ⟨"rs1", 5⟩, ⟨"funct3", 3⟩, ⟨"rd", 5⟩, ⟨"opcode", 7⟩]
  | fence => [⟨"fm", 4⟩, ⟨"pred", 4⟩, ⟨"succ", 4⟩, ⟨"rs1", 5⟩, ⟨"funct3", 3⟩, ⟨"rd", 5⟩,
      ⟨"opcode", 7⟩]

end Format

end RvConsole
