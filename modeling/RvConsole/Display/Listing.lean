import RvConsole.Display.Table
import RvConsole.Isa.Instruction
import RvConsole.Machine.State

/-! The tables that are shown.

An instruction is shown as its text, its word in hexadecimal and its bit columns, and the register file as two tables
side by side. -/

namespace RvConsole.Instruction

/-- What stands between two bit columns. -/
def bar : Text := " │ "

/-- The labels of the bit columns above their bits, each centred over the other. -/
def breakdown (inst : Instruction) : Text × Text :=
  let wide := inst.slices.map fun s => (s, max s.header.runeCount s.bits.length)
  (Text.join bar (wide.map fun (s, width) => Align.center.fill width s.header),
    Text.join bar (wide.map fun (s, width) => Align.center.fill width s.bits))

/-- The table. The bit columns are already filled, so theirs stands left. -/
def table (inst : Instruction) : Table :=
  let (headers, bits) := inst.breakdown
  { headers := ["Mnemonic", "Hexadecimal", "Binary"]
    aligns := [.center, .center, .left]
    rows := [["\n" ++ inst.text, "\n" ++ Text.hexWord inst.word, headers ++ "\n" ++ bits]] }

def tableLines (inst : Instruction) : List Text := inst.table.lines

end RvConsole.Instruction

namespace RvConsole.RegisterFile

/-- How many tables stand side by side. -/
def tableCount : Nat := 2

def rowCount : Nat := registerCount / tableCount

/-- A register's row: its number, its name and its value. -/
def row (regs : RegisterFile) (index : Nat) : List Text :=
  [Text.byte 'x' :: Text.numeral 10 index, Register.abiName index,
    "0x" ++ Text.hexWord (regs[index]?.getD 0)]

/-- The table at a position from the left. -/
def table (regs : RegisterFile) (position : Nat) : Table :=
  { headers := ["Name", "ABI", "Value"]
    rows := (List.range rowCount).map fun n => regs.row (position * rowCount + n) }

/-- The lines of the tables, joined side by side. -/
def tableLines (regs : RegisterFile) : List Text :=
  List.zipWith (fun a b => a ++ " " ++ b) (regs.table 0).lines (regs.table 1).lines

end RvConsole.RegisterFile
