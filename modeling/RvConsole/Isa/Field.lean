import RvConsole.Isa.Immediate
import RvConsole.Isa.Register

/-! The fields of an instruction word.

A field occupies the bits of its mask. Placing moves a value to those bits in twice the width of a
word, so that nothing is lost past the top, and fails when a bit falls outside the mask. The
immediates of the wide formats keep only the bits their format holds and so always fit. -/
namespace RvConsole

inductive Field where
  | opcode | funct3 | funct7
  | fm | pred | succ
  | rd | rs1 | rs2
  | imm (kind : ImmKind)
  deriving DecidableEq, Repr

/-- A value that does not fit its field. -/
structure Misfit where
  bits : BitVec 64
  mask : Word
  deriving DecidableEq, Repr

def Misfit.message (m : Misfit) (style : NumberStyle) : Text :=
  Message.render style
    ⟨"placed bits 0x%X do not fit within the mask 0x%08X",
      [.number m.bits.toNat, .number m.mask.toNat]⟩

namespace Field

/-- The bits of the word that a field occupies. -/
def mask : Field → Word
  | opcode => 0x7F
  | funct3 => 0x7 <<< 12
  | funct7 => 0x7F <<< 25
  | fm => 0xF <<< 28
  | pred => 0xF <<< 24
  | succ => 0xF <<< 20
  | rd => 0x1F <<< 7
  | rs1 => 0x1F <<< 15
  | rs2 => 0x1F <<< 20
  | imm .u => 0xFFFFF000
  | imm .j => 0xFFFFF000
  | imm .i => 0xFFF00000
  | imm .s => 0xFE000F80
  | imm .b => 0xFE000F80
  | imm .shift => 0x1F <<< 20
  | imm .csr => 0xFFF <<< 20
  | imm .uimm => 0x1F <<< 15

/-- A value moved to its field's bits, before the mask is checked. -/
def scatter (field : Field) (value : Word) : BitVec 64 :=
  let v := value.zeroExtend 64
  match field with
  | opcode => v
  | funct3 => v <<< 12
  | funct7 => v <<< 25
  | fm => v <<< 28
  | pred => v <<< 24
  | succ => v <<< 20
  | rd => v <<< 7
  | rs1 => v <<< 15
  | rs2 => v <<< 20
  | imm .u => (v &&& 0xFFFFF) <<< 12
  | imm .j =>
    ((v &&& 0x100000) <<< 11) ||| ((v &&& 0x7FE) <<< 20) ||| ((v &&& 0x800) <<< 9) |||
      (v &&& 0xFF000)
  | imm .i => (v &&& 0xFFF) <<< 20
  | imm .s => ((v &&& 0xFE0) <<< 20) ||| ((v &&& 0x1F) <<< 7)
  | imm .b =>
    ((v &&& 0x1000) <<< 19) ||| ((v &&& 0x7E0) <<< 20) ||| ((v &&& 0x1E) <<< 7) |||
      ((v &&& 0x800) >>> 4)
  | imm .shift => v <<< 20
  | imm .csr => v <<< 20
  | imm .uimm => v <<< 15

def place (field : Field) (value : Word) : Except Misfit Word :=
  let bits := field.scatter value
  if bits &&& ~~~ field.mask.zeroExtend 64 = 0 then .ok (bits.truncate 32)
  else .error ⟨bits, field.mask⟩

end Field

end RvConsole
