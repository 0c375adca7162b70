import RvConsole.Isa.Register
import RvConsole.Locale.Message

/-! Why a word fails to execute. -/
namespace RvConsole

inductive Cause where
  /-- The word is no instruction. -/
  | illegal (word : Word)
  /-- A load or store that leaves the memory. -/
  | address (start : Word) (size : Nat)
  | readOnlyCsr
  deriving DecidableEq, Repr

/-- A cause and the program counter of the word that met it. -/
structure Trap where
  pc : Word
  cause : Cause
  deriving DecidableEq, Repr

def Cause.message (style : NumberStyle) : Cause → Text
  | illegal word => Message.render style ⟨"illegal instruction 0x%08X", [.number word.toNat]⟩
  | address start size =>
    Message.render style ⟨"%d byte access at 0x%08X is outside of memory",
      [.number size, .number start.toNat]⟩
  | readOnlyCsr => "CSR is read-only"

def Trap.message (style : NumberStyle) (trap : Trap) : Text :=
  Message.render style ⟨"pc 0x%08X %v", [.number trap.pc.toNat, .text (trap.cause.message style)]⟩

end RvConsole
