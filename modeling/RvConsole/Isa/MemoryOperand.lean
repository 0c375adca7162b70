import RvConsole.Isa.Immediate
import RvConsole.Isa.Register
import RvConsole.Text.Blank

/-! Memory operands: a base register with an offset before it, `offset(base)`.

A bare register has offset zero, and so has an empty offset. White space around the offset and
around the register does not count. -/
namespace RvConsole

/-- A base register and an offset from it. -/
structure MemoryOperand where
  base : Register
  offset : Int
  deriving DecidableEq, Repr

namespace MemoryOperand

/-- The offset before the parenthesis; none means zero. -/
def parseOffset (kind : ImmKind) (t : Text) : Except OperandError Int :=
  if t = [] then .ok 0 else kind.parse t

/-- Reads a memory operand whose offset is of a kind; the register is read before the offset. -/
def parse (kind : ImmKind) (token : Text) : Except OperandError MemoryOperand :=
  let (offset, inside) := token.span (· ≠ Text.byte '(')
  match inside with
  | [] => do return ⟨← Register.parse token, 0⟩
  | _ :: inside =>
    if offset.contains (Text.byte ')') then .error .textAfterClose
    else
      let (base, rest) := inside.span (· ≠ Text.byte ')')
      match rest with
      | [] => .error .missingClose
      | [_] => do
        let base ← Register.parse (Text.trim base)
        let offset ← parseOffset kind (Text.trim offset)
        return ⟨base, offset⟩
      | _ => .error .textAfterClose

end MemoryOperand

end RvConsole
