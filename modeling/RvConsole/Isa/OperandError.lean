import RvConsole.Locale.Message

/-! What can be wrong with an operand. -/
namespace RvConsole

/-- Why a token is not the operand it should be. -/
inductive OperandError where
  | notRegister (token : Text)
  | notLiteral (token : Text)
  | notOrder (token : Text)
  | outsideRange (actual min max : Int)
  | oddNumber
  | missingClose
  | textAfterClose
  deriving DecidableEq, Repr

namespace OperandError

def wording : OperandError → Message
  | notRegister token => ⟨"'%v' is not a register", [.text token]⟩
  | notLiteral token => ⟨"'%v' is not a number", [.text token]⟩
  | notOrder token => ⟨"'%v' is not an ordered subset of 'iorw'", [.text token]⟩
  | outsideRange actual min max =>
    ⟨"%v is outside the range [%v, %v]", [.number actual, .number min, .number max]⟩
  | oddNumber => ⟨"even number required", []⟩
  | missingClose => ⟨"missing close parenthesis", []⟩
  | textAfterClose => ⟨"text after close parenthesis", []⟩

def message (style : NumberStyle) (e : OperandError) : Text := e.wording.render style

end OperandError

end RvConsole
