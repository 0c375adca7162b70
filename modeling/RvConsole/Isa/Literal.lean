import RvConsole.Isa.OperandError

/-! Number literals.

A literal is an optional minus sign and then `0x` with hexadecimal digits, `0b` with binary digits,
or a decimal number; only zero itself starts with a zero. Its value has to fit a signed word. -/
namespace RvConsole.Literal

/-- The least and the greatest value of a signed word. -/
def least : Int := -0x80000000
def greatest : Int := 0x7FFFFFFF

/-- The value of a literal without its sign. -/
def magnitude? (t : Text) : Option Nat :=
  match Text.after? "0x" t with
  | some digits => Text.natural? 16 digits
  | none =>
    match Text.after? "0b" t with
    | some digits => Text.natural? 2 digits
    | none => if t.length > 1 ∧ t.head? = some (Text.byte '0') then none else Text.natural? 10 t

/-- The value that a literal spells, of any size. -/
def value? (t : Text) : Option Int :=
  match Text.after? "-" t with
  | some rest => (magnitude? rest).map fun n => -(n : Int)
  | none => (magnitude? t).map fun n => (n : Int)

def parse (token : Text) : Except OperandError Int :=
  match value? token with
  | some v => if least ≤ v ∧ v ≤ greatest then .ok v else .error (.notLiteral token)
  | none => .error (.notLiteral token)

end RvConsole.Literal
