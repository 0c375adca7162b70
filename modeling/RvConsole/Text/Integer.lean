import RvConsole.Text.Numeral

/-! Integers as settings and equates write them.

An integer has an optional sign and its base in front: `0x`, `0o` and `0b`, or a zero for octal.
Single underscores may stand between its digits and behind the base. The value has to fit 64 bits
with a sign. -/
namespace RvConsole.Text

inductive IntegerFault where
  | malformed
  | outOfRange
  deriving DecidableEq, Repr

def underscore : UInt8 := byte '_'

/-- The lower-case form of an ASCII letter. -/
def lowerByte (b : UInt8) : UInt8 := if 65 ≤ b ∧ b ≤ 90 then b + 32 else b

/-- The base that digits are written in, and the digits behind its mark. -/
def baseMark (t : Text) : Nat × Text :=
  match t with
  | zero :: mark :: rest =>
    if zero ≠ byte '0' then (10, t)
    else if rest ≠ [] ∧ lowerByte mark = byte 'b' then (2, rest)
    else if rest ≠ [] ∧ lowerByte mark = byte 'o' then (8, rest)
    else if rest ≠ [] ∧ lowerByte mark = byte 'x' then (16, rest)
    else (8, mark :: rest)
  | _ => (10, t)

/-- The value of digits, underscores left out, from a value already read. The first digit that
leads past 64 bits ends the reading. -/
def magnitudeFrom (base : Nat) : Nat → Text → Except IntegerFault Nat
  | value, [] => .ok value
  | value, b :: rest =>
    if b = underscore then magnitudeFrom base value rest
    else
      match digit? base b with
      | none => .error .malformed
      | some d =>
        let value := value * base + d
        if 0x10000000000000000 ≤ value then .error .outOfRange else magnitudeFrom base value rest

/-- Whether every underscore stands between digits; `behindDigit` tells whether one may stand at the
front. -/
def underscoresFit : (behindDigit : Bool) → Text → Bool
  | _, [] => true
  | behindDigit, b :: rest =>
    if b = underscore then behindDigit && !rest.isEmpty && underscoresFit false rest
    else underscoresFit true rest

/-- Whether the underscores of a number without its sign are where they may be. -/
def underscoresOk (t : Text) : Bool :=
  let (base, digits) := baseMark t
  if base = 10 ∨ base = 8 ∧ digits.length + 1 = t.length then underscoresFit false t
  else underscoresFit true digits

/-- The value of a number without its sign. -/
def magnitude (t : Text) : Except IntegerFault Nat :=
  if t = [] then .error .malformed
  else do
    let (base, digits) := baseMark t
    let value ← magnitudeFrom base 0 digits
    if underscoresOk t then .ok value else .error .malformed

/-- The integer that a text stands for. -/
def integer (t : Text) : Except IntegerFault Int := do
  let (isNegative, digits) := match t with
    | b :: rest =>
      if b = byte '-' then (true, rest) else if b = byte '+' then (false, rest) else (false, t)
    | [] => (false, t)
  let value ← magnitude digits
  if isNegative then if value ≤ 0x8000000000000000 then .ok (-value) else .error .outOfRange
  else if value < 0x8000000000000000 then .ok value else .error .outOfRange

end RvConsole.Text
