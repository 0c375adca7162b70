import RvConsole.Text.Basic

/-! Numerals: digits of a radix, read and written.

Reading is strict. A numeral is one or more digits of its radix and nothing else; signs, radix
marks and separators belong to whoever reads the token around it. -/
namespace RvConsole.Text

/-- The value of a digit: `0` to `9`, then the letters of either case. -/
def digit? (radix : Nat) (b : UInt8) : Option Nat :=
  let n := b.toNat
  let value :=
    if 48 ≤ n ∧ n ≤ 57 then n - 48
    else if 97 ≤ n ∧ n ≤ 122 then n - 87
    else if 65 ≤ n ∧ n ≤ 90 then n - 55
    else radix
  if value < radix then some value else none

def isDigit (b : UInt8) : Bool := (digit? 10 b).isSome

/-- Reads on from a value already read. -/
def digitsFrom? (radix : Nat) : Nat → Text → Option Nat
  | value, [] => some value
  | value, b :: rest =>
    match digit? radix b with
    | some d => digitsFrom? radix (value * radix + d) rest
    | none => none

/-- The value of a numeral, which has at least one digit. -/
def natural? (radix : Nat) : Text → Option Nat
  | [] => none
  | t => digitsFrom? radix 0 t

/-- A number in a radix up to ten. -/
def numeral (radix n : Nat) : Text := (Nat.toDigits radix n).map Char.toUInt8

/-- An integer in decimal, with `-` in front of a negative one. -/
def decimal : Int → Text
  | .ofNat n => numeral 10 n
  | .negSucc n => byte '-' :: numeral 10 (n + 1)

/-- Upper-case hexadecimal. -/
def hex (n : Nat) : Text := (Nat.toDigits 16 n).map fun c => c.toUpper.toUInt8

/-- Upper-case hexadecimal of an integer, with `-` in front of a negative one. -/
def signedHex : Int → Text
  | .ofNat n => hex n
  | .negSucc n => byte '-' :: hex (n + 1)

/-- The eight hexadecimal digits of a word. -/
def hexWord (w : BitVec 32) : Text := padLeft (byte '0') 8 (hex w.toNat)

/-- The bits of a vector, most significant first. -/
def bits : {width : Nat} → BitVec width → Text
  | 0, _ => []
  | n + 1, w => (if w.getLsbD n then byte '1' else byte '0') :: bits (w.truncate n)

end RvConsole.Text

namespace RvConsole

/-! ### Decimal fractions against the range of floats -/

/-- A decimal fraction is surely too large for a float from this power of ten on. -/
def floatRange : Int := 310

/-- Whether a whole number times a power of ten is too large for a float. -/
def exceedsFloat (digits : Nat) (exponent : Int) : Bool :=
  let size : Int := (Nat.toDigits 10 digits).length
  if digits = 0 ∨ exponent + size < 0 then false
  else if floatRange < exponent + size then true
  else (Float.ofScientific digits (exponent < 0) exponent.natAbs).isInf

end RvConsole
