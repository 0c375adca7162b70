import RvConsole.Expression.Tree
import RvConsole.Text.Letter

/-! The values of expressions. -/
namespace RvConsole.Expression

inductive Value where
  | none
  | bool (b : Bool)
  | int (n : Int)
  | float (x : Float)
  | string (text : Text)
  | bytes (text : Text)
  | list (items : List Value)
  | tuple (items : List Value)
  /-- A dictionary: its keys in order and the value of each. -/
  | dict (keys values : List Value)
  | builtin (name : Text)
  /-- A function that the program defines, known by the place of its definition. -/
  | function (place : Position)

namespace Value

/-- The name of a value's type. -/
def type : Value → Text
  | none => "NoneType"
  | bool _ => "bool"
  | int _ => "int"
  | float _ => "float"
  | string _ => "string"
  | bytes _ => "bytes"
  | list _ => "list"
  | tuple _ => "tuple"
  | dict _ _ => "dict"
  | builtin _ => "builtin_function_or_method"
  | function _ => "function"

def truth : Value → Bool
  | none => false
  | bool b => b
  | int n => n ≠ 0
  | float x => x != 0
  | string text => text ≠ []
  | bytes text => text ≠ []
  | list items => !items.isEmpty
  | tuple items => !items.isEmpty
  | dict keys _ => !keys.isEmpty
  | builtin _ => true
  | function _ => true

def size? : Value → Option Nat
  | string text => some text.length
  | bytes text => some text.length
  | list items => some items.length
  | tuple items => some items.length
  | dict keys _ => some keys.length
  | _ => Option.none

/-- The elements that a value gives one by one. -/
def elements? : Value → Option (List Value)
  | list items => some items
  | tuple items => some items
  | dict keys _ => some keys
  | _ => Option.none

end Value

/-! ### Floats -/

/-- A finite float as a whole number and the power of two it is multiplied by. -/
def floatParts (x : Float) : Int × Int :=
  let bits := x.toBits.toNat
  let exponent : Nat := bits / 0x10000000000000 % 2048
  let fraction : Nat := bits % 0x10000000000000
  let size : Nat := if exponent = 0 then fraction else fraction + 0x10000000000000
  let power : Int := (if exponent = 0 then 1 else exponent) - 1075
  (if bits / 0x8000000000000000 = 1 then -(size : Int) else size, power)

/-- The whole part of a finite float. -/
def truncate (x : Float) : Int :=
  let (size, power) := floatParts x
  if 0 ≤ power then size * Int.pow 2 power.toNat else size.tdiv (Int.pow 2 (-power).toNat)

/-- Where a whole number stands to a float. -/
def compareIntFloat (n : Int) (x : Float) : Ordering :=
  if x.isNaN then .lt
  else if x.isInf then if 0 < x then .lt else .gt
  else
    let (size, power) := floatParts x
    if 0 ≤ power then compare n (size * Int.pow 2 power.toNat)
    else compare (n * Int.pow 2 (-power).toNat) size

/-- Where a float stands to another; a float that is no number stands above all others. -/
def compareFloats (x y : Float) : Ordering :=
  if x < y then .lt
  else if y < x then .gt
  else if x == y then .eq
  else compare x.isNaN.toNat y.isNaN.toNat

/-- The remainder of a division that rounds down. -/
def floatMod (x y : Float) : Float :=
  if x.isNaN || x.isInf || y.isNaN then 0 / 0
  else if y.isInf then if (x < 0) = (y < 0) ∨ x == 0 then x else y
  else
    let (a, p) := floatParts x
    let (b, q) := floatParts y
    let power := min p q
    let rest := (a * Int.pow 2 (p - power).toNat).fmod (b * Int.pow 2 (q - power).toNat)
    (Float.ofInt rest).scaleB power

/-! ### Values in messages -/

/-- A float in decimal: no more digits behind its point than needed, but at least one. -/
def floatText (x : Float) : Text :=
  let digits := (Text.ofString (toString x)).reverse.dropWhile (· = Text.byte '0')
  (if digits.headD 0 = Text.byte '.' then Text.byte '0' :: digits else digits).reverse

mutual

/-- A value as a message shows it. -/
def Value.display : Value → Text
  | .none => "None"
  | .bool true => "True"
  | .bool false => "False"
  | .int n => Text.decimal n
  | .float x => floatText x
  | .string text => text.quote
  | .bytes text => "b" ++ text.quote
  | .list items => "[" ++ Text.join ", " (displayAll items) ++ "]"
  | .tuple [item] => "(" ++ item.display ++ ",)"
  | .tuple items => "(" ++ Text.join ", " (displayAll items) ++ ")"
  | .dict keys values =>
    let entries : List Text := (displayAll keys).zipWith (· ++ ": " ++ ·) (displayAll values)
    "\x7b" ++ Text.join ", " entries ++ "\x7d"
  | .builtin name => "<built-in function " ++ name ++ ">"
  | .function _ => "<function lambda>"

def displayAll : List Value → List Text
  | [] => []
  | v :: rest => v.display :: displayAll rest

end

end RvConsole.Expression
