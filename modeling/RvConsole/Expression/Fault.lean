import RvConsole.Expression.Value

/-! Why an expression has no value. -/
namespace RvConsole.Expression

inductive EvalError where
  | unassigned (name : Text)
  | unknownBinary (op left right : Text)
  | unknownUnary (op operand : Text)
  | notOrdered (op left right : Text)
  | tooNested
  | flooredByZero
  | moduloByZero
  | floatByZero
  | floatModuloByZero
  | tooLargeForFloat
  | notInt (type : Text)
  | outOfRange (n : Int)
  | negativeShift (n : Int)
  | largeShift (n : Int)
  | largeRepeat (n : Int)
  | excessiveRepeat (size count : Nat)
  | notStringMember (type : Text)
  | notBytesMember (type : Text)
  | unhashable (type : Text)
  | duplicateKey (key : Text)
  | missingKey (key : Text)
  | badIndex (type : Text) (cause : EvalError)
  | indexOutside (type : Text) (index : Int) (size : Nat)
  | notIndexable (container key : Text)
  | notSliceable (type : Text)
  | badBound (which : Text) (cause : EvalError)
  | zeroStep
  | noField (type name : Text)
  | notFunction (type : Text)
  | notOffered (name : Text)
  /-- A fault inside of a function. -/
  | inFunction (name : Text) (cause : EvalError)
  | argumentCount (got : Nat) (want : Text)
  | unexpectedKeywords
  | unexpectedKeyword (name : Text) (hint : Option Text)
  | repeatedArgument (name : Text)
  | missingArgument (name : Text)
  | noPositional (function : Text)
  | notNumber (type : Text)
  | noLength (type : Text)
  | notIterable (type : Text)
  | emptySequence
  | baseNotInt (type : Text)
  | badBase
  | badNumeral (base : Nat) (text : Text)
  | baseWithoutString
  | notConvertible (type : Text)
  | infinite
  | notANumber
  | notSequence (type : Text)
  | tooManyValues (got want : Nat)
  | tooFewValues (got want : Nat)
  | noItemAssignment (type : Text)

/-- A number of things in decimal. -/
def count (n : Nat) : Text := Text.numeral 10 n

def EvalError.message : EvalError → Text
  | unassigned name => "global variable " ++ name ++ " referenced before assignment"
  | unknownBinary op left right => "unknown binary op: " ++ left ++ " " ++ op ++ " " ++ right
  | unknownUnary op operand => "unknown unary op: " ++ op ++ " " ++ operand
  | notOrdered op left right => left ++ " " ++ op ++ " " ++ right ++ " not implemented"
  | tooNested => "comparison exceeded maximum recursion depth"
  | flooredByZero => "floored division by zero"
  | moduloByZero => "integer modulo by zero"
  | floatByZero => "floating-point division by zero"
  | floatModuloByZero => "floating-point modulo by zero"
  | tooLargeForFloat => "int too large to convert to float"
  | notInt type => "got " ++ type ++ ", want int"
  | outOfRange n => Text.decimal n ++ " out of range"
  | negativeShift n => "negative shift count: " ++ Text.decimal n
  | largeShift n => "shift count too large: " ++ Text.decimal n
  | largeRepeat n => "repeat count " ++ Text.decimal n ++ " too large"
  | excessiveRepeat size times =>
    "excessive repeat (" ++ count size ++ " * " ++ count times ++ " elements)"
  | notStringMember type => "'in <string>' requires string as left operand, not " ++ type
  | notBytesMember type => "'in bytes' requires bytes or int as left operand, not " ++ type
  | unhashable type => "unhashable type: " ++ type
  | duplicateKey key => "duplicate key: " ++ key
  | missingKey key => "key " ++ key ++ " not in dict"
  | badIndex type cause => type ++ " index: " ++ cause.message
  | indexOutside type index 0 =>
    "index " ++ Text.decimal index ++ " out of range: empty " ++ type
  | indexOutside type index size =>
    type ++ " index " ++ Text.decimal index ++ " out of range [-" ++ count size ++ ":" ++
      count (size - 1) ++ "]"
  | notIndexable container key => "unhandled index operation " ++ container ++ "[" ++ key ++ "]"
  | notSliceable type => "invalid slice operand " ++ type
  | badBound which cause => "invalid " ++ which ++ ": " ++ cause.message
  | zeroStep => "zero is not a valid slice step"
  | noField type name => type ++ " has no ." ++ name ++ " field or method"
  | notFunction type => "invalid call of non-function (" ++ type ++ ")"
  | notOffered name => name ++ " is not offered"
  | inFunction name cause => name ++ ": " ++ cause.message
  | argumentCount got want => "got " ++ count got ++ " arguments, want " ++ want
  | unexpectedKeywords => "unexpected keyword arguments"
  | unexpectedKeyword name hint =>
    "unexpected keyword argument " ++ name.quote ++
      (match hint with
        | some hint => " (did you mean " ++ hint ++ "?)"
        | none => [])
  | repeatedArgument name => "got multiple values for keyword argument " ++ name.quote
  | missingArgument name => "missing argument for " ++ name
  | noPositional function => function ++ " requires at least one positional argument"
  | notNumber type => "got " ++ type ++ ", want int or float"
  | noLength type => "value of type " ++ type ++ " has no len"
  | notIterable type => type ++ " value is not iterable"
  | emptySequence => "argument is an empty sequence"
  | baseNotInt type => "for base, got " ++ type ++ ", want int"
  | badBase => "base must be an integer >= 2 && <= 36"
  | badNumeral base text => "invalid literal with base " ++ count base ++ ": " ++ text
  | baseWithoutString => "can't convert non-string with explicit base"
  | notConvertible type => "cannot convert " ++ type ++ " to int"
  | infinite => "cannot convert float infinity to integer"
  | notANumber => "cannot convert float NaN to integer"
  | notSequence type => "got " ++ type ++ " in sequence assignment"
  | tooManyValues got want =>
    "too many values to unpack (got " ++ count got ++ ", want " ++ count want ++ ")"
  | tooFewValues got want =>
    "too few values to unpack (got " ++ count got ++ ", want " ++ count want ++ ")"
  | noItemAssignment type => type ++ " value does not support item assignment"

end RvConsole.Expression
