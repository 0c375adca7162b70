import RvConsole.Expression.Nearest
import RvConsole.Expression.Operate

/-! The functions that expressions may call. -/
namespace RvConsole.Expression

/-- The arguments of a call: those by place, and those by name. -/
structure Arguments where
  positional : List Value := []
  named : List (Text × Value) := []

/-- The only argument of a function. -/
def Arguments.only (args : Arguments) (function : Text) : Except EvalError Value :=
  if !args.named.isEmpty then .error (.inFunction function .unexpectedKeywords)
  else
    match args.positional with
    | [x] => .ok x
    | xs => .error (.inFunction function (.argumentCount xs.length "1"))

def callAbs (args : Arguments) : Except EvalError Value := do
  match ← args.only "abs" with
  | .int n => return .int n.natAbs
  | .float x => return .float x.abs
  | x => .error (.notNumber x.type)

def callLen (args : Arguments) : Except EvalError Value := do
  let x ← args.only "len"
  match x.size? with
  | some n => return .int n
  | none => .error (.inFunction "len" (.noLength x.type))

/-- The element that comes first, or last, in the order of the elements. -/
def extremum (function : Text) (op : Comparison) : Value → List Value → Except EvalError Value
  | best, [] => .ok best
  | best, x :: rest =>
    match op.apply x best with
    | .error cause => .error (.inFunction function cause)
    | .ok true => extremum function op x rest
    | .ok false => extremum function op best rest

/-- The least or the greatest of several values or of one value's elements. -/
def callExtremum (function : Text) (op : Comparison) (args : Arguments) :
    Except EvalError Value :=
  if args.positional.isEmpty then .error (.noPositional function)
  else
    match args.named with
    | (name, _) :: _ =>
      if name = "key" then .error (.notOffered "key")
      else .error (.inFunction function (.unexpectedKeyword name (nearest name ["key"])))
    | [] =>
      let items? := match args.positional with
        | [x] => x.elements?
        | xs => some xs
      match items? with
      | none =>
        .error (.inFunction function (.notIterable ((args.positional.headD .none).type)))
      | some [] => .error (.inFunction function .emptySequence)
      | some (x :: rest) => extremum function op x rest

/-- The radix that a mark in front of digits tells. -/
def markedRadix : Text → Option Nat
  | zero :: mark :: _ :: _ =>
    if zero ≠ Text.byte '0' then none
    else if mark = Text.byte 'o' ∨ mark = Text.byte 'O' then some 8
    else if mark = Text.byte 'x' ∨ mark = Text.byte 'X' then some 16
    else if mark = Text.byte 'b' ∨ mark = Text.byte 'B' then some 2
    else none
  | _ => none

/-- The number of digits without a sign. Base zero takes the base from their mark, and digits
without one must not start with zero. -/
def unsignedNumeral (base : Nat) (t : Text) : Option Nat :=
  match markedRadix t with
  | some radix =>
    if base = 0 ∨ base = radix then Text.natural? radix (t.drop 2) else Text.natural? base t
  | none =>
    if base ≠ 0 then Text.natural? base t
    else if 1 < t.length ∧ t.headD 0 = Text.byte '0' then
      if t.all (· = Text.byte '0') then some 0 else none
    else Text.natural? 10 t

/-- The integer a text stands for in a base. -/
def signedNumeral (base : Nat) (t : Text) : Option Int :=
  match t with
  | b :: rest =>
    if b = Text.byte '-' then (unsignedNumeral base rest).map fun n => -(n : Int)
    else if b = Text.byte '+' then (unsignedNumeral base rest).map Int.ofNat
    else (unsignedNumeral base t).map Int.ofNat
  | [] => none

/-- The integer of a number. -/
def toInt : Value → Except EvalError Int
  | .int n => .ok n
  | .float x =>
    if x.isInf then .error .infinite
    else if x.isNaN then .error .notANumber
    else .ok (truncate x)
  | v => .error (.notConvertible v.type)

/-- Puts named arguments with the positional ones of a function's parameters. -/
def bindNamed (function : Text) (params : List Text) :
    List (Option Value) → List (Text × Value) → Except EvalError (List (Option Value))
  | slots, [] => .ok slots
  | slots, (name, v) :: rest =>
    match params.findIdx? (· = name) with
    | none => .error (.inFunction function (.unexpectedKeyword name (nearest name params)))
    | some n =>
      match slots.getD n none with
      | some _ => .error (.inFunction function (.repeatedArgument name))
      | none => bindNamed function params (slots.set n (some v)) rest

/-- The arguments of a function in the order of its parameters. -/
def Arguments.bind (args : Arguments) (function : Text) (params : List Text) :
    Except EvalError (List (Option Value)) :=
  if params.length < args.positional.length then
    .error (.inFunction function
      (.argumentCount args.positional.length ("at most " ++ count params.length)))
  else
    bindNamed function params
      (args.positional.map some ++
        List.replicate (params.length - args.positional.length) none) args.named

/-- The base that the second argument of `int` names. -/
def baseOf : Option Value → Except EvalError Nat
  | none => .ok 10
  | some v =>
    match smallInt v with
    | .error _ => .error (.baseNotInt v.type)
    | .ok n => if n ≠ 0 ∧ (n < 2 ∨ 36 < n) then .error .badBase else .ok n.toNat

def callInt (args : Arguments) : Except EvalError Value := do
  let slots ← args.bind "int" ["x", "base"]
  let base := slots.getD 1 none
  let inInt {α : Type} (r : Except EvalError α) : Except EvalError α :=
    r.mapError (.inFunction "int")
  match slots.getD 0 none with
  | none => inInt (.error (.missingArgument "x"))
  | some (.string t) =>
    let radix ← inInt (baseOf base)
    match signedNumeral radix t with
    | some n => return .int n
    | none => inInt (.error (.badNumeral radix t))
  | some x =>
    if base.isSome then inInt (.error .baseWithoutString)
    else
      match x with
      | .bool b => return .int b.toNat
      | _ => return .int (← inInt (toInt x))

def callBool (args : Arguments) : Except EvalError Value := do
  match args.positional, args.named with
  | [], [] => return .bool false
  | _, _ => return .bool (← args.only "bool").truth

def callFloat (args : Arguments) : Except EvalError Value := do
  match ← args.only "float" with
  | .int n => return .float (← (toFloat n).mapError (.inFunction "float"))
  | .float x => return .float x
  | .bool b => return .float (if b then 1 else 0)
  | _ => .error (.notOffered "float")

/-- Calls a function by its name. Some names stand for functions that are not offered. -/
def call (name : Text) (args : Arguments) : Except EvalError Value :=
  if name = "abs" then callAbs args
  else if name = "len" then callLen args
  else if name = "max" then callExtremum "max" .greater args
  else if name = "min" then callExtremum "min" .less args
  else if name = "int" then callInt args
  else if name = "bool" then callBool args
  else if name = "float" then callFloat args
  else .error (.notOffered name)

end RvConsole.Expression
