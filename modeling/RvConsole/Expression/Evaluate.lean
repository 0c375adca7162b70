import RvConsole.Expression.Builtin
import RvConsole.Expression.Resolve

/-! Evaluating expressions.

The text of an expression is the right side of an assignment to `rc`, and what follows a semicolon
are further statements. The value of the expression is what `rc` holds at the end. -/
namespace RvConsole.Expression

/-- What the names of a program hold while it runs. -/
structure Scope where
  /-- The names of the surroundings. -/
  given : List (Text × Int)
  /-- The names the program binds. -/
  bound : List Text
  /-- The values of those that are assigned. -/
  assigned : List (Text × Value) := []

namespace Scope

def get (scope : Scope) (name : Text) : Except EvalError Value :=
  if scope.bound.contains name then
    match scope.assigned.lookup name with
    | some v => .ok v
    | none => .error (.unassigned name)
  else
    match scope.given.lookup name with
    | some n => .ok (.int n)
    | none =>
      if name = "None" then .ok .none
      else if name = "True" then .ok (.bool true)
      else if name = "False" then .ok (.bool false)
      else .ok (.builtin name)

/-- The scope with a name assigned. -/
def set (scope : Scope) (name : Text) (v : Value) : Scope :=
  { scope with assigned := (name, v) :: scope.assigned }

end Scope

def Literal.eval : Literal → Value
  | integer n => .int n
  | float digits exponent => .float (Float.ofScientific digits (exponent < 0) exponent.natAbs)
  | string t => .string t
  | bytes t => .bytes t

/-- Puts a new entry at the end of a dictionary. -/
def insertNew (keys values : List Value) (key value : Value) :
    Except EvalError (List Value × List Value) := do
  match ← lookUp keys values key with
  | some _ => .error (.duplicateKey key.display)
  | none => return (keys ++ [key], values ++ [value])

/-- A call's arguments by place and by name. -/
def sortArguments (values : List Value) (names : List (Option (Text × Position))) : Arguments :=
  let pairs := values.zip names
  { positional := pairs.filterMap fun (v, name) => if name.isNone then some v else none
    named := pairs.filterMap fun (v, name) => name.map fun (text, _) => (text, v) }

mutual

def Expr.eval (scope : Scope) : Expr → Except EvalError Value
  | .name _ text => scope.get text
  | .literal _ value => .ok value.eval
  | .list _ items => do return .list (← evalAll scope items)
  | .tuple _ items => do return .tuple (← evalAll scope items)
  | .dict _ entries => do
    let (keys, values) ← evalEntries scope entries [] []
    return .dict keys values
  | .paren _ inner => inner.eval scope
  | .unary _ op operand => do op.apply (← operand.eval scope)
  | .binary .and left right => do
    let x ← left.eval scope
    if x.truth then right.eval scope else return x
  | .binary .or left right => do
    let x ← left.eval scope
    if x.truth then return x else right.eval scope
  | .binary (.compare op) left right => do
    let x ← left.eval scope
    let y ← right.eval scope
    return .bool (← op.apply x y)
  | .binary .member left right => do
    let x ← left.eval scope
    let y ← right.eval scope
    return .bool (← isMember x y)
  | .binary .notMember left right => do
    let x ← left.eval scope
    let y ← right.eval scope
    return .bool !(← isMember x y)
  | .binary (.arith op) left right => do
    let x ← left.eval scope
    let y ← right.eval scope
    op.apply x y
  | .cond condition yes no => do
    if (← condition.eval scope).truth then yes.eval scope else no.eval scope
  | .index container key => do
    let x ← container.eval scope
    let k ← key.eval scope
    x.index k
  | .slice container bounds => do
    let x ← container.eval scope
    let values ← evalBounds scope bounds
    x.slice (values.getD 0 .none) (values.getD 1 .none) (values.getD 2 .none)
  | .field container text => do
    let x ← container.eval scope
    .error (.noField x.type text)
  | .call function args names => do
    let f ← function.eval scope
    let values ← evalAll scope args
    match f with
    | .builtin name => call name (sortArguments values names)
    | .function _ => .error (.notOffered "lambda")
    | _ => .error (.notFunction f.type)
  | .lambda place _ defaults _ => do
    let _ ← evalAll scope defaults
    return .function place

def evalAll (scope : Scope) : List Expr → Except EvalError (List Value)
  | [] => .ok []
  | e :: rest => do
    let x ← e.eval scope
    return x :: (← evalAll scope rest)

/-- The bounds of a slice; one left out is none. -/
def evalBounds (scope : Scope) : List (Option Expr) → Except EvalError (List Value)
  | [] => .ok []
  | bound :: rest => do
    let x ← evalBound scope bound
    return x :: (← evalBounds scope rest)

def evalBound (scope : Scope) : Option Expr → Except EvalError Value
  | none => .ok .none
  | some e => e.eval scope

/-- The entries of a dictionary after those already there. -/
def evalEntries (scope : Scope) :
    List Expr → (keys values : List Value) → Except EvalError (List Value × List Value)
  | key :: value :: rest, keys, values => do
    let k ← key.eval scope
    let v ← value.eval scope
    let (keys, values) ← insertNew keys values k v
    evalEntries scope rest keys values
  | _, keys, values => .ok (keys, values)

end

mutual

/-- Assigns a value to a target. -/
def Expr.assign (scope : Scope) (v : Value) : Expr → Except EvalError Scope
  | .name _ text => .ok (scope.set text v)
  | .paren _ inner => inner.assign scope v
  | .tuple _ items => assignItems scope items v
  | .list _ items => assignItems scope items v
  | .index container key => do
    let x ← container.eval scope
    let _ ← key.eval scope
    .error (.noItemAssignment x.type)
  | e => do
    let x ← e.eval scope
    .error (.noItemAssignment x.type)

/-- Assigns the elements of a value to as many targets. -/
def assignItems (scope : Scope) : List Expr → Value → Except EvalError Scope
  | targets, v =>
    match v.elements? with
    | none => .error (.notSequence v.type)
    | some items =>
      if targets.length < items.length then
        .error (.tooManyValues items.length targets.length)
      else if items.length < targets.length then
        .error (.tooFewValues items.length targets.length)
      else assignEach scope targets items

def assignEach (scope : Scope) : List Expr → List Value → Except EvalError Scope
  | target :: targets, v :: rest => do
    let scope ← target.assign scope v
    assignEach scope targets rest
  | _, _ => .ok scope

end

def Statement.run (scope : Scope) : Statement → Except EvalError Scope
  | .expr e => do let _ ← e.eval scope; return scope
  | .assign target value => do target.assign scope (← value.eval scope)
  | .update op target value => do
    let x ← target.eval scope
    let y ← value.eval scope
    target.assign scope (← op.apply x y)
  | _ => .ok scope

/-! ### Programs -/

inductive Stage where
  | grammar | names | eval
  deriving DecidableEq, Repr

/-- Why a program comes to nothing: the stage that failed, and in which words. -/
structure Error where
  stage : Stage
  message : Text
  deriving DecidableEq, Repr

/-- The variables that a program leaves, with the names of its surroundings. -/
def run (given : List (Text × Int)) (program : Text) : Except Error (List (Text × Value)) := do
  let statements ← (parse program).mapError fun e => ⟨.grammar, e.message⟩
  let bound ← (resolve (given.map (·.1)) statements).mapError fun e => ⟨.names, e.message⟩
  let scope ← (statements.foldlM Statement.run ⟨given, bound, []⟩).mapError fun e => ⟨.eval, e.message⟩
  return scope.assigned

/-- A language that programs may be in: among names that are given with their values, a program fails or
leaves variables, of which only the integers matter. -/
abbrev Language := (given : List (Text × Int)) → (program : Text) → Except Error (Text → Option Int)

/-- The language of this library. -/
def language : Language := fun given program =>
  (run given program).map fun globals name =>
    match globals.lookup name with
    | some (.int n) => some n
    | _ => none

/-- The variable that the value of an expression is assigned to. -/
def resultName : Text := "rc"

/-- The program that an expression is made into. -/
def assignment (source : Text) : Text := resultName ++ "=" ++ source ++ "\n"

end RvConsole.Expression
