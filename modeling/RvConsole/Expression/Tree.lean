import RvConsole.Expression.Token

/-! Expressions and statements as trees. -/
namespace RvConsole.Expression

/-- The operators between two operands. -/
inductive Operator where
  | or | and
  | compare (op : Comparison)
  | member | notMember
  | arith (op : Arith)
  deriving DecidableEq, Repr

namespace Operator

def text : Operator → Text
  | or => "or"
  | and => "and"
  | compare op => op.text
  | member => "in"
  | notMember => "not in"
  | arith op => op.text

/-- How tightly an operator binds. Level two is that of `not`. -/
def level : Operator → Nat
  | or => 0
  | and => 1
  | compare _ => 3
  | member => 3
  | notMember => 3
  | arith .bitOr => 4
  | arith .bitXor => 5
  | arith .bitAnd => 6
  | arith .shiftLeft => 7
  | arith .shiftRight => 7
  | arith .add => 8
  | arith .sub => 8
  | arith _ => 9

def notLevel : Nat := 2

/-- The level of the operators that do not associate. -/
def compareLevel : Nat := 3

/-- The operator a token is. -/
def ofToken? : Token → Option Operator
  | .keyword .or => some or
  | .keyword .and => some and
  | .keyword .inWord => some member
  | .notIn => some notMember
  | .compare op => some (compare op)
  | .arith op => some (arith op)
  | _ => none

end Operator

/-- The operators in front of an operand. -/
inductive Unary where
  | not | plus | minus | invert
  deriving DecidableEq, Repr

def Unary.text : Unary → Text
  | not => "not"
  | plus => "+"
  | minus => "-"
  | invert => "~"

structure Parameter where
  name : Text
  place : Position
  /-- The place of the sign in front of its default, if it has one. -/
  default : Option Position
  deriving DecidableEq, Repr

/-- An expression. Positions stand where a message may point to them. -/
inductive Expr where
  | name (place : Position) (text : Text)
  | literal (place : Position) (value : Literal)
  | list (place : Position) (items : List Expr)
  | tuple (place : Position) (items : List Expr)
  /-- Keys and values by turns. -/
  | dict (place : Position) (entries : List Expr)
  | paren (place : Position) (inner : Expr)
  | unary (place : Position) (op : Unary) (operand : Expr)
  | binary (op : Operator) (left right : Expr)
  | cond (test yes no : Expr)
  | index (container key : Expr)
  | slice (container : Expr) (bounds : List (Option Expr))
  | field (container : Expr) (text : Text)
  /-- A call: arguments with a name have it in the other list, at the same place. -/
  | call (function : Expr) (args : List Expr) (names : List (Option (Text × Position)))
  /-- A function: its parameters, the defaults of those that have one, and its value. -/
  | lambda (place : Position) (params : List Parameter) (defaults : List Expr) (body : Expr)

namespace Expr

def start : Expr → Position
  | name place _ => place
  | literal place _ => place
  | list place _ => place
  | tuple place _ => place
  | dict place _ => place
  | paren place _ => place
  | unary place _ _ => place
  | binary _ left _ => left.start
  | cond _ yes _ => yes.start
  | index container _ => container.start
  | slice container _ => container.start
  | field container _ => container.start
  | call function _ _ => function.start
  | lambda place _ _ _ => place

end Expr

inductive Statement where
  | expr (e : Expr)
  | assign (target value : Expr)
  | update (op : Arith) (target value : Expr)
  | pass
  /-- A statement that leaves or goes on with a loop. -/
  | jump (place : Position) (word : Keyword)
  | result (place : Position) (value : Option Expr)

end RvConsole.Expression
