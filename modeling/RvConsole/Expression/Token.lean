import RvConsole.Text.Numeral

/-! The words of an expression: operators, keywords, literals and names, with their places. -/
namespace RvConsole.Expression

/-- A place in the source. Both numbers count from one, columns in runes. -/
structure Position where
  line : Nat := 1
  column : Nat := 1
  deriving DecidableEq, Repr

/-- The position as messages show it. -/
def Position.text (p : Position) : Text :=
  "expr:" ++ Text.numeral 10 p.line ++ ":" ++ Text.numeral 10 p.column

/-- The operators of arithmetic, which can also update a variable. -/
inductive Arith where
  | add | sub | mul | div | floorDiv | mod | bitAnd | bitOr | bitXor | shiftLeft | shiftRight
  deriving DecidableEq, Repr

def Arith.text : Arith → Text
  | add => "+"
  | sub => "-"
  | mul => "*"
  | div => "/"
  | floorDiv => "//"
  | mod => "%"
  | bitAnd => "&"
  | bitOr => "|"
  | bitXor => "^"
  | shiftLeft => "<<"
  | shiftRight => ">>"

/-- The operators that compare. -/
inductive Comparison where
  | equal | unequal | less | greater | atMost | atLeast
  deriving DecidableEq, Repr

def Comparison.text : Comparison → Text
  | equal => "=="
  | unequal => "!="
  | less => "<"
  | greater => ">"
  | atMost => "<="
  | atLeast => ">="

/-- The kinds of brackets. -/
inductive Bracket where
  | round | square | curly
  deriving DecidableEq, Repr

def Bracket.opening : Bracket → Text
  | round => "("
  | square => "["
  | curly => "\x7b"

def Bracket.closing : Bracket → Text
  | round => ")"
  | square => "]"
  | curly => "\x7d"

inductive Keyword where
  | and | or | not | inWord | ifWord | elseWord | elifWord | forWord | whileWord | defWord
  | lambdaWord | loadWord | passWord | breakWord | continueWord | returnWord
  deriving DecidableEq, Repr

namespace Keyword

def text : Keyword → Text
  | and => "and"
  | or => "or"
  | not => "not"
  | inWord => "in"
  | ifWord => "if"
  | elseWord => "else"
  | elifWord => "elif"
  | forWord => "for"
  | whileWord => "while"
  | defWord => "def"
  | lambdaWord => "lambda"
  | loadWord => "load"
  | passWord => "pass"
  | breakWord => "break"
  | continueWord => "continue"
  | returnWord => "return"

def all : List Keyword := [
  and, or, not, inWord, ifWord, elseWord, elifWord, forWord, whileWord, defWord, lambdaWord,
  loadWord, passWord, breakWord, continueWord, returnWord]

/-- The keyword a word is. -/
def ofText? (t : Text) : Option Keyword := all.find? (·.text = t)

end Keyword

/-- Words that no expression may use. -/
def reservedWords : List Text := [
  "as", "class", "del", "except", "finally", "from", "global", "import", "is", "nonlocal",
  "raise", "try", "with", "yield"]

/-- A literal value as written. -/
inductive Literal where
  | integer (value : Nat)
  /-- A decimal fraction: digits and a power of ten. -/
  | float (digits : Nat) (exponent : Int)
  | string (value : Text)
  | bytes (value : Text)
  deriving DecidableEq, Repr

inductive Token where
  | endOfFile | newline | indent | outdent
  | name (text : Text)
  | literal (value : Literal)
  | arith (op : Arith)
  | update (op : Arith)
  | compare (op : Comparison)
  | opening (bracket : Bracket)
  | closing (bracket : Bracket)
  /-- The two keywords together, once they are known to be one operator. -/
  | notIn
  | tilde | dot | comma | assign | semicolon | colon | starStar
  | keyword (word : Keyword)
  | reserved (text : Text)
  deriving DecidableEq, Repr

/-- A mark between quotes. -/
def quoted (t : Text) : Text := "'" ++ t ++ "'"

/-- A token as messages name it. -/
def Token.describe : Token → Text
  | endOfFile => "end of file"
  | newline => "newline"
  | indent => "indent"
  | outdent => "outdent"
  | name _ => "identifier"
  | literal (.integer _) => "int literal"
  | literal (.float _ _) => "float literal"
  | literal (.string _) => "string literal"
  | literal (.bytes _) => "bytes literal"
  | arith op => quoted op.text
  | update op => quoted (op.text ++ "=")
  | compare op => quoted op.text
  | opening bracket => quoted bracket.opening
  | closing bracket => quoted bracket.closing
  | notIn => "not in"
  | tilde => quoted "~"
  | dot => quoted "."
  | comma => quoted ","
  | assign => quoted "="
  | semicolon => quoted ";"
  | colon => quoted ":"
  | starStar => quoted "**"
  | keyword word => word.text
  | reserved text => text

end RvConsole.Expression
