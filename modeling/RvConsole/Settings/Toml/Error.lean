import RvConsole.Text.Letter

/-! What a TOML document holds, and what can be wrong with it. -/
namespace RvConsole.Toml

/-- A value. Of dates and floats only that they are written right is of interest. -/
inductive Value where
  | string (text : Text)
  | integer (n : Int)
  | boolean (b : Bool)
  | float
  | datetime
  | array
  | table
  /-- Several tables under one name. -/
  | tables
  deriving DecidableEq, Repr

inductive NumberKind where
  | integer | float
  deriving DecidableEq, Repr

def NumberKind.text : NumberKind → Text
  | integer => "integer"
  | float => "float"

/-- The type that holds the numbers of a kind. -/
def NumberKind.storage : NumberKind → Text
  | integer => "int64"
  | float => "float64"

inductive Cause where
  | nulBytes
  | notUtf8 (b : UInt8)
  | control (code : Nat)
  | blankKey
  | pointBeforeKey
  | noKeyPart (got : Nat)
  | keyEnd (got : Nat)
  | keyEndMissing
  | noTableName
  | noTablePart
  | tableEnd (got : Nat)
  | tablesEnd (got : Nat)
  | noValue (found : Text)
  | noValueAtEnd
  | lineEnd (got : Nat)
  | comma
  | arrayEnd (got : Option Nat)
  | inlineNewline
  | inlineComma
  | inlineEnd (got : Option Nat)
  | stringNewline
  /-- The quotes that close a string are missing. -/
  | stringEnd (quotes : Text)
  | manyQuotes (quotes : Text)
  | badEscape (code : Nat)
  | blankEscape (code : Nat)
  | shortEscape (read : Text)
  | longEscape (read : Text)
  | badCode (digits : Text)
  | pointBeforeDigit
  | notDigit (got : Nat)
  | signBeforeMark (read : Text)
  | radixDigit (radix read : Text)
  | notSpecial (read : Text)
  | underscores (kind : NumberKind) (text : Text)
  | leadingZero (kind : NumberKind) (text : Text)
  | pointAfterDigits (text : Text)
  | badFloat (text : Text)
  | badDatetime (text : Text)
  | outOfRange (kind : NumberKind) (text : Text)
  | defined (key : Text)
  | notTable (key : Text)
  | notArray (key : Text)
  deriving DecidableEq, Repr

/-- A code point between quotes, or the end of the document. -/
def codeOrEnd : Option Nat → Text
  | some c => "'" ++ Text.ofCodes [c] ++ "'"
  | none => "end of file"

def Cause.message : Cause → Text
  | nulBytes =>
    "files cannot contain NULL bytes; probably using UTF-16; TOML files must be UTF-8"
  | notUtf8 b => "invalid UTF-8 byte: 0x" ++ lowerHex 2 b.toNat
  | control code => "TOML files cannot contain control characters: '0x" ++ lowerHex 2 code ++ "'"
  | blankKey => "unexpected '=': key name appears blank"
  | pointBeforeKey => "unexpected '.': keys cannot start with a '.'"
  | noKeyPart got => "unexpected " ++ quoteCode got
  | keyEnd got => "expected '.' or '=', but got " ++ quoteCode got ++ " instead"
  | keyEndMissing => "unexpected EOF; expected key separator '='"
  | noTableName => "unexpected end of table name (table names cannot be empty)"
  | noTablePart => "unexpected table separator (table names cannot be empty)"
  | tableEnd got =>
    "expected '.' or ']' to end table name, but got " ++ quoteCode got ++ " instead"
  | tablesEnd got =>
    "expected end of table array name delimiter ']', but got " ++ quoteCode got ++ " instead"
  | noValue found => "expected value but found " ++ found ++ " instead"
  | noValueAtEnd => "unexpected EOF; expected value"
  | lineEnd got =>
    "expected a top-level item to end with a newline, comment, or EOF, but got " ++
      quoteCode got ++ " instead"
  | comma => "unexpected comma"
  | arrayEnd got => "expected a comma (',') or array terminator (']'), but got " ++ codeOrEnd got
  | inlineNewline => "newlines not allowed within inline tables"
  | inlineComma => "trailing comma not allowed in inline tables"
  | inlineEnd got =>
    "expected a comma or an inline table terminator '\x7d', but got " ++ codeOrEnd got ++ " instead"
  | stringNewline => "strings cannot contain newlines"
  | stringEnd quotes => "unexpected EOF; expected " ++ quotes
  | manyQuotes quotes => "unexpected " ++ quotes
  | badEscape code => "invalid escape in string '\\" ++ Text.ofCodes [code] ++ "'"
  | blankEscape code => "invalid escape: '\\" ++ Text.ofCodes [code] ++ "'"
  | shortEscape read =>
    "expected four hexadecimal digits after '\\u', but got " ++ read.quote ++ " instead"
  | longEscape read =>
    "expected eight hexadecimal digits after '\\U', but got " ++ read.quote ++ " instead"
  | badCode digits => "Escaped character '\\u" ++ digits ++ "' is not valid UTF-8."
  | pointBeforeDigit => "floats must start with a digit, not '.'"
  | notDigit got => "expected a digit but got " ++ quoteCode got
  | signBeforeMark read => "cannot use sign with non-decimal numbers: '" ++ read ++ "'"
  | radixDigit radix read => "not " ++ radix ++ " number: '" ++ read ++ "'"
  | notSpecial read => "invalid float: '" ++ read ++ "'"
  | underscores kind text =>
    "Invalid " ++ kind.text ++ " " ++ text.quote ++ ": underscores must be surrounded by digits"
  | leadingZero kind text =>
    "Invalid " ++ kind.text ++ " " ++ text.quote ++ ": cannot have leading zeroes"
  | pointAfterDigits text =>
    "Invalid float " ++ text.quote ++ ": '.' must be followed by one or more digits"
  | badFloat text => "Invalid float value: " ++ text.quote
  | badDatetime text => "invalid datetime: " ++ text.quote
  | outOfRange kind text => text ++ " is out of range for " ++ kind.storage
  | defined key => "Key '" ++ key ++ "' has already been defined."
  | notTable key => "Key '" ++ key ++ "' was already created as a hash."
  | notArray key => "Key '" ++ key ++ "' was already created and cannot be used as an array."

/-- A fault, the line it is on, and the key last read. -/
structure Error where
  line : Nat
  lastKey : Text
  cause : Cause
  deriving DecidableEq, Repr

end RvConsole.Toml
