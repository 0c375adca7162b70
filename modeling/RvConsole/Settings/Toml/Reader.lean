import RvConsole.Settings.Toml.Tree

/-! Reading a TOML document from the front. -/
namespace RvConsole.Toml

def code (c : Char) : Nat := c.toNat

/-- A byte that is not UTF-8 among code points: a number that no code point has. -/
def strayCode (b : UInt8) : Nat := 0x110000 + b.toNat

/-- Why the first of some code points may not stand in a document. A carriage return is only allowed
in front of a line feed. -/
def forbidden? : List Nat → Option Cause
  | [] => none
  | c :: rest =>
    if 0x110000 ≤ c then some (.notUtf8 (c - 0x110000).toUInt8)
    else if c = code '\r' then if rest.head? = some (code '\n') then none else some (.control c)
    else if c = code '\n' ∨ c = code '\t' then none
    else if c < 32 ∨ c = 127 then some (.control c)
    else none

/-- The rest of a document and where it stands, and what has been read. -/
structure Cursor where
  rest : List Nat
  line : Nat := 1
  /-- Whether the code point before the rest is a line break. -/
  atLineStart : Bool := false
  tree : Tree := {}
  /-- The key of the table that is read. -/
  table : List Text := []
  /-- The name in that table that is read, once it is known. -/
  name : Text := []

def Cursor.lastKey (s : Cursor) : Text :=
  if s.name = [] then keyText s.table
  else if s.table = [] then s.name
  else keyText s.table ++ "." ++ s.name

abbrev Reader (α : Type) := StateT Cursor (Except Error) α

namespace Reader

def failAt {α : Type} (line : Nat) (cause : Cause) : Reader α :=
  fun s => .error ⟨line, s.lastKey, cause⟩

def fail {α : Type} (cause : Cause) : Reader α := fun s => .error ⟨s.line, s.lastKey, cause⟩

/-- Fails because the document ends; a line break at its end does not count. -/
def failAtEnd {α : Type} (cause : Cause) : Reader α :=
  fun s => .error ⟨if s.atLineStart then s.line - 1 else s.line, s.lastKey, cause⟩

/-- Goes on unless there is a cause to fail. -/
def lift {α : Type} (line : Nat) : Except Cause α → Reader α
  | .ok x => pure x
  | .error cause => failAt line cause

/-- The next code point; zero at the end, as no document holds that. -/
def peek : Reader Nat := do
  let s ← get
  match forbidden? s.rest with
  | some cause => fail cause
  | none => return s.rest.headD 0

/-- The next code points, so many of them. -/
def peekMany (n : Nat) : Reader (List Nat) := return (← get).rest.take n

def skip (n : Nat) : Reader Unit := modify fun s =>
  let front := s.rest.take n
  { s with
    rest := s.rest.drop n
    line := s.line + front.count (code '\n')
    atLineStart := (front.getLast?.map (· == code '\n')).getD s.atLineStart }

/-- The code points up to the first that fails a test. -/
def span (p : Nat → Bool) : Reader (List Nat) := do
  let front := (← get).rest.takeWhile p
  skip front.length
  return front

/-- Fails behind the next code point. -/
def failBehind {α : Type} (cause : Cause) : Reader α := do
  skip 1
  fail cause

def isBlank (c : Nat) : Bool := c == code ' ' || c == code '\t'

def isNewline (c : Nat) : Bool := c == code '\n' || c == code '\r'

def isDigit (c : Nat) : Bool := 48 ≤ c && c ≤ 57

def isHexDigit (c : Nat) : Bool :=
  isDigit c || (65 ≤ c && c ≤ 70) || (97 ≤ c && c ≤ 102)

def skipBlanks : Reader Unit := do let _ ← span isBlank

/-- Past blanks and a comment, which ends before what may not stand in a document. -/
def skipComment : Reader Unit := do
  skipBlanks
  if (← peek) = code '#' then
    let _ ← span fun c => !isNewline c && (forbidden? [c]).isNone

/-- Past blanks, comments and line breaks. Each round takes a code point or ends. -/
def skipLines : (fuel : Nat) → Reader Unit
  | 0 => return
  | fuel + 1 => do
    skipComment
    if isNewline (← peek) then
      skip 1
      skipLines fuel

/-- As many rounds as a document can need. -/
def rounds : Reader Nat := return (← get).rest.length + 1

end Reader

end RvConsole.Toml
