import RvConsole.Expression.Escape
import RvConsole.Expression.Token
import RvConsole.Text.Numeral

/-! Cutting the source of an expression into tokens.

Inside brackets a line break is nothing more than a blank. Outside of them it ends a statement, and
the blanks in front of a line tell how deep it stands. The first fault ends the tokens; what stands
before it can still be used, so it is the last element of the list instead of a failure of the
whole. -/
namespace RvConsole.Expression

/-- What a source may have wrong before its grammar is looked at. -/
inductive LexFault where
  | strayBackslash
  | unexpected (code : Nat)
  | unexpectedClosing (bracket : Bracket)
  | newlineInString
  | endInString
  | escape (fault : EscapeFault)
  | invalidHex
  | invalidOctal
  | invalidBinary
  | obsoleteOctal (digits : Text)
  | invalidInt
  | invalidFloat
  | unindent
  deriving DecidableEq, Repr

def LexFault.message : LexFault → Text
  | strayBackslash => "stray backslash in program"
  | unexpected code => "unexpected input character " ++ quoteCode code
  | unexpectedClosing bracket => "unexpected " ++ quoted bracket.closing
  | newlineInString => "unexpected newline in string"
  | endInString => "unexpected EOF in string"
  | escape fault => fault.message
  | invalidHex => "invalid hex literal"
  | invalidOctal => "invalid octal literal"
  | invalidBinary => "invalid binary literal"
  | obsoleteOctal digits => "obsolete form of octal literal; use 0o" ++ digits
  | invalidInt => "invalid int literal"
  | invalidFloat => "invalid float literal"
  | unindent => "unindent does not match any outer indentation level"

/-- A token with the places where it starts and where it ends. -/
structure Lexeme where
  token : Token
  start : Position
  stop : Position
  deriving DecidableEq, Repr

structure Misplaced where
  position : Position
  fault : LexFault
  deriving DecidableEq, Repr

/-- The source still to read, and where it stands. -/
structure Cursor where
  rest : List Nat
  position : Position := {}
  deriving DecidableEq, Repr

namespace Cursor

/-- The code point of a character, for patterns of ASCII. -/
def code (c : Char) : Nat := c.toNat

/-- The next code point; zero at the end. -/
def peek (s : Cursor) : Nat := s.rest.headD 0

/-- The code point after so many. -/
def peekAt (s : Cursor) (n : Nat) : Nat := s.rest.getD n 0

def next (s : Cursor) : Cursor :=
  match s.rest with
  | [] => s
  | c :: rest =>
    if c = code '\n' then ⟨rest, ⟨s.position.line + 1, 1⟩⟩
    else ⟨rest, { s.position with column := s.position.column + 1 }⟩

def skip (s : Cursor) : Nat → Cursor
  | 0 => s
  | n + 1 => s.next.skip n

/-- The code points at the front that satisfy a test, and the cursor past them. -/
def span (s : Cursor) (p : Nat → Bool) : List Nat × Cursor :=
  let front := s.rest.takeWhile p
  (front, s.skip front.length)

end Cursor

open Cursor (code)

/-! ### Numbers -/

def numeralOf (radix : Nat) (digits : List Nat) : Nat :=
  (Text.natural? radix (digits.map Nat.toUInt8)).getD 0

def isDigitOf (radix : Nat) (c : Nat) : Bool :=
  c < 0x80 && (Text.digit? radix c.toUInt8).isSome

def maxInt64 : Nat := 0x7FFFFFFFFFFFFFFF

/-- Reads digits after the mark of a radix. Only hexadecimal numbers may pass 64 bits. -/
def radixNumber (radix : Nat) (fault : LexFault) (s : Cursor) :
    Except Misplaced (Token × Cursor) :=
  let (digits, after) := (s.skip 2).span (isDigitOf radix)
  if digits = [] then
    .error ⟨if radix = 16 then s.position else (s.skip 2).position, fault⟩
  else
    let value := numeralOf radix digits
    if radix ≠ 16 ∧ maxInt64 < value then .error ⟨s.position, .invalidInt⟩
    else .ok (.literal (.integer value), after)

/-- A fraction below this power of ten is nothing to a float. -/
def smallestPower : Int := -340

/-- The fraction's token, unless it is too large. -/
def fractionToken (s : Cursor) (whole part exponent : List Nat) (isNegative : Bool) :
    Except Misplaced (Token × Cursor) :=
  let digits := numeralOf 10 (whole ++ part)
  let power : Int := numeralOf 10 exponent
  let exponent : Int := (if isNegative then -power else power) - part.length
  let size : Int := (Nat.toDigits 10 digits).length
  if exceedsFloat digits exponent then .error ⟨s.position, .invalidFloat⟩
  else if digits = 0 ∨ exponent + size < smallestPower then .ok (.literal (.float 0 0), s)
  else .ok (.literal (.float digits exponent), s)

/-- Reads a number without the mark of a radix, or a point that starts none. -/
def decimalNumber (s : Cursor) : Except Misplaced (Token × Cursor) :=
  let isDigit := isDigitOf 10
  let (whole, afterWhole) := s.span isDigit
  let hasPoint := afterWhole.peek = code '.'
  if whole = [] ∧ !isDigit (s.peekAt 1) then .ok (.dot, s.next)
  else
    let (part, afterPart) :=
      if hasPoint then afterWhole.next.span isDigit else ([], afterWhole)
    let hasExponent := afterPart.peek = code 'e' ∨ afterPart.peek = code 'E'
    if hasExponent then
      let marked := afterPart.next
      let hasSign := marked.peek = code '+' ∨ marked.peek = code '-'
      let (exponent, after) := (if hasSign then marked.next else marked).span isDigit
      if exponent = [] then .error ⟨after.position, .invalidFloat⟩
      else fractionToken after whole part exponent (marked.peek = code '-')
    else if hasPoint then fractionToken afterPart whole part [] false
    else if 1 < whole.length ∧ whole.headD 0 = code '0' ∧ whole.any (· ≠ code '0') then
      if whole.all (isDigitOf 8) then
        .error ⟨afterWhole.position, .obsoleteOctal (whole.tail.map Nat.toUInt8)⟩
      else .error ⟨s.position, .invalidInt⟩
    else .ok (.literal (.integer (numeralOf 10 whole)), afterWhole)

/-- Reads a number or a point. -/
def number (s : Cursor) : Except Misplaced (Token × Cursor) :=
  let mark := s.peekAt 1
  if s.peek = code '0' ∧ (mark = code 'x' ∨ mark = code 'X') then radixNumber 16 .invalidHex s
  else if s.peek = code '0' ∧ (mark = code 'o' ∨ mark = code 'O') then
    radixNumber 8 .invalidOctal s
  else if s.peek = code '0' ∧ (mark = code 'b' ∨ mark = code 'B') then
    radixNumber 2 .invalidBinary s
  else decimalNumber s

/-! ### Strings -/

/-- How many code points there are before the quote that closes a literal on one line. -/
def plainEnd (quote : Nat) : List Nat → Except LexFault Nat
  | [] => .error .endInString
  | c :: rest =>
    if c = quote then .ok 0
    else if c = code '\n' then .error .newlineInString
    else if c = code '\\' then
      match rest with
      | [] => .error .endInString
      | _ :: rest => (plainEnd quote rest).map (· + 2)
    else (plainEnd quote rest).map (· + 1)

/-- How many code points there are up to the end of the three quotes that close a long literal;
`quotes` of them have just been read. -/
def longEnd (quote quotes : Nat) : List Nat → Except LexFault Nat
  | [] => .error .endInString
  | c :: rest =>
    if c = quote then
      if quotes = 2 then .ok 1 else (longEnd quote (quotes + 1) rest).map (· + 1)
    else if c = code '\\' then
      match rest with
      | [] => .error .endInString
      | _ :: rest => (longEnd quote 0 rest).map (· + 2)
    else (longEnd quote 0 rest).map (· + 1)

/-- Reads a string literal. The letters in front of its quote have been read, and `start` is
where they began. -/
def stringLiteral (start : Position) (isRaw isBytes : Bool) (s : Cursor) :
    Except Misplaced (Token × Cursor) := do
  let quote := s.peek
  let isLong := s.peekAt 1 = quote ∧ s.peekAt 2 = quote
  let body := if isLong then s.skip 3 else s.next
  let (size, after) ←
    if isLong then
      match longEnd quote 0 body.rest with
      | .ok n => .ok (n - 3, body.skip n)
      | .error fault => .error ⟨start, fault⟩
    else
      match plainEnd quote body.rest with
      | .ok n => .ok (n, body.skip (n + 1))
      | .error fault => .error ⟨start, fault⟩
  let text := Text.ofCodes (body.rest.take size)
  let value ←
    if isRaw then .ok text
    else
      match unescape isBytes text with
      | .ok value => .ok value
      | .error fault => .error ⟨s.position, .escape fault⟩
  .ok (.literal (if isBytes then .bytes value else .string value), after)

/-! ### Words and marks -/

def isNameStart (c : Nat) : Bool := c == code '_' || isLetterCode c

def isNamePart (c : Nat) : Bool := isDigitOf 10 c || isNameStart c

def wordToken (t : Text) : Token :=
  match Keyword.ofText? t with
  | some word => .keyword word
  | none => if reservedWords.contains t then .reserved t else .name t

def isQuote (c : Nat) : Bool := c == code '"' || c == code '\''

/-- Reads a word, or a literal with letters in front of its quote. -/
def word (s : Cursor) : Except Misplaced (Token × Cursor) :=
  if (s.peek = code 'r' ∨ s.peek = code 'b') ∧ isQuote (s.peekAt 1) then
    stringLiteral s.position (s.peek = code 'r') (s.peek = code 'b') s.next
  else if s.peek = code 'r' ∧ s.peekAt 1 = code 'b' ∧ isQuote (s.peekAt 2) then
    stringLiteral s.position true true (s.skip 2)
  else
    let (letters, after) := s.span isNamePart
    .ok (wordToken (Text.ofCodes letters), after)

/-- The marks, the longer ones before those they start with. -/
def marks : List (String × Token) := [
  ("<<=", .update .shiftLeft), (">>=", .update .shiftRight), ("//=", .update .floorDiv),
  ("<=", .compare .atMost), (">=", .compare .atLeast), ("==", .compare .equal),
  ("!=", .compare .unequal), ("+=", .update .add), ("-=", .update .sub), ("/=", .update .div),
  ("%=", .update .mod), ("&=", .update .bitAnd), ("|=", .update .bitOr), ("^=", .update .bitXor),
  ("*=", .update .mul), ("**", .starStar), ("<<", .arith .shiftLeft), (">>", .arith .shiftRight),
  ("//", .arith .floorDiv), ("<", .compare .less), (">", .compare .greater), ("=", .assign),
  ("+", .arith .add), ("-", .arith .sub), ("/", .arith .div), ("%", .arith .mod),
  ("&", .arith .bitAnd), ("|", .arith .bitOr), ("^", .arith .bitXor), ("*", .arith .mul),
  (",", .comma), (":", .colon), (";", .semicolon), ("~", .tilde), ("(", .opening .round),
  ("[", .opening .square), ("\x7b", .opening .curly), (")", .closing .round),
  ("]", .closing .square), ("\x7d", .closing .curly)]

def mark (s : Cursor) : Except Misplaced (Token × Cursor) :=
  let starts (m : String) : Bool := (m.toList.map code).isPrefixOf s.rest
  match marks.find? fun (m, _) => starts m with
  | some (m, token) => .ok (token, s.skip m.length)
  | none => .error ⟨s.position, .unexpected s.peek⟩

/-- Reads one token that is neither a line break nor the end. -/
def token (s : Cursor) : Except Misplaced (Token × Cursor) :=
  let c := s.peek
  if isQuote c then stringLiteral s.position false false s
  else if isNameStart c then word s
  else if isDigitOf 10 c || c == code '.' then number s
  else mark s

/-! ### Layout -/

/-- Where in the layout a source stands: how many brackets are open, and how far the enclosing
lines are indented, the innermost first. -/
structure Layout where
  depth : Nat := 0
  indents : List Nat := []
  deriving DecidableEq, Repr

/-- How far a line is indented, and the cursor past its blanks. A tab reaches the next multiple of
eight. -/
def indentation : (fuel : Nat) → Nat → Cursor → Nat × Cursor
  | 0, column, s => (column, s)
  | fuel + 1, column, s =>
    if s.peek = code ' ' then indentation fuel (column + 1) s.next
    else if s.peek = code '\t' then
      indentation fuel (column + 8 - (s.position.column - 1) % 8) s.next
    else (column, s)

/-- What the indentation of a line changes: the tokens for it and the indentations then open. -/
def indentTokens (indents : List Nat) (column : Nat) : Option (List Token × List Nat) :=
  if indents.headD 0 < column then some ([.indent], column :: indents)
  else
    let closed := indents.takeWhile (column < ·)
    let left := indents.drop closed.length
    if left.headD 0 = column then some (closed.map fun _ => .outdent, left) else none

/-- The source's lexemes end here: open indentations are closed, after the end of a line that has
not ended yet. -/
def finish (layout : Layout) (atLineStart : Bool) (p : Position) : List Lexeme :=
  let closing := layout.indents.map fun _ => Lexeme.mk .outdent p p
  let ended := if layout.indents = [] ∨ atLineStart then [] else [Lexeme.mk .newline p p]
  ended ++ closing ++ [⟨.endOfFile, p, p⟩]

/-- Past blanks, and past a comment up to the end of its line. -/
def skipBlanks (s : Cursor) : Cursor :=
  let s := (s.span fun c => c == code ' ' || c == code '\t').2
  if s.peek = code '#' then (s.span fun c => c ≠ 0 && c ≠ code '\n').2 else s

/-- The lexemes from a cursor on, and the fault that ends them early. Every step but one at the
start of a line takes a code point, so twice their number is fuel enough. -/
def lexemes : (fuel : Nat) → Layout → (atLineStart : Bool) → Cursor →
    List Lexeme × Option Misplaced
  | 0, layout, atLineStart, s => (finish layout atLineStart s.position, none)
  | fuel + 1, layout, true, s =>
    let (column, s) := indentation fuel 0 s
    if s.peek = code '#' ∨ s.peek = code '\n' ∨ s.peek = 0 then
      let s := skipBlanks s
      if s.peek = code '\n' then lexemes fuel layout true s.next
      else (finish layout true s.position, none)
    else if layout.depth ≠ 0 then lexemes fuel layout false s
    else
      match indentTokens layout.indents column with
      | none => ([], some ⟨s.position, .unindent⟩)
      | some (tokens, indents) =>
        let (rest, fault) := lexemes fuel { layout with indents } false s
        (tokens.map (fun t => ⟨t, s.position, s.position⟩) ++ rest, fault)
  | fuel + 1, layout, false, s =>
    let s := skipBlanks s
    if s.peek = code '\n' then
      if layout.depth ≠ 0 then lexemes fuel layout true s.next
      else
        let (rest, fault) := lexemes fuel layout true s.next
        (⟨.newline, s.position, s.next.position⟩ :: rest, fault)
    else if s.peek = 0 then (finish layout false s.position, none)
    else if s.peek = code '\\' then
      if s.next.peek = code '\n' then lexemes fuel layout false (s.skip 2)
      else ([], some ⟨s.next.position, .strayBackslash⟩)
    else
      match token s with
      | .error e => ([], some e)
      | .ok (t, after) =>
        let layout? := match t with
          | .opening _ => some { layout with depth := layout.depth + 1 }
          | .closing _ =>
            if layout.depth = 0 then none else some { layout with depth := layout.depth - 1 }
          | _ => some layout
        match layout?, t with
        | some layout, _ =>
          let (rest, fault) := lexemes fuel layout false after
          (⟨t, s.position, after.position⟩ :: rest, fault)
        | none, .closing bracket => ([], some ⟨s.position, .unexpectedClosing bracket⟩)
        | none, _ => ([], some ⟨s.position, .unexpected s.peek⟩)

/-- The source's code points, with every kind of line break as one newline. -/
def sourceCodes : List Nat → List Nat
  | [] => []
  | c :: rest =>
    if c = code '\r' then
      match rest with
      | d :: rest =>
        if d = code '\n' then d :: sourceCodes rest
        else code '\n' :: sourceCodes (d :: rest)
      | [] => [code '\n']
    else c :: sourceCodes rest

def lex (source : Text) : List Lexeme × Option Misplaced :=
  let codes := sourceCodes (source.runes.map Rune.code)
  lexemes (2 * codes.length + 2) {} true ⟨codes, {}⟩

end RvConsole.Expression
