import RvConsole.Text.Letter

/-! Escapes in string literals. -/
namespace RvConsole.Expression

inductive EscapeFault where
  | unknown (b : UInt8)
  /-- The literal ends inside the escape. -/
  | cut (escape : Text)
  | malformed (escape : Text)
  | octalNotAscii (n : Nat)
  | octalTooLarge (n : Nat)
  | hexNotAscii (escape : Text) (n : Nat)
  | beyondUnicode (escape : Text) (n : Nat)
  | surrogate (n : Nat)
  deriving DecidableEq, Repr

/-- Upper-case hexadecimal, at least four digits wide. -/
def hexFour (n : Nat) : Text := Text.padLeft (Text.byte '0') 4 (Text.hex n)

/-- How a character past ASCII would be written. -/
def asCodePoint (n : Nat) : Text :=
  " (use \\u" ++ hexFour n ++ " for the UTF-8 encoding of U+" ++ hexFour n ++ ")"

def EscapeFault.message : EscapeFault → Text
  | unknown b => "invalid escape sequence \\" ++ Rune.encode b.toNat
  | cut escape => "truncated escape sequence " ++ escape
  | malformed escape => "invalid escape sequence " ++ escape
  | octalNotAscii n => "non-ASCII octal escape \\" ++ Text.numeral 8 n ++ asCodePoint n
  | octalTooLarge n =>
    "invalid escape sequence \\" ++ Text.padLeft (Text.byte '0') 3 (Text.numeral 8 n)
  | hexNotAscii escape n => "non-ASCII hex escape " ++ escape ++ asCodePoint n
  | beyondUnicode escape n =>
    "code point out of range: " ++ escape ++ " (max \\U" ++ lowerHex 8 n ++ ")"
  | surrogate n => "invalid Unicode code point U+" ++ hexFour n

/-- Escapes of one letter and the bytes they stand for. -/
def letterEscapes : List (Char × UInt8) := [
  ('a', 7), ('b', 8), ('f', 12), ('n', 10), ('r', 13), ('t', 9), ('v', 11), ('\\', 92),
  ('\'', 39), ('"', 34)]

/-- Reads an octal escape after its backslash: at most three digits. -/
def octalEscape (isBytes : Bool) (t : Text) : Except EscapeFault (Text × Text) :=
  let digits := (t.take 3).takeWhile fun b => (Text.digit? 8 b).isSome
  let n := (Text.natural? 8 digits).getD 0
  if !isBytes ∧ 127 < n then .error (.octalNotAscii n)
  else if 256 ≤ n then .error (.octalTooLarge n)
  else .ok ([n.toUInt8], t.drop digits.length)

/-- Reads an escape of a letter and exactly so many hexadecimal digits, after its backslash. -/
def hexEscape (width : Nat) (t : Text) : Except EscapeFault (Nat × Text) :=
  let escape := Text.byte '\\' :: t
  if t.length < width + 1 then .error (.cut escape)
  else
    match Text.natural? 16 ((t.drop 1).take width) with
    | some n => .ok (n, t.drop (width + 1))
    | none => .error (.malformed (escape.take (width + 2)))

/-- The bytes of the escape after a backslash, and what follows it. -/
def escaped (isBytes : Bool) : Text → Except EscapeFault (Text × Text)
  | [] => .error (.cut "\\")
  | b :: rest =>
    if b = Text.byte '\n' then .ok ([], rest)
    else
      match letterEscapes.find? (Text.byte ·.1 = b) with
      | some (_, value) => .ok ([value], rest)
      | none =>
        if (Text.digit? 8 b).isSome then octalEscape isBytes (b :: rest)
        else if b = Text.byte 'x' then do
          let (n, after) ← hexEscape 2 (b :: rest)
          if !isBytes ∧ 127 < n then
            .error (.hexNotAscii (Text.byte '\\' :: b :: rest.take 2) n)
          else .ok ([n.toUInt8], after)
        else if b = Text.byte 'u' ∨ b = Text.byte 'U' then do
          let width := if b = Text.byte 'u' then 4 else 8
          let (n, after) ← hexEscape width (b :: rest)
          if 0x10FFFF < n then
            .error (.beyondUnicode (Text.byte '\\' :: b :: rest.take width) n)
          else if 0xD800 ≤ n ∧ n < 0xE000 then .error (.surrogate n)
          else .ok (Rune.encode n, after)
        else .error (.unknown b)

/-- Replaces the escapes of a literal's text. Each one takes at least a byte, so a text has no more
of them than `fuel`, its length. -/
def unescapeWith (isBytes : Bool) : (fuel : Nat) → Text → Except EscapeFault Text
  | 0, t => .ok t
  | fuel + 1, t =>
    let front := t.takeWhile (· ≠ Text.byte '\\')
    match t.dropWhile (· ≠ Text.byte '\\') with
    | [] => .ok front
    | _ :: rest => do
      let (bytes, after) ← escaped isBytes rest
      let back ← unescapeWith isBytes fuel after
      .ok (front ++ bytes ++ back)

/-- The text that a literal's body stands for. -/
def unescape (isBytes : Bool) (t : Text) : Except EscapeFault Text :=
  unescapeWith isBytes t.length t

end RvConsole.Expression
