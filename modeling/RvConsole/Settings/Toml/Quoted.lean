import RvConsole.Settings.Toml.Reader

/-! Strings of a TOML document.

A double quote starts a string with escapes and a single quote one without. Three quotes start a
string that may go over several lines. -/
namespace RvConsole.Toml.Reader

def letterEscapes : List (Nat × Nat) := [
  (code 'b', 8), (code 't', 9), (code 'n', 10), (code 'f', 12), (code 'r', 13), (code '"', 34),
  (code '\\', 92)]

/-- The code point of so many hexadecimal digits. `start` is the string that they stand in. -/
def hexEscape (width : Nat) (tooFew : Text → Cause) (start : List Nat) : Reader Nat := do
  let digits := (← peekMany width).takeWhile isHexDigit
  if digits.length < width then
    skip (digits.length + 1)
    fail (tooFew (Text.ofCodes (start.take (start.length - (← get).rest.length))))
  else
    skip width
    let digits := digits.map Nat.toUInt8
    let n := (Text.natural? 16 digits).getD 0
    if 0x10FFFF < n ∨ (0xD800 ≤ n ∧ n < 0xE000) then fail (.badCode digits) else return n

/-- The code point of an escape, behind its backslash. -/
def escape (start : List Nat) : Reader Nat := do
  let c ← peek
  skip 1
  match letterEscapes.lookup c with
  | some value => return value
  | none =>
    if c = code 'u' then hexEscape 4 .shortEscape start
    else if c = code 'U' then hexEscape 8 .longEscape start
    else if isBlank c then fail (.blankEscape c)
    else fail (.badEscape c)

def hasEscapes (quote : Nat) : Bool := quote == code '"'

/-- So many quotes between quotes of the other kind. -/
def quotesText (quote count : Nat) : Text :=
  let other := if hasEscapes quote then code '\'' else code '"'
  Text.ofCodes ([other] ++ List.replicate count quote ++ [other])

/-- A string on one line, behind its quote and what is already read of it. -/
def plainString (quote : Nat) (start : List Nat) : (fuel : Nat) → List Nat → Reader Text
  | 0, _ => failAtEnd (.stringEnd (quotesText quote 1))
  | fuel + 1, read => do
    let c ← peek
    if c = 0 then failAtEnd (.stringEnd (quotesText quote 1))
    else if isNewline c then fail .stringNewline
    else
      skip 1
      if c = quote then return Text.ofCodes read.reverse
      else if hasEscapes quote ∧ c = code '\\' then
        let value ← escape start
        plainString quote start fuel (value :: read)
      else plainString quote start fuel (c :: read)

/-- Whether blanks and a line break follow. -/
def isLineEscape (rest : List Nat) : Bool :=
  match rest.dropWhile isBlank with
  | c :: _ => isNewline c
  | [] => false

/-- A string over several lines, behind its quotes and what is already read of it. Up to two quotes
may stand before those that close it. A backslash at the end of a line takes away the blanks and
line breaks behind it. -/
def longString (quote : Nat) (start : List Nat) : (fuel : Nat) → List Nat → Reader Text
  | 0, _ => failAtEnd (.stringEnd (quotesText quote 3))
  | fuel + 1, read => do
    let c ← peek
    if c = 0 then failAtEnd (.stringEnd (quotesText quote 3))
    else if c = quote then
      let quotes := (← span (· == quote)).length
      if quotes < 3 then longString quote start fuel (List.replicate quotes quote ++ read)
      else if 5 < quotes then fail (.manyQuotes (quotesText quote 6))
      else return Text.ofCodes (List.replicate (quotes - 3) quote ++ read).reverse
    else
      skip 1
      if hasEscapes quote ∧ c = code '\\' then
        if isLineEscape (← get).rest then
          let _ ← span fun c => isBlank c || isNewline c
          longString quote start fuel read
        else
          let value ← escape start
          longString quote start fuel (value :: read)
      else longString quote start fuel (c :: read)

/-- A string of any kind. The line break behind the quotes of a long one is not part of it. -/
def string : Reader Text := do
  let quote ← peek
  let fuel ← rounds
  if (← peekMany 3) = [quote, quote, quote] then
    skip 3
    let start := (← get).rest
    if (← peekMany 2) = [code '\r', code '\n'] then skip 2
    else if (← peek) = code '\n' then skip 1
    longString quote start fuel []
  else
    skip 1
    plainString quote (← get).rest fuel []

end RvConsole.Toml.Reader
