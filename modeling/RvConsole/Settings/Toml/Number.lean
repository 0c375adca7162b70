import RvConsole.Settings.Toml.Reader
import RvConsole.Text.Numeral
import RvConsole.Text.Integer

/-! Numbers, dates and words of a TOML document.

How far a number goes is known from its first code points; whether it is written right is looked at
when all of it is there. -/
namespace RvConsole.Toml

/-! ### Integers -/

/-- Whether every underscore stands behind a digit and the text ends with one; letters of
hexadecimal numbers are digits here. -/
def underscoresFit : (behindDigit : Bool) → Text → Bool
  | behindDigit, [] => behindDigit
  | behindDigit, b :: rest =>
    if b = Text.underscore ∧ !behindDigit then false
    else underscoresFit (Text.digit? 16 b).isSome rest

/-- A text without the sign in front of it. -/
def unsigned (t : Text) : Text :=
  if t.head? = some (Text.byte '+') ∨ t.head? = some (Text.byte '-') then t.drop 1 else t

/-- The letters behind a zero that tell the radix. -/
def radixMarks : List UInt8 := [Text.byte 'b', Text.byte 'o', Text.byte 'x']

/-- Whether a zero stands in front of other digits. -/
def hasLeadingZero (t : Text) : Bool :=
  match unsigned t with
  | zero :: next :: _ =>
    zero == Text.byte '0' && (t.head? != some zero || !radixMarks.contains next)
  | _ => false

def integerOf (t : Text) : Except Cause Value :=
  if !underscoresFit false t then .error (.underscores .integer t)
  else if hasLeadingZero t then .error (.leadingZero .integer t)
  else
    match Text.integer t with
    | .ok n => .ok (.integer n)
    | .error _ => .error (.outOfRange .integer t)

/-! ### Floats -/

def isPoint (b : UInt8) : Bool := b = Text.byte '.'

def isExponentMark (b : UInt8) : Bool := b = Text.byte 'e' || b = Text.byte 'E'

/-- Whether a digit stands behind every point. -/
def pointsFit : Text → Bool
  | [] => true
  | b :: rest => (!isPoint b || (rest.head?.map Text.isDigit).getD false) && pointsFit rest

/-- The parts of a float between its points and marks. -/
def floatParts (t : Text) : List Text :=
  let separated := t.map fun b => if isPoint b || isExponentMark b then Text.byte '.' else b
  (Text.split (Text.byte '.') separated).filter (· ≠ [])

/-- The digits of a float and its power of ten. -/
def floatScale? (t : Text) : Option (Nat × Int) := do
  let (front, back) := (unsigned t).span fun b => !isExponentMark b
  let (whole, part) := front.span fun b => !isPoint b
  let digits ← Text.natural? 10 (whole ++ part.drop 1)
  let exponent ← if back = [] then some 0 else Text.natural? 10 (unsigned (back.drop 1))
  let isNegative := (back.drop 1).head? = some (Text.byte '-')
  return (digits, (if isNegative then -(exponent : Int) else exponent) - (part.length - 1 : Nat))

def floatOf (t : Text) : Except Cause Value :=
  let parts := floatParts t
  if !parts.all (underscoresFit false) then .error (.underscores .float t)
  else if hasLeadingZero (parts.headD []) then .error (.leadingZero .float t)
  else if !pointsFit t then .error (.pointAfterDigits t)
  else
    match floatScale? (t.filter (· ≠ Text.underscore)) with
    | none => .error (.badFloat t)
    | some (digits, exponent) =>
      if exceedsFloat digits exponent then .error (.outOfRange .float t) else .ok .float

/-! ### Dates -/

/-- What follows a number of exactly two digits between two bounds. -/
def pair? (low high : Nat) (t : Text) : Option Text :=
  match t with
  | a :: b :: rest =>
    match Text.natural? 10 [a, b] with
    | some n => if low ≤ n ∧ n ≤ high then some rest else none
    | none => none
  | _ => none

def monthDays (year month : Nat) : Nat :=
  if month = 2 then if year % 4 = 0 ∧ (year % 100 ≠ 0 ∨ year % 400 = 0) then 29 else 28
  else if [4, 6, 9, 11].contains month then 30
  else 31

/-- What follows a date that stands at the front. -/
def date? (t : Text) : Option Text := do
  let year ← if (t.take 4).length = 4 then Text.natural? 10 (t.take 4) else none
  let afterYear ← Text.after? "-" (t.drop 4)
  let afterMonth ← Text.after? "-" (← pair? 1 12 afterYear)
  let month ← Text.natural? 10 (afterYear.take 2)
  pair? 1 (monthDays year month) afterMonth

/-- What follows a time that stands at the front. -/
def time? (t : Text) : Option Text := do
  let minutes ← Text.after? ":" (← pair? 0 23 t)
  let seconds ← Text.after? ":" (← pair? 0 59 minutes)
  let rest ← pair? 0 59 seconds
  match Text.after? "." rest with
  | none => some rest
  | some fraction =>
    let digits := fraction.takeWhile Text.isDigit
    if digits = [] then none else some (fraction.drop digits.length)

/-- Whether a text is the offset of a time, or nothing. -/
def isOffset (t : Text) : Bool :=
  match t with
  | [] => true
  | sign :: rest =>
    if sign = Text.byte 'Z' then rest = []
    else if sign = Text.byte '+' ∨ sign = Text.byte '-' then
      ((pair? 0 23 rest).bind (Text.after? ":")).bind (pair? 0 59) = some []
    else false

/-- Whether a text is a date, a time, or both with a `T` between them. -/
def isDatetime (t : Text) : Bool :=
  match date? t with
  | some [] => true
  | some (mark :: rest) => mark = Text.byte 'T' && ((time? rest).map isOffset).getD false
  | none => time? t = some []

/-- A text with the marks of dates in their usual form. -/
def usualMarks (t : Text) : Text := t.map fun b =>
  if b = Text.byte 't' ∨ b = Text.byte ' ' then Text.byte 'T'
  else if b = Text.byte 'z' then Text.byte 'Z'
  else b

def datetimeOf (t : Text) : Except Cause Value :=
  let t := usualMarks t
  if isDatetime t then .ok .datetime else .error (.badDatetime t)

/-! ### Reading them -/

namespace Reader

def bytes (codes : List Nat) : Text := codes.map Nat.toUInt8

/-- Whether a code point is one of some characters. -/
def isOneOf (chars : List Char) (c : Nat) : Bool := chars.any fun k => code k == c

def isFloatMark : Nat → Bool := isOneOf ['.', 'e', 'E']

def isFloatPart (c : Nat) : Bool := isDigit c || isOneOf ['_', '.', '-', '+', 'e', 'E'] c

def isDatePart (c : Nat) : Bool :=
  isDigit c || isOneOf ['-', ':', 'T', 't', ' ', '.', 'Z', 'z', '+'] c

/-- A value that is written in one piece. -/
def checked (value : Except Cause Value) : Reader Value := do lift (← get).line value

/-- A decimal number, behind what is already read of it. -/
def decimal (read : List Nat) : Reader Value := do
  let digits ← span fun c => isDigit c || c == code '_'
  if isFloatMark (← peek) then
    let tail ← span isFloatPart
    checked (floatOf (bytes (read ++ digits ++ tail)))
  else checked (integerOf (bytes (read ++ digits)))

/-- A number with the mark of its radix, behind both. -/
def marked (radix : Nat) (mark : Char) (name : Text) : Reader Value := do
  let isRadixDigit (c : Nat) : Bool := isHexDigit c && (Text.digit? radix c.toUInt8).isSome
  let read := [code '0', code mark]
  let c ← peek
  if !isRadixDigit c then fail (.radixDigit name (Text.ofCodes (read ++ [c])))
  let digits ← span fun c => isRadixDigit c || c == code '_'
  checked (integerOf (bytes (read ++ digits)))

def signedNumber : Reader Value := do
  let sign ← peek
  skip 1
  let c ← peek
  let special (text : List Char) : Reader Value := do
    let read := (List.zip (← peekMany 3) text).takeWhile fun (c, k) => c == code k
    skip read.length
    if read.length < 3 then fail (.notSpecial (Text.ofCodes (sign :: read.map (·.1))))
    else return .float
  if c = code 'i' then special ['i', 'n', 'f']
  else if c = code 'n' then special ['n', 'a', 'n']
  else if c = code '.' then fail .pointBeforeDigit
  else if isDigit c then
    let front ← peekMany 2
    if c = code '0' ∧ isOneOf ['b', 'o', 'x'] (front.getD 1 0) then
      fail (.signBeforeMark (Text.ofCodes (sign :: front)))
    else decimal [sign]
  else if c = 0 then failAtEnd (.notDigit c)
  else failBehind (.notDigit c)

/-- A number without a sign, or a date. A blank may stand between a date and a time. -/
def numberOrDate : Reader Value := do
  let digits ← span isDigit
  let c ← peek
  if digits = [code '0'] then
    if c = code 'b' then skip 1; marked 2 'b' "a binary"
    else if c = code 'o' then skip 1; marked 8 'o' "an octal"
    else if c = code 'x' then skip 1; marked 16 'x' "a hexadecimal"
    else decimal digits
  else if c = code '-' ∨ c = code ':' then
    let tail ← span isDatePart
    let t := (bytes (digits ++ tail)).reverse.dropWhile (· = Text.byte ' ')
    checked (datetimeOf t.reverse)
  else decimal digits

/-- How many code points of a word are passed over before it is read: one, where it starts like a
special float and goes on differently. -/
def passedOver (c next : Nat) : Nat :=
  if isOneOf ['i', 'n'] c ∧ isOneOf ['n', 'a'] next then 1 else 0

/-- A word: a truth value, or a float that is no number. -/
def word : Reader Value := do
  let front ← peekMany 3
  if front = [code 'i', code 'n', code 'f'] ∨ front = [code 'n', code 'a', code 'n'] then
    skip 3
    return .float
  skip (passedOver (front.getD 0 0) (front.getD 1 0))
  let t := Text.ofCodes (← span isLetterCode)
  if t = "true" then return .boolean true
  else if t = "false" then return .boolean false
  else fail (.noValue t.quote)

end Reader

end RvConsole.Toml
