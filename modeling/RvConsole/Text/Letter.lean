import RvConsole.Text.Numeral
import RvConsole.Text.Rune
import RvConsole.Text.LetterTable

/-! Letters, and characters as they are shown between quotes. -/
namespace RvConsole

/-- Whether one of the ranges holds a number. -/
def inRanges (ranges : List (Nat × Nat)) (c : Nat) : Bool :=
  ranges.any fun (low, high) => low ≤ c && c ≤ high

def isLetterCode (c : Nat) : Bool :=
  if c < 0x80 then (65 ≤ c && c ≤ 90) || (97 ≤ c && c ≤ 122) else inRanges LetterTable.ranges c

/-- The code points past ASCII that show nothing: controls, formats, separators, private ones. -/
def hiddenRanges : List (Nat × Nat) := [
  (0x80, 0xA0), (0xAD, 0xAD), (0x600, 0x605), (0x61C, 0x61C), (0x6DD, 0x6DD), (0x70F, 0x70F),
  (0x890, 0x891), (0x8E2, 0x8E2), (0x1680, 0x1680), (0x180E, 0x180E), (0x2000, 0x200F),
  (0x2028, 0x202F), (0x205F, 0x2064), (0x2066, 0x206F), (0x3000, 0x3000), (0xD800, 0xF8FF),
  (0xFEFF, 0xFEFF), (0xFFF9, 0xFFFB), (0x110BD, 0x110BD), (0x110CD, 0x110CD),
  (0x13430, 0x1343F), (0x1BCA0, 0x1BCA3), (0x1D173, 0x1D17A), (0xE0001, 0xE0001),
  (0xE0020, 0xE007F), (0xF0000, 0xFFFFD), (0x100000, 0x10FFFD)]

/-- Whether a code point is shown as itself. -/
def isShown (c : Nat) : Bool :=
  if c < 0x80 then 32 ≤ c && c ≤ 126 else !inRanges hiddenRanges c

/-- The lower-case hexadecimal of a number, at least so wide. -/
def lowerHex (width n : Nat) : Text :=
  Text.padLeft (Text.byte '0') width ((Nat.toDigits 16 n).map Char.toUInt8)

/-- The letters that stand for control characters after a backslash. -/
def controlLetters : List (Nat × Char) :=
  [(7, 'a'), (8, 'b'), (9, 't'), (10, 'n'), (11, 'v'), (12, 'f'), (13, 'r')]

/-- A code point as it stands between quotes of a kind: itself, or an escape. -/
def escapeCode (quote c : Nat) : Text :=
  if c = quote ∨ c = 0x5C then Text.byte '\\' :: Rune.encode c
  else if isShown c then Rune.encode c
  else match controlLetters.lookup c with
    | some letter => [Text.byte '\\', Text.byte letter]
    | none =>
      if c < 0x80 then "\\x" ++ lowerHex 2 c
      else if c < 0x10000 then "\\u" ++ lowerHex 4 c
      else "\\U" ++ lowerHex 8 c

def quoteCode (c : Nat) : Text := "'" ++ escapeCode 0x27 c ++ "'"

/-- A rune between double quotes; a stray byte is shown by its value. -/
def Rune.escape (r : Rune) : Text :=
  if r.isStray then "\\x" ++ lowerHex 2 (r.bytes.headD 0).toNat else escapeCode 0x22 r.code

def Text.quote (t : Text) : Text := "\"" ++ t.runes.flatMap Rune.escape ++ "\""

end RvConsole
