import RvConsole.Text.Rune

/-! White space.

White space is Unicode's property of that name: the ASCII controls from tab to carriage return, the
blank, and the spaces and separators of the other blocks. -/
namespace RvConsole

def isBlankCode (c : Nat) : Bool :=
  (9 ≤ c && c ≤ 13) || c == 0x20 || c == 0x85 || c == 0xA0 || c == 0x1680 ||
    (0x2000 ≤ c && c ≤ 0x200A) || c == 0x2028 || c == 0x2029 || c == 0x202F || c == 0x205F ||
    c == 0x3000

def Rune.isBlank (r : Rune) : Bool := isBlankCode r.code

namespace Text

/-- Runes without the white space at the end. -/
def trimEnd (rs : List Rune) : List Rune := (rs.reverse.dropWhile Rune.isBlank).reverse

/-- The text without white space at either end. -/
def trim (t : Text) : Text := ofRunes (trimEnd (t.runes.dropWhile Rune.isBlank))

/-- The text before the first white space, and the text from it on. -/
def splitBlank (t : Text) : Text × Text :=
  let (front, back) := t.runes.span fun r => !r.isBlank
  (ofRunes front, ofRunes back)

/-- Puts a rune in front of the first field, or closes that field when the rune is white space. -/
def fieldStep (r : Rune) : List Text → List Text
  | [] => if r.isBlank then [[], []] else [r.bytes]
  | field :: rest => if r.isBlank then [] :: field :: rest else (r.bytes ++ field) :: rest

/-- The maximal runs without white space. -/
def fields (t : Text) : List Text := (t.runes.foldr fieldStep [[]]).filter (· ≠ [])

end Text

end RvConsole
