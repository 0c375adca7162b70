/-! Text as bytes.

The console reads and writes byte strings. What reaches it need not be valid UTF-8, and a byte it
does not understand has to come out again as it went in, so text is a list of bytes and string
literals stand for their UTF-8 bytes. -/
namespace RvConsole

/-- A byte string. -/
abbrev Text := List UInt8

namespace Text

/-- The UTF-8 bytes of a string. -/
def ofString (s : String) : Text := s.toUTF8.data.toList

instance : Coe String Text := ⟨ofString⟩

/-- The byte of an ASCII character. -/
def byte (c : Char) : UInt8 := c.toUInt8

/-- The texts in order, with `sep` between neighbours. -/
def join (sep : Text) (parts : List Text) : Text := sep.intercalate parts

/-- What follows `lead`, when the text starts with it. -/
def after? : (lead : Text) → Text → Option Text
  | [], t => some t
  | _ :: _, [] => none
  | a :: lead, b :: t => if a = b then after? lead t else none

def startsWith (t lead : Text) : Bool := (after? lead t).isSome

/-- Puts `b` in front of the first piece, or closes it when `b` is the separator. -/
def splitStep (sep b : UInt8) : List Text → List Text
  | [] => if b = sep then [[], []] else [[b]]
  | piece :: rest => if b = sep then [] :: piece :: rest else (b :: piece) :: rest

/-- The pieces between the separators; there is always one more piece than separators. -/
def split (sep : UInt8) (t : Text) : List Text := t.foldr (splitStep sep) [[]]

/-- Blanks in front, up to a width. -/
def padLeft (fill : UInt8) (width : Nat) (t : Text) : Text :=
  List.replicate (width - t.length) fill ++ t

/-- Each text ended by a newline. -/
def lines (parts : List Text) : Text := parts.flatMap (· ++ [byte '\n'])

end Text

end RvConsole
