import RvConsole.Text.Rune

/-! Keys, as a terminal sends them.

A key is a control character, the rune of a character, or an escape sequence. While a paste is under
way only runes and its end count as keys. -/
namespace RvConsole

inductive Key where
  /-- A character, or a control character without a key of its own. -/
  | rune (code : Nat)
  | up | down | left | right
  | wordLeft | wordRight
  | home | stop
  | deleteWord
  /-- Deletes from the cursor to the end of the line. -/
  | deleteRest
  | redraw
  | pasteStart | pasteStop
  /-- An escape sequence that means nothing here. -/
  | unknown
  deriving DecidableEq, Repr

namespace Key

def endOfText : Nat := 3
def endOfInput : Nat := 4
def lineFeed : Nat := 10
def enter : Nat := 13
def deleteFront : Nat := 21
def backspace : Nat := 127

def escape : UInt8 := 27

/-- The control characters with a key of their own. -/
def controls : List (UInt8 × Key) := [
  (1, home), (2, left), (5, stop), (6, right), (8, rune backspace), (11, deleteRest),
  (12, redraw), (23, deleteWord), (14, down), (16, up)]

/-- The escape sequences that are keys, without the escape. -/
def sequences : List (String × Key) := [
  ("[A", up), ("[B", down), ("[C", right), ("[D", left), ("[H", home), ("[F", stop),
  ("[1;3C", wordRight), ("[1;3D", wordLeft), ("[200~", pasteStart)]

/-- The sequence that ends a paste, without the escape. -/
def pasteStopSequence : Text := "[201~"

/-- Whether a byte ends an escape sequence. -/
def endsSequence (b : UInt8) : Bool :=
  (97 ≤ b && b ≤ 122) || (65 ≤ b && b ≤ 90) || b == Text.byte '~'

/-- The key that a sequence behind an escape is, and what follows it. -/
def readSequence (isPasting : Bool) (t : Text) : Option (Key × Text) :=
  let known? : Option (Key × Text) :=
    if isPasting then (Text.after? pasteStopSequence t).map (pasteStop, ·)
    else sequences.findSome? fun (s, key) => (Text.after? s t).map (key, ·)
  match known? with
  | some found => some found
  | none =>
    match t.dropWhile fun b => !endsSequence b with
    | [] => none
    | _ :: rest => some (unknown, rest)

/-- What a read of a key gives: a key, or nothing for bytes that are not UTF-8 and are dropped, or
for a key that is not complete. What follows is left. -/
def read (isPasting : Bool) : Text → Option Key × Text
  | [] => (none, [])
  | b :: rest =>
    match if isPasting then none else controls.lookup b with
    | some key => (some key, rest)
    | none =>
      if b = escape then
        match readSequence isPasting rest with
        | some (key, rest) => (some key, rest)
        | none => (none, b :: rest)
      else if Rune.isUnfinished (b :: rest) then (none, b :: rest)
      else
        let r := Rune.first b rest
        (if r.code = Rune.replacement then none else some (rune r.code),
          (b :: rest).drop r.bytes.length)

end Key

end RvConsole
