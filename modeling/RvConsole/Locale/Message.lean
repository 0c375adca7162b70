import RvConsole.Locale.NumberStyle

/-! Messages: a wording with places for values.

A wording is plain text in which `%d` and `%v` stand for the next value, written in the reader's
number style, and `%X` for a number in plain hexadecimal; digits before the letter are the least
width, filled with zeros. Text values go in as they are. -/
namespace RvConsole

/-- A value that a wording refers to. -/
inductive Message.Value where
  | number (n : Int)
  | text (t : Text)
  deriving DecidableEq, Repr

/-- A wording and the values for its places, in order. -/
structure Message where
  wording : Text
  values : List Message.Value := []
  deriving DecidableEq, Repr

namespace Message

/-- A sign, then digits filled with zeros up to a width. -/
def fillZeros (width : Nat) : Text → Text
  | [] => Text.padLeft (Text.byte '0') width []
  | b :: rest =>
    if b = Text.byte '-' then b :: Text.padLeft (Text.byte '0') (width - 1) rest
    else Text.padLeft (Text.byte '0') width (b :: rest)

/-- One value at a place: the letter says how. -/
def place (style : NumberStyle) (verb : UInt8) (width : Nat) : Value → Text
  | .number n =>
    if verb = Text.byte 'X' then fillZeros width (Text.signedHex n) else style.number n
  | .text t => t

/-- The wording from a `%` on: each piece starts with what followed one. -/
def renderPieces (style : NumberStyle) : List Text → List Value → Text
  | [], _ => []
  | [] :: literal :: pieces, values => Text.byte '%' :: literal ++ renderPieces style pieces values
  | piece :: pieces, values =>
    let width := (Text.natural? 10 (piece.takeWhile Text.isDigit)).getD 0
    match piece.dropWhile Text.isDigit, values with
    | [], _ => ("%!(NOVERB)" : Text) ++ renderPieces style pieces values
    | verb :: literal, [] =>
      ("%!" : Text) ++ [verb] ++ ("(MISSING)" : Text) ++ literal ++ renderPieces style pieces []
    | verb :: literal, value :: values =>
      place style verb width value ++ literal ++ renderPieces style pieces values

/-- The message as the reader sees it. -/
def render (style : NumberStyle) (m : Message) : Text :=
  match Text.split (Text.byte '%') m.wording with
  | [] => []
  | literal :: pieces => literal ++ renderPieces style pieces m.values

end Message

end RvConsole
