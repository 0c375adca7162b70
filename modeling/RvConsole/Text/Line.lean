import RvConsole.Text.Basic

/-! The lines of an input.

A line ends at a newline, and the last one may end with the input instead. One carriage return
before the end is not part of the line. A line has to fit the reader's buffer: at the first one that
does not, reading stops. -/
namespace RvConsole.Text

/-- The size of the line reader's buffer; a line has to be shorter. -/
def lineLimit : Nat := 65536

/-- A line without the carriage return at its end. -/
def dropReturn (t : Text) : Text :=
  if t.getLast? = some (byte '\r') then t.dropLast else t

/-- The input cut at its newlines; nothing follows the last newline. -/
def rawLines (t : Text) : List Text :=
  let pieces := split (byte '\n') t
  if pieces.getLast? = some [] then pieces.dropLast else pieces

/-- What reading lines gives: the lines read, and whether an overlong one stopped it. -/
structure Lines where
  read : List Text
  overlong : Bool
  deriving DecidableEq, Repr

/-- The lines of an input, up to the first that does not fit. -/
def scanLines (t : Text) : Lines :=
  let raw := rawLines t
  let fitting := raw.takeWhile fun line => decide (line.length < lineLimit)
  { read := fitting.map dropReturn, overlong := fitting.length < raw.length }

end RvConsole.Text
