import RvConsole.Editor.Basic

/-! Lines read from a terminal.

Input arrives in pieces of limited size. A key that is not complete waits for the next piece; bytes
that are not UTF-8 end the work on a piece, and what is left of it is taken up after the next read.
Input that ends inside a line is lost. -/
namespace RvConsole

/-- A terminal: the line under edit, bytes read and not yet used, and those not yet read. -/
structure Terminal where
  editor : Editor := {}
  buffer : Text := []
  input : Text
  /-- Whether the line comes from a paste as a whole. -/
  isPasted : Bool := false
  deriving DecidableEq, Repr

namespace Terminal

/-- How many bytes are taken in at once, those left over included. -/
def bufferSize : Nat := 256

/-- How reading a line ends. -/
inductive Outcome where
  | line (text : Text)
  | ended
  /-- The piece of input is used up. -/
  | hungry
  deriving DecidableEq, Repr

def fresh (t : Terminal) : Terminal :=
  { t with editor := { t.editor with line := [], position := 0, shown := none } }

/-- Works off the keys of the buffer, each of which takes a byte or more. -/
def work (history : List Text) : (fuel : Nat) → Terminal → Outcome × Terminal
  | 0, t => (.hungry, t)
  | fuel + 1, t =>
    match Key.read t.editor.isPasting t.buffer with
    | (none, rest) => (.hungry, { t with buffer := rest })
    | (some key, rest) =>
      let t := { t with buffer := rest }
      if !t.editor.isPasting ∧ key = .rune Key.endOfInput ∧ t.editor.line = [] then (.ended, t)
      else if !t.editor.isPasting ∧ key = .rune Key.endOfText then (.ended, t)
      else if !t.editor.isPasting ∧ key = .pasteStart then
        work history fuel
          { t with
            editor := { t.editor with isPasting := true }
            isPasted := t.isPasted || t.editor.line = [] }
      else if t.editor.isPasting ∧ key = .pasteStop then
        work history fuel { t with editor := { t.editor with isPasting := false } }
      else
        let t := { t with isPasted := t.isPasted && t.editor.isPasting }
        if Editor.enters key then
          let rest :=
            if key = .rune Key.enter ∧ t.buffer.head? = some Key.lineFeed.toUInt8 then t.buffer.tail
            else t.buffer
          (.line t.editor.text, { t with buffer := rest }.fresh)
        else work history fuel { t with editor := t.editor.press history key }

/-- Takes in as much as there is room for. -/
def feed (t : Terminal) : Terminal :=
  let room := bufferSize - t.buffer.length
  { t with buffer := t.buffer ++ t.input.take room, input := t.input.drop room }

/-- Works off the input until a line is entered or the input ends. Every piece but the last takes
input away, so its length is fuel enough. -/
def readWith (history : List Text) : (fuel : Nat) → Terminal → Option Text × Terminal
  | 0, t => (none, t)
  | fuel + 1, t =>
    match t.work history (t.buffer.length + 1) with
    | (.line text, t) => (if t.isPasted then none else some text, t)
    | (.ended, t) => (none, t)
    | (.hungry, t) => if t.input = [] then (none, t) else readWith history fuel t.feed

/-- Reads a line; the history comes newest first. A line that is a paste as a whole ends the
input. -/
def readLine (history : List Text) (t : Terminal) : Option Text × Terminal :=
  { t with isPasted := t.editor.isPasting }.readWith history (t.input.length + 2)

end Terminal

end RvConsole
