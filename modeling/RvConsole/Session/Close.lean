import RvConsole.Session.Line

/-! The end of a session: what was opened is closed, the newest first. -/
namespace RvConsole

/-- Something to close: its name, and what goes wrong when it is closed. -/
structure Closer where
  name : Text
  fault : Option Text := none
  deriving DecidableEq, Repr

namespace Closer

def order (closers : List Closer) : List Closer := closers.reverse

/-- What is told about closing. -/
def note (closer : Closer) : Text :=
  match closer.fault with
  | some fault => "close: " ++ fault ++ "\n"
  | none => []

end Closer

/-- Runs an input, then closes everything, whether or not the input was run to its end. The names of
what was closed come in the order of closing. -/
def Session.runAndClose {σ : Type} (p : Port σ) (s : Session σ) (out : Sink) (input : Text)
    (closers : List Closer) : Session.Turn σ × List Text :=
  let turn := s.run p out input
  let closed := Closer.order closers
  ({ turn with session := turn.session.tell (closed.flatMap Closer.note) }, closed.map (·.name))

end RvConsole
