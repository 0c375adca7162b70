import RvConsole.Editor.Terminal
import RvConsole.Session.Line

/-! A session at a terminal. -/
namespace RvConsole.Session

variable {σ : Type}

/-- A line entered at a terminal and what it put out. -/
structure Entry where
  line : Text
  out : Text
  deriving DecidableEq, Repr

/-- A session at the end of its terminal's input, or where it quit. -/
structure Sitting (σ : Type) where
  session : Session σ
  entries : List Entry := []
  /-- Whether a line ended the session, and not the end of the input. -/
  quit : Bool := false
  error : Option SessionError := none

/-- Reads and runs lines until one quits or fails or the input ends. Every line takes a byte or more
of input, so its length is fuel enough. -/
def atTerminalWith (p : Port σ) : (fuel : Nat) → Session σ → Terminal → List Entry → Sitting σ
  | 0, s, _, entries => { session := s, entries }
  | fuel + 1, s, t, entries =>
    match t.readLine s.history.reverse with
    | (none, _) => { session := s, entries }
    | (some line, t) =>
      let turn := s.line p {} line
      let entries := entries ++ [⟨line, turn.out.written⟩]
      if turn.quit ∨ turn.error.isSome then
        { session := turn.session, entries, quit := true, error := turn.error }
      else atTerminalWith p fuel turn.session t entries

/-- A session whose lines are edited at a terminal. -/
def atTerminal (p : Port σ) (s : Session σ) (keys : Text) : Sitting σ :=
  s.atTerminalWith p (keys.length + 1) { input := keys } []

end RvConsole.Session
