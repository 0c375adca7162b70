import RvConsole.Files.Store
import RvConsole.Link.Exchange
import RvConsole.Session.Expand
import RvConsole.Text.Line

/-! A session: what it remembers from line to line. -/
namespace RvConsole

/-- A session over a port with states `σ`. -/
structure Session (σ : Type) where
  /-- Whether the session tells what it assembles. -/
  verbose : Bool := false
  style : NumberStyle := {}
  /-- The port's state; without a port instructions are only assembled. -/
  port : Option σ := none
  /-- Where lines are kept between sessions; nowhere if empty. -/
  historyFile : Text := []
  equates : Equates := []
  /-- The language that expressions are in. -/
  language : Expression.Language := Expression.language
  /-- How many reads an answer is given to arrive in. -/
  reads : Nat := 1000000
  /-- The lines entered, oldest first. -/
  history : List Text := []
  files : Store := {}
  /-- What the session told besides its output. -/
  journal : Text := []

/-- Why a session cannot go on. -/
inductive SessionError where
  | output (fault : Fault)
  | link (error : LinkError)
  | lineTooLong
  | file (error : FileError)
  deriving DecidableEq, Repr

def SessionError.message (style : NumberStyle) : SessionError → Text
  | output fault => fault.message
  | link error => error.message style
  | lineTooLong => "bufio.Scanner: token too long"
  | file error => error.message

namespace Session

variable {σ : Type}

def tell (s : Session σ) (t : Text) : Session σ := { s with journal := s.journal ++ t }

/-- Adds a line to the history and to its file. A file that cannot be written is told. -/
def remember (s : Session σ) (line : Text) : Session σ :=
  let s := { s with history := s.history ++ [line] }
  if s.historyFile = [] then s
  else
    match s.files.appendLine s.historyFile line with
    | .ok files => { s with files }
    | .error e => s.tell (s.historyFile ++ ": " ++ e.message ++ "\n")

/-- Adds the lines of the history file that are not empty. A file that is not there is no fault. -/
def loadHistory (s : Session σ) : Session σ × Option SessionError :=
  if s.historyFile = [] then (s, none)
  else
    match s.files.read s.historyFile with
    | .error e => (s, if e.reason = .missing then none else some (.file e))
    | .ok content =>
      let lines := Text.scanLines content
      ({ s with history := s.history ++ lines.read.filter (· ≠ []) },
        if lines.overlong then some .lineTooLong else none)

end Session

end RvConsole
