import RvConsole.Display.Listing
import RvConsole.Isa.Assemble
import RvConsole.Session.Basic

/-! What a session does with a line. -/
namespace RvConsole.Session

variable {σ : Type}

/-- A session after a line, or after several: its output, whether it was told to quit, and why it
cannot go on. -/
structure Turn (σ : Type) where
  session : Session σ
  out : Sink
  quit : Bool := false
  error : Option SessionError := none

/-- How many mnemonics help shows in a row. -/
def helpWidth : Nat := 8

/-- Parts of a list, each as long as given but for the last. -/
def chunks {α : Type} (size : Nat) : (fuel : Nat) → List α → List (List α)
  | 0, _ => []
  | _, [] => []
  | fuel + 1, xs => xs.take size :: chunks size fuel (xs.drop size)

def helpLines : List Text :=
  let heading : List Text := [
    "Enter an RV32I instruction, such as: addi a0, zero, 5",
    "Commands: help, history, quit, exit, .equ NAME VALUE, $(expression)",
    "Mnemonics:"]
  let rows := chunks helpWidth Mnemonic.names.length Mnemonic.names
  heading ++ rows.map fun names => "  " ++ Text.join " " names

/-- The lines of the history, numbered from one. -/
def historyLines (history : List Text) : List Text :=
  history.mapIdx fun n line =>
    Text.padLeft (Text.byte ' ') 5 (Text.numeral 10 (n + 1)) ++ "  " ++ line

/-- Writes lines one by one, whether they fit or not. -/
def putLines (out : Sink) (lines : List Text) : Sink :=
  lines.foldl (fun out line => out.put (line ++ "\n")) out

def report (out : Sink) (heading detail : Text) : Sink :=
  out.put (heading ++ "\n  " ++ detail ++ "\n")

/-- Writes the lines of a table, up to the first that does not fit. -/
def writeLines (out : Sink) (lines : List Text) : Sink × Option SessionError :=
  match out.writeAll (lines.map (· ++ "\n")) with
  | (out, true) => (out, none)
  | (out, false) => (out, some (.output .closed))

def badInstruction : Text := "Error parsing instruction mnemonic:"

/-- What is told about an instruction. -/
def instructionNote (source : Text) (inst : Instruction) : Text :=
  "repl: " ++ source ++ "\n(riscv.Instruction) " ++ inst.text ++ "\n"

/-- Runs an instruction on the port and shows the registers. -/
def evaluate (p : Port σ) (s : Session σ) (out : Sink) (port : σ) (inst : Instruction) : Turn σ :=
  let (answer, port) := p.exchange s.reads port inst.word
  let (notes, port) := p.notes port
  let s := { s with port := some port }.tell notes
  match answer with
  | .ok regs =>
    let (out, error) := writeLines out regs.tableLines
    { session := s, out, error }
  | .error (.write cause) =>
    { session := s
      out := report out "Error writing to serial port:" cause.message
      error := some (.link (.write cause)) }
  | .error (.read cause) =>
    { session := s
      out := report out "Error reading from serial port:" (LinkError.message s.style (.read cause))
      error := some (.link (.read cause)) }
  -- The port keeps the session waiting, which shows nothing.
  | .error .waiting => { session := s, out, error := some (.link .waiting) }

/-- Shows an instruction and, with a port, runs it. -/
def perform (p : Port σ) (s : Session σ) (out : Sink) (source : Text) (inst : Instruction) :
    Turn σ :=
  let s := if s.verbose then s.tell (instructionNote source inst) else s
  match writeLines out inst.tableLines with
  | (out, some error) => { session := s, out, error := some error }
  | (out, none) =>
    match s.port with
    | none => { session := s, out }
    | some port => s.evaluate p out port inst

/-- A line that is no command: expands it and assembles what it comes to. -/
def instruct (p : Port σ) (s : Session σ) (out : Sink) (line : Text) : Turn σ :=
  let (expanded, equates) := expand (s.equates.evaluate s.language) s.equates line
  let s := { s with equates }
  match expanded with
  | .error e => { session := s, out := report out badInstruction (e.message s.style) }
  | .ok [] => { session := s, out }
  | .ok source =>
    match assemble source with
    | .error e => { session := s, out := report out badInstruction (e.message s.style) }
    | .ok inst => s.perform p out source inst

inductive Command where
  | quit | help | history
  deriving DecidableEq, Repr

/-- The command that a line is, in any case of its letters. -/
def command? (line : Text) : Option Command :=
  let word := line.lower
  if word = "quit" ∨ word = "exit" then some .quit
  else if word = "help" then some .help
  else if word = "history" then some .history
  else none

def line (p : Port σ) (s : Session σ) (out : Sink) (line : Text) : Turn σ :=
  let line := line.trim
  if line = [] then { session := s, out }
  else
    let s := s.remember line
    match command? line with
    | some .quit => { session := s, out, quit := true }
    | some .help => { session := s, out := putLines out helpLines }
    | some .history => { session := s, out := putLines out (historyLines s.history) }
    | none => s.instruct p out line

/-- Lines one after the other, until one quits or fails. -/
def lines (p : Port σ) (s : Session σ) (out : Sink) : List Text → Turn σ
  | [] => { session := s, out }
  | first :: rest =>
    let turn := s.line p out first
    if turn.quit ∨ turn.error.isSome then turn else turn.session.lines p turn.out rest

/-- A whole input. A line that is too long ends it, once those before it are done. -/
def run (p : Port σ) (s : Session σ) (out : Sink) (input : Text) : Turn σ :=
  let scanned := Text.scanLines input
  let turn := s.lines p out scanned.read
  if scanned.overlong ∧ !turn.quit ∧ turn.error.isNone then
    { turn with error := some .lineTooLong }
  else turn

end RvConsole.Session
