import RvConsole.Command.Flag
import RvConsole.Link.Device
import RvConsole.Link.Logger
import RvConsole.Link.Serial
import RvConsole.Locale.Style
import RvConsole.Session.Close
import RvConsole.Settings.Basic

/-! The console as a command.

Flags come first, then settings from a file, where no flag is given. Then a device is chosen, and
the session runs over the input. -/
namespace RvConsole.Command

def name : Text := "narvie"

/-- The surroundings of the command: its arguments, its input, the files, and the directory for
settings, if there is one. -/
structure Surroundings where
  args : List Text
  input : Text
  files : Store
  configHome : Option Text

/-- What the command leaves. -/
structure Outcome where
  exitCode : Nat
  out : Text
  err : Text
  files : Store

/-- The directory of settings and history below the directory for settings; a relative one does not
count. -/
def directory? (configHome : Option Text) : Option Text :=
  match configHome with
  | some home => if Path.isAbsolute home then some (Path.join home name) else none
  | none => none

/-- A file in the directory of settings and history. -/
def defaultFile (configHome : Option Text) (file : Text) : Text :=
  ((directory? configHome).map (Path.join · file)).getD []

def configFile (configHome : Option Text) : Text := defaultFile configHome "config.toml"

def historyFile (configHome : Option Text) : Text := defaultFile configHome "history.txt"

def defaultBaud : Int := 9600

/-- The flags, in the order of usage. -/
def flags (configHome : Option Text) : List Flag :=
  let shown (t : Text) : Option Text := if t = [] then none else some t
  [{ name := "assemble-only", kind := .switch
     usage := "Only assemble mnemonics, do not evaluate them" },
   { name := "baud", kind := .integer, usage := "Serial baud rate"
     default := some (Text.decimal defaultBaud) },
   { name := "config", kind := .text, usage := "TOML configuration file"
     default := shown (configFile configHome) },
   { name := "history", kind := .text, usage := "History file"
     default := shown (historyFile configHome) },
   { name := "log", kind := .text, usage := "Log register traffic to this file" },
   { name := "simulate", kind := .switch, usage := "Run a simulation of the processor" },
   { name := "tcp", kind := .integer
     usage := "Connect over TCP to local port PORT instead of a serial port" },
   { name := "v", kind := .switch, usage := "Verbose mode" }]

def usage (configHome : Option Text) : Text :=
  "Usage: " ++ name ++ " [options] [address]\n" ++ (flags configHome).flatMap Flag.line

/-- What the flags and the settings come to. -/
structure Options where
  address : Text
  tcp : Int
  baud : Int
  history : Text
  log : Text
  verbose : Bool
  simulate : Bool
  assembleOnly : Bool
  deriving DecidableEq, Repr

namespace Parsed

def text? (p : Parsed) (name : Text) : Option Text :=
  match p.get? name with
  | some (.text t) => some t
  | _ => none

def integer? (p : Parsed) (name : Text) : Option Int :=
  match p.get? name with
  | some (.integer n) => some n
  | _ => none

def switch? (p : Parsed) (name : Text) : Option Bool :=
  match p.get? name with
  | some (.switch b) => some b
  | _ => none

end Parsed

/-- A flag's value, else what the settings give, else the default. -/
def choose {α : Type} [DecidableEq α] (flag : Option α) (given empty default : α) : α :=
  flag.getD (if given = empty then default else given)

/-- The options of flags and settings. -/
def Options.ofSettings (configHome : Option Text) (p : Parsed) (s : Settings) : Options :=
  let address := p.args.headD []
  { address := if address = [] then s.address else address
    tcp := choose (p.integer? "tcp") s.tcp 0 0
    baud := choose (p.integer? "baud") s.baud 0 defaultBaud
    history := choose (p.text? "history") s.history [] (historyFile configHome)
    log := choose (p.text? "log") s.log [] []
    verbose := (p.switch? "v").getD s.verbose
    simulate := (p.switch? "simulate").getD false
    assembleOnly := (p.switch? "assemble-only").getD false }

/-- What the console is linked to. -/
inductive Target where
  | nothing
  | simulator
  | tcp (port : Int)
  | serial (address : Text) (baud : Int)
  /-- Nothing was chosen. -/
  | unknown
  deriving DecidableEq, Repr

/-- The target that options choose. -/
def Options.target (o : Options) : Target :=
  if o.assembleOnly then .nothing
  else if o.simulate then .simulator
  else if o.tcp ≠ 0 then .tcp o.tcp
  else if o.address ≠ [] then .serial o.address o.baud
  else .unknown

def fatal (files : Store) (err message : Text) : Outcome := ⟨1, [], err ++ message ++ "\n", files⟩

/-- The text when there is no port to choose. -/
def noPorts : Text :=
  "No serial ports were found. Connect a processor and try again,\n" ++
    "or use -simulate or -assemble-only to try narvie without one.\n\n"

/-- The state of a device whose reads are logged. -/
abbrev Linked := Device × Text

/-- Runs a session to its end. The log holds what was read from the device. -/
def runSession (p : Port Linked) (s : Session Linked) (input log : Text) : Outcome :=
  let (turn, _) := s.runAndClose p {} input []
  let s := turn.session
  let files := match s.port with
    | some (_, traffic) =>
      if log = [] then s.files else (s.files.update log fun _ => traffic).toOption.getD s.files
    | none => s.files
  match turn.error with
  | none => ⟨0, turn.out.written, s.journal, files⟩
  | some e =>
    ⟨1, turn.out.written, s.journal ++ name ++ ": " ++ e.message s.style ++ "\n", files⟩

/-- Runs a session on a machine, with a log if one is asked for. -/
def simulate (s : Session Linked) (input log : Text) : Outcome :=
  let device := Device.simulator { machine := .new, verbose := s.verbose, style := s.style }
  let s := { s with port := some (device, []) }
  if log = [] then runSession (Device.port.logged none) s input []
  else
    match s.files.create log with
    | .error e => fatal s.files s.journal (log ++ ": " ++ e.message)
    | .ok files => runSession (Device.port.logged (some Port.keep)) { s with files } input log

/-- Runs the console with its options. -/
def withOptions (env : Surroundings) (style : NumberStyle) (o : Options) : Outcome :=
  let s : Session Linked :=
    { verbose := o.verbose, style, historyFile := o.history, files := env.files }
  let (s, error) := s.loadHistory
  let s := match error with
    | some e => s.tell (o.history ++ ": " ++ e.message style ++ "\n")
    | none => s
  match o.target with
  | .nothing => runSession (Device.port.logged none) s env.input []
  | .simulator => simulate s env.input o.log
  | .tcp port =>
    fatal s.files s.journal
      (name ++ ": dial tcp 127.0.0.1:" ++ Text.decimal port ++ ": connect: connection refused")
  | .serial address baud =>
    fatal s.files s.journal (address ++ ": " ++ (Serial.openMissing baud).message style)
  | .unknown => ⟨1, [], s.journal ++ noPorts ++ usage env.configHome, s.files⟩

/-- The number style of the settings' language. -/
def styleOf (language : Text) : Except TagError NumberStyle :=
  if language = [] then .ok {} else (Tag.parse language).map NumberStyle.ofTag

def withFlags (env : Surroundings) (p : Parsed) : Outcome :=
  if 1 < p.args.length then
    fatal env.files [] (name ++ ": Unknown arguments: [" ++ Text.join " " p.args.tail ++ "]")
  else
    let config := (p.text? "config").getD (configFile env.configHome)
    match Settings.load env.files config with
    | .error e => fatal env.files [] (config ++ ": " ++ e.message)
    | .ok settings =>
      match styleOf settings.language with
      | .error e => fatal env.files [] (config ++ ": " ++ e.message)
      | .ok style => withOptions env style (Options.ofSettings env.configHome p settings)

/-- The file that the command takes its settings from. -/
def settingsPath (configHome : Option Text) (args : List Text) : Text :=
  match parse (flags configHome) args with
  | .ok p => (p.text? "config").getD (configFile configHome)
  | .error _ => []

/-- The other files that the command may read or write, once its settings are there. -/
def otherPaths (configHome : Option Text) (args : List Text) (files : Store) : List Text :=
  match parse (flags configHome) args with
  | .error _ => []
  | .ok p =>
    match Settings.load files ((p.text? "config").getD (configFile configHome)) with
    | .error _ => []
    | .ok settings =>
      let o := Options.ofSettings configHome p settings
      [o.history, o.log]

/-- Runs the console. -/
def run (env : Surroundings) : Outcome :=
  match parse (flags env.configHome) env.args with
  | .ok p => withFlags env p
  | .error e =>
    let usage := usage env.configHome
    match e.message? with
    | none => ⟨0, [], usage, env.files⟩
    | some message => ⟨2, [], message ++ "\n" ++ usage, env.files⟩

end RvConsole.Command
