import RvConsole.Text.Integer
import RvConsole.Text.Letter

/-! Flags on a command line.

A flag starts with one dash or two. Its value stands behind a sign in the same argument or, unless
the flag is a switch, in the next one. The first argument that is no flag ends them. -/
namespace RvConsole.Command

/-- What a flag takes. -/
inductive FlagKind where
  | switch | integer | text
  deriving DecidableEq, Repr

structure Flag where
  name : Text
  kind : FlagKind
  usage : Text
  /-- Its default as usage shows it; none if that is nothing. -/
  default : Option Text := none
  deriving DecidableEq, Repr

inductive FlagValue where
  | switch (on : Bool)
  | integer (n : Int)
  | text (t : Text)
  deriving DecidableEq, Repr

inductive FlagError where
  | help
  | badForm (arg : Text)
  | undefined (name : Text)
  | badSwitch (value name : Text)
  | noArgument (name : Text)
  | badValue (value name : Text) (fault : Text.IntegerFault)
  deriving DecidableEq, Repr

/-- What is wrong with a flag; help is no fault. -/
def FlagError.message? : FlagError → Option Text
  | help => none
  | badForm arg => some ("bad flag syntax: " ++ arg)
  | undefined name => some ("flag provided but not defined: -" ++ name)
  | badSwitch value name =>
    some ("invalid boolean value " ++ value.quote ++ " for -" ++ name ++ ": parse error")
  | noArgument name => some ("flag needs an argument: -" ++ name)
  | badValue value name .malformed =>
    some ("invalid value " ++ value.quote ++ " for flag -" ++ name ++ ": parse error")
  | badValue value name .outOfRange =>
    some ("invalid value " ++ value.quote ++ " for flag -" ++ name ++ ": value out of range")

/-- The truth value that a text stands for. -/
def switch? (t : Text) : Option Bool :=
  let yes : List Text := ["1", "t", "T", "TRUE", "true", "True"]
  let no : List Text := ["0", "f", "F", "FALSE", "false", "False"]
  if yes.contains t then some true else if no.contains t then some false else none

/-- What is left of a command line: the flags given, in order, and the other arguments. -/
structure Parsed where
  given : List (Text × FlagValue) := []
  args : List Text := []
  deriving DecidableEq, Repr

namespace Parsed

/-- The value of a flag; the last one given counts. -/
def get? (p : Parsed) (name : Text) : Option FlagValue := p.given.reverse.lookup name

end Parsed

def dash : UInt8 := Text.byte '-'

def sign : UInt8 := Text.byte '='

/-- A flag's name and the value behind a sign. The sign cannot come first. -/
def cutName (body : Text) : Text × Option Text :=
  match (body.drop 1).span (· ≠ sign) with
  | (front, []) => (body.take 1 ++ front, none)
  | (front, _ :: value) => (body.take 1 ++ front, some value)

/-- A value that is not a switch. -/
def readValue (flag : Flag) (value : Text) : Except FlagError FlagValue :=
  match flag.kind with
  | .integer =>
    match Text.integer value with
    | .ok n => .ok (.integer n)
    | .error fault => .error (.badValue value flag.name fault)
  | _ => .ok (.text value)

/-- Reads a flag by its name, and the arguments behind it. -/
def readFlag (flags : List Flag) (name : Text) (value : Option Text) (rest : List Text) :
    Except FlagError ((Text × FlagValue) × List Text) :=
  match flags.find? (·.name = name) with
  | none => .error (if name = "help" ∨ name = "h" then .help else .undefined name)
  | some flag =>
    if flag.kind = .switch then
      match value with
      | none => .ok ((name, .switch true), rest)
      | some t =>
        match switch? t with
        | some on => .ok ((name, .switch on), rest)
        | none => .error (.badSwitch t name)
    else
      match value, rest with
      | some t, _ => (readValue flag t).map fun v => ((name, v), rest)
      | none, t :: rest => (readValue flag t).map fun v => ((name, v), rest)
      | none, [] => .error (.noArgument name)

/-- Reads the flags at the front of arguments, each of which takes an argument or two. -/
def parseWith (flags : List Flag) : (fuel : Nat) → Parsed → List Text → Except FlagError Parsed
  | 0, p, args => .ok { p with args }
  | _, p, [] => .ok p
  | fuel + 1, p, arg :: rest =>
    match arg with
    | first :: second :: tail =>
      if first ≠ dash then .ok { p with args := arg :: rest }
      else if second = dash ∧ tail = [] then .ok { p with args := rest }
      else
        let body := if second = dash then tail else second :: tail
        if body.head? = some dash ∨ body.head? = some sign then .error (.badForm arg)
        else do
          let (name, value) := cutName body
          let (given, rest) ← readFlag flags name value rest
          parseWith flags fuel { p with given := p.given ++ [given] } rest
    | _ => .ok { p with args := arg :: rest }

def parse (flags : List Flag) (args : List Text) : Except FlagError Parsed :=
  parseWith flags args.length {} args

/-! ### Usage -/

/-- What usage calls a flag's value. -/
def FlagKind.placeholder : FlagKind → Text
  | .switch => []
  | .integer => " int"
  | .text => " string"

/-- A flag in usage. A short one stands on the line of its text. -/
def Flag.line (flag : Flag) : Text :=
  let front := "  -" ++ flag.name ++ flag.kind.placeholder
  let gap : Text := if front.length ≤ 4 then "\t" else "\n    \t"
  let default : Text := match flag.default with
    | none => []
    | some t => " (default " ++ (if flag.kind = .text then t.quote else t) ++ ")"
  front ++ gap ++ flag.usage ++ default ++ "\n"

end RvConsole.Command
