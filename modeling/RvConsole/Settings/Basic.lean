import RvConsole.Files.Store
import RvConsole.Settings.Toml.Document

/-! The settings of the console, which a file may give. -/
namespace RvConsole

/-- Settings; an empty text or a zero stands for what is not given. -/
structure Settings where
  address : Text := []
  /-- The TCP port of a processor. -/
  tcp : Int := 0
  baud : Int := 0
  history : Text := []
  log : Text := []
  /-- The language of messages, as a tag. -/
  language : Text := []
  verbose : Bool := false
  deriving DecidableEq, Repr

inductive SettingsError where
  | file (error : FileError)
  | format (error : Toml.Error)
  | wrongType (line : Option Nat) (key found want : Text)
  deriving DecidableEq, Repr

namespace SettingsError

/-- A message about a line of the file, if it is known, and the key last read. -/
def atLine (line : Option Nat) (key message : Text) : Text :=
  let lineText : Text := match line with
    | some n => " line " ++ Text.numeral 10 n
    | none => []
  let keyText : Text := if key = [] then [] else " (last key " ++ key.quote ++ ")"
  "toml:" ++ lineText ++ keyText ++ ": " ++ message

def message : SettingsError → Text
  | file error => error.message
  | format error => atLine (some error.line) error.lastKey error.cause.message
  | wrongType line key found want =>
    atLine line (Toml.keyText [key])
      ("incompatible types: TOML value has type " ++ found ++ "; destination has type " ++ want)

end SettingsError

def Toml.Value.type : Toml.Value → Text
  | string _ => "string"
  | integer _ => "int64"
  | boolean _ => "bool"
  | float => "float64"
  | datetime => "time.Time"
  | array => "[]any"
  | table => "map[string]any"
  | tables => "[]map[string]any"

namespace Settings

/-- A code point of a key as it is compared: letters of either case are the same, the long form of
`s` and the sign for kelvin included. -/
def foldCode (c : Nat) : Nat :=
  if 65 ≤ c ∧ c ≤ 90 then c + 32
  else if c = 0x17F then 115
  else if c = 0x212A then 107
  else c

def names (key : Text) (setting : String) : Bool :=
  key.runes.map (fun r => foldCode r.code) = setting.toList.map Char.toNat

/-- The settings with one entry of the file. Keys that name no setting are passed over. -/
def set (s : Settings) (key : Text) (value : Toml.Value) (line : Option Nat) :
    Except SettingsError Settings :=
  let text (put : Text → Settings) : Except SettingsError Settings :=
    match value with
    | .string t => .ok (put t)
    | v => .error (.wrongType line key v.type "string")
  let integer (put : Int → Settings) : Except SettingsError Settings :=
    match value with
    | .integer n => .ok (put n)
    | v => .error (.wrongType line key v.type "integer")
  if names key "address" then text fun t => { s with address := t }
  else if names key "tcp" then integer fun n => { s with tcp := n }
  else if names key "baud" then integer fun n => { s with baud := n }
  else if names key "history" then text fun t => { s with history := t }
  else if names key "log" then text fun t => { s with log := t }
  else if names key "language" then text fun t => { s with language := t }
  else if names key "verbose" then
    match value with
    | .boolean b => .ok { s with verbose := b }
    | v => .error (.wrongType line key v.type "boolean")
  else .ok s

def parse (content : Text) : Except SettingsError Settings := do
  let entries ← (Toml.read content).mapError .format
  entries.foldlM (fun s (key, value, line) => s.set key value line) {}

/-- The settings of a file. Without a file, nothing is given. -/
def load (files : Store) (path : Text) : Except SettingsError Settings :=
  if path = [] then .ok {}
  else
    match files.read path with
    | .ok content => parse content
    | .error e => if e.reason = .missing then .ok {} else .error (.file e)

end Settings

end RvConsole
