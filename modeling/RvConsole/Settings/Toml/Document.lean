import RvConsole.Settings.Toml.Number
import RvConsole.Settings.Toml.Quoted

/-! Reading a whole TOML document, line by line. -/
namespace RvConsole.Toml

/-- The line that a value counts with, of the first and the last it stands on: a string counts with
the last. -/
def Value.line (first last : Nat) : Value → Nat
  | string _ => last
  | _ => first

namespace Reader

/-! ### Keys -/

/-- One part of a key. Without quotes it may be empty; what stands there instead of a key is then a
fault of what follows. -/
def keyPart : Reader Text := do
  let c ← peek
  if c = code '"' ∨ c = code '\'' then
    skip 1
    plainString c (← get).rest (← rounds) []
  else return Text.ofCodes (← span isKeyPart)

/-- The parts of a key up to the sign behind it. -/
def keyParts : (fuel : Nat) → Reader (List Text)
  | 0 => fail .blankKey
  | fuel + 1 => do
    skipBlanks
    let first ← peek
    if first = 0 then failAtEnd (.noKeyPart (code '='))
    else if first = code '=' ∨ first = code '.' then fail (.noKeyPart first)
    let part ← keyPart
    skipBlanks
    let c ← peek
    if c = code '.' then
      skip 1
      return part :: (← keyParts fuel)
    else if c = code '=' then
      skip 1
      return [part]
    else if c = 0 then failAtEnd .keyEndMissing
    else fail (.keyEnd c)

/-- A key and the sign behind it. -/
def key : Reader (List Text) := do
  skipBlanks
  let c ← peek
  if c = 0 then failAtEnd .blankKey
  else if c = code '=' then fail .blankKey
  else if c = code '.' then fail .pointBeforeKey
  else keyParts (← rounds)

/-- The parts of a table's name up to the bracket behind it. -/
def tableName : (fuel : Nat) → Reader (List Text)
  | 0 => fail .noTableName
  | fuel + 1 => do
    skipBlanks
    let first ← peek
    if first = 0 then failAtEnd .noTableName
    else if first = code ']' then fail .noTableName
    else if first = code '.' then fail .noTablePart
    let part ← keyPart
    skipBlanks
    let c ← peek
    if c = code '.' then
      skip 1
      return part :: (← tableName fuel)
    else if c = code ']' then
      skip 1
      return [part]
    else if c = 0 then failAtEnd (.tableEnd c)
    else failBehind (.tableEnd c)

/-! ### Values -/

def putValue (line : Nat) (value : Value) : Reader Unit := do
  let s ← get
  let node := if value = .table then .table else .leaf value
  let tree ← lift line (s.tree.put s.table s.name node)
  modify fun s => { s with tree }

mutual

def value : (fuel : Nat) → (inArray : Bool) → Reader Value
  | 0, _ => failAtEnd .noValueAtEnd
  | fuel + 1, inArray => do
    skipBlanks
    let c ← peek
    if c = 0 then failAtEnd .noValueAtEnd
    else if isDigit c then numberOrDate
    else if c = code '[' then
      skip 1
      arrayItems fuel
      return .array
    else if c = code '\x7b' then
      skip 1
      inlineTable fuel inArray
      return .table
    else if c = code '"' ∨ c = code '\'' then return .string (← string)
    else if c = code '.' then fail .pointBeforeDigit
    else if c = code '+' ∨ c = code '-' then signedNumber
    else if isLetterCode c then word
    else fail (.noValue (quoteCode c))

/-- The items of an array, up to its closing bracket. -/
def arrayItems : (fuel : Nat) → Reader Unit
  | 0 => failAtEnd .noValueAtEnd
  | fuel + 1 => do
    skipLines (← rounds)
    let first ← peek
    if first = code ']' then skip 1
    else if first = code ',' then fail .comma
    else
      let _ ← value fuel true
      skipLines (← rounds)
      let c ← peek
      if c = code ',' then
        skip 1
        arrayItems fuel
      else if c = code ']' then skip 1
      else if c = 0 then failAtEnd (.arrayEnd none)
      else fail (.arrayEnd (some c))

/-- A table as a value, behind its opening bracket. Its entries are put in the tree like those of
other tables. -/
def inlineTable : (fuel : Nat) → (inArray : Bool) → Reader Unit
  | 0, _ => failAtEnd .noValueAtEnd
  | fuel + 1, inArray => do
    let outer ← get
    let here := outer.table ++ [outer.name]
    modify fun s => { s with table := here, name := [] }
    let passed := outer.tree.pass here
    let opened ← lift outer.line (if inArray then passed.openNext here else passed.openTable here)
    modify fun s => { s with tree := opened }
    inlineEntries fuel
    modify fun s => { s with table := outer.table, name := outer.name }

/-- The entries of a table that is a value, up to its closing bracket. -/
def inlineEntries : (fuel : Nat) → Reader Unit
  | 0 => failAtEnd .noValueAtEnd
  | fuel + 1 => do
    skipComment
    let first ← peek
    if first = code '\x7d' then skip 1
    else if isNewline first then fail .inlineNewline
    else if first = code ',' then fail .comma
    else
      entry fuel
      skipComment
      let c ← peek
      if c = code ',' then
        skip 1
        skipBlanks
        if (← peek) = code '\x7d' then fail .inlineComma
        inlineEntries fuel
      else if c = code '\x7d' then skip 1
      else if isNewline c then fail .inlineNewline
      else if c = 0 then failAtEnd (.inlineEnd none)
      else fail (.inlineEnd (some c))

/-- A key and its value, for the table that is read. -/
def entry : (fuel : Nat) → Reader Unit
  | 0 => failAtEnd .noValueAtEnd
  | fuel + 1 => do
    let parts ← key
    let outer ← get
    let line := outer.line
    modify fun s => { s with name := parts.getLast?.getD [] }
    let tree ← lift line (outer.tree.passThrough outer.table parts.dropLast)
    modify fun s => { s with tree, table := outer.table ++ parts.dropLast }
    let v ← value fuel false
    putValue line v
    modify fun s => { s with
      tree := s.tree.note (s.table ++ [s.name]) (v.line line s.line)
      table := outer.table }

end

/-! ### Lines -/

/-- The end of a line: blanks and a comment at most. -/
def lineEnd : Reader Unit := do
  skipComment
  let c ← peek
  if c = 0 then return
  else if isNewline c then skip 1
  else fail (.lineEnd c)

def header : Reader Unit := do
  let line := (← get).line
  let isNext := (← peekMany 2) = [code '[', code '[']
  skip (if isNext then 2 else 1)
  let name ← tableName (← rounds)
  if isNext then
    let c ← peek
    if c = 0 then failAtEnd (.tablesEnd c)
    else if c ≠ code ']' then failBehind (.tablesEnd c)
    skip 1
  let s ← get
  let (tree, _) ← lift line (s.tree.reach [] [] name.dropLast)
  modify fun s => { s with table := name.dropLast }
  let tree ← lift line (if isNext then tree.openNext name else tree.openTable name)
  modify fun s => { s with tree := tree.note name line, table := name }
  lineEnd

def document : (fuel : Nat) → Reader Unit
  | 0 => return
  | fuel + 1 => do
    skipLines (← rounds)
    let c ← peek
    if c = 0 then return
    else if c = code '[' then
      header
      document fuel
    else
      entry (← rounds)
      modify fun s => { s with name := [] }
      lineEnd
      document fuel

end Reader

/-- A document without the mark in front of it. -/
def dropMark (t : Text) : Text :=
  match t with
  | 0xEF :: 0xBB :: 0xBF :: rest => rest
  | 0xFF :: 0xFE :: rest => rest
  | 0xFE :: 0xFF :: rest => rest
  | _ => t

def codes (t : Text) : List Nat :=
  t.runes.map fun r => if r.isStray then strayCode (r.bytes.headD 0) else r.code

/-- The names in a document's top table with their values, each with its line if it has one. -/
def read (t : Text) : Except Error (List (Text × Value × Option Nat)) := do
  let t := dropMark t
  if (t.take 6).contains 0 then .error ⟨1, [], .nulBytes⟩
  else
    let codes := codes t
    let (_, s) ← Reader.document (codes.length + 1) { rest := codes }
    return s.tree.top

end RvConsole.Toml
