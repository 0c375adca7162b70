import RvConsole.Settings.Toml.Error

/-! The tables of a TOML document.

A name is given once: a second value for it, a second header for a table or a key through something
that is no table is a fault. A table that is there only because a longer key passes through it may
still get a header of its own. -/
namespace RvConsole.Toml

/-! ### Keys in messages -/

/-- Whether a code point may stand in a key without quotes. -/
def isKeyPart (c : Nat) : Bool :=
  (48 ≤ c && c ≤ 57) || (65 ≤ c && c ≤ 90) || (97 ≤ c && c ≤ 122) || c == 95 || c == 45

/-- One part of a key, in quotes if it needs them. -/
def partText (part : Text) : Text :=
  if part ≠ [] ∧ part.all (fun b => isKeyPart b.toNat) then part
  else
    let escaped := part.flatMap fun b =>
      if b = Text.byte '"' ∨ b = Text.byte '\\' then [Text.byte '\\', b] else [b]
    "\"" ++ escaped ++ "\""

/-- A key as messages show it. -/
def keyText (key : List Text) : Text := Text.join "." (key.map partText)

/-! ### Tables and values -/

/-- What a name stands for: a value, a table, or some tables of which the last is meant. -/
inductive Node where
  | leaf (value : Value)
  | table
  | tables (count : Nat)
  deriving DecidableEq, Repr

def Node.value : Node → Value
  | leaf value => value
  | table => .table
  | tables _ => .tables

/-- The place inside a node, unless it is a value. The tables under one name are told apart by their
numbers, behind an empty part. -/
def Node.inside (place : List Text) : Node → Option (List Text)
  | leaf _ => none
  | table => some place
  | tables count => some (place ++ [[], Text.numeral 10 count])

structure Tree where
  /-- What stands at each place. -/
  nodes : List (List Text × Node) := []
  /-- The keys that other keys passed through, with nothing of their own since. -/
  passed : List (List Text) := []
  /-- The lines of the keys that were given a value or a header, the last first. -/
  lines : List (List Text × Nat) := []

namespace Tree

def node? (tree : Tree) (place : List Text) : Option Node := tree.nodes.lookup place

/-- The tree with a node at a place, instead of the one there. -/
def setNode (tree : Tree) (place : List Text) (node : Node) : Tree :=
  { tree with nodes := tree.nodes.filter (·.1 ≠ place) ++ [(place, node)] }

def pass (tree : Tree) (key : List Text) : Tree := { tree with passed := key :: tree.passed }

/-- Notes that a key was given something of its own. -/
def settle (tree : Tree) (key : List Text) : Tree :=
  { tree with passed := tree.passed.filter (· ≠ key) }

def note (tree : Tree) (key : List Text) (line : Nat) : Tree :=
  { tree with lines := (key, line) :: tree.lines }

/-- The place inside the table of a key, below the place of the parts already seen. -/
def locate (tree : Tree) : (seen place : List Text) → List Text → Except Cause (List Text)
  | _, place, [] => .ok place
  | seen, place, part :: rest =>
    let here := place ++ [part]
    match (tree.node? here).bind (Node.inside here) with
    | some place => locate tree (seen ++ [part]) place rest
    | none => .error (.defined (keyText (seen ++ [part])))

/-- Makes the tables of a key that are not there yet. -/
def reach : Tree → (seen place : List Text) → List Text → Except Cause (Tree × List Text)
  | tree, _, place, [] => .ok (tree, place)
  | tree, seen, place, part :: rest =>
    let here := place ++ [part]
    let seen := seen ++ [part]
    match tree.node? here with
    | none => reach ((tree.setNode here .table).pass seen) seen here rest
    | some node =>
      match node.inside here with
      | some place => reach tree seen place rest
      | none => .error (.notTable (keyText seen))

/-- Gives a name in a table something of its own. What was only passed through so far stays as it
is, except that an array takes its place. -/
def put (tree : Tree) (table : List Text) (name : Text) (node : Node) : Except Cause Tree := do
  let here := (← tree.locate [] [] table) ++ [name]
  let key := table ++ [name]
  match tree.node? here with
  | none => return tree.setNode here node
  | some there =>
    if !tree.passed.contains key then .error (.defined (keyText key))
    else if node = .leaf .array ∨ there = .leaf .array then
      return (tree.settle key).setNode here node
    else return tree.settle key

def openTable (tree : Tree) (key : List Text) : Except Cause Tree := do
  let (tree, _) ← tree.reach [] [] key.dropLast
  tree.put key.dropLast (key.getLast?.getD []) .table

/-- Opens one more of the tables of a key. -/
def openNext (tree : Tree) (key : List Text) : Except Cause Tree := do
  let (tree, place) ← tree.reach [] [] key.dropLast
  let here := place ++ key.getLast?.toList
  match tree.node? here with
  | none => return tree.setNode here (.tables 1)
  | some (.tables count) => return tree.setNode here (.tables (count + 1))
  | some _ => .error (.notArray (keyText key))

/-- Passes through the tables between a table and the last part of a key below it. -/
def passThrough : Tree → (table : List Text) → List Text → Except Cause Tree
  | tree, _, [] => .ok tree
  | tree, table, part :: rest => do
    let table := table ++ [part]
    let tree ← (tree.pass table).openTable table
    passThrough tree table rest

/-- The names in the top table with their values, and their lines if they have one. -/
def top (tree : Tree) : List (Text × Value × Option Nat) :=
  tree.nodes.filterMap fun (place, node) =>
    match place with
    | [name] => some (name, node.value, tree.lines.lookup [name])
    | _ => none

end Tree

end RvConsole.Toml
