import RvConsole.Files.Path

/-! The files that a session reads and writes. -/
namespace RvConsole

inductive FileVerb where
  | opening | reading | making
  deriving DecidableEq, Repr

inductive FileReason where
  | missing | notDirectory | isDirectory | taken
  deriving DecidableEq, Repr

structure FileError where
  verb : FileVerb
  path : Text
  reason : FileReason
  deriving DecidableEq, Repr

def FileVerb.text : FileVerb → Text
  | .opening => "open"
  | .reading => "read"
  | .making => "mkdir"

def FileReason.text : FileReason → Text
  | .missing => "no such file or directory"
  | .notDirectory => "not a directory"
  | .isDirectory => "is a directory"
  | .taken => "file exists"

def FileError.message (e : FileError) : Text :=
  e.verb.text ++ " " ++ e.path ++ ": " ++ e.reason.text

/-- Files and directories by their parts from the root on. Whatever holds something is a directory,
and so is everything above the working directory. -/
structure Store where
  /-- The working directory. -/
  here : List Text := []
  directories : List (List Text) := []
  files : List (List Text × Text) := []
  deriving DecidableEq, Repr

inductive Place where
  | missing
  | directory
  | file (content : Text)
  deriving DecidableEq, Repr

namespace Store

/-- What the place at some parts holds. -/
def placeAt (s : Store) (parts : List Text) : Place :=
  match s.files.lookup parts with
  | some content => .file content
  | none =>
    let isAbove (other : List Text) : Bool := parts.isPrefixOf other
    if isAbove s.here ∨ s.directories.any isAbove ∨ s.files.any (isAbove ·.1) then .directory
    else .missing

/-- Follows parts from a place on; only a directory leads further. -/
def follow (s : Store) : (parts : List Text) → List Text → Except FileReason (List Text)
  | parts, [] => .ok parts
  | parts, part :: rest =>
    match s.placeAt parts with
    | .file _ => .error .notDirectory
    | .missing => .error .missing
    | .directory =>
      if part = [] ∨ part = Path.here then s.follow parts rest
      else if part = Path.up then s.follow parts.dropLast rest
      else s.follow (parts ++ [part]) rest

/-- The place a path leads to. -/
def locate (s : Store) (path : Text) : Except FileReason (List Text) :=
  if path = [] then .error .missing
  else s.follow (if Path.isAbsolute path then [] else s.here) (Path.parts path)

/-- The parts of the place that a path names, whether there is something or not. -/
def lexical (s : Store) (path : Text) : List Text :=
  let full := if Path.isAbsolute path then path else Text.join [Path.slash] ([] :: s.here ++ [path])
  (Path.parts (Path.clean full)).filter (· ≠ [])

/-- What a path leads to. -/
def look (s : Store) (path : Text) : Except FileReason Place := (s.locate path).map s.placeAt

/-- The content of a file. A directory opens but does not read. -/
def read (s : Store) (path : Text) : Except FileError Text :=
  match s.look path with
  | .ok (.file content) => .ok content
  | .ok .directory => .error ⟨.reading, path, .isDirectory⟩
  | .ok .missing => .error ⟨.opening, path, .missing⟩
  | .error reason => .error ⟨.opening, path, reason⟩

/-- The store with a file's content at a place. -/
def put (s : Store) (parts : List Text) (content : Text) : Store :=
  if (s.files.lookup parts).isSome then
    { s with files := s.files.map fun (p, old) => if p = parts then (p, content) else (p, old) }
  else { s with files := s.files ++ [(parts, content)] }

/-- Writes a file whose new content comes from the old one; a missing file is made. -/
def update (s : Store) (path : Text) (f : Text → Text) : Except FileError Store :=
  match s.locate path with
  | .error reason => .error ⟨.opening, path, reason⟩
  | .ok parts =>
    match s.placeAt parts with
    | .directory => .error ⟨.opening, path, .isDirectory⟩
    | .missing => .ok (s.put parts (f []))
    | .file content => .ok (s.put parts (f content))

def append (s : Store) (path data : Text) : Except FileError Store := s.update path (· ++ data)

def create (s : Store) (path : Text) : Except FileError Store := s.update path fun _ => []

def makeDirectory (s : Store) (path : Text) : Except FileError Store :=
  let trimmed := (path.reverse.dropWhile (· = Path.slash)).reverse
  match s.locate trimmed with
  | .error reason => .error ⟨.making, path, reason⟩
  | .ok parts =>
    match s.placeAt parts with
    | .missing => .ok { s with directories := s.directories ++ [parts] }
    | _ => .error ⟨.making, path, .taken⟩

/-- A path up to the slash before its last part. -/
def parentPath (path : Text) : Text :=
  ((path.reverse.dropWhile (· = Path.slash)).dropWhile (· ≠ Path.slash)).reverse

/-- Makes a directory and all those above it that are missing. A path is shorter than the path of
what is below it, so its length is fuel enough. -/
def makeDirectoriesWith (s : Store) : (fuel : Nat) → (path : Text) → Except FileError Store
  | 0, _ => .ok s
  | fuel + 1, path =>
    match s.look path with
    | .ok .directory => .ok s
    | .ok (.file _) => .error ⟨.making, path, .notDirectory⟩
    | _ => do
      let parent := parentPath path
      let above ← if parent = [] then .ok s else s.makeDirectoriesWith fuel parent
      above.makeDirectory path

/-- Makes a directory and all those above it that are missing. -/
def makeDirectories (s : Store) (path : Text) : Except FileError Store :=
  s.makeDirectoriesWith (path.length + 1) path

/-- Writes a line at the end of a file, in a directory made for it. -/
def appendLine (s : Store) (path line : Text) : Except FileError Store := do
  let s ← s.makeDirectories (Path.directory path)
  s.append path (line ++ "\n")

end Store

end RvConsole
