import RvConsole.Text.Basic

/-! Paths of files.

A path is a text whose parts are divided by slashes; one that starts with a slash counts from the
root. -/
namespace RvConsole.Path

def slash : UInt8 := Text.byte '/'

def here : Text := "."

def up : Text := ".."

/-- Whether a path counts from the root. -/
def isAbsolute (path : Text) : Bool := path.head? = some slash

/-- The parts between the slashes. -/
def parts (path : Text) : List Text := Text.split slash path

/-- Puts a part behind others, which end with it: an empty part and one for the place itself change
nothing, and one for the way up takes the part before it away. -/
def push (isRooted : Bool) (stack : List Text) (part : Text) : List Text :=
  if part = [] ∨ part = here then stack
  else if part = up then
    match stack with
    | [] => if isRooted then [] else [up]
    | top :: rest => if top = up then up :: stack else rest
  else part :: stack

/-- The shortest path that leads to the same place. -/
def clean (path : Text) : Text :=
  let isRooted := isAbsolute path
  let kept := ((parts path).foldl (push isRooted) []).reverse
  let body := Text.join [slash] kept
  if isRooted then slash :: body else if body = [] then here else body

/-- The path of the directory that a path is in. -/
def directory (path : Text) : Text :=
  clean (path.reverse.dropWhile (· ≠ slash)).reverse

/-- A path below another. -/
def join (base path : Text) : Text := clean (base ++ [slash] ++ path)

end RvConsole.Path
