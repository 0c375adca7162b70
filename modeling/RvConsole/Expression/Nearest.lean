import RvConsole.Text.Lower

/-! The name that a misspelt one may have meant. -/
namespace RvConsole.Expression

/-- One row of the table of edit distances: the distances of `b` more than what stands before it to
every beginning of `word`, from the row above. -/
def distanceRow (b : UInt8) : (word : Text) → (above : List Nat) → (left : Nat) → List Nat
  | [], _, _ => []
  | c :: word, diagonal :: above, left =>
    let best := min (min (above.headD 0) left + 1) (if b = c then diagonal else diagonal + 1)
    best :: distanceRow b word above best
  | _ :: _, [], _ => []

/-- The rows of the table, one for each byte. -/
def distanceRows (word : Text) : Text → (above : List Nat) → List Nat
  | [], above => above
  | b :: rest, above =>
    let left := above.headD 0 + 1
    distanceRows word rest (left :: distanceRow b word above left)

/-- How many bytes have to be put in, left out or changed to make one text of the other. -/
def editDistance (a b : Text) : Nat :=
  (distanceRows b a (List.range (b.length + 1))).getLastD 0

/-- A name as it is compared: in lower case and without underscores. -/
def folded (name : Text) : Text := name.lower.filter (· ≠ Text.byte '_')

/-- The first candidate closest to a name, if it is less than half of the name away. -/
def nearest (name : Text) (candidates : List Text) : Option Text :=
  let name := folded name
  let closer (best : Nat × Option Text) (candidate : Text) : Nat × Option Text :=
    let distance := editDistance name (folded candidate)
    if distance < best.1 then (distance, some candidate) else best
  (candidates.foldl closer ((name.length + 1) / 2, none)).2

end RvConsole.Expression
