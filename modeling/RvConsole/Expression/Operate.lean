import RvConsole.Expression.Fault

/-! The operators on values. -/
namespace RvConsole.Expression

/-! ### Comparing -/

/-- Whether an order is what a comparison asks for. -/
def Comparison.holds : Comparison → Ordering → Bool
  | equal, o => o == .eq
  | unequal, o => o != .eq
  | less, o => o == .lt
  | greater, o => o == .gt
  | atMost, o => o != .gt
  | atLeast, o => o != .lt

/-- The order of texts by their bytes. -/
def compareTexts : Text → Text → Ordering
  | [], [] => .eq
  | [], _ :: _ => .lt
  | _ :: _, [] => .gt
  | a :: s, b :: t => if a < b then .lt else if b < a then .gt else compareTexts s t

/-- Compares two values that have no order: they are equal or not. -/
def compareUnordered (op : Comparison) (x y : Value) (areEqual : Bool) : Except EvalError Bool :=
  match op with
  | .equal => .ok areEqual
  | .unequal => .ok !areEqual
  | _ => .error (.notOrdered op.text x.type y.type)

mutual

/-- Compares two values, lists in lists down to a depth. -/
def compareWithin : (depth : Nat) → Comparison → Value → Value → Except EvalError Bool
  | 0, _, _, _ => .error .tooNested
  | depth + 1, op, x, y =>
    match x, y with
    | .int m, .int n => .ok (op.holds (compare m n))
    | .int m, .float b => .ok (op.holds (compareIntFloat m b))
    | .float a, .int n => .ok (op.holds (compareIntFloat n a).swap)
    | .float a, .float b => .ok (op.holds (compareFloats a b))
    | .bool a, .bool b => .ok (op.holds (compare a.toNat b.toNat))
    | .string s, .string t => .ok (op.holds (compareTexts s t))
    | .bytes s, .bytes t => .ok (op.holds (compareTexts s t))
    | .list s, .list t => compareItems depth op s t
    | .tuple s, .tuple t => compareItems depth op s t
    | .dict ks vs, .dict ls ws =>
      match op with
      | .equal => dictsEqual depth ks vs ls ws
      | .unequal => (dictsEqual depth ks vs ls ws).map (!·)
      | _ => .error (.notOrdered op.text x.type y.type)
    | .none, .none => compareUnordered op x y true
    | .builtin f, .builtin g => compareUnordered op x y (f = g)
    | .function f, .function g => compareUnordered op x y (f = g)
    | _, _ => compareUnordered op x y false

/-- Compares two sequences: by their first difference, else by their lengths. -/
def compareItems (depth : Nat) (op : Comparison) : List Value → List Value → Except EvalError Bool
  | s, t =>
    if s.length ≠ t.length ∧ op = .equal then .ok false
    else if s.length ≠ t.length ∧ op = .unequal then .ok true
    else firstDifference depth op s t

def firstDifference (depth : Nat) (op : Comparison) :
    List Value → List Value → Except EvalError Bool
  | x :: s, y :: t => do
    if ← compareWithin depth .equal x y then firstDifference depth op s t
    else
      match op with
      | .equal => return false
      | .unequal => return true
      | _ => compareWithin depth op x y
  | s, t => .ok (op.holds (compare s.length t.length))

/-- Whether two dictionaries have the same keys with the same values. -/
def dictsEqual (depth : Nat) (keys values others otherValues : List Value) :
    Except EvalError Bool :=
  if keys.length ≠ others.length then .ok false
  else
    (keys.zip values).foldlM (fun soFar (key, value) =>
      if !soFar then .ok false
      else
        match (others.zip otherValues).find? fun (other, _) =>
            (compareWithin depth .equal key other).toOption.getD false with
        | some (_, other) => compareWithin depth .equal value other
        | none => .ok false) true

end

def compareDepth : Nat := 10

def Comparison.apply (op : Comparison) (x y : Value) : Except EvalError Bool :=
  compareWithin compareDepth op x y

def Value.equals (x y : Value) : Bool := (Comparison.equal.apply x y).toOption.getD false

/-! ### Dictionaries -/

mutual

/-- The type of a value, or of an element of it, that cannot be a key. -/
def Value.unhashable? : Value → Option Text
  | .list _ => some "list"
  | .dict _ _ => some "dict"
  | .tuple items => unhashableIn items
  | _ => none

def unhashableIn : List Value → Option Text
  | [] => none
  | v :: rest => v.unhashable?.or (unhashableIn rest)

end

/-- The value of a key in a dictionary. -/
def lookUp (keys values : List Value) (key : Value) : Except EvalError (Option Value) :=
  match key.unhashable? with
  | some type => .error (.unhashable type)
  | none => .ok (((keys.zip values).find? fun (k, _) => k.equals key).map (·.2))

/-- The entries of one dictionary over those of another. -/
def union (keys values others otherValues : List Value) : Value :=
  let news := (others.zip otherValues).filter fun (other, _) => !keys.any (·.equals other)
  let kept := (keys.zip values).map fun (key, value) =>
    (((others.zip otherValues).find? fun (other, _) => other.equals key).map (·.2)).getD value
  .dict (keys ++ news.map (·.1)) (kept ++ news.map (·.2))

/-! ### Arithmetic -/

def toFloat (n : Int) : Except EvalError Float :=
  let x := Float.ofInt n
  if x.isInf then .error .tooLargeForFloat else .ok x

/-- The number of a small integer: it has to fit 32 bits. -/
def smallInt : Value → Except EvalError Int
  | .int n => if -0x80000000 ≤ n ∧ n < 0x80000000 then .ok n else .error (.outOfRange n)
  | v => .error (.notInt v.type)

/-- The longest sequence a repetition may make. -/
def maxRepeat : Nat := 0x40000000

/-- A sequence over and over. -/
def repeated {α : Type} (items : List α) (n : Int) : Except EvalError (List α) :=
  if items.isEmpty then .ok []
  else if n < -0x80000000 ∨ 0x80000000 ≤ n then .error (.largeRepeat n)
  else if maxRepeat ≤ items.length * n.toNat then .error (.excessiveRepeat items.length n.toNat)
  else .ok (List.replicate n.toNat items).flatten

/-- The bits of two integers combined; both are read with as many sign bits as needed. -/
def combineBits (f : Bool → Bool → Bool) (m n : Int) : Int :=
  let width := max m.natAbs.log2 n.natAbs.log2 + 2
  let bits (i : Nat) : Bool := f (m / Int.pow 2 i % 2 = 1) (n / Int.pow 2 i % 2 = 1)
  let low := (List.range width).foldl (fun sum i => if bits i then sum + Int.pow 2 i else sum) (0 : Int)
  if bits width then low - Int.pow 2 width else low

/-- An operator on integers, when it is one of them. -/
def intArith (op : Arith) (m n : Int) : Except EvalError Value :=
  match op with
  | .add => .ok (.int (m + n))
  | .sub => .ok (.int (m - n))
  | .mul => .ok (.int (m * n))
  | .div => do
    let x ← toFloat m
    let y ← toFloat n
    if y == 0 then .error .floatByZero else .ok (.float (x / y))
  | .floorDiv => if n = 0 then .error .flooredByZero else .ok (.int (m.fdiv n))
  | .mod => if n = 0 then .error .moduloByZero else .ok (.int (m.fmod n))
  | .bitAnd => .ok (.int (combineBits (· && ·) m n))
  | .bitOr => .ok (.int (combineBits (· || ·) m n))
  | .bitXor => .ok (.int (combineBits xor m n))
  | .shiftLeft =>
    if n < 0 then .error (.negativeShift n)
    else if 512 ≤ n then .error (.largeShift n)
    else .ok (.int (m * Int.pow 2 n.toNat))
  | .shiftRight =>
    if n < 0 then .error (.negativeShift n)
    else .ok (.int (m >>> n.toNat))

/-- An operator on floats; none for those that only integers have. -/
def floatArith? (op : Arith) (x y : Float) : Option (Except EvalError Value) :=
  match op with
  | .add => some (.ok (.float (x + y)))
  | .sub => some (.ok (.float (x - y)))
  | .mul => some (.ok (.float (x * y)))
  | .div => some (if y == 0 then .error .floatByZero else .ok (.float (x / y)))
  | .floorDiv => some (if y == 0 then .error .flooredByZero else .ok (.float (x / y).floor))
  | .mod => some (if y == 0 then .error .floatModuloByZero else .ok (.float (floatMod x y)))
  | _ => none

def Arith.isShift : Arith → Bool
  | shiftLeft => true
  | shiftRight => true
  | _ => false

/-- An operator of arithmetic on two values. -/
def Arith.apply (op : Arith) (x y : Value) : Except EvalError Value :=
  let unknown : Except EvalError Value := .error (.unknownBinary op.text x.type y.type)
  match x, y with
  | .int m, y =>
    if op.isShift then do intArith op m (← smallInt y)
    else
      match y with
      | .int n => intArith op m n
      | .float b => do
        let a ← toFloat m
        (floatArith? op a b).getD unknown
      | .string t => if op = .mul then (repeated t m).map .string else unknown
      | .bytes t => if op = .mul then (repeated t m).map .bytes else unknown
      | .list items => if op = .mul then (repeated items m).map .list else unknown
      | .tuple items => if op = .mul then (repeated items m).map .tuple else unknown
      | _ => unknown
  | .float a, .float b => (floatArith? op a b).getD unknown
  | .float a, .int n => do
    if op = .mod ∧ n = 0 then .error .floatModuloByZero
    else
      let b ← toFloat n
      (floatArith? op a b).getD unknown
  | .string s, .string t => if op = .add then .ok (.string (s ++ t)) else unknown
  | .bytes s, .bytes t => if op = .add then .ok (.bytes (s ++ t)) else unknown
  | .list s, .list t => if op = .add then .ok (.list (s ++ t)) else unknown
  | .tuple s, .tuple t => if op = .add then .ok (.tuple (s ++ t)) else unknown
  | .string s, .int n => if op = .mul then (repeated s n).map .string else unknown
  | .bytes s, .int n => if op = .mul then (repeated s n).map .bytes else unknown
  | .list s, .int n => if op = .mul then (repeated s n).map .list else unknown
  | .tuple s, .int n => if op = .mul then (repeated s n).map .tuple else unknown
  | .dict ks vs, .dict ls ws => if op = .bitOr then .ok (union ks vs ls ws) else unknown
  | _, _ => unknown

/-! ### Membership -/

/-- Whether one text stands somewhere in another. -/
def isInside (part : Text) : Text → Bool
  | [] => part = []
  | b :: rest => Text.startsWith (b :: rest) part || isInside part rest

/-- Whether a value is an element of another. -/
def isMember (x y : Value) : Except EvalError Bool :=
  match y with
  | .list items => items.anyM fun item => Comparison.equal.apply item x
  | .tuple items => items.anyM fun item => Comparison.equal.apply item x
  | .dict keys values => .ok (((lookUp keys values x).toOption.getD none).isSome)
  | .string t =>
    match x with
    | .string s => .ok (isInside s t)
    | _ => .error (.notStringMember x.type)
  | .bytes t =>
    match x with
    | .bytes s => .ok (isInside s t)
    | .int n =>
      if 0 ≤ n ∧ n < 256 then .ok (t.contains n.toNat.toUInt8)
      else .error (.inFunction "int in bytes" (.outOfRange n))
    | _ => .error (.notBytesMember x.type)
  | _ => .error (.unknownBinary "in" x.type y.type)

/-! ### Operators in front -/

def Unary.apply (op : Unary) (x : Value) : Except EvalError Value :=
  match op, x with
  | .not, x => .ok (.bool !x.truth)
  | .plus, .int n => .ok (.int n)
  | .minus, .int n => .ok (.int (-n))
  | .invert, .int n => .ok (.int (-n - 1))
  | .plus, .float a => .ok (.float a)
  | .minus, .float a => .ok (.float (-a))
  | op, x => .error (.unknownUnary op.text x.type)

/-! ### Elements -/

/-- The element at a number, which counts from the end when negative. -/
def elementAt (x : Value) (key : Value) (size : Nat) (pick : Nat → Value) :
    Except EvalError Value :=
  match smallInt key with
  | .error cause => .error (.badIndex x.type cause)
  | .ok n =>
    let place := if n < 0 then n + size else n
    if 0 ≤ place ∧ place < size then .ok (pick place.toNat)
    else .error (.indexOutside x.type n size)

/-- The element of a value that a key chooses. -/
def Value.index (x key : Value) : Except EvalError Value :=
  match x with
  | .dict keys values => do
    match ← lookUp keys values key with
    | some v => .ok v
    | Option.none => .error (.missingKey key.display)
  | .string t => elementAt x key t.length fun n => .string [t.getD n 0]
  | .bytes t => elementAt x key t.length fun n => .int (t.getD n 0).toNat
  | .list items => elementAt x key items.length fun n => items.getD n .none
  | .tuple items => elementAt x key items.length fun n => items.getD n .none
  | _ => .error (.notIndexable x.type key.type)

/-- A bound of a slice: as given, from the end when negative, or its default. -/
def sliceBound (which : Text) (size : Nat) (default : Int) : Value → Except EvalError Int
  | .none => .ok default
  | v =>
    match smallInt v with
    | .ok n => .ok (if n < 0 then n + size else n)
    | .error cause => .error (.badBound which cause)

/-- The places that a slice chooses. -/
def slicePlaces (size : Nat) (low high step : Value) : Except EvalError (List Nat) := do
  let step ← match step with
    | .none => pure 1
    | v =>
      match smallInt v with
      | .ok n => pure n
      | .error cause => .error (.badBound "slice step" cause)
  if step = 0 then .error .zeroStep
  else if 0 < step then
    let start := min (max (← sliceBound "start index" size 0 low) 0) size
    let stop := min (max (← sliceBound "end index" size size high) start) size
    return ((List.range size).filter fun (n : Nat) =>
      start ≤ n && n < stop && ((n : Int) - start) % step == 0)
  else
    let start := min (← sliceBound "start index" size (size - 1) low) (size - 1)
    let stop := max (← sliceBound "end index" size (-1) high) (-1)
    return ((List.range size).filter fun (n : Nat) =>
      n ≤ start && stop < n && (start - (n : Int)) % step == 0).reverse

/-- The elements of a value that a slice chooses. -/
def Value.slice (x low high step : Value) : Except EvalError Value :=
  let choose {α : Type} (items : List α) : Except EvalError (List α) := do
    return (← slicePlaces items.length low high step).filterMap (items[·]?)
  match x with
  | .string t => (choose t).map .string
  | .bytes t => (choose t).map .bytes
  | .list items => (choose items).map .list
  | .tuple items => (choose items).map .tuple
  | _ => .error (.notSliceable x.type)

end RvConsole.Expression
