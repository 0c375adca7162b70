import RvConsole.Isa.Literal
import RvConsole.Isa.Register

/-! Immediate operands, and the access sets of a fence.

The kinds of immediate differ in the values they admit, in how a value is written, and in where
its bits stand in the word. A CSR operand may also be written by name. An access set is an ordered subset of `iorw`. -/
namespace RvConsole

inductive ImmKind where
  /-- The upper twenty bits, of `lui` and `auipc`. -/
  | u
  | j
  /-- The twelve bits of register-immediate operations and loads. -/
  | i
  | s
  | b
  | shift
  | csr
  /-- The five bits that stand for a register in the immediate CSR operations. -/
  | uimm
  deriving DecidableEq, Repr

/-- The values a kind of immediate admits. -/
structure Bounds where
  min : Int
  max : Int
  even : Bool
  deriving DecidableEq, Repr

namespace ImmKind

def bounds : ImmKind → Bounds
  | u => ⟨0, 0xFFFFF, false⟩
  | j => ⟨-0x100000, 0xFFFFF, true⟩
  | i => ⟨-0x800, 0x7FF, false⟩
  | s => ⟨-0x800, 0x7FF, false⟩
  | b => ⟨-0x1000, 0xFFF, true⟩
  | shift => ⟨0, 31, false⟩
  | csr => ⟨0, 0xFFF, false⟩
  | uimm => ⟨0, 31, false⟩

def Admits (kind : ImmKind) (v : Int) : Prop :=
  kind.bounds.min ≤ v ∧ v ≤ kind.bounds.max ∧ (kind.bounds.even = true → v % 2 = 0)

instance (kind : ImmKind) (v : Int) : Decidable (kind.Admits v) := by
  unfold Admits; infer_instance

/-- Checks a value: a range error outweighs an odd number. -/
def check (kind : ImmKind) (v : Int) : Except OperandError Int :=
  let bounds := kind.bounds
  if v < bounds.min ∨ bounds.max < v then .error (.outsideRange v bounds.min bounds.max)
  else if bounds.even = true ∧ v % 2 ≠ 0 then .error .oddNumber
  else .ok v

/-- The CSRs that have a name. -/
def csrNames : List (Text × Int) := [
  ("cycle", 0xC00), ("time", 0xC01), ("instret", 0xC02),
  ("cycleh", 0xC80), ("timeh", 0xC81), ("instreth", 0xC82)]

/-- The value a token names, for the kinds that have names. -/
def named? : ImmKind → Text → Option Int
  | csr, token => csrNames.lookup token
  | _, _ => none

/-- Reads an immediate of a kind: a name of that kind or a literal. -/
def parse (kind : ImmKind) (token : Text) : Except OperandError Int :=
  match kind.named? token with
  | some v => kind.check v
  | none =>
    match Literal.parse token with
    | .ok v => kind.check v
    | .error e => .error e

/-- A number in hexadecimal, with its mark. -/
def hexText (v : Int) : Text := "0x" ++ Text.signedHex v

def text : ImmKind → Int → Text
  | u, v => hexText v
  | csr, v =>
    match csrNames.find? fun entry => entry.2 == v with
    | some (name, _) => name
    | none => hexText v
  | _, v => Text.decimal v

end ImmKind

end RvConsole

namespace RvConsole.Order

/-- The accesses in their written order, each with its bit. -/
def accesses : List (UInt8 × Word) := [
  (Text.byte 'i', 0b1000), (Text.byte 'o', 0b0100), (Text.byte 'r', 0b0010),
  (Text.byte 'w', 0b0001)]

def all : Word := 0b1111

/-- Takes each access in turn off the front of a token, where it stands there. -/
def take : List (UInt8 × Word) → Text → Word → Word × Text
  | (letter, bit) :: rest, b :: token, bits =>
    if b = letter then take rest token (bits ||| bit) else take rest (b :: token) bits
  | _, token, bits => (bits, token)

def parse (token : Text) : Except OperandError Word :=
  match take accesses token 0 with
  | (bits, []) => .ok bits
  | _ => .error (.notOrder token)

/-- An access set as it is written. -/
def text (bits : Word) : Text :=
  (accesses.filter fun access => bits &&& access.2 != 0).map Prod.fst

end RvConsole.Order
