import RvConsole.Isa.OperandError

/-! Machine words, and the general purpose registers with their names.

The bytes of a word come least significant first. A register is written `x` with its number, by one of
five names of its own, or by a family letter and a number within the family. A family's numbers need not
be consecutive registers. -/
namespace RvConsole

/-- A word of the machine: an instruction, a register's value or an address. -/
abbrev Word := BitVec 32

namespace Word

/-- Byte `k` of a word. -/
def byteAt (w : Word) (k : Nat) : UInt8 := ⟨w.extractLsb' (8 * k) 8⟩

def toBytes (w : Word) : Text := [w.byteAt 0, w.byteAt 1, w.byteAt 2, w.byteAt 3]

def ofBytes (a b c d : UInt8) : Word := d.toBitVec ++ c.toBitVec ++ b.toBitVec ++ a.toBitVec

/-- The words of a byte string; bytes that do not fill a word are left out. -/
def listOfBytes : Text → List Word
  | a :: b :: c :: d :: rest => ofBytes a b c d :: listOfBytes rest
  | _ => []

end Word

/-! ### Registers -/

def registerCount : Nat := 32

/-- A register number, which is below `registerCount` wherever it was checked. -/
structure Register where
  index : Word
  deriving DecidableEq, Repr

namespace Register

def zero : Register := ⟨0⟩

def check (index : Word) : Except OperandError Register :=
  if index.toNat < registerCount then .ok ⟨index⟩
  else .error (.outsideRange index.toNat 0 (registerCount - 1))

/-- The registers with a name of their own. -/
def aliases : List (Text × Nat) := [("zero", 0), ("ra", 1), ("sp", 2), ("gp", 3), ("tp", 4)]

/-- A family of registers: how many numbers it has, and which register each number means. -/
structure Family where
  count : Nat
  register : Nat → Nat

/-- The family of a letter. -/
def family? (letter : UInt8) : Option Family :=
  if letter = Text.byte 'x' then some ⟨registerCount, id⟩
  else if letter = Text.byte 'a' then some ⟨8, (· + 10)⟩
  else if letter = Text.byte 's' then some ⟨12, fun n => if n < 2 then n + 8 else n + 1⟩
  else if letter = Text.byte 't' then some ⟨8, fun n => if n < 3 then n + 5 else n + 25⟩
  else none

/-- The register of a number within a family. A family may reach past the last register. -/
def Family.parse (family : Family) (n : Nat) : Except OperandError Register :=
  if family.count ≤ n then .error (.outsideRange n 0 (family.count - 1))
  else
    let register := family.register n
    if registerCount ≤ register then .error (.outsideRange register 0 (registerCount - 1))
    else .ok ⟨BitVec.ofNat 32 register⟩

/-- The family and the number that a token spells; the number has to fit a word. -/
def spelled? : Text → Option (Family × Nat)
  | letter :: digits =>
    match family? letter, Text.natural? 10 digits with
    | some family, some n => if n < 0x100000000 then some (family, n) else none
    | _, _ => none
  | [] => none

def parse (token : Text) : Except OperandError Register :=
  match aliases.lookup token with
  | some index => .ok ⟨BitVec.ofNat 32 index⟩
  | none =>
    match spelled? token with
    | some (family, n) => family.parse n
    | none => .error (.notRegister token)

/-- The register by its number. -/
def text (r : Register) : Text := Text.byte 'x' :: Text.numeral 10 r.index.toNat

/-- The name of a register number in the calling convention. -/
def abiName (index : Nat) : Text :=
  if index < 5 then ((["zero", "ra", "sp", "gp", "tp"] : List Text)[index]?).getD []
  else if index < 8 then Text.byte 't' :: Text.numeral 10 (index - 5)
  else if index < 10 then Text.byte 's' :: Text.numeral 10 (index - 8)
  else if index < 18 then Text.byte 'a' :: Text.numeral 10 (index - 10)
  else if index < 28 then Text.byte 's' :: Text.numeral 10 (index - 16)
  else if index < registerCount then Text.byte 't' :: Text.numeral 10 (index - 25)
  else Text.byte 'x' :: Text.numeral 10 index

end Register

end RvConsole
