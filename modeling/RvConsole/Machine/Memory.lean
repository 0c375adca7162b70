import RvConsole.Machine.Trap

/-! Memory: bytes from address zero on, read and written least significant byte first.

An access is inside the memory when its last byte is; the address does not wrap around. -/
namespace RvConsole

abbrev Memory := Array UInt8

/-- How much one access moves. -/
inductive Access where
  | byte | half | word
  deriving DecidableEq, Repr

def Access.size : Access → Nat
  | byte => 1
  | half => 2
  | word => 4

namespace Memory

/-- The byte at an address; zero where there is none. -/
def byteAt (mem : Memory) (a : Nat) : UInt8 := mem.getD a 0

/-- Whether an access at an address stays inside. -/
def holds (mem : Memory) (a : Word) (access : Access) : Bool :=
  decide (a.toNat + access.size ≤ mem.size)

/-- What stands at an address, without sign. -/
def read (mem : Memory) (a : Nat) : Access → Word
  | .byte => Word.ofBytes (mem.byteAt a) 0 0 0
  | .half => Word.ofBytes (mem.byteAt a) (mem.byteAt (a + 1)) 0 0
  | .word =>
    Word.ofBytes (mem.byteAt a) (mem.byteAt (a + 1)) (mem.byteAt (a + 2)) (mem.byteAt (a + 3))

/-- Bytes written from an address on. -/
def writeBytes (mem : Memory) (a : Nat) : Text → Memory
  | [] => mem
  | b :: rest => writeBytes (mem.setIfInBounds a b) (a + 1) rest

/-- The low bytes of a word written at an address. -/
def write (mem : Memory) (a : Nat) (access : Access) (value : Word) : Memory :=
  mem.writeBytes a (value.toBytes.take access.size)

/-- A value of an access's size as a word, with its sign or without. -/
def extend (signed : Bool) (access : Access) (value : Word) : Word :=
  match signed, access with
  | true, .byte => (value.truncate 8).signExtend 32
  | true, .half => (value.truncate 16).signExtend 32
  | _, _ => value

def load (mem : Memory) (a : Word) (access : Access) (signed : Bool) : Except Cause Word :=
  if mem.holds a access then .ok (extend signed access (mem.read a.toNat access))
  else .error (.address a access.size)

def store (mem : Memory) (a : Word) (access : Access) (value : Word) : Except Cause Memory :=
  if mem.holds a access then .ok (mem.write a.toNat access value)
  else .error (.address a access.size)

end Memory

end RvConsole
