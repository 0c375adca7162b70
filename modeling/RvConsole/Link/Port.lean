import RvConsole.Text.Basic

/-! Ports: the host's end of a link to a processor.

A port is what it does, over a state of its own: any behaviour of a device is some `Port`. A read
asks for a number of bytes and may give fewer, and a fault may come along with the bytes. -/
namespace RvConsole

/-- Why a read or a write came to nothing. -/
inductive Fault where
  | endOfInput
  /-- The stream ended in the middle of a value. -/
  | unexpectedEnd
  | closed
  | other (message : Text)
  deriving DecidableEq, Repr

def Fault.message : Fault → Text
  | endOfInput => "EOF"
  | unexpectedEnd => "unexpected EOF"
  | closed => "io: read/write on closed pipe"
  | other message => message

structure Reading where
  bytes : Text
  fault : Option Fault := none
  deriving DecidableEq, Repr

/-- What a write did: how many bytes went out. -/
structure Writing where
  count : Nat
  fault : Option Fault := none
  deriving DecidableEq, Repr

/-- A port over states `σ`. -/
structure Port (σ : Type) where
  /-- Reads at most so many bytes. -/
  read : σ → Nat → Reading × σ
  write : σ → Text → Writing × σ
  close : σ → Option Fault × σ
  /-- What the device has told since it was last asked. -/
  notes : σ → Text × σ := fun s => ([], s)

end RvConsole
