import RvConsole.Isa.Register
import RvConsole.Machine.Memory

/-! The state of the machine. -/
namespace RvConsole

/-- The general purpose registers, as a whole. -/
abbrev RegisterFile := Vector Word registerCount

/-- A machine between two words. -/
structure Machine where
  /-- The registers. Register zero holds zero after every word. -/
  regs : RegisterFile := Vector.replicate registerCount 0
  pc : Word := 0
  memory : Memory
  /-- Words taken, failed ones included. -/
  cycle : BitVec 64 := 0
  /-- Words that succeeded. -/
  instret : BitVec 64 := 0
  /-- The CSRs that can be written. -/
  csrs : Word → Word := fun _ => 0
  /-- The time on the wall clock since the machine was reset, in microseconds. -/
  clock : BitVec 64 := 0

namespace Machine

/-- The size of a machine's memory, unless it is given another. -/
def memorySize : Nat := 65536

/-- A machine at rest with so much memory, all zero. -/
def ofSize (size : Nat) : Machine := { memory := Array.replicate size 0 }

def new : Machine := ofSize memorySize

/-- The machine at rest again, with as much memory as it had. -/
def reset (m : Machine) : Machine := ofSize m.memory.size

def reg (m : Machine) (r : BitVec 5) : Word := m.regs.get r.toFin

/-- The machine with a register set. -/
def setReg (m : Machine) (r : BitVec 5) (value : Word) : Machine :=
  { m with regs := m.regs.set r.toNat value r.isLt }

/-! ### Control and status registers -/

namespace Csr

def cycle : Word := 0xC00
def time : Word := 0xC01
def instret : Word := 0xC02
def cycleh : Word := 0xC80
def timeh : Word := 0xC81
def instreth : Word := 0xC82

/-- The first CSR number that only reads. -/
def readOnlyFrom : Word := 0xC00

end Csr

def readCsr (m : Machine) (csr : Word) : Word :=
  if csr = Csr.cycle then m.cycle.extractLsb' 0 32
  else if csr = Csr.cycleh then m.cycle.extractLsb' 32 32
  else if csr = Csr.time then m.clock.extractLsb' 0 32
  else if csr = Csr.timeh then m.clock.extractLsb' 32 32
  else if csr = Csr.instret then m.instret.extractLsb' 0 32
  else if csr = Csr.instreth then m.instret.extractLsb' 32 32
  else m.csrs csr

def writeCsr (m : Machine) (csr value : Word) : Except Cause Machine :=
  if Csr.readOnlyFrom ≤ csr then .error .readOnlyCsr
  else .ok { m with csrs := fun n => if n = csr then value else m.csrs n }

end Machine

end RvConsole
