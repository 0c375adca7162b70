import RvConsole.Link.Port
import RvConsole.Locale.Message
import RvConsole.Machine.Serve

/-! Exchanging an instruction word for the registers it leaves.

A port may answer a read with nothing, any number of times. So an exchange is given a number of reads; a
port that has not given the whole answer by then keeps it waiting, which is no fault. -/
namespace RvConsole

/-- What keeps an exchange from its answer. -/
inductive LinkError where
  | write (cause : Fault)
  | read (cause : Fault)
  | waiting
  deriving DecidableEq, Repr

namespace LinkError

def cause? : LinkError → Option Fault
  | write cause => some cause
  | read cause => some cause
  | waiting => none

def message (style : NumberStyle) : LinkError → Text
  | write cause => Message.render style ⟨"port write: %v", [.text cause.message]⟩
  | read cause => Message.render style ⟨"port read: %v", [.text cause.message]⟩
  | waiting => []

end LinkError

/-- How many bytes all registers take. -/
def RegisterFile.byteCount : Nat := 4 * registerCount

def RegisterFile.ofBytes (t : Text) : RegisterFile :=
  let words := Word.listOfBytes t
  Vector.ofFn fun i => words.getD i 0

namespace Port

variable {σ : Type}

/-- What a fault means after some bytes of a value: the end is then unexpected. -/
def shortfall (got : Text) (fault : Fault) : Fault :=
  if got ≠ [] ∧ fault = .endOfInput then .unexpectedEnd else fault

/-- Reads until `want` bytes are there, on after the bytes already got. A fault that comes with the
last byte needed does not count. -/
def readFull (p : Port σ) (want : Nat) : (reads : Nat) → σ → Text → Except LinkError Text × σ
  | 0, s, got => (if want ≤ got.length then .ok got else .error .waiting, s)
  | reads + 1, s, got =>
    if want ≤ got.length then (.ok got, s)
    else
      let (reading, s) := p.read s (want - got.length)
      let got := got ++ reading.bytes
      if want ≤ got.length then (.ok got, s)
      else
        match reading.fault with
        | some fault => (.error (.read (shortfall got fault)), s)
        | none => readFull p want reads s got

/-- Sends a word and takes the registers that come back, in so many reads at most. -/
def exchange (p : Port σ) (reads : Nat) (s : σ) (w : Word) : Except LinkError RegisterFile × σ :=
  let (writing, s) := p.write s w.toBytes
  match writing.fault with
  | some fault => (.error (.write fault), s)
  | none =>
    let (answer, s) := p.readFull RegisterFile.byteCount reads s []
    (answer.map RegisterFile.ofBytes, s)

end Port

/-- The registers that an exchange leaves with its caller: all zero if none came back. -/
def RegisterFile.received : Except LinkError RegisterFile → RegisterFile
  | .ok regs => regs
  | .error _ => Vector.replicate registerCount 0

end RvConsole
