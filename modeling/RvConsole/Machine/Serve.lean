import RvConsole.Link.Port
import RvConsole.Link.Sink
import RvConsole.Machine.Execute

/-! Serving a byte stream.

The machine takes instruction words off a stream, four bytes each, and answers every one with its
registers, whether the word succeeded or not. The stream ends well between two words. Time goes on
between words, so the clock has a reading of its own for every one. -/
namespace RvConsole

def RegisterFile.toBytes (regs : RegisterFile) : Text := regs.toList.flatMap Word.toBytes

/-- What a clock reads at the words to come, one after the other. -/
abbrev Clock := Nat → BitVec 64

/-- The readings that are left once so many words have been taken. -/
def Clock.after (clock : Clock) (taken : Nat) : Clock := fun k => clock (k + taken)

namespace Machine

def atTime (m : Machine) (reading : BitVec 64) : Machine := { m with clock := reading }

/-- What a watched machine tells about its work. -/
inductive Event where
  | fetched (pc word : Word)
  | trapped (trap : Trap)
  deriving DecidableEq, Repr

def Event.line (style : NumberStyle) : Event → Text
  | fetched pc word => "emulator: 0x" ++ Text.hexWord pc ++ ": 0x" ++ Text.hexWord word ++ "\n"
  | trapped trap => "emulator: " ++ trap.message style ++ "\n"

def events (m : Machine) (w : Word) : List Event :=
  .fetched m.pc w :: (m.execute w).2.toList.map .trapped

/-- How serving went: the machine and the output at its end, all that was told, and the fault. -/
structure Served where
  machine : Machine
  output : Sink
  told : List Event
  fault : Option Fault

/-- Serves the words of a byte string, on after events already told. -/
def serveFrom (m : Machine) (clock : Clock) (output : Sink) (told : List Event) : Text → Served
  | [] => ⟨m, output, told, none⟩
  | a :: b :: c :: d :: rest =>
    let w := Word.ofBytes a b c d
    let m := m.atTime (clock 0)
    let done := (m.execute w).1
    let told := told ++ m.events w
    match output.write (RegisterFile.toBytes done.regs) with
    | (output, true) => serveFrom done (clock.after 1) output told rest
    | (output, false) => ⟨done, output, told, some .closed⟩
  | _ => ⟨m, output, told, some .unexpectedEnd⟩

/-- Serves the words of a byte string. -/
def serve (m : Machine) (clock : Clock) (output : Sink) (input : Text) : Served :=
  m.serveFrom clock output [] input

end Machine

end RvConsole
