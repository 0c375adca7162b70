import RvConsole.Link.Port
import RvConsole.Machine.Serve

/-! A machine behind a port.

What is written to the port reaches the machine, which serves every word that is complete; its
answers wait until they are read. Closing the port stops the machine. -/
namespace RvConsole

/-- A machine and the bytes under way in both directions. -/
structure Simulator where
  machine : Machine
  clock : Clock := fun _ => 0
  /-- Bytes of a word that is not complete. -/
  inbox : Text := []
  /-- Answers not read yet. -/
  outbox : Text := []
  isOpen : Bool := true
  /-- Whether the machine tells what it does, and in which number style. -/
  verbose : Bool := false
  style : NumberStyle := {}
  told : Text := []

namespace Simulator

/-- Takes bytes in and serves the complete words. -/
def accept (sim : Simulator) (data : Text) : Simulator :=
  let bytes := sim.inbox ++ data
  let count := bytes.length / 4
  let served := sim.machine.serve sim.clock {} (bytes.take (count * 4))
  { sim with
    machine := served.machine
    clock := sim.clock.after count
    inbox := bytes.drop (count * 4)
    outbox := sim.outbox ++ served.output.written
    told := if sim.verbose then sim.told ++ served.told.flatMap (·.line sim.style) else sim.told }

/-- The host's end of the link to the machine. -/
def port : Port Simulator where
  read := fun sim size =>
    if !sim.isOpen then (⟨[], some .closed⟩, sim)
    else if sim.outbox = [] then (⟨[], some .endOfInput⟩, sim)
    else (⟨sim.outbox.take size, none⟩, { sim with outbox := sim.outbox.drop size })
  write := fun sim data =>
    if sim.isOpen then (⟨data.length, none⟩, sim.accept data) else (⟨0, some .closed⟩, sim)
  close := fun sim => (none, { sim with isOpen := false })
  notes := fun sim => (sim.told, { sim with told := [] })

end Simulator

end RvConsole
