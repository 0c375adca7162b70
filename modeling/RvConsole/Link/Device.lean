import RvConsole.Link.Simulator

/-! The devices a session may be linked to.

Besides the simulator these are ports whose answers are laid down beforehand. -/
namespace RvConsole

/-- A reply to read from, and what was sent. -/
structure Script where
  reply : Text
  sent : Sink := {}
  deriving DecidableEq, Repr

/-- The port that plays a script: reads take the reply from its front until it ends. -/
def Script.port : Port Script where
  read := fun script size =>
    if script.reply = [] then (⟨[], some .endOfInput⟩, script)
    else (⟨script.reply.take size, none⟩, { script with reply := script.reply.drop size })
  write := fun script data =>
    match script.sent.write data with
    | (sent, true) => (⟨data.length, none⟩, { script with sent })
    | (sent, false) =>
      (⟨sent.written.length - script.sent.written.length, some .closed⟩, { script with sent })
  close := fun script => (none, script)

inductive Call where
  | read (size : Nat)
  | write (data : Text)
  | close
  deriving DecidableEq, Repr

/-- Readings one by one, and the calls made so far. -/
structure Rehearsal where
  entries : List Text
  /-- Whether the last reading comes with a fault, if it has bytes. -/
  failsLast : Bool := false
  /-- What a read after the last reading gives. -/
  afterwards : Option Fault := some .endOfInput
  onClose : Option Fault := none
  calls : List Call := []

/-- The port that plays readings one by one: what does not fit a read is lost. -/
def Rehearsal.port : Port Rehearsal where
  read := fun r size =>
    let r := { r with calls := r.calls ++ [Call.read size] }
    match r.entries with
    | [] => (⟨[], r.afterwards⟩, r)
    | entry :: rest =>
      let bytes := entry.take size
      let fault := if r.failsLast ∧ rest = [] ∧ bytes ≠ [] then some Fault.closed else none
      (⟨bytes, fault⟩, { r with entries := rest })
  write := fun r data => (⟨data.length, none⟩, { r with calls := r.calls ++ [Call.write data] })
  close := fun r => (r.onClose, { r with calls := r.calls ++ [Call.close] })

/-- A device, by what stands behind its port. -/
inductive Device where
  | simulator (sim : Simulator)
  | script (script : Script)

def Device.port : Port Device where
  read
    | simulator sim, size => let (r, sim) := Simulator.port.read sim size; (r, simulator sim)
    | script sc, size => let (r, sc) := Script.port.read sc size; (r, script sc)
  write
    | simulator sim, data => let (w, sim) := Simulator.port.write sim data; (w, simulator sim)
    | script sc, data => let (w, sc) := Script.port.write sc data; (w, script sc)
  close
    | simulator sim => let (f, sim) := Simulator.port.close sim; (f, simulator sim)
    | script sc => let (f, sc) := Script.port.close sc; (f, script sc)
  notes
    | simulator sim => let (n, sim) := Simulator.port.notes sim; (n, simulator sim)
    | script sc => ([], script sc)

end RvConsole
