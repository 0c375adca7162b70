import RvConsole.Link.Port

/-! A port whose reads are copied to a log.

The log gets every byte that was read, whatever came with it. A fault of the log is reported only
when the port has none of its own. -/
namespace RvConsole.Port

variable {σ τ : Type}

/-- The port with a log over states `τ`; without a log nothing is copied. -/
def logged (p : Port σ) (log : Option (τ → Text → Option Fault × τ)) : Port (σ × τ) where
  read := fun (s, t) size =>
    let (reading, s) := p.read s size
    match log with
    | some log =>
      if reading.bytes = [] then (reading, (s, t))
      else
        let (fault, t) := log t reading.bytes
        ({ reading with fault := reading.fault.or fault }, (s, t))
    | none => (reading, (s, t))
  write := fun (s, t) data =>
    let (writing, s) := p.write s data
    (writing, (s, t))
  close := fun (s, t) =>
    let (fault, s) := p.close s
    (fault, (s, t))
  notes := fun (s, t) =>
    let (notes, s) := p.notes s
    (notes, (s, t))

def keep (log data : Text) : Option Fault × Text := (none, log ++ data)

end RvConsole.Port
