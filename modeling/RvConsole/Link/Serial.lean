import RvConsole.Link.Port
import RvConsole.Locale.Message

/-! Serial ports.

A serial port answers a read that times out with nothing at all; here that is the end of the
input. A port opens at one of the usual speeds only. -/
namespace RvConsole

/-- The port with time-outs as the end of the input. -/
def Port.serial {σ : Type} (p : Port σ) : Port σ :=
  { p with
    read := fun s size =>
      let (reading, s) := p.read s size
      if reading.bytes = [] ∧ reading.fault = none ∧ size ≠ 0 then
        ({ reading with fault := some .endOfInput }, s)
      else (reading, s) }

namespace Serial

def baudRates : List Int := [
  1200, 2400, 4800, 9600, 19200, 38400, 57600, 115200, 230400, 460800, 921600, 1000000]

/-- Why a serial port does not open. -/
inductive OpenError where
  | baudRate (baud : Int)
  | missing
  deriving DecidableEq, Repr

def OpenError.message (style : NumberStyle) : OpenError → Text
  | baudRate baud => Message.render style ⟨"unsupported baud rate %d", [.number baud]⟩
  | missing => "no such file or directory"

/-- Checks a speed before the device is looked for. -/
def checkBaud (baud : Int) : Except OpenError Unit :=
  if baudRates.contains baud then .ok () else .error (.baudRate baud)

/-- Opens a port that is not there. -/
def openMissing (baud : Int) : OpenError :=
  match checkBaud baud with
  | .error e => e
  | .ok () => .missing

end Serial

end RvConsole
