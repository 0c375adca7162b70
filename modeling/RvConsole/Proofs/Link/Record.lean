import RvConsole.Proofs.Link.Pieces

/-! What is written to a port.

A port with a record keeps all that is written to it and is otherwise the port: an exchange gives what it gives
on the port, and the record grows by the word (`exchange_recorded`). Words sent one after the other are answered
up to the first exchange that fails (`answers`), and none is sent after that (`sent`). A simulator answers all of
them, each with the registers after it. -/
namespace RvConsole

namespace Port
variable {σ : Type} (p : Port σ)

/-- The port with a record of what is written to it. -/
def recorded : Port (σ × Text) where
  read := fun (s, sent) size => ((p.read s size).1, ((p.read s size).2, sent))
  write := fun (s, sent) data => ((p.write s data).1, ((p.write s data).2, sent ++ data))
  close := fun (s, sent) => ((p.close s).1, ((p.close s).2, sent))
  notes := fun (s, sent) => ((p.notes s).1, ((p.notes s).2, sent))

@[simp]
theorem recorded_write (s : σ) (sent data : Text) :
    p.recorded.write (s, sent) data = ((p.write s data).1, ((p.write s data).2, sent ++ data)) := rfl

@[simp]
theorem recorded_notes (s : σ) (sent : Text) :
    p.recorded.notes (s, sent) = ((p.notes s).1, ((p.notes s).2, sent)) := rfl

/-- Reading is not recorded. -/
theorem readFull_recorded (want reads : Nat) (s : σ) (sent got : Text) :
    p.recorded.readFull want reads (s, sent) got =
      ((p.readFull want reads s got).1, ((p.readFull want reads s got).2, sent)) := by
  have hread : ∀ {t : σ × Text} {s : σ}, t = (s, sent) → ∀ size,
      (p.recorded.read t size).1 = (p.read s size).1 ∧ (p.recorded.read t size).2 = ((p.read s size).2, sent) := by
    intro t s h size
    rw [h]
    exact ⟨rfl, rfl⟩
  obtain ⟨hresult, hstate⟩ := readFull_congr hread rfl want reads got
  exact Prod.ext hresult hstate

/-- **An exchange records its word.** -/
theorem exchange_recorded (reads : Nat) (s : σ) (sent : Text) (w : Word) :
    p.recorded.exchange reads (s, sent) w =
      ((p.exchange reads s w).1, ((p.exchange reads s w).2, sent ++ w.toBytes)) := by
  simp only [exchange, recorded_write, readFull_recorded]
  cases (p.write s w.toBytes).1.fault <;> rfl

/-- The answers to words sent one after the other, up to the first exchange that fails. What the device tells is
taken after every exchange. -/
def answers (p : Port σ) (reads : Nat) : σ → List Word → List (Except LinkError RegisterFile)
  | _, [] => []
  | s, w :: ws =>
    match p.exchange reads s w with
    | (.ok regs, s) => .ok regs :: p.answers reads (p.notes s).2 ws
    | (.error e, _) => [.error e]

/-- The words that are sent: all up to the first whose exchange fails, and that one. -/
def sent (p : Port σ) (reads : Nat) (s : σ) (ws : List Word) : List Word := ws.take (p.answers reads s ws).length

section
variable {p} {reads : Nat} {s s' : σ} {w : Word}

theorem answers_of_ok {regs : RegisterFile} (h : p.exchange reads s w = (.ok regs, s')) (ws : List Word) :
    p.answers reads s (w :: ws) = .ok regs :: p.answers reads (p.notes s').2 ws := by
  simp only [answers, h]

theorem answers_of_error {e : LinkError} (h : p.exchange reads s w = (.error e, s')) (ws : List Word) :
    p.answers reads s (w :: ws) = [.error e] := by
  simp only [answers, h]

theorem sent_of_ok {regs : RegisterFile} (h : p.exchange reads s w = (.ok regs, s')) (ws : List Word) :
    p.sent reads s (w :: ws) = w :: p.sent reads (p.notes s').2 ws := by
  rw [sent, answers_of_ok h, List.length_cons, List.take_succ_cons, sent]

theorem sent_of_error {e : LinkError} (h : p.exchange reads s w = (.error e, s')) (ws : List Word) :
    p.sent reads s (w :: ws) = [w] := by
  rw [sent, answers_of_error h, List.length_singleton, List.take_succ_cons, List.take_zero]

end

end Port

/-- Each register file is the one after the words up to its own. -/
theorem Machine.getElem_files (m : Machine) (clock : Clock) (ws : List Word) (k : Nat)
    (h : k < (m.files clock ws).length) :
    (m.files clock ws)[k] = (m.executeAll clock (ws.take (k + 1))).regs := by
  induction ws generalizing m clock k with
  | nil => exact absurd h (Nat.not_lt_zero k)
  | cons w ws ih =>
    cases k with
    | zero => rfl
    | succ k => exact ih _ _ k (Nat.lt_of_succ_lt_succ h)

/-- A simulator answers every word with the registers after it. -/
theorem Simulator.answers_eq {sim : Simulator} (h : sim.Resting) {reads : Nat} (hreads : 0 < reads)
    (ws : List Word) : port.answers reads sim ws = (sim.machine.files sim.clock ws).map .ok := by
  induction ws generalizing sim with
  | nil => rfl
  | cons w ws ih =>
    obtain ⟨sim', hexchange, hresting, hmachine, hclock⟩ := exchange_eq h w hreads
    have hquiet : (port.notes sim').2.Resting := ⟨hresting.isOpen, hresting.inbox, hresting.outbox⟩
    rw [Port.answers_of_ok hexchange, ih hquiet, Machine.files, List.map_cons, ← hmachine, ← hclock]
    rfl

end RvConsole
