import RvConsole.Link.Logger
import RvConsole.Link.Device
import RvConsole.Proofs.Link.Refinement

/-! A log does not show.

Without a log, or with one that does not fail, a logged port behaves like the port; and the log is then given the
bytes of all reads and nothing else (`Refinement.logged`). A log that fails cannot be hidden from the reader, but
it neither takes bytes away nor stands in for a fault of the port (`logged_read_bytes`, `logged_read_fault`). -/
namespace RvConsole.Port
variable {σ τ : Type} (p : Port σ)

/-! ### One read -/

section
variable (log : τ → Text → Option Fault × τ) (s : σ) (t : τ) (size : Nat)

/-- A read that brings nothing is not logged. -/
theorem logged_read_of_nil (h : (p.read s size).1.bytes = []) :
    (p.logged (some log)).read (s, t) size = ((p.read s size).1, ((p.read s size).2, t)) := if_pos h

theorem logged_read_of_ne (h : (p.read s size).1.bytes ≠ []) :
    (p.logged (some log)).read (s, t) size =
      ({ (p.read s size).1 with fault := (p.read s size).1.fault.or (log t (p.read s size).1.bytes).1 },
        ((p.read s size).2, (log t (p.read s size).1.bytes).2)) := if_neg h

/-- Whatever the log does, the bytes are the port's, and the port is left as by the read itself. -/
theorem logged_read_bytes :
    ((p.logged (some log)).read (s, t) size).1.bytes = (p.read s size).1.bytes ∧
      ((p.logged (some log)).read (s, t) size).2.1 = (p.read s size).2 := by
  by_cases h : (p.read s size).1.bytes = []
  · rw [logged_read_of_nil p log s t size h]
    exact ⟨rfl, rfl⟩
  · rw [logged_read_of_ne p log s t size h]
    exact ⟨rfl, rfl⟩

/-- The fault is the port's, and the log's only where the port has none. -/
theorem logged_read_fault :
    ((p.logged (some log)).read (s, t) size).1.fault =
      (p.read s size).1.fault.or
        (if (p.read s size).1.bytes = [] then none else (log t (p.read s size).1.bytes).1) := by
  by_cases h : (p.read s size).1.bytes = []
  · rw [logged_read_of_nil p log s t size h, if_pos h, Option.or_none]
  · rw [logged_read_of_ne p log s t size h, if_neg h]

/-- Through a log that does not fail, a read is the port's, and the log is given what it brings. -/
theorem logged_read_of_never {log : τ → Text → Option Fault × τ} (hnever : ∀ t data, (log t data).1 = none) :
    (p.logged (some log)).read (s, t) size =
      ((p.read s size).1, ((p.read s size).2,
        if (p.read s size).1.bytes = [] then t else (log t (p.read s size).1.bytes).2)) := by
  by_cases h : (p.read s size).1.bytes = []
  · rw [logged_read_of_nil p log s t size h, if_pos h]
  · rw [logged_read_of_ne p log s t size h, if_neg h, hnever, Option.or_none]

end

/-! ### Any use -/

/-- Without a log, a logged port is the port. -/
def Refinement.unlogged (t : τ) : Refinement (p.logged (none : Option (τ → Text → Option Fault × τ))) p where
  Rel := fun x s => x = (s, t)
  read := by
    intro x s h size
    subst h
    exact ⟨rfl, rfl⟩
  write := by
    intro x s h data
    subst h
    exact ⟨rfl, rfl⟩
  close := by
    intro x s h
    subst h
    exact ⟨rfl, rfl⟩

/-- A log that is given the bytes of some contacts, reading by reading. -/
def given (log : τ → Text → Option Fault × τ) (t : τ) (seen : List Contact) : τ :=
  seen.foldl (fun t c => if c.brought = [] then t else (log t c.brought).2) t

theorem given_concat (log : τ → Text → Option Fault × τ) (t : τ) (seen : List Contact) (c : Contact) :
    given log t (seen ++ [c]) =
      if c.brought = [] then given log t seen else (log (given log t seen) c.brought).2 :=
  List.foldl_concat ..

/-- A log that adds what it is given to what it holds ends up with the bytes of all contacts. -/
theorem held_given {log : τ → Text → Option Fault × τ} {held : τ → Text}
    (hheld : ∀ t data, held (log t data).2 = held t ++ data) (t : τ) (seen : List Contact) :
    held (given log t seen) = held t ++ seen.flatMap Contact.brought := by
  induction seen using List.reverseRecOn with
  | nil => exact (List.append_nil _).symm
  | append_singleton seen c ih =>
    rw [given_concat, List.flatMap_append, List.flatMap_singleton, ← List.append_assoc, ← ih]
    split_ifs with hnil
    · rw [hnil, List.append_nil]
    · exact hheld _ _

/-- With a log that does not fail, a logged port behaves like the port, and the log is given the bytes of all
contacts. -/
def Refinement.logged {log : τ → Text → Option Fault × τ} (hnever : ∀ t data, (log t data).1 = none) (start : τ) :
    Refinement (p.watched.logged (some log)) p.watched where
  Rel := fun x y => x = (y, given log start y.2)
  read := by
    intro x y h size
    subst h
    rw [logged_read_of_never p.watched y _ size hnever]
    exact ⟨rfl, congrArg (Prod.mk _) (given_concat log start y.2 (.read size (p.read y.1 size).1)).symm⟩
  write := by
    intro x y h data
    subst h
    exact ⟨rfl, congrArg (Prod.mk _) (given_concat log start y.2 (.write data (p.write y.1 data).1)).symm⟩
  close := by
    intro x y h
    subst h
    exact ⟨rfl, congrArg (Prod.mk _) (given_concat log start y.2 (.close (p.close y.1).1)).symm⟩

/-- **A log is transparent and complete.** However a port is used, by single calls and by exchanges, the same calls
reach the port and the same comes of them whether it is used directly, without a log or with a log that does not fail.
Such a log is given the bytes of the reads, so if it adds what it is given to what it holds, it then holds the bytes of
all reads in order and nothing else. Whatever a log does, a read through it brings the bytes of the port's read, a
fault of the port stays, and the fault of the log is reported where the port has none. -/
theorem logged_faithful (p : Port σ) (s : σ) (us : List Use) :
    let direct := p.watched.uses (s, []) us
    (direct.1 = (p.uses s us).1 ∧ direct.2.1 = (p.uses s us).2) ∧
      (∀ {τ : Type} (t : τ),
        (p.watched.logged (none : Option (τ → Text → Option Fault × τ))).uses ((s, []), t) us =
          (direct.1, (direct.2, t))) ∧
      (∀ {τ : Type} (log : τ → Text → Option Fault × τ), (∀ t data, (log t data).1 = none) → ∀ t,
        (p.watched.logged (some log)).uses ((s, []), t) us = (direct.1, (direct.2, given log t direct.2.2)) ∧
          ∀ held : τ → Text, (∀ t data, held (log t data).2 = held t ++ data) →
            held (given log t direct.2.2) = held t ++ direct.2.2.flatMap Contact.brought) ∧
      ∀ {τ : Type} (log : τ → Text → Option Fault × τ) (t : τ) (size : Nat),
        let reading := (p.read s size).1
        let through := (p.logged (some log)).read (s, t) size
        (through.1.bytes = reading.bytes ∧ through.2.1 = (p.read s size).2) ∧
          (∀ fault, reading.fault = some fault → through.1.fault = some fault) ∧
          (reading.fault = none →
            through.1.fault = if reading.bytes = [] then none else (log t reading.bytes).1) := by
  intro direct
  refine ⟨(Refinement.watched p).uses rfl us, fun t => ?_, fun log hnever t => ⟨?_, ?_⟩, fun log t size => ?_⟩
  · obtain ⟨houtcomes, hstate⟩ := (Refinement.unlogged p.watched t).uses rfl us
    exact Prod.ext houtcomes hstate
  · obtain ⟨houtcomes, hstate⟩ := (Refinement.logged p hnever t).uses rfl us
    exact Prod.ext houtcomes hstate
  · exact fun held hheld => held_given hheld t direct.2.2
  · refine ⟨logged_read_bytes p log s t size, fun fault hfault => ?_, fun hfault => ?_⟩
    · rw [logged_read_fault, hfault, Option.some_or]
    · rw [logged_read_fault, hfault, Option.none_or]

/-- A use of each kind of a port whose second reading comes with a fault. The first read asks for one byte, so one of
two is lost; the exchange fails, and what it read is in the log all the same. -/
theorem logged_faithful_failing :
    let start : Rehearsal := { entries := [[1, 2], [3]], failsLast := true }
    let us : List Use := [.read 1, .write [9], .exchange 128 0x13, .close]
    ((∀ t data, (keep t data).1 = none) ∧ ∀ t data, (keep t data).2 = t ++ data) ∧
      (Rehearsal.port.watched.uses (start, []) us).2.2 =
        [.read 1 ⟨[1], none⟩, .write [9] ⟨1, none⟩, .write [0x13, 0, 0, 0] ⟨4, none⟩,
          .read 128 ⟨[3], some .closed⟩, .close none] ∧
      ((Rehearsal.port.watched.logged (some keep)).uses ((start, []), []) us).2.2 = [1, 3] := by
  intro start us
  have hcontacts : (Rehearsal.port.watched.uses (start, []) us).2.2 =
      [.read 1 ⟨[1], none⟩, .write [9] ⟨1, none⟩, .write [0x13, 0, 0, 0] ⟨4, none⟩,
        .read 128 ⟨[3], some .closed⟩, .close none] := by
    decide +kernel
  obtain ⟨hsame, hheld⟩ := (logged_faithful Rehearsal.port start us).2.2.1 keep (fun _ _ => rfl) []
  have hbytes := hheld id (fun _ _ => rfl)
  rw [hcontacts] at hbytes
  rw [hsame]
  exact ⟨⟨fun _ _ => rfl, fun _ _ => rfl⟩, hcontacts, hcontacts ▸ hbytes⟩

end RvConsole.Port
