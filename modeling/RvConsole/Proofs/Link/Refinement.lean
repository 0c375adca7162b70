import RvConsole.Proofs.Link.Pieces

/-! Ports that behave alike.

A port refines another when calls on related states get the same answers and leave related states. Then however
the two are used, by single calls and by exchanges, the users get the same (`Refinement.uses`). A watched port
writes down every call it receives with the answer it gives, and is otherwise the port (`Refinement.watched`). -/
namespace RvConsole

namespace Port
variable {σ τ : Type}

/-! ### Using a port -/

/-- A way to use a port. An exchange makes so many reads at most. -/
inductive Use where
  | read (size : Nat)
  | write (data : Text)
  | close
  | exchange (reads : Nat) (w : Word)

/-- What comes of using a port. -/
inductive Outcome where
  | read (reading : Reading)
  | write (writing : Writing)
  | close (fault : Option Fault)
  | exchange (result : Except LinkError RegisterFile)

/-- Uses a port once. -/
def use (p : Port σ) (s : σ) : Use → Outcome × σ
  | .read size => (.read (p.read s size).1, (p.read s size).2)
  | .write data => (.write (p.write s data).1, (p.write s data).2)
  | .close => (.close (p.close s).1, (p.close s).2)
  | .exchange reads w => (.exchange (p.exchange reads s w).1, (p.exchange reads s w).2)

/-- Uses a port any number of times. -/
def uses (p : Port σ) (s : σ) : List Use → List Outcome × σ
  | [] => ([], s)
  | u :: rest => ((p.use s u).1 :: (p.uses (p.use s u).2 rest).1, (p.uses (p.use s u).2 rest).2)

/-! ### Refinement -/

/-- One port behaves like another: calls on related states get the same answers and leave related states. -/
structure Refinement (impl : Port τ) (spec : Port σ) where
  Rel : τ → σ → Prop
  read : ∀ {t s}, Rel t s → ∀ size,
    (impl.read t size).1 = (spec.read s size).1 ∧ Rel (impl.read t size).2 (spec.read s size).2
  write : ∀ {t s}, Rel t s → ∀ data,
    (impl.write t data).1 = (spec.write s data).1 ∧ Rel (impl.write t data).2 (spec.write s data).2
  close : ∀ {t s}, Rel t s →
    (impl.close t).1 = (spec.close s).1 ∧ Rel (impl.close t).2 (spec.close s).2

namespace Refinement
variable {impl : Port τ} {spec : Port σ} (r : Refinement impl spec) {t : τ} {s : σ}

theorem exchange (h : r.Rel t s) (reads : Nat) (w : Word) :
    (impl.exchange reads t w).1 = (spec.exchange reads s w).1 ∧
      r.Rel (impl.exchange reads t w).2 (spec.exchange reads s w).2 := by
  obtain ⟨hwriting, hsent⟩ := r.write h w.toBytes
  obtain ⟨hreading, hread⟩ := readFull_congr r.read hsent RegisterFile.byteCount reads []
  unfold Port.exchange
  dsimp only
  rw [hwriting]
  cases (spec.write s w.toBytes).1.fault with
  | some fault => exact ⟨rfl, hsent⟩
  | none => exact ⟨congrArg (Except.map RegisterFile.ofBytes) hreading, hread⟩

theorem use (h : r.Rel t s) (u : Use) :
    (impl.use t u).1 = (spec.use s u).1 ∧ r.Rel (impl.use t u).2 (spec.use s u).2 := by
  cases u with
  | read size => exact ⟨congrArg Outcome.read (r.read h size).1, (r.read h size).2⟩
  | write data => exact ⟨congrArg Outcome.write (r.write h data).1, (r.write h data).2⟩
  | close => exact ⟨congrArg Outcome.close (r.close h).1, (r.close h).2⟩
  | exchange reads w =>
    obtain ⟨hresult, hrel⟩ := r.exchange h reads w
    exact ⟨congrArg Outcome.exchange hresult, hrel⟩

/-- **However ports that behave alike are used, the users get the same.** -/
theorem uses (h : r.Rel t s) (us : List Use) :
    (impl.uses t us).1 = (spec.uses s us).1 ∧ r.Rel (impl.uses t us).2 (spec.uses s us).2 := by
  induction us generalizing t s with
  | nil => exact ⟨rfl, h⟩
  | cons u rest ih =>
    obtain ⟨houtcome, hrel⟩ := r.use h u
    obtain ⟨houtcomes, hrest⟩ := ih hrel
    refine ⟨?_, hrest⟩
    rw [Port.uses, Port.uses, houtcome, houtcomes]

end Refinement

end Port

/-! ### Watching -/

/-- A call that a port received, and its answer. -/
inductive Contact where
  | read (size : Nat) (reading : Reading)
  | write (data : Text) (writing : Writing)
  | close (fault : Option Fault)
  deriving DecidableEq, Repr

/-- The bytes that a contact brought from the device. -/
def Contact.brought : Contact → Text
  | read _ reading => reading.bytes
  | write _ _ => []
  | close _ => []

namespace Port
variable {σ : Type} (p : Port σ)

/-- The port with a list of all its contacts. -/
def watched : Port (σ × List Contact) where
  read := fun (s, seen) size =>
    ((p.read s size).1, ((p.read s size).2, seen ++ [.read size (p.read s size).1]))
  write := fun (s, seen) data =>
    ((p.write s data).1, ((p.write s data).2, seen ++ [.write data (p.write s data).1]))
  close := fun (s, seen) => ((p.close s).1, ((p.close s).2, seen ++ [.close (p.close s).1]))
  notes := fun (s, seen) => ((p.notes s).1, ((p.notes s).2, seen))

/-- Watching changes nothing. -/
def Refinement.watched : Refinement p.watched p where
  Rel := fun t s => t.1 = s
  read := by
    intro t s h size
    subst h
    exact ⟨rfl, rfl⟩
  write := by
    intro t s h data
    subst h
    exact ⟨rfl, rfl⟩
  close := by
    intro t s h
    subst h
    exact ⟨rfl, rfl⟩

end Port

end RvConsole
