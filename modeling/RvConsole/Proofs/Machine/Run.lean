import RvConsole.Machine.Serve
import RvConsole.Proofs.Machine.Agreement
import RvConsole.Proofs.Machine.Failure

/-! Machines over whole runs.

What can be done with a machine from outside is an `Act`; a run is a list of them, and the wall clock may
go on to any time between two. One word either has the effect of its instruction or only lets a cycle pass
(`execute_cases`), and all that is said about runs comes from there.

Some things are said about what happened in a run. What is of interest in an act is noted, newest first,
and a reset throws the notes away (`noted`); a relation between a machine and its notes that every act
keeps holds after every run (`run_noted`). -/
namespace RvConsole

/-! ### What a word can do -/

/-- What decodes has admissible operands; of the fences not all operands are looked at. -/
theorem Instruction.valid_of_decode? {inst : Instruction} {w : Word} (h : decode? w = some inst)
    (hfence : inst.operands.shape ≠ .fence) (hsystem : inst.operands.shape ≠ .system) :
    inst.operands.Valid := by
  obtain ⟨hop, hinst⟩ := decode?_eq_some_iff.mp h
  have hshape : inst.operands.shape = inst.op.info.shape := by
    rw [← hinst]
    exact Operands.shape_ofWord _ _
  rw [hshape] at hfence hsystem
  have hmisc : inst.op.info.opcode ≠ Opcode.miscMem :=
    (by decide : ∀ op : Op, op.info.shape ≠ .fence → op.info.shape ≠ .system →
      op.info.opcode ≠ Opcode.miscMem) inst.op hfence hsystem
  rw [← hinst]
  exact (Op.wellFormed_instruction hmisc).2.1

namespace Machine
variable {m : Machine} {w : Word}

theorem setReg_zero (h0 : m.reg 0 = 0) : m.setReg 0 0 = m := by
  have hregs : m.regs.set 0 0 = m.regs := set_first_self h0
  show { m with regs := m.regs.set 0 0 } = m
  rw [hregs]

/-- **A word has the effect of its instruction, or only a cycle passes.** -/
theorem execute_cases (h0 : m.reg 0 = 0) (w : Word) :
    (∃ inst, Instruction.decode? w = some inst ∧ inst.Allowed m.value m ∧
      m.execute w = (m.after (inst.effect m.value m), none)) ∨
    ∃ trap, m.execute w = ({ m with cycle := m.cycle + 1 }, some trap) := by
  have hfailed : ∀ cause, m.step w = .error cause →
      m.execute w = ({ m with cycle := m.cycle + 1 }, some ⟨m.pc, cause⟩) := by
    intro cause hstep
    simp only [execute, hstep, setReg_zero h0]
  have hstep := m.step_eq w
  rw [value_eq_held h0]
  cases hdecode : Instruction.decode? w with
  | none =>
    rw [hdecode] at hstep
    exact .inr ⟨_, hfailed _ hstep⟩
  | some inst =>
    simp only [hdecode, perform] at hstep
    cases hrefusal : inst.refusal? m.held m with
    | some cause =>
      simp only [hrefusal] at hstep
      exact .inr ⟨_, hfailed _ hstep⟩
    | none =>
      simp only [hrefusal] at hstep
      exact .inl ⟨inst, rfl, Instruction.refusal?_eq_none_iff.mp hrefusal, execute_eq_after h0 hstep⟩

/-- What a word that succeeds does. -/
theorem execute_of_decode? (h0 : m.reg 0 = 0) {inst : Instruction}
    (hdecode : Instruction.decode? w = some inst) (hok : (m.execute w).2 = none) :
    inst.Allowed m.value m ∧ (m.execute w).1 = m.after (inst.effect m.value m) := by
  rcases execute_cases h0 w with ⟨inst', hdecode', hallowed, hexec⟩ | ⟨trap, hexec⟩
  · obtain rfl : inst = inst' := Option.some.inj (hdecode.symm.trans hdecode')
    exact ⟨hallowed, by rw [hexec]⟩
  · rw [hexec] at hok
    cases hok

/-- The register that an effect sets holds what it is set to. -/
theorem value_after {e : Effect} {r : Register} {v : Word} (he : e.register = some (r, v))
    (hr : r ≠ .zero) (hregister : Operands.IsRegister r) : (m.after e).value r = v := by
  have hregs : (m.after e).regs = m.regs.setIfInBounds r.index.toNat v := by
    simp only [after, he, if_neg hr]
  have hindex : r.index.toNat < registerCount := hregister
  have hsize : r.index.toNat < (m.regs.setIfInBounds r.index.toNat v).toArray.size := by
    rw [Vector.size_toArray]
    exact hindex
  rw [value, if_neg hr, held, hregs, Array.getD, dif_pos hsize]
  exact Vector.getElem_setIfInBounds_self hindex

/-! ### Acts and runs -/

/-- What can be done with a machine. -/
inductive Act where
  | execute (word : Word)
  | writeCsr (csr value : Word)
  | reset
  /-- The wall clock has gone on. -/
  | wait (clock : BitVec 64)
  deriving DecidableEq, Repr

/-- The machine after an act; a write that fails does nothing. -/
def act (m : Machine) : Act → Machine
  | .execute w => (m.execute w).1
  | .writeCsr csr value =>
    match m.writeCsr csr value with
    | .ok done => done
    | .error _ => m
  | .reset => m.reset
  | .wait clock => { m with clock }

/-- The machine after acts in order. -/
def run (m : Machine) : List Act → Machine
  | [] => m
  | a :: rest => (m.act a).run rest

/-- What was noted of a run since its last reset, newest first, on from the notes that there were. -/
def noted {α : Type} (note : Machine → Act → List α) (m : Machine) (notes : List α) : List Act → List α
  | [] => notes
  | a :: rest => (m.act a).noted note (if a = .reset then [] else note m a ++ notes) rest

/-- **What every act keeps between a machine and its notes holds after every run.** -/
theorem run_noted {α : Type} {note : Machine → Act → List α} {R : Machine → List α → Prop}
    (hreset : ∀ m notes, R m notes → R m.reset [])
    (hact : ∀ m notes a, a ≠ .reset → R m notes → R (m.act a) (note m a ++ notes))
    (acts : List Act) {notes : List α} (h : R m notes) : R (m.run acts) (m.noted note notes acts) := by
  induction acts generalizing m notes with
  | nil => exact h
  | cons a rest ih =>
    apply ih
    by_cases ha : a = .reset
    · subst ha
      exact hreset m notes h
    · rw [if_neg ha]
      exact hact m notes a ha h

/-- The newest note for a key, or zero. -/
def latest {κ β : Type} [BEq κ] [OfNat β 0] (notes : List (κ × β)) (key : κ) : β :=
  (notes.lookup key).getD 0

theorem latest_append {κ β : Type} [BEq κ] [OfNat β 0] (new notes : List (κ × β)) (key : κ) :
    latest (new ++ notes) key = (new.lookup key).getD (latest notes key) := by
  rw [latest, List.lookup_append, Option.getD_or, latest]

/-! ### What every machine keeps -/

/-- What is so of a machine with so much memory between any two words. -/
structure Sound (size : Nat) (m : Machine) : Prop where
  zero : m.reg 0 = 0
  even : Even m.pc.toNat
  size_eq : m.memory.size = size

theorem sound_ofSize (size : Nat) : Sound size (ofSize size) :=
  ⟨rfl, Even.zero, Array.size_replicate⟩

theorem even_add {x y : Word} (hx : Even x.toNat) (hy : Even y.toNat) : Even (x + y).toNat := by
  rw [BitVec.toNat_add]
  rw [Nat.even_iff] at hx hy ⊢
  omega

theorem even_ofInt {v : Int} (hv : v % 2 = 0) : Even (BitVec.ofInt 32 v).toNat := by
  rw [BitVec.toNat_ofInt, Nat.even_iff]
  omega

/-- An instruction goes on at an even address: offsets of jumps and branches are even, and the one jump
to a computed address drops its last bit. -/
theorem even_next {inst : Instruction} (hdecode : Instruction.decode? w = some inst)
    (x : Register → Word) (heven : Even m.pc.toNat) : Even (inst.effect x m).next.toNat := by
  have hnext : Even (m.pc + 4).toNat := even_add heven (by decide)
  have hvalid := Instruction.valid_of_decode? hdecode
  rcases inst with ⟨op, operands⟩
  cases operands with
  | j rd imm =>
    obtain ⟨-, -, -, himm⟩ := hvalid nofun nofun
    exact even_add heven (even_ofInt (himm rfl))
  | b rs1 rs2 imm =>
    obtain ⟨-, -, -, -, himm⟩ := hvalid nofun nofun
    simp only [Instruction.effect]
    split
    · exact even_add heven (even_ofInt (himm rfl))
    · exact hnext
  | i rd rs1 imm =>
    simp only [Instruction.effect]
    split
    · rw [BitVec.toNat_ofNat, Nat.even_iff]
      omega
    · exact hnext
  | _ => exact hnext

namespace Sound
variable {size : Nat}

theorem after {inst : Instruction} (h : Sound size m) (hdecode : Instruction.decode? w = some inst)
    (x : Register → Word) : Sound size (m.after (inst.effect x m)) := by
  generalize he : inst.effect x m = e
  refine ⟨?_, ?_, ?_⟩
  · have hregs := setReg_moved_regs h.zero e
    show (m.after e).regs.get (0 : BitVec 5).toFin = 0
    rw [← hregs]
    exact (m.moved e).setReg_reg 0 0
  · rw [← he]
    exact even_next hdecode x h.even
  · cases hstore : e.store with
    | none =>
      simp only [Machine.after, hstore]
      exact h.size_eq
    | some p =>
      simp only [Machine.after, hstore, Memory.stored, Array.size_mapIdx]
      exact h.size_eq

theorem execute (h : Sound size m) (w : Word) : Sound size (m.execute w).1 := by
  rcases execute_cases h.zero w with ⟨inst, hdecode, -, hexec⟩ | ⟨trap, hexec⟩
  · rw [hexec]
    exact h.after hdecode m.value
  · rw [hexec]
    exact ⟨h.zero, h.even, h.size_eq⟩

theorem reset (h : Sound size m) : Sound size m.reset := by
  rw [Machine.reset, h.size_eq]
  exact sound_ofSize size

theorem act (h : Sound size m) (a : Act) : Sound size (m.act a) := by
  cases a with
  | execute w => exact h.execute w
  | writeCsr csr value =>
    simp only [Machine.act, Machine.writeCsr]
    split_ifs
    · exact h
    · exact ⟨h.zero, h.even, h.size_eq⟩
  | reset => exact h.reset
  | wait clock => exact ⟨h.zero, h.even, h.size_eq⟩

/-- Serving is executing word after word. -/
theorem serveFrom (h : Sound size m) (clock : Clock) (output : Sink) (told : List Event) (input : Text) :
    Sound size (m.serveFrom clock output told input).machine := by
  have hword {m : Machine} (h : Sound size m) (reading : BitVec 64) (w : Word) :
      Sound size ((m.atTime reading).execute w).1 := (h.act (.wait reading)).execute w
  fun_induction Machine.serveFrom m clock output told input with
  | case1 => exact h
  | case2 m clock output told a b c d rest w timed done told' output' hwrite ih => exact ih (hword h (clock 0) w)
  | case3 => exact hword h _ _
  | case4 => exact h

end Sound

/-- The machines that a new one can become. -/
inductive Reachable : Machine → Prop where
  | new : Reachable .new
  | act {m : Machine} (h : Reachable m) (a : Act) : Reachable (m.act a)
  | serve {m : Machine} (h : Reachable m) (clock : Clock) (output : Sink) (input : Text) :
    Reachable (m.serve clock output input).machine

/-- **Register zero is zero, the program counter is even and the memory keeps its size**, whatever is
executed, served, written or reset, in any order. -/
theorem reachable_sound {m : Machine} (h : Reachable m) :
    m.reg 0 = 0 ∧ m.pc.toNat % 2 = 0 ∧ m.memory.size = memorySize := by
  have hsound : Sound memorySize m := by
    induction h with
    | new => exact sound_ofSize memorySize
    | act _ a ih => exact ih.act a
    | serve _ clock output input ih => exact ih.serveFrom clock output [] input
  exact ⟨hsound.zero, Nat.even_iff.mp hsound.even, hsound.size_eq⟩

/-- A jump to an odd address. -/
theorem reachable_sound_jalr :
    Reachable (new.act (.execute 0x003000E7)) ∧ (new.act (.execute 0x003000E7)).reg 0 = 0 ∧
      (new.act (.execute 0x003000E7)).pc.toNat % 2 = 0 ∧
      (new.act (.execute 0x003000E7)).memory.size = memorySize := by
  have h : Reachable (new.act (.execute 0x003000E7)) := .act .new _
  exact ⟨h, reachable_sound h⟩

end Machine

end RvConsole
