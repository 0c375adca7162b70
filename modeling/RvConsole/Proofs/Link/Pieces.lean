import RvConsole.Link.Device
import RvConsole.Link.Exchange
import RvConsole.Proofs.Machine.Served

/-! Values that arrive in pieces.

A value of a known length is read until all of it is there. So a port that hands a value over in pieces,
however it is cut, hands over the value (`readFull_of_hands`), and a port that takes a word and hands over a
register file exchanges the one for the other (`exchange_of_hands`). -/
namespace RvConsole

namespace Port
variable {σ : Type} {p : Port σ}

/-! ### Reading -/

theorem readFull_full {want : Nat} {got : Text} (hgot : want ≤ got.length) (reads : Nat) (s : σ) :
    p.readFull want reads s got = (.ok got, s) := by
  cases reads with
  | zero => rw [readFull, if_pos hgot]
  | succ reads => rw [readFull, if_pos hgot]

/-- A piece that comes without a fault leaves the rest to be read. -/
theorem readFull_piece {want : Nat} {got piece : Text} {s s' : σ} (hgot : got.length < want)
    (hread : p.read s (want - got.length) = (⟨piece, none⟩, s')) (reads : Nat) :
    p.readFull want (reads + 1) s got = p.readFull want reads s' (got ++ piece) := by
  rw [readFull, if_neg (by omega), hread]
  dsimp only
  split_ifs with hfull
  · exact (readFull_full hfull reads s').symm
  · rfl

/-- Reading that does not end waiting is the same with any more reads. -/
theorem readFull_of_le {want reads more : Nat} {s : σ} {got : Text} (hmore : reads ≤ more)
    (h : (p.readFull want reads s got).1 ≠ .error .waiting) :
    p.readFull want more s got = p.readFull want reads s got := by
  induction reads generalizing more s got with
  | zero =>
    have hgot : want ≤ got.length := by
      by_contra hgot
      exact h (by rw [readFull, if_neg hgot])
    rw [readFull_full hgot, readFull_full hgot]
  | succ reads ih =>
    obtain ⟨more, rfl⟩ : ∃ n, more = n + 1 := ⟨more - 1, by omega⟩
    by_cases hgot : want ≤ got.length
    · rw [readFull_full hgot, readFull_full hgot]
    rw [readFull, if_neg hgot] at h ⊢
    rw [readFull, if_neg hgot]
    dsimp only at h ⊢
    by_cases hfull : want ≤ (got ++ (p.read s (want - got.length)).1.bytes).length
    · rw [if_pos hfull, if_pos hfull]
    rw [if_neg hfull] at h ⊢
    rw [if_neg hfull]
    cases hfault : (p.read s (want - got.length)).1.fault with
    | some fault => rfl
    | none =>
      rw [hfault] at h
      exact ih (Nat.le_of_succ_le_succ hmore) h

/-- Where single reads of two ports agree, so does reading until all is there. -/
theorem readFull_congr {τ : Type} {q : Port τ} {Rel : σ → τ → Prop}
    (hread : ∀ {s t}, Rel s t → ∀ size,
      (p.read s size).1 = (q.read t size).1 ∧ Rel (p.read s size).2 (q.read t size).2)
    {s : σ} {t : τ} (h : Rel s t) (want reads : Nat) (got : Text) :
    (p.readFull want reads s got).1 = (q.readFull want reads t got).1 ∧
      Rel (p.readFull want reads s got).2 (q.readFull want reads t got).2 := by
  induction reads generalizing s t got with
  | zero => exact ⟨rfl, h⟩
  | succ reads ih =>
    by_cases hgot : want ≤ got.length
    · rw [readFull_full hgot, readFull_full hgot]
      exact ⟨rfl, h⟩
    obtain ⟨hreading, hrel⟩ := hread h (want - got.length)
    rw [readFull, readFull, if_neg hgot, if_neg hgot]
    dsimp only
    rw [hreading]
    by_cases hfull : want ≤ (got ++ (q.read t (want - got.length)).1.bytes).length
    · rw [if_pos hfull, if_pos hfull]
      exact ⟨rfl, hrel⟩
    rw [if_neg hfull, if_neg hfull]
    cases (q.read t (want - got.length)).1.fault with
    | some fault => exact ⟨rfl, hrel⟩
    | none => exact ih hrel _

/-- The reads of a port hand over a number of bytes in pieces: each read asks for what is still missing and
gives some of it, without a fault. -/
inductive Hands (p : Port σ) : Nat → σ → List Text → σ → Prop where
  | all {s : σ} : Hands p 0 s [] s
  | piece {missing : Nat} {s s' s'' : σ} {piece : Text} {pieces : List Text} :
    p.read s missing = (⟨piece, none⟩, s') → piece ≠ [] → piece.length ≤ missing →
      Hands p (missing - piece.length) s' pieces s'' → Hands p missing s (piece :: pieces) s''

/-- **A value is the same however it is cut into pieces.** -/
theorem readFull_of_hands {want missing reads : Nat} {s s' : σ} {pieces : List Text}
    (h : p.Hands missing s pieces s') {got : Text} (hgot : got.length + missing = want)
    (hreads : pieces.length ≤ reads) :
    p.readFull want reads s got = (.ok (got ++ pieces.flatten), s') := by
  induction h generalizing got reads with
  | all =>
    rw [readFull_full (by omega), List.flatten_nil, List.append_nil]
  | @piece missing s s₁ s₂ piece pieces hread hne hfits _ ih =>
    have hpiece : 0 < piece.length := List.length_pos_iff.mpr hne
    obtain ⟨reads, rfl⟩ : ∃ n, reads = n + 1 := Nat.exists_eq_add_one.mpr (Nat.zero_lt_of_lt hreads)
    have hread' : p.read s (want - got.length) = (⟨piece, none⟩, s₁) := by
      rw [show want - got.length = missing by omega, hread]
    rw [readFull_piece (by omega) hread',
      ih (by rw [List.length_append]; omega) (Nat.le_of_succ_le_succ hreads), List.flatten_cons, List.append_assoc]

/-! ### Exchanges -/

/-- An exchange that is not left waiting is the same with any more reads. -/
theorem exchange_of_le {reads more : Nat} {s : σ} {w : Word} (hmore : reads ≤ more)
    (h : (p.exchange reads s w).1 ≠ .error .waiting) : p.exchange more s w = p.exchange reads s w := by
  simp only [exchange] at h ⊢
  cases hfault : (p.write s w.toBytes).1.fault with
  | some fault => rfl
  | none =>
    rw [hfault] at h
    dsimp only at h ⊢
    rw [readFull_of_le hmore]
    intro hwaiting
    rw [hwaiting] at h
    exact h rfl

/-- **A port that takes a word and hands over a register file exchanges the one for the other**, in as many reads
as there are pieces. -/
theorem exchange_of_hands {s s₁ s₂ : σ} {w : Word} {writing : Writing} {pieces : List Text}
    {regs : RegisterFile} (hwrite : p.write s w.toBytes = (writing, s₁)) (hfault : writing.fault = none)
    (hhands : p.Hands RegisterFile.byteCount s₁ pieces s₂)
    (hpieces : pieces.flatten = RegisterFile.toBytes regs) {reads : Nat} (hreads : pieces.length ≤ reads) :
    p.exchange reads s w = (.ok regs, s₂) := by
  have hread : p.readFull RegisterFile.byteCount reads s₁ [] = (.ok ([] ++ pieces.flatten), s₂) :=
    readFull_of_hands hhands (Nat.zero_add _) hreads
  simp only [exchange, hwrite, hfault, hread, List.nil_append, hpieces, Except.map, RegisterFile.ofBytes_toBytes]

/-- Words exchanged one after the other. -/
def exchanges (p : Port σ) (reads : Nat) (s : σ) : List Word → List (Except LinkError RegisterFile) × σ
  | [] => ([], s)
  | w :: ws =>
    let (result, s) := p.exchange reads s w
    let (results, s) := p.exchanges reads s ws
    (result :: results, s)

end Port

/-! ### Pieces laid down beforehand -/

namespace Rehearsal

/-- The pieces that are laid down are handed over, one for each read. -/
theorem hands (r : Rehearsal) {missing : Nat} (hfails : r.failsLast = false)
    (hne : ∀ piece ∈ r.entries, piece ≠ []) (hlength : r.entries.flatten.length = missing) :
    ∃ r', port.Hands missing r r.entries r' := by
  obtain ⟨entries, failsLast, afterwards, onClose, calls⟩ := r
  dsimp only at hfails hne hlength ⊢
  subst hfails
  induction entries generalizing missing calls with
  | nil =>
    subst hlength
    exact ⟨_, .all⟩
  | cons piece rest ih =>
    obtain ⟨hpiece, hrest⟩ := List.forall_mem_cons.mp hne
    rw [List.flatten_cons, List.length_append] at hlength
    have hmissing : rest.flatten.length = missing - piece.length := by omega
    obtain ⟨r', hhands⟩ := ih (calls ++ [.read missing]) hrest hmissing
    refine ⟨r', .piece ?_ hpiece (by omega) hhands⟩
    simp only [port, Bool.false_eq_true, false_and, if_false, List.take_of_length_le
      (show piece.length ≤ missing by omega)]

/-- **An exchange gives the register file whose bytes arrive, whatever the pieces.** -/
theorem exchange_of_pieces {pieces : List Text} {regs : RegisterFile} (hne : ∀ piece ∈ pieces, piece ≠ [])
    (hpieces : pieces.flatten = RegisterFile.toBytes regs) (w : Word) :
    (port.exchange pieces.length { entries := pieces } w).1 = .ok regs := by
  have hlength : pieces.flatten.length = RegisterFile.byteCount := by
    rw [hpieces, RegisterFile.length_toBytes]
  obtain ⟨r', hhands⟩ := hands { entries := pieces, calls := [.write w.toBytes] } rfl hne hlength
  rw [Port.exchange_of_hands rfl rfl hhands hpieces le_rfl]

end Rehearsal

/-! ### The simulator -/

namespace Simulator

/-- A simulator between two exchanges: nothing is under way. -/
structure Resting (sim : Simulator) : Prop where
  isOpen : sim.isOpen = true
  inbox : sim.inbox = []
  outbox : sim.outbox = []

/-- The simulator takes a word at the time that its clock has, and the whole answer waits. -/
theorem accept_word {sim : Simulator} (h : sim.Resting) (w : Word) :
    (sim.accept w.toBytes).machine = sim.machine.next (sim.clock 0) w ∧
      (sim.accept w.toBytes).clock = sim.clock.after 1 ∧ (sim.accept w.toBytes).inbox = [] ∧
      (sim.accept w.toBytes).outbox = RegisterFile.toBytes (sim.machine.next (sim.clock 0) w).regs ∧
      (sim.accept w.toBytes).isOpen = true := by
  obtain ⟨hmachine, hwritten⟩ := sim.machine.serve_word sim.clock w
  have hcount : w.toBytes.length / 4 = 1 := by rw [Word.length_toBytes]
  have hwhole : 1 * 4 = w.toBytes.length := by rw [Word.length_toBytes]
  simp only [accept, h.inbox, h.outbox, List.nil_append, hcount, hwhole, List.take_length, List.drop_length]
  exact ⟨hmachine, trivial, trivial, hwritten, h.isOpen⟩

/-- The whole answer comes in one read. -/
theorem exchange_eq {sim : Simulator} (h : sim.Resting) (w : Word) {reads : Nat} (hreads : 0 < reads) :
    ∃ sim', port.exchange reads sim w = (.ok (sim.machine.next (sim.clock 0) w).regs, sim') ∧ sim'.Resting ∧
      sim'.machine = sim.machine.next (sim.clock 0) w ∧ sim'.clock = sim.clock.after 1 := by
  obtain ⟨hmachine, hclock, hinbox, houtbox, hopen⟩ := accept_word h w
  have hwrite : port.write sim w.toBytes = (⟨4, none⟩, sim.accept w.toBytes) := if_pos h.isOpen
  have hlength : (sim.accept w.toBytes).outbox.length = RegisterFile.byteCount := by
    rw [houtbox, RegisterFile.length_toBytes]
  have hne : (sim.accept w.toBytes).outbox ≠ [] := by
    rw [← List.length_pos_iff, hlength]
    decide
  have hread : port.read (sim.accept w.toBytes) RegisterFile.byteCount =
      (⟨(sim.accept w.toBytes).outbox, none⟩, { sim.accept w.toBytes with outbox := [] }) := by
    simp only [port, hopen, Bool.not_true, Bool.false_eq_true, if_false, if_neg hne, ← hlength,
      List.take_length, List.drop_length]
  have hhands : port.Hands RegisterFile.byteCount (sim.accept w.toBytes)
      [(sim.accept w.toBytes).outbox] { sim.accept w.toBytes with outbox := [] } := by
    refine .piece hread hne hlength.le ?_
    rw [hlength, Nat.sub_self]
    exact .all
  refine ⟨_, Port.exchange_of_hands hwrite rfl hhands ?_ hreads, ⟨hopen, hinbox, rfl⟩, hmachine, hclock⟩
  rw [List.flatten_singleton, houtbox]

/-- Words exchanged with a simulator are executed in order, and each gets the registers after it. -/
theorem exchanges_eq {sim : Simulator} (h : sim.Resting) {reads : Nat} (hreads : 0 < reads) (ws : List Word) :
    (port.exchanges reads sim ws).1 = (sim.machine.files sim.clock ws).map .ok ∧
      (port.exchanges reads sim ws).2.machine = sim.machine.executeAll sim.clock ws := by
  induction ws generalizing sim with
  | nil => exact ⟨rfl, rfl⟩
  | cons w ws ih =>
    obtain ⟨sim', hexchange, hresting, hmachine, hclock⟩ := exchange_eq h w hreads
    obtain ⟨hresults, hafter⟩ := ih hresting
    rw [hmachine, hclock] at hresults hafter
    simp only [Port.exchanges, hexchange, hresults, hafter]
    exact ⟨rfl, rfl⟩

end Simulator

end RvConsole
