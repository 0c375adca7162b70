import RvConsole.Proofs.Machine.Run

/-! Counters and CSRs over whole runs.

A word counts as executed whether it succeeds or not, and as retired if it does; the counters show how many
there were since the last reset. Every other CSR holds what was written to it last, by an instruction that
succeeds or from outside, and the numbers that only read are never written (`csrs_last_written`). -/
namespace RvConsole

namespace Instruction

/-- Only CSR operations write CSRs: the number that is written, and what with. -/
theorem effect_csr (inst : Instruction) (x : Register → Word) (m : Machine) :
    (inst.effect x m).csr =
      match inst.operands with
      | .csr _ number rs1 =>
        inst.written?.map fun n => (n, inst.op.combine (m.csrValue number) (x rs1))
      | .csri _ number uimm =>
        inst.written?.map fun n => (n, inst.op.combine (m.csrValue number) (BitVec.ofInt 32 uimm))
      | _ => none := by
  rcases inst with ⟨op, operands⟩
  cases operands with
  | i rd rs1 imm =>
    simp only [effect]
    split <;> rfl
  | _ => rfl

end Instruction

namespace Machine
variable {m : Machine} {w : Word}

/-! ### Counters -/

/-- The words of an act, whether they succeed or not. -/
def wordsExecuted (_ : Machine) : Act → List Word
  | .execute w => [w]
  | _ => []

/-- The words of an act that succeed. -/
def wordsRetired (m : Machine) : Act → List Word
  | .execute w => if (m.execute w).2 = none then [w] else []
  | _ => []

theorem execute_cycle (m : Machine) (w : Word) : (m.execute w).1.cycle = m.cycle + 1 := by
  unfold execute
  cases m.step w <;> rfl

/-- A word retires when it succeeds. -/
theorem execute_instret (h0 : m.reg 0 = 0) (w : Word) :
    (m.execute w).1.instret = m.instret + if (m.execute w).2 = none then 1 else 0 := by
  rcases execute_cases h0 w with ⟨inst, -, -, hexec⟩ | ⟨trap, hexec⟩
  · rw [hexec]
    rfl
  · rw [hexec]
    exact (BitVec.add_zero m.instret).symm

/-- A counter as its two halves. -/
theorem halves_toNat (x : BitVec 64) :
    (x.extractLsb' 32 32).toNat * 2 ^ 32 + (x.extractLsb' 0 32).toNat = x.toNat := by
  have hx := x.isLt
  simp only [BitVec.extractLsb'_toNat, Nat.shiftRight_eq_div_pow]
  omega

theorem toNat_add_one_of_count {x : BitVec 64} {n : Nat} (h : x.toNat = n % 2 ^ 64) :
    (x + 1).toNat = (n + 1) % 2 ^ 64 := by
  rw [BitVec.toNat_add, h]
  exact Nat.mod_add_mod n (2 ^ 64) 1

theorem cycle_act {executed : List Word} {a : Act} (ha : a ≠ .reset)
    (h : m.cycle.toNat = executed.length % 2 ^ 64) :
    (m.act a).cycle.toNat = (m.wordsExecuted a ++ executed).length % 2 ^ 64 := by
  cases a with
  | reset => exact absurd rfl ha
  | wait clock => exact h
  | writeCsr csr value =>
    simp only [act, writeCsr]
    split_ifs <;> exact h
  | execute w =>
    show (m.execute w).1.cycle.toNat = (executed.length + 1) % 2 ^ 64
    rw [execute_cycle]
    exact toNat_add_one_of_count h

theorem instret_act (h0 : m.reg 0 = 0) {retired : List Word} {a : Act} (ha : a ≠ .reset)
    (h : m.instret.toNat = retired.length % 2 ^ 64) :
    (m.act a).instret.toNat = (m.wordsRetired a ++ retired).length % 2 ^ 64 := by
  cases a with
  | reset => exact absurd rfl ha
  | wait clock => exact h
  | writeCsr csr value =>
    simp only [act, writeCsr]
    split_ifs <;> exact h
  | execute w =>
    show (m.execute w).1.instret.toNat = _
    rw [execute_instret h0, wordsRetired]
    split_ifs
    · exact toNat_add_one_of_count h
    · exact (congrArg BitVec.toNat (BitVec.add_zero m.instret)).trans h

/-- The counters after a run. -/
theorem counters_run (size : Nat) (acts : List Act) :
    ((ofSize size).run acts).cycle.toNat =
        ((ofSize size).noted wordsExecuted [] acts).length % 2 ^ 64 ∧
      ((ofSize size).run acts).instret.toNat =
        ((ofSize size).noted wordsRetired [] acts).length % 2 ^ 64 := by
  constructor
  · refine run_noted (R := fun m notes => m.cycle.toNat = notes.length % 2 ^ 64) ?_ ?_ acts rfl
    · exact fun _ _ _ => rfl
    · exact fun m notes a ha h => cycle_act ha h
  · refine (run_noted (R := fun m notes => Sound size m ∧ m.instret.toNat = notes.length % 2 ^ 64)
      ?_ ?_ acts ⟨sound_ofSize size, rfl⟩).2
    · exact fun m notes h => ⟨h.1.reset, rfl⟩
    · exact fun m notes a ha h => ⟨h.1.act a, instret_act h.1.zero ha h.2⟩

/-! ### Other CSRs -/

/-- The CSRs that an act writes, and what with: from outside any that does not only read, and by a CSR
operation that succeeds what it makes of the old value and its operand. -/
def csrsWritten (m : Machine) : Act → List (Word × Word)
  | .writeCsr csr value => if csr < Csr.readOnlyFrom then [(csr, value)] else []
  | .execute w =>
    match (m.execute w).2, Instruction.decode? w with
    | none, some ⟨op, .csr _ number rs1⟩ =>
      let csr := BitVec.ofInt 32 number
      if op.alwaysWrites ∨ rs1 ≠ .zero then [(csr, op.combine (m.readCsr csr) (m.value rs1))] else []
    | none, some ⟨op, .csri _ number uimm⟩ =>
      let csr := BitVec.ofInt 32 number
      if op.alwaysWrites ∨ uimm ≠ 0 then [(csr, op.combine (m.readCsr csr) (BitVec.ofInt 32 uimm))] else []
    | _, _ => []
  | _ => []

/-- The CSRs of a machine hold what was written to them last, and those that only read hold nothing. -/
structure Holds (notes : List (Word × Word)) (m : Machine) : Prop where
  latest : ∀ csr, m.csrs csr = latest notes csr
  readOnly : ∀ csr, Csr.readOnlyFrom ≤ csr → m.csrs csr = 0

theorem Holds.of_csrs_eq {notes : List (Word × Word)} {done : Machine} (h : Holds notes m)
    (hcsrs : done.csrs = m.csrs) : Holds notes done :=
  ⟨fun csr => by rw [hcsrs, h.latest], fun csr hcsr => by rw [hcsrs, h.readOnly csr hcsr]⟩

/-- One CSR written that does not only read. -/
theorem Holds.write {notes : List (Word × Word)} {done : Machine} {csr v : Word} (h : Holds notes m)
    (hcsr : csr < Csr.readOnlyFrom) (hcsrs : done.csrs = fun n => if n = csr then v else m.csrs n) :
    Holds ((csr, v) :: notes) done := by
  constructor
  · intro n
    rw [hcsrs, Machine.latest, List.lookup_cons]
    by_cases hn : n = csr
    · subst hn
      simp
    · have hbeq : (n == csr) = false := beq_eq_false_iff_ne.mpr hn
      simp only [if_neg hn, hbeq, h.latest]
      rfl
  · intro n hreadOnly
    have hn : n ≠ csr := by
      rintro rfl
      exact absurd hcsr (BitVec.not_lt.mpr hreadOnly)
    simp only [hcsrs, if_neg hn, h.readOnly n hreadOnly]

/-- A CSR operation that writes, if it is allowed, writes no CSR that only reads. -/
theorem Holds.after {notes : List (Word × Word)} (h : Holds notes m) {e : Effect} {number : Int} {v : Word}
    {writes : Prop} [Decidable writes] (hadmits : ImmKind.csr.Admits number)
    (hlow : writes → number < 0xC00)
    (he : e.csr = (if writes then some number else none).map fun n => (n, v)) :
    Holds ((if writes then [(BitVec.ofInt 32 number, v)] else []) ++ notes) (m.after e) := by
  split_ifs at he ⊢ with hwrites
  · refine h.write ?_ (by simp only [Machine.after, he, Option.map_some])
    rw [← BitVec.not_le]
    exact fun hle => absurd ((readOnly_ofInt hadmits).mp hle) (not_le.mpr (hlow hwrites))
  · exact h.of_csrs_eq (by simp only [Machine.after, he, Option.map_none])

theorem Holds.act {notes : List (Word × Word)} (h : Holds notes m) (h0 : m.reg 0 = 0) {a : Act}
    (ha : a ≠ .reset) : Holds (m.csrsWritten a ++ notes) (m.act a) := by
  cases a with
  | reset => exact absurd rfl ha
  | wait clock => exact h.of_csrs_eq rfl
  | writeCsr csr value =>
    simp only [Machine.act, csrsWritten, writeCsr]
    by_cases hcsr : csr < Csr.readOnlyFrom
    · rw [if_pos hcsr, if_neg (BitVec.not_le.mpr hcsr)]
      exact h.write hcsr rfl
    · rw [if_neg hcsr, if_pos (BitVec.not_lt.mp hcsr)]
      exact h
  | execute w =>
    simp only [Machine.act, csrsWritten]
    rcases execute_cases h0 w with ⟨⟨op, operands⟩, hdecode, hallowed, hexec⟩ | ⟨trap, hexec⟩
    · have hcsr := Instruction.effect_csr ⟨op, operands⟩ m.value m
      have hvalid := Instruction.valid_of_decode? hdecode
      simp only [hexec, hdecode]
      cases operands with
      | csr rd number rs1 =>
        obtain ⟨-, hadmits, -⟩ := hvalid (by rintro ⟨⟩) (by rintro ⟨⟩)
        simp only [readCsr_ofInt m hadmits]
        exact h.after hadmits (fun hwrites => hallowed.2 number (if_pos hwrites)) hcsr
      | csri rd number uimm =>
        obtain ⟨-, hadmits, -⟩ := hvalid (by rintro ⟨⟩) (by rintro ⟨⟩)
        simp only [readCsr_ofInt m hadmits]
        exact h.after hadmits (fun hwrites => hallowed.2 number (if_pos hwrites)) hcsr
      | _ => exact h.of_csrs_eq (by simp only [Machine.after, hcsr])
    · simp only [hexec]
      exact h.of_csrs_eq rfl

/-- The other CSRs after a run. -/
theorem holds_run (size : Nat) (acts : List Act) :
    Sound size ((ofSize size).run acts) ∧
      Holds ((ofSize size).noted csrsWritten [] acts) ((ofSize size).run acts) := by
  refine run_noted (R := fun m notes => Sound size m ∧ Holds notes m) ?_ ?_ acts
    ⟨sound_ofSize size, ⟨fun _ => rfl, fun _ _ => rfl⟩⟩
  · exact fun m notes h => ⟨h.1.reset, ⟨fun _ => rfl, fun _ _ => rfl⟩⟩
  · exact fun m notes a ha h => ⟨h.1.act a, h.2.act h.1.zero ha⟩

/-- The CSRs that are no counter and no clock. -/
theorem readCsr_of_not_mem {csr : Word}
    (h : csr ∉ [Csr.cycle, Csr.time, Csr.instret, Csr.cycleh, Csr.timeh, Csr.instreth]) :
    m.readCsr csr = m.csrs csr := by
  simp only [List.mem_cons, List.not_mem_nil, or_false, not_or] at h
  obtain ⟨hcycle, htime, hinstret, hcycleh, htimeh, hinstreth⟩ := h
  rw [readCsr, if_neg hcycle, if_neg hcycleh, if_neg htime, if_neg htimeh, if_neg hinstret, if_neg hinstreth]

theorem readCsr_of_lt {csr : Word} (h : csr < Csr.readOnlyFrom) : m.readCsr csr = m.csrs csr := by
  apply readCsr_of_not_mem
  have hcounters : ∀ n ∈ [Csr.cycle, Csr.time, Csr.instret, Csr.cycleh, Csr.timeh, Csr.instreth],
      Csr.readOnlyFrom ≤ n := by
    simp only [List.forall_mem_cons, List.not_mem_nil, false_imp_iff, implies_true, and_true]
    decide
  exact fun hmem => absurd h (BitVec.not_lt.mpr (hcounters csr hmem))

/-- A CSR operation that succeeds sets its register to what the CSR held before. -/
theorem value_csr (h0 : m.reg 0 = 0) {op : Op} {rd : Register} {number : Int}
    (hdecode : (∃ rs1, Instruction.decode? w = some ⟨op, .csr rd number rs1⟩) ∨
      ∃ uimm, Instruction.decode? w = some ⟨op, .csri rd number uimm⟩)
    (hok : (m.execute w).2 = none) (hrd : rd ≠ .zero) :
    (m.execute w).1.value rd = m.readCsr (BitVec.ofInt 32 number) := by
  rcases hdecode with ⟨rs1, hdecode⟩ | ⟨uimm, hdecode⟩
  all_goals
    obtain ⟨hregister, hadmits, -⟩ := Instruction.valid_of_decode? hdecode nofun nofun
    rw [(execute_of_decode? h0 hdecode hok).2, readCsr_ofInt m hadmits]
    exact value_after rfl hrd hregister

/-- **The counters count the words since the last reset, and every other CSR holds what was written to it
last**, after every run. A CSR operation gets what the CSR held before it, so one that reads a counter does
not count itself. -/
theorem csrs_last_written (size : Nat) (acts : List Act) :
    let m := (ofSize size).run acts
    let executed := ((ofSize size).noted wordsExecuted [] acts).length
    let retired := ((ofSize size).noted wordsRetired [] acts).length
    let written := (ofSize size).noted csrsWritten [] acts
    (m.readCsr 0xC80).toNat * 2 ^ 32 + (m.readCsr 0xC00).toNat = executed % 2 ^ 64 ∧
    (m.readCsr 0xC82).toNat * 2 ^ 32 + (m.readCsr 0xC02).toNat = retired % 2 ^ 64 ∧
    (∀ w op rd number,
      ((∃ rs1, Instruction.decode? w = some ⟨op, .csr rd number rs1⟩) ∨
        ∃ uimm, Instruction.decode? w = some ⟨op, .csri rd number uimm⟩) →
      (m.execute w).2 = none → rd ≠ .zero →
        (m.execute w).1.value rd = m.readCsr (BitVec.ofInt 32 number)) ∧
    (∀ csr < 0xC00, m.readCsr csr = latest written csr) ∧
    ∀ csr, 0xC00 ≤ csr → csr ∉ [0xC00, 0xC01, 0xC02, 0xC80, 0xC81, 0xC82] → m.readCsr csr = 0 := by
  intro m executed retired written
  obtain ⟨hcycle, hinstret⟩ := counters_run size acts
  obtain ⟨hsound, hholds⟩ := holds_run size acts
  refine ⟨?_, ?_, ?_, ?_, ?_⟩
  · exact (halves_toNat m.cycle).trans hcycle
  · exact (halves_toNat m.instret).trans hinstret
  · exact fun w op rd number => value_csr hsound.zero
  · intro csr hcsr
    rw [readCsr_of_lt hcsr]
    exact hholds.latest csr
  · intro csr hreadOnly hcounter
    rw [readCsr_of_not_mem hcounter]
    exact hholds.readOnly csr hreadOnly

/-- A CSR written from outside and then by an instruction, and the cycle counter read after it. -/
theorem csrs_last_written_csrrs :
    let acts := [Act.writeCsr 0x340 5, .execute 0x340160F3]
    let m := (ofSize 4).run acts
    let written := (ofSize 4).noted csrsWritten [] acts
    Instruction.decode? 0xC0002173 = some ⟨.csrrs, .csr ⟨2⟩ 0xC00 .zero⟩ ∧
      (m.execute 0xC0002173).2 = none ∧ (⟨2⟩ : Register) ≠ .zero ∧
      (m.execute 0xC0002173).1.value ⟨2⟩ = m.readCsr (BitVec.ofInt 32 0xC00) ∧
      m.readCsr (BitVec.ofInt 32 0xC00) = 1 ∧
      (0x340 : Word) < 0xC00 ∧ m.readCsr 0x340 = latest written 0x340 ∧ latest written 0x340 = 7 ∧
      (0xC00 : Word) ≤ 0xC03 ∧ (0xC03 : Word) ∉ [0xC00, 0xC01, 0xC02, 0xC80, 0xC81, 0xC82] ∧
      m.readCsr 0xC03 = 0 := by
  intro acts m written
  have hdecode : Instruction.decode? 0xC0002173 = some ⟨.csrrs, .csr ⟨2⟩ 0xC00 .zero⟩ := by decide
  have hok : (m.execute 0xC0002173).2 = none := by decide
  have hrd : (⟨2⟩ : Register) ≠ .zero := by decide
  have hcounter : (0xC03 : Word) ∉ [0xC00, 0xC01, 0xC02, 0xC80, 0xC81, 0xC82] := by decide
  obtain ⟨-, -, hread, hlatest, hreadOnly⟩ := csrs_last_written 4 acts
  exact ⟨hdecode, hok, hrd, hread _ _ _ _ (.inl ⟨_, hdecode⟩) hok hrd, by decide, by decide,
    hlatest _ (by decide), by decide, by decide, hcounter, hreadOnly _ (by decide) hcounter⟩

end Machine

end RvConsole
