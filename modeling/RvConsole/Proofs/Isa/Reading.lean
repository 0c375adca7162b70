import RvConsole.Isa.Assemble
import RvConsole.Proofs.Isa.Decoding

/-! Whatever is read is well formed.

Every reader of an operand checks what it reads: a register is one of those there are, an immediate is
admitted by its kind, an access set has four bits. So every line that is read is read as a well-formed
instruction (`wellFormed_of_assemble`). -/
namespace RvConsole

theorem bind_eq_ok {ε α β : Type} {x : Except ε α} {f : α → Except ε β} {b : β} :
    x >>= f = .ok b ↔ ∃ a, x = .ok a ∧ f a = .ok b := by
  cases x with
  | error e => exact ⟨nofun, nofun⟩
  | ok a => exact ⟨fun h => ⟨a, rfl, h⟩, fun ⟨_, ha, h⟩ => Except.ok.inj ha ▸ h⟩

theorem map_eq_ok {ε α β : Type} {x : Except ε α} {f : α → β} {b : β} :
    x.map f = .ok b ↔ ∃ a, x = .ok a ∧ f a = b := by
  cases x <;> simp [Except.map]

theorem map_eq_error {ε α β : Type} {x : Except ε α} {f : α → β} {e : ε} :
    x.map f = .error e ↔ x = .error e := by
  cases x <;> simp [Except.map]

theorem argument_eq_ok {α : Type} {index : Nat} {r : Except OperandError α} {a : α} :
    argument index r = .ok a ↔ r = .ok a := by
  cases r <;> simp [argument]

/-! ### Registers -/

namespace Register
variable {token : Text} {r : Register}

theorem isRegister_of_family {family : Family} {n : Nat} (h : family.parse n = .ok r) :
    Operands.IsRegister r := by
  simp only [Family.parse] at h
  split_ifs at h with hcount hregister
  obtain rfl := Except.ok.inj h
  have hlt : family.register n < registerCount := not_le.mp hregister
  show family.register n % 2 ^ 32 < registerCount
  exact lt_of_le_of_lt (Nat.mod_le _ _) hlt

theorem isRegister_of_parse (h : parse token = .ok r) : Operands.IsRegister r := by
  unfold parse at h
  split at h
  case h_1 index hindex =>
    obtain rfl := Except.ok.inj h
    have hmem : ∀ p ∈ aliases, Operands.IsRegister ⟨BitVec.ofNat 32 p.2⟩ := by decide
    obtain ⟨before, rest, haliases, -⟩ := List.lookup_eq_some_iff.mp hindex
    exact hmem (token, index) (haliases ▸ List.mem_append_right before List.mem_cons_self)
  case h_2 =>
    split at h
    · exact isRegister_of_family h
    · cases h

end Register

/-! ### Immediates -/

namespace ImmKind
variable {kind : ImmKind} {token : Text} {v u : Int}

theorem check_eq_ok : kind.check v = .ok u ↔ v = u ∧ kind.Admits v := by
  simp only [check, Admits]
  split_ifs with hrange hodd
  · simp only [false_iff, not_and]
    omega
  · simp only [false_iff, not_and]
    tauto
  · have hadmits : kind.Admits v := by
      refine ⟨by omega, by omega, fun heven => ?_⟩
      by_contra hv
      exact hodd ⟨heven, hv⟩
    rw [Except.ok.injEq]
    exact (and_iff_left hadmits).symm

theorem admits_of_parse (h : kind.parse token = .ok v) : kind.Admits v := by
  unfold parse at h
  split at h
  · obtain ⟨rfl, hv⟩ := check_eq_ok.mp h
    exact hv
  · split at h
    · obtain ⟨rfl, hv⟩ := check_eq_ok.mp h
      exact hv
    · cases h

end ImmKind

namespace MemoryOperand
variable {kind : ImmKind} {token : Text}

theorem admits_of_parseOffset {v : Int} (h0 : kind.Admits 0) (h : parseOffset kind token = .ok v) :
    kind.Admits v := by
  unfold parseOffset at h
  split at h
  · obtain rfl := Except.ok.inj h
    exact h0
  · exact ImmKind.admits_of_parse h

theorem valid_of_parse {operand : MemoryOperand} (h0 : kind.Admits 0) (h : parse kind token = .ok operand) :
    Operands.IsRegister operand.base ∧ kind.Admits operand.offset := by
  unfold parse at h
  dsimp only at h
  split at h
  · obtain ⟨base, hbase, h⟩ := bind_eq_ok.mp h
    obtain rfl := Except.ok.inj h
    exact ⟨Register.isRegister_of_parse hbase, h0⟩
  · split at h
    · cases h
    · split at h
      · cases h
      · obtain ⟨base, hbase, h⟩ := bind_eq_ok.mp h
        obtain ⟨offset, hoffset, h⟩ := bind_eq_ok.mp h
        obtain rfl := Except.ok.inj h
        exact ⟨Register.isRegister_of_parse hbase, admits_of_parseOffset h0 hoffset⟩
      · cases h

end MemoryOperand

/-! ### Access sets -/

namespace Order

theorem take_and (mask : Word) {accesses : List (UInt8 × Word)} {token : Text} {bits : Word}
    (hbits : bits &&& mask = bits) (haccesses : ∀ access ∈ accesses, access.2 &&& mask = access.2) :
    (take accesses token bits).1 &&& mask = (take accesses token bits).1 := by
  fun_induction take accesses token bits with
  | case1 bits letter bit rest token ih =>
    obtain ⟨hbit, hrest⟩ := List.forall_mem_cons.mp haccesses
    exact ih (by rw [BitVec.and_or_distrib_right, hbits, hbit]) hrest
  | case2 bits letter bit rest b token _ ih =>
    exact ih hbits (List.forall_mem_cons.mp haccesses).2
  | case3 => exact hbits

theorem lt_of_parse {token : Text} {bits : Word} (h : parse token = .ok bits) : bits.toNat < 16 := by
  have hmask : (take accesses token 0).1 &&& all = (take accesses token 0).1 :=
    take_and all rfl (by simp [accesses, all])
  unfold parse at h
  split at h
  case h_1 taken htaken =>
    obtain rfl := Except.ok.inj h
    rw [htaken] at hmask
    have hle : (taken &&& all).toNat ≤ all.toNat := by
      rw [BitVec.toNat_and]
      exact Nat.and_le_right
    rw [hmask] at hle
    exact Nat.lt_succ_of_le hle
  case h_2 => cases h

end Order

/-! ### Lines -/

/-- The arguments of an operation are read as valid operands of its shape. -/
theorem Op.wellFormed_of_readOperands {op : Op} {args : List Text} {operands : Operands}
    (h : op.readOperands args = .ok operands) : Instruction.WellFormed ⟨op, operands⟩ := by
  have hreg := @Register.isRegister_of_parse
  have himm := @ImmKind.admits_of_parse
  unfold Op.readOperands at h
  split at h
  case h_1 hs | h_2 hs =>
    simp only [bind_eq_ok, argument_eq_ok] at h
    obtain ⟨rd, hrd, imm, hparse, h⟩ := h
    obtain rfl := Except.ok.inj h
    exact ⟨hs.symm, ⟨hreg hrd, himm hparse⟩, nofun⟩
  case h_3 hs | h_6 hs | h_8 hs =>
    simp only [bind_eq_ok, argument_eq_ok] at h
    obtain ⟨r, hr, s, hs', imm, hparse, h⟩ := h
    obtain rfl := Except.ok.inj h
    exact ⟨hs.symm, ⟨hreg hr, hreg hs', himm hparse⟩, nofun⟩
  case h_4 hs =>
    simp only [bind_eq_ok, argument_eq_ok] at h
    obtain ⟨rd, hrd, memory, hmemory, h⟩ := h
    obtain rfl := Except.ok.inj h
    exact ⟨hs.symm, ⟨hreg hrd, MemoryOperand.valid_of_parse (by decide) hmemory⟩, nofun⟩
  case h_5 hs =>
    simp only [bind_eq_ok, argument_eq_ok] at h
    obtain ⟨rs2, hrs2, memory, hmemory, h⟩ := h
    obtain rfl := Except.ok.inj h
    obtain ⟨hbase, hoffset⟩ := MemoryOperand.valid_of_parse (by decide) hmemory
    exact ⟨hs.symm, ⟨hbase, hreg hrs2, hoffset⟩, nofun⟩
  case h_7 hs =>
    simp only [bind_eq_ok, argument_eq_ok] at h
    obtain ⟨rd, hrd, rs1, hrs1, rs2, hrs2, h⟩ := h
    obtain rfl := Except.ok.inj h
    exact ⟨hs.symm, ⟨hreg hrd, hreg hrs1, hreg hrs2⟩, nofun⟩
  case h_9 hs =>
    obtain rfl := Except.ok.inj h
    exact ⟨hs.symm, ⟨by decide, by decide, rfl⟩, nofun⟩
  case h_10 hs =>
    simp only [bind_eq_ok, argument_eq_ok] at h
    obtain ⟨pred, hpred, succ, hsucc, h⟩ := h
    obtain rfl := Except.ok.inj h
    exact ⟨hs.symm, ⟨Order.lt_of_parse hpred, Order.lt_of_parse hsucc, rfl⟩, nofun⟩
  case h_11 hs =>
    simp only [bind_eq_ok, argument_eq_ok] at h
    obtain ⟨rd, hrd, number, hnumber, rs1, hrs1, h⟩ := h
    obtain rfl := Except.ok.inj h
    exact ⟨hs.symm, ⟨hreg hrd, himm hnumber, hreg hrs1⟩, nofun⟩
  case h_12 hs =>
    simp only [bind_eq_ok, argument_eq_ok] at h
    obtain ⟨rd, hrd, number, hnumber, uimm, huimm, h⟩ := h
    obtain rfl := Except.ok.inj h
    exact ⟨hs.symm, ⟨hreg hrd, himm hnumber, himm huimm⟩, nofun⟩
  case h_13 hs =>
    obtain rfl := Except.ok.inj h
    refine ⟨hs.symm, op.admits_imm, ?_⟩
    rintro imm himm
    exact (Operands.system.inj himm).symm
  -- what is left is a wrong number of arguments
  all_goals cases h

theorem Mnemonic.wellFormed_of_read {mnemonic : Mnemonic} {args : List Text} {inst : Instruction}
    (h : mnemonic.read args = .ok inst) : inst.WellFormed := by
  unfold Mnemonic.read at h
  split at h
  case h_1 op args =>
    obtain ⟨operands, hoperands, h⟩ := bind_eq_ok.mp h
    obtain rfl := Except.ok.inj h
    exact Op.wellFormed_of_readOperands hoperands
  case h_2 rd imm =>
    simp only [bind_eq_ok, argument_eq_ok] at h
    obtain ⟨rd, hrd, imm, himm, h⟩ := h
    obtain rfl := Except.ok.inj h
    exact ⟨rfl, ⟨Register.isRegister_of_parse hrd, by decide, ImmKind.admits_of_parse himm⟩, nofun⟩
  case h_4 =>
    obtain rfl := Except.ok.inj h
    exact ⟨rfl, ⟨by decide, by decide, by decide⟩, nofun⟩
  all_goals cases h

/-- **What a line is read as is well formed.** -/
theorem wellFormed_of_assemble {line : Text} {inst : Instruction} (h : assemble line = .ok inst) :
    inst.WellFormed := by
  unfold assemble at h
  dsimp only at h
  split at h
  · cases h
  · exact Mnemonic.wellFormed_of_read h

end RvConsole
