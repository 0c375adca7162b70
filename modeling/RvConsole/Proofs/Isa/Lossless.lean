import RvConsole.Proofs.Isa.Reading
import RvConsole.Proofs.Isa.Placement

/-! Placing never loses bits unnoticed.

A field takes a value in one of two ways (`Field.intake`). Most take it as a whole: the value is moved up to the field's
offset in twice the width of a word, where nothing falls off the top, so the test against the mask sees every bit of it
(`shifted_within_iff`) and a value that is too large fails. The immediates of the wide formats cut the bits out that
their format keeps and never fail. What they place is the kept bits and nothing else (`bits_eq_iff`), so values that
the kind admits are never confused (`place_lossless`). -/
namespace RvConsole

/-- How a field takes a value. -/
inductive Intake where
  /-- As a whole, moved up to the lowest bit of the field. -/
  | whole (offset : Nat)
  /-- The bits of the value from one place up to another, wherever they stand in the word. -/
  | cut (low high : Nat)
  deriving DecidableEq, Repr

namespace Field

def intake : Field → Intake
  | opcode => .whole 0
  | funct3 => .whole 12
  | funct7 => .whole 25
  | fm => .whole 28
  | pred => .whole 24
  | succ => .whole 20
  | rd => .whole 7
  | rs1 => .whole 15
  | rs2 => .whole 20
  | imm .u => .cut 0 19
  | imm .i => .cut 0 11
  | imm .s => .cut 0 11
  | imm .b => .cut 1 12
  | imm .j => .cut 1 20
  | imm .shift => .whole 20
  | imm .csr => .whole 20
  | imm .uimm => .whole 15

variable {field : Field} {offset width low high : Nat} {v v' : Word}

/-! ### Values taken as a whole -/

theorem and_not_eq_zero_iff {n : Nat} (a m : BitVec n) : a &&& ~~~m = 0 ↔ a &&& m = a := by
  constructor
  · intro h
    have hsplit : a &&& m ||| a &&& ~~~m = a := by
      rw [← BitVec.and_or_distrib_left, BitVec.or_not_self, BitVec.and_allOnes]
    rw [h] at hsplit
    simpa using hsplit
  · intro h
    rw [← h, BitVec.and_assoc, BitVec.and_not_self]
    exact BitVec.and_zero

/-- A word moved up in twice its width loses nothing. -/
theorem toNat_shifted (hoffset : offset ≤ 32) (v : Word) :
    (v.zeroExtend 64 <<< offset).toNat = v.toNat <<< offset := by
  have hpow : 2 ^ offset ≤ 2 ^ 32 := Nat.pow_le_pow_right (by decide) hoffset
  have hlt : v.toNat <<< offset < 2 ^ 64 := by
    rw [Nat.shiftLeft_eq]
    calc v.toNat * 2 ^ offset < 2 ^ 32 * 2 ^ offset := Nat.mul_lt_mul_of_pos_right v.isLt (Nat.two_pow_pos _)
      _ ≤ 2 ^ 32 * 2 ^ 32 := Nat.mul_le_mul_left _ hpow
      _ = 2 ^ 64 := by norm_num
  have hwide : (v.zeroExtend 64).toNat = v.toNat := BitVec.toNat_setWidth_of_le (by decide)
  rw [BitVec.toNat_shiftLeft, hwide, Nat.mod_eq_of_lt hlt]

/-- **The test against the mask is the test against the width.** -/
theorem shifted_within_iff (hoffset : offset ≤ 32) {mask : Word} (hmask : mask.toNat = (2 ^ width - 1) <<< offset)
    (v : Word) : v.zeroExtend 64 <<< offset &&& ~~~mask.zeroExtend 64 = 0 ↔ v.toNat < 2 ^ width := by
  have hwide : (mask.zeroExtend 64).toNat = (2 ^ width - 1) <<< offset :=
    (BitVec.toNat_setWidth_of_le (by decide)).trans hmask
  have hinj : Function.Injective fun n : Nat => n <<< offset := by
    intro a b h
    simpa using congrArg (· >>> offset) h
  calc v.zeroExtend 64 <<< offset &&& ~~~mask.zeroExtend 64 = 0
      ↔ v.zeroExtend 64 <<< offset &&& mask.zeroExtend 64 = v.zeroExtend 64 <<< offset := and_not_eq_zero_iff _ _
    _ ↔ (v.toNat % 2 ^ width) <<< offset = v.toNat <<< offset := by
      rw [← BitVec.toNat_inj, BitVec.toNat_and, toNat_shifted hoffset, hwide, ← Nat.shiftLeft_and_distrib,
        Nat.and_two_pow_sub_one_eq_mod]
    _ ↔ v.toNat % 2 ^ width = v.toNat := hinj.eq_iff
    _ ↔ v.toNat < 2 ^ width := Nat.mod_eq_iff_lt (Nat.two_pow_pos width).ne'

/-- A field that takes values as a whole moves them to its offset, where its mask has as many bits as it is wide. -/
theorem whole_eq (h : field.intake = .whole offset) :
    offset ≤ 32 ∧ field.mask.toNat = (2 ^ field.width - 1) <<< offset ∧
      ∀ v, field.scatter v = v.zeroExtend 64 <<< offset := by
  cases field with
  | imm kind =>
    cases kind with
    | shift | csr | uimm =>
      obtain rfl := Intake.whole.inj h
      exact ⟨by decide, by decide, fun _ => rfl⟩
    | u | j | i | s | b => cases h
  | opcode =>
    obtain rfl := Intake.whole.inj h
    exact ⟨by decide, by decide, fun v => (BitVec.shiftLeft_zero (v.zeroExtend 64)).symm⟩
  | _ =>
    obtain rfl := Intake.whole.inj h
    exact ⟨by decide, by decide, fun _ => rfl⟩

/-- A value that is too large is refused with the bits it would have had. -/
theorem place_of_large (h : field.intake = .whole offset) (hv : 2 ^ field.width ≤ v.toNat) :
    field.place v = .error ⟨v.zeroExtend 64 <<< offset, field.mask⟩ := by
  obtain ⟨hoffset, hmask, hscatter⟩ := whole_eq h
  have htest := (shifted_within_iff hoffset hmask v).not.mpr (not_lt.mpr hv)
  simp only [place, hscatter, if_neg htest]

/-- A value below the width stands in the word at the field's offset. -/
theorem place_of_small (h : field.intake = .whole offset) (hv : v.toNat < 2 ^ field.width) :
    ∃ w, field.place v = .ok w ∧ w &&& field.mask = w ∧ w >>> offset = v := by
  obtain ⟨hoffset, hmask, hscatter⟩ := whole_eq h
  have htest := (shifted_within_iff hoffset hmask v).mpr hv
  have hwithin := (and_not_eq_zero_iff _ _).mp htest
  refine ⟨(v.zeroExtend 64 <<< offset).truncate 32, ?_, ?_, ?_⟩
  · simp only [place, hscatter, if_pos htest]
  · have hmask : (field.mask.zeroExtend 64).truncate 32 = field.mask := by simp
    rw [← hmask, ← BitVec.setWidth_and, hwithin]
  · -- what is inside the mask is inside the word, so the upper half is empty
    have hlt : v.toNat <<< offset < 2 ^ 32 := by
      rw [← toNat_shifted hoffset, ← hwithin, BitVec.toNat_and]
      refine Nat.and_lt_two_pow _ ?_
      rw [BitVec.toNat_setWidth_of_le (by decide)]
      exact field.mask.isLt
    apply BitVec.eq_of_toNat_eq
    rw [BitVec.toNat_ushiftRight, BitVec.toNat_setWidth, toNat_shifted hoffset, Nat.mod_eq_of_lt hlt,
      Nat.shiftLeft_shiftRight]

/-! ### Values of which bits are cut out -/

/-- The bits of a word from one place up to another. -/
def span (low high : Nat) : Word := BitVec.allOnes 32 <<< low &&& BitVec.allOnes 32 >>> (31 - high)

theorem getLsbD_span (hhigh : high < 32) (k : Nat) :
    (span low high).getLsbD k = decide (low ≤ k ∧ k ≤ high) := by
  rw [Bool.eq_iff_iff]
  simp only [span, BitVec.getLsbD_and, BitVec.getLsbD_shiftLeft, BitVec.getLsbD_ushiftRight, BitVec.getLsbD_allOnes,
    Bool.and_eq_true, Bool.not_eq_true', decide_eq_true_eq, decide_eq_false_iff_not]
  omega

theorem and_span_eq_iff (hhigh : high < 32) :
    v &&& span low high = v' &&& span low high ↔ ∀ k, low ≤ k → k ≤ high → v.getLsbD k = v'.getLsbD k := by
  constructor
  · intro h k hlow hk
    have hbit := congrArg (BitVec.getLsbD · k) h
    simpa [getLsbD_span hhigh, hlow, hk] using hbit
  · intro h
    apply BitVec.eq_of_getLsbD_eq
    intro k _
    rw [BitVec.getLsbD_and, BitVec.getLsbD_and, getLsbD_span hhigh]
    by_cases hk : low ≤ k ∧ k ≤ high
    · rw [h k hk.1 hk.2]
    · rw [decide_eq_false hk, Bool.and_false, Bool.and_false]

/-- Of a single bit, what is cut out stays inside the mask, and it is the bit itself if it is kept. -/
theorem cut_twoPow (h : field.intake = .cut low high) :
    high < 32 ∧ ∀ i : Fin 32, field.scatter (BitVec.twoPow 32 i) &&& ~~~field.mask.zeroExtend 64 = 0 ∧
      field.keep (BitVec.twoPow 32 i) &&& span low high = BitVec.twoPow 32 i &&& span low high ∧
      field.keep (BitVec.twoPow 32 i &&& span low high) = field.keep (BitVec.twoPow 32 i) := by
  cases field with
  | imm kind =>
    cases kind with
    | u | i | s | b | j =>
      obtain ⟨rfl, rfl⟩ := Intake.cut.inj h
      decide +kernel
    | shift | csr | uimm => cases h
  | _ => cases h

/-- What is cut out always fits. -/
theorem place_of_cut (h : field.intake = .cut low high) (v : Word) :
    field.place v = .ok (field.bits v) ∧ field.bits v &&& field.mask = field.bits v := by
  have hzero : Wiring fun _ : Word => (0 : BitVec 64) := ⟨rfl, fun _ _ => rfl⟩
  have htest := Wiring.ext (.and (wiring_scatter field) _) hzero (fun i => ((cut_twoPow h).2 i).1) v
  refine ⟨by simp only [place, if_pos htest, bits], ?_⟩
  have hmask : (field.mask.zeroExtend 64).truncate 32 = field.mask := by simp
  rw [bits, ← hmask, ← BitVec.setWidth_and, (and_not_eq_zero_iff _ _).mp htest]

/-- What is left of a value that is cut is its kept bits. -/
theorem keep_eq_iff (h : field.intake = .cut low high) :
    field.keep v = field.keep v' ↔ v &&& span low high = v' &&& span low high := by
  have hkept (v : Word) : field.keep v &&& span low high = v &&& span low high :=
    Wiring.ext (.and (wiring_keep field) _) (.and .id _) (fun i => ((cut_twoPow h).2 i).2.1) v
  have hkeep (v : Word) : field.keep (v &&& span low high) = field.keep v :=
    Wiring.ext (.comp (wiring_keep field) (.and .id _)) (wiring_keep field) (fun i => ((cut_twoPow h).2 i).2.2) v
  constructor
  · intro heq
    rw [← hkept, heq, hkept]
  · intro heq
    rw [← hkeep, heq, hkeep]

/-- **Values stand in a word alike exactly if they agree on the bits that are kept.** -/
theorem bits_eq_iff (h : field.intake = .cut low high) :
    field.bits v = field.bits v' ↔ ∀ k, low ≤ k → k ≤ high → v.getLsbD k = v'.getLsbD k := by
  rw [← and_span_eq_iff (cut_twoPow h).1, ← keep_eq_iff h]
  constructor
  · intro heq
    rw [← gather_bits, heq, gather_bits]
  · intro heq
    rw [← (place_of_cut h v).2, ← bits_gather, gather_bits, heq, ← gather_bits, bits_gather, (place_of_cut h v').2]

/-- Values that a kind admits are not confused. -/
theorem place_injective {kind : ImmKind} {a b : Int} (ha : kind.Admits a) (hb : kind.Admits b)
    (h : (imm kind).place (Instruction.wordOf a) = (imm kind).place (Instruction.wordOf b)) : a = b := by
  rw [place_of_fits (fits_wordOf ha), place_of_fits (fits_wordOf hb), Except.ok.injEq] at h
  rw [← toInt_wordOf ha, ← toInt_wordOf hb, ← gather_bits_of_fits (fits_wordOf ha), h,
    gather_bits_of_fits (fits_wordOf hb)]

end Field

/-- **Placing loses no bit unnoticed.** A field that takes values as a whole has a mask of its width at its offset. It
refuses a value exactly if the value, without a sign, is not below the width, and otherwise gives a word inside the mask
that is the value again when it is moved down. A field that cuts bits out takes every value, stays inside its mask, and
gives two values the same word exactly if they agree on the bits that it keeps; so values that the kind admits and that
are placed alike are the same. -/
theorem place_lossless (field : Field) (v : Word) :
    (∀ offset, field.intake = .whole offset →
      field.mask.toNat = (2 ^ field.width - 1) <<< offset ∧
      ((∃ misfit, field.place v = .error misfit) ↔ 2 ^ field.width ≤ v.toNat) ∧
      (v.toNat < 2 ^ field.width → ∃ w, field.place v = .ok w ∧ w &&& field.mask = w ∧ w >>> offset = v)) ∧
    (∀ low high, field.intake = .cut low high →
      (∃ w, field.place v = .ok w ∧ w &&& field.mask = w) ∧
      ∀ v', field.place v = field.place v' ↔ ∀ k, low ≤ k → k ≤ high → v.getLsbD k = v'.getLsbD k) ∧
    ∀ kind, field = .imm kind → ∀ a b, kind.check a = .ok a → kind.check b = .ok b →
      field.place (Instruction.wordOf a) = field.place (Instruction.wordOf b) → a = b := by
  refine ⟨fun offset h => ⟨(Field.whole_eq h).2.1, ?_, Field.place_of_small h⟩,
    fun low high h => ⟨?_, fun v' => ?_⟩, ?_⟩
  · constructor
    · intro hrefused
      obtain ⟨misfit, hplace⟩ := hrefused
      by_contra hv
      obtain ⟨w, hw, -⟩ := Field.place_of_small h (not_le.mp hv)
      rw [hw] at hplace
      cases hplace
    · intro hv
      exact ⟨_, Field.place_of_large h hv⟩
  · exact ⟨_, Field.place_of_cut h v⟩
  · rw [(Field.place_of_cut h v).1, (Field.place_of_cut h v').1, Except.ok.injEq, Field.bits_eq_iff h]
  · intro kind hfield a b ha hb h
    subst hfield
    exact Field.place_injective (ImmKind.check_eq_ok.mp ha).2 (ImmKind.check_eq_ok.mp hb).2 h

/-- A fence's mode stands at the top of the word, where it has no room to spare. A shift by minus one is refused, and a
branch takes an odd offset past its range for the offset with the same kept bits. The ends of a branch's own range are
kept apart. -/
theorem place_lossless_edges :
    (Field.fm.intake = .whole 28 ∧ (∃ misfit, Field.fm.place 0x10 = .error misfit) ∧
      ∃ w, Field.fm.place 0xF = .ok w ∧ w &&& Field.fm.mask = w ∧ w >>> 28 = 0xF) ∧
    ((Field.imm .shift).intake = .whole 20 ∧ ∃ misfit, (Field.imm .shift).place (-1) = .error misfit) ∧
    ((Field.imm .b).intake = .cut 1 12 ∧ (Field.imm .b).place 0x1001 = (Field.imm .b).place 0xFFFFF000) ∧
    (ImmKind.b.check (-4096) = .ok (-4096) ∧ ImmKind.b.check 4094 = .ok 4094 ∧
      (Field.imm .b).place (Instruction.wordOf (-4096)) ≠ (Field.imm .b).place (Instruction.wordOf 4094)) := by
  have hmode := ((place_lossless .fm 0x10).1 28 rfl).2.1.mpr (by decide)
  have htop := ((place_lossless .fm 0xF).1 28 rfl).2.2 (by decide)
  have hamount := ((place_lossless (.imm .shift) (-1)).1 20 rfl).2.1.mpr (by decide)
  have hagree : ∀ k, 1 ≤ k → k ≤ 12 → (0x1001 : Word).getLsbD k = (0xFFFFF000 : Word).getLsbD k := by
    intro k hlow hhigh
    interval_cases k <;> rfl
  have hodd := (((place_lossless (.imm .b) 0x1001).2.1 1 12 rfl).2 0xFFFFF000).mpr hagree
  have hends := (place_lossless (.imm .b) 0).2.2 .b rfl (-4096) 4094 rfl rfl
  exact ⟨⟨rfl, hmode, htop⟩, ⟨rfl, hamount⟩, ⟨rfl, hodd⟩, rfl, rfl, fun h => absurd (hends h) (by decide)⟩

end RvConsole
