import RvConsole.Proofs.Isa.Reading

/-! What an assembled word holds.

The fields of an instruction share no bit and leave none of the word out. So the word holds each field as it
was placed, the machine takes every operand out of it again (`fields_of_assembled`), and no other instruction
has the same word (`encode_eq_iff_of_assembled`). -/
namespace RvConsole

/-! ### Numbers in a word -/

/-- A number of five bits in a word, by a shift and a mask. -/
theorem setWidth_extractLsb'_five (w : Word) (low : Nat) :
    (w.extractLsb' low 5).setWidth 32 = (w >>> low) &&& 31 := by
  have hmask : (31 : Word) = (BitVec.allOnes 5).setWidth 32 := by decide
  apply BitVec.eq_of_getLsbD_eq
  intro i hi
  rw [hmask, BitVec.getLsbD_and, BitVec.getLsbD_ushiftRight, BitVec.getLsbD_setWidth,
    BitVec.getLsbD_setWidth, BitVec.getLsbD_extractLsb', BitVec.getLsbD_allOnes]
  simp [hi, Bool.and_comm]

/-- The machine finds a number in the five bits from `low` on, which it takes as `taken`. -/
structure FoundAt (w : Word) (low : Nat) (taken : BitVec 5) (v : Int) : Prop where
  taken_eq : taken.toNat = v
  masked_eq : ((w >>> low) &&& 31).toNat = v

theorem foundAt_extract {w v : Word} {low : Nat} (h : (w.extractLsb' low 5).setWidth 32 = v) :
    FoundAt w low (w.extractLsb' low 5) v.toNat := by
  constructor
  · rw [← h, BitVec.toNat_setWidth_of_le (by decide)]
  · rw [← setWidth_extractLsb'_five, h]

/-- The word of a value that is not negative is the value. -/
theorem Field.toNat_wordOf {kind : ImmKind} {v : Int} (h : kind.Admits v) (h0 : 0 ≤ v) :
    (Instruction.wordOf v).toNat = v := by
  have hint := toInt_wordOf h
  rw [BitVec.toInt_eq_toNat_cond] at hint
  have hlt := (Instruction.wordOf v).isLt
  split at hint <;> omega

/-! ### Operands -/

namespace Operands

/-- The machine finds the operands in a word, each by the extraction that belongs to it. -/
def FoundIn (w : Word) : Operands → Prop
  | u rd imm =>
    FoundAt w 7 (Extract.rd w) rd.index.toNat ∧ Extract.immU w = Instruction.wordOf imm <<< 12
  | j rd imm => FoundAt w 7 (Extract.rd w) rd.index.toNat ∧ (Extract.immJ w).toInt = imm
  | i rd rs1 imm | load rd rs1 imm =>
    FoundAt w 7 (Extract.rd w) rd.index.toNat ∧ FoundAt w 15 (Extract.rs1 w) rs1.index.toNat ∧
      (Extract.immI w).toInt = imm
  | s rs1 rs2 imm =>
    FoundAt w 15 (Extract.rs1 w) rs1.index.toNat ∧ FoundAt w 20 (Extract.rs2 w) rs2.index.toNat ∧
      (Extract.immS w).toInt = imm
  | b rs1 rs2 imm =>
    FoundAt w 15 (Extract.rs1 w) rs1.index.toNat ∧ FoundAt w 20 (Extract.rs2 w) rs2.index.toNat ∧
      (Extract.immB w).toInt = imm
  | r rd rs1 rs2 =>
    FoundAt w 7 (Extract.rd w) rd.index.toNat ∧ FoundAt w 15 (Extract.rs1 w) rs1.index.toNat ∧
      FoundAt w 20 (Extract.rs2 w) rs2.index.toNat
  | shift rd rs1 shamt =>
    FoundAt w 7 (Extract.rd w) rd.index.toNat ∧ FoundAt w 15 (Extract.rs1 w) rs1.index.toNat ∧
      FoundAt w 20 (Extract.shamt w) shamt
  -- the machine does not look at the access sets; they stand in the top twelve bits
  | fence pred succ fm =>
    FoundAt w 7 (Extract.rd w) 0 ∧ FoundAt w 15 (Extract.rs1 w) 0 ∧ (w >>> 20) &&& 15 = succ ∧
      (w >>> 24) &&& 15 = pred ∧ w >>> 28 = fm
  | csr rd number rs1 =>
    FoundAt w 7 (Extract.rd w) rd.index.toNat ∧ FoundAt w 15 (Extract.rs1 w) rs1.index.toNat ∧
      (Extract.csr w).toNat = number
  | csri rd number uimm =>
    FoundAt w 7 (Extract.rd w) rd.index.toNat ∧ FoundAt w 15 (Extract.rs1 w) uimm ∧
      (Extract.csr w).toNat = number
  | system imm =>
    FoundAt w 7 (Extract.rd w) 0 ∧ FoundAt w 15 (Extract.rs1 w) 0 ∧ (Extract.immI w).toInt = imm

end Operands

namespace Field
variable {w v : Word}

theorem foundAt_rd (h : rd.gather w = v) : FoundAt w 7 (Extract.rd w) v.toNat := foundAt_extract h

theorem foundAt_rs1 (h : rs1.gather w = v) : FoundAt w 15 (Extract.rs1 w) v.toNat := foundAt_extract h

theorem foundAt_rs2 (h : rs2.gather w = v) : FoundAt w 20 (Extract.rs2 w) v.toNat := foundAt_extract h

/-- The upper immediate stands where `lui` puts it. -/
theorem immU_eq (h : (imm .u).gather w = v) : Extract.immU w = v <<< 12 := by
  rw [← h]
  exact Wiring.ext (F := Extract.immU) (G := fun w => Extract.immU w >>> 12 <<< 12) (.and .id _)
    (.shiftLeft (.ushiftRight (.and .id _) 12) 12) (by decide +kernel) w

theorem toInt_gather {kind : ImmKind} {n : Int} (hn : kind.Admits n)
    (h : (imm kind).gather w = Instruction.wordOf n) : ((imm kind).gather w).toInt = n := by
  rw [h, toInt_wordOf hn]

end Field

namespace Instruction
variable {inst : Instruction}

/-- **The machine finds every operand of an instruction in its word.** -/
theorem foundIn_word (h : inst.operands.Valid) : inst.operands.FoundIn inst.word := by
  have hgather : ∀ p ∈ inst.fields, p.1.gather inst.word = p.2 := fun p hp => gather_word h hp
  generalize inst.word = w at hgather
  rcases inst with ⟨op, operands⟩
  cases operands with
  | u rd imm =>
    simp only [fields, List.forall_mem_cons] at hgather
    obtain ⟨-, hrd, himm, -⟩ := hgather
    exact ⟨Field.foundAt_rd hrd, Field.immU_eq himm⟩
  | j rd imm =>
    simp only [fields, List.forall_mem_cons] at hgather
    obtain ⟨-, hrd, himm, -⟩ := hgather
    exact ⟨Field.foundAt_rd hrd, Field.toInt_gather h.2 himm⟩
  | i rd rs1 imm | load rd rs1 imm =>
    simp only [fields, List.forall_mem_cons] at hgather
    obtain ⟨-, hrd, -, hrs1, himm, -⟩ := hgather
    exact ⟨Field.foundAt_rd hrd, Field.foundAt_rs1 hrs1, Field.toInt_gather h.2.2 himm⟩
  | s rs1 rs2 imm | b rs1 rs2 imm =>
    simp only [fields, List.forall_mem_cons] at hgather
    obtain ⟨-, -, hrs1, hrs2, himm, -⟩ := hgather
    exact ⟨Field.foundAt_rs1 hrs1, Field.foundAt_rs2 hrs2, Field.toInt_gather h.2.2 himm⟩
  | r rd rs1 rs2 =>
    simp only [fields, List.forall_mem_cons] at hgather
    obtain ⟨-, hrd, -, hrs1, hrs2, -⟩ := hgather
    exact ⟨Field.foundAt_rd hrd, Field.foundAt_rs1 hrs1, Field.foundAt_rs2 hrs2⟩
  | shift rd rs1 shamt =>
    simp only [fields, List.forall_mem_cons] at hgather
    obtain ⟨-, hrd, -, hrs1, hshamt, -⟩ := hgather
    refine ⟨Field.foundAt_rd hrd, Field.foundAt_rs1 hrs1, ?_⟩
    rw [← Field.toNat_wordOf h.2.2 h.2.2.1]
    exact foundAt_extract hshamt
  | fence pred succ fm =>
    simp only [fields, List.forall_mem_cons] at hgather
    obtain ⟨-, hrd, -, hrs1, hsucc, hpred, hfm, -⟩ := hgather
    exact ⟨Field.foundAt_rd hrd, Field.foundAt_rs1 hrs1, hsucc, hpred, hfm⟩
  | csr rd number rs1 =>
    simp only [fields, List.forall_mem_cons] at hgather
    obtain ⟨-, hrd, -, hrs1, hnumber, -⟩ := hgather
    refine ⟨Field.foundAt_rd hrd, Field.foundAt_rs1 hrs1, ?_⟩
    rw [← Field.toNat_wordOf h.2.1 h.2.1.1, ← hnumber]
    rfl
  | csri rd number uimm =>
    simp only [fields, List.forall_mem_cons] at hgather
    obtain ⟨-, hrd, -, huimm, hnumber, -⟩ := hgather
    refine ⟨Field.foundAt_rd hrd, ?_, ?_⟩
    · rw [← Field.toNat_wordOf h.2.2 h.2.2.1]
      exact foundAt_extract huimm
    · rw [← Field.toNat_wordOf h.2.1 h.2.1.1, ← hnumber]
      rfl
  | system imm =>
    simp only [fields, List.forall_mem_cons] at hgather
    obtain ⟨-, hrd, -, hrs1, himm, -⟩ := hgather
    exact ⟨Field.foundAt_rd hrd, Field.foundAt_rs1 hrs1, Field.toInt_gather h himm⟩

/-- What was placed in a field is what the word has under the field's mask. -/
theorem place_eq_word_and_mask (h : inst.operands.Valid) :
    ∀ p ∈ inst.fields, p.1.place p.2 = .ok (inst.word &&& p.1.mask) := by
  rintro ⟨field, v⟩ hp
  have hfit := fields_fit h
  have happart : Field.Apart (inst.fields.map Prod.fst) := by
    rw [fields_fst]
    exact Shape.fields_apart _
  rw [Field.place_of_fits (hfit _ hp), word_eq_union, Field.union_and_mask hfit happart hp]

/-- Well-formed instructions with one word are one instruction. -/
theorem eq_of_word_eq {inst' : Instruction} (h : inst.WellFormed) (h' : inst'.WellFormed)
    (hword : inst.word = inst'.word) : inst = inst' := by
  apply Option.some.inj
  rw [← decode?_word h, ← decode?_word h', hword]

end Instruction

/-! ### Assembled words -/

/-- **No two instructions share a word.** Whatever two lines are read as has a word, and the words are the
same only for the same operation with the same operands. -/
theorem encode_eq_iff_of_assembled {line line' : Text} {inst inst' : Instruction}
    (h : assemble line = .ok inst) (h' : assemble line' = .ok inst') :
    ∃ w w', inst.encode = .ok w ∧ inst'.encode = .ok w' ∧ (w = w' ↔ inst = inst') := by
  have hinst := wellFormed_of_assemble h
  have hinst' := wellFormed_of_assemble h'
  refine ⟨_, _, Instruction.encode_eq_word hinst.2.1, Instruction.encode_eq_word hinst'.2.1, ?_⟩
  constructor
  · exact Instruction.eq_of_word_eq hinst hinst'
  · intro heq
    rw [heq]

/-- An abbreviation and what it stands for share a word; `ecall` and `ebreak` differ in one bit. -/
theorem encode_eq_iff_of_assembled_li :
    (assemble "li a0, 5" = .ok ⟨.addi, .i ⟨10⟩ .zero 5⟩ ∧
      assemble "ADDI x10,zero,0x5" = .ok ⟨.addi, .i ⟨10⟩ .zero 5⟩ ∧
      ∃ w w', Instruction.encode ⟨.addi, .i ⟨10⟩ .zero 5⟩ = .ok w ∧
        Instruction.encode ⟨.addi, .i ⟨10⟩ .zero 5⟩ = .ok w' ∧
        (w = w' ↔ (⟨.addi, .i ⟨10⟩ .zero 5⟩ : Instruction) = ⟨.addi, .i ⟨10⟩ .zero 5⟩)) ∧
    (assemble "ecall" = .ok ⟨.ecall, .system 0⟩ ∧ assemble "ebreak" = .ok ⟨.ebreak, .system 1⟩ ∧
      ∃ w w', Instruction.encode ⟨.ecall, .system 0⟩ = .ok w ∧
        Instruction.encode ⟨.ebreak, .system 1⟩ = .ok w' ∧
        (w = w' ↔ (⟨.ecall, .system 0⟩ : Instruction) = ⟨.ebreak, .system 1⟩)) := by
  have hli : assemble "li a0, 5" = .ok ⟨.addi, .i ⟨10⟩ .zero 5⟩ := by decide
  have haddi : assemble "ADDI x10,zero,0x5" = .ok ⟨.addi, .i ⟨10⟩ .zero 5⟩ := by decide
  have hecall : assemble "ecall" = .ok ⟨.ecall, .system 0⟩ := by decide
  have hebreak : assemble "ebreak" = .ok ⟨.ebreak, .system 1⟩ := by decide
  exact ⟨⟨hli, haddi, encode_eq_iff_of_assembled hli haddi⟩,
    hecall, hebreak, encode_eq_iff_of_assembled hecall hebreak⟩

/-- **Placing fields and taking operands out are inverse.** Whatever a line is read as can be encoded; its
fields, the constant ones among them, are apart and cover the word, which has under each mask what was placed
there; and the machine finds every operand in it. -/
theorem fields_of_assembled {line : Text} {inst : Instruction} (h : assemble line = .ok inst) :
    ∃ w, inst.encode = .ok w ∧ Field.Apart (inst.fields.map Prod.fst) ∧
      Field.cover (inst.fields.map Prod.fst) = BitVec.allOnes 32 ∧
      (∀ p ∈ inst.fields, p.1.place p.2 = .ok (w &&& p.1.mask)) ∧ inst.operands.FoundIn w := by
  have hvalid := (wellFormed_of_assemble h).2.1
  refine ⟨inst.word, Instruction.encode_eq_word hvalid, ?_, ?_,
    Instruction.place_eq_word_and_mask hvalid, Instruction.foundIn_word hvalid⟩
  · rw [Instruction.fields_fst]
    exact Shape.fields_apart _
  · rw [Instruction.fields_fst]
    exact Shape.fields_cover _

/-- The lowest offset of a branch, whose bits are the most scattered. -/
theorem fields_of_assembled_bltu :
    assemble "bltu s1, t6, -4096" = .ok ⟨.bltu, .b ⟨9⟩ ⟨31⟩ (-4096)⟩ ∧
      ∃ w, Instruction.encode ⟨.bltu, .b ⟨9⟩ ⟨31⟩ (-4096)⟩ = .ok w ∧
        Field.Apart ((Instruction.fields ⟨.bltu, .b ⟨9⟩ ⟨31⟩ (-4096)⟩).map Prod.fst) ∧
        Field.cover ((Instruction.fields ⟨.bltu, .b ⟨9⟩ ⟨31⟩ (-4096)⟩).map Prod.fst) =
          BitVec.allOnes 32 ∧
        (∀ p ∈ Instruction.fields ⟨.bltu, .b ⟨9⟩ ⟨31⟩ (-4096)⟩,
          p.1.place p.2 = .ok (w &&& p.1.mask)) ∧
        (Operands.b ⟨9⟩ ⟨31⟩ (-4096)).FoundIn w := by
  have hline : assemble "bltu s1, t6, -4096" = .ok ⟨.bltu, .b ⟨9⟩ ⟨31⟩ (-4096)⟩ := by decide
  exact ⟨hline, fields_of_assembled hline⟩

end RvConsole
