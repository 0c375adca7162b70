import RvConsole.Proofs.Isa.Operand

/-! A line is read back from the instruction it was read as.

The text of an instruction is its mnemonic and its arguments between commas. Cutting the line finds just
these again (`cutLine_join`), and each argument is read as the operand it was written for, so every
well-formed instruction is read from its text. -/
namespace RvConsole
open Text (byte)

/-! ### Arguments -/

namespace Operands

/-- The arguments that operands are written as. -/
def arguments : Operands → List Text
  | u rd imm => [rd.text, ImmKind.u.text imm]
  | j rd imm => [rd.text, ImmKind.j.text imm]
  | i rd rs1 imm => [rd.text, rs1.text, ImmKind.i.text imm]
  | load rd rs1 imm => [rd.text, ImmKind.i.text imm ++ "(" ++ rs1.text ++ ")"]
  | s rs1 rs2 imm => [rs2.text, ImmKind.s.text imm ++ "(" ++ rs1.text ++ ")"]
  | b rs1 rs2 imm => [rs1.text, rs2.text, ImmKind.b.text imm]
  | r rd rs1 rs2 => [rd.text, rs1.text, rs2.text]
  | shift rd rs1 shamt => [rd.text, rs1.text, ImmKind.shift.text shamt]
  | fence pred succ _ => [Order.text pred, Order.text succ]
  | csr rd number rs1 => [rd.text, ImmKind.csr.text number, rs1.text]
  | csri rd number uimm => [rd.text, ImmKind.csr.text number, ImmKind.uimm.text uimm]
  | system _ => []

theorem text_eq_join (operands : Operands) : operands.text = Text.join [byte ','] operands.arguments := by
  cases operands <;> simp [text, arguments, Text.join, List.intercalate] <;> rfl

end Operands

/-- A text that is an argument when it stands between commas. -/
def IsArgument (t : Text) : Prop := t.Visible ∧ byte ',' ∉ t

theorem Text.Plain.isArgument {t : Text} (h : t.Plain) : IsArgument t :=
  ⟨h.visible, h.not_mem (by decide)⟩

theorem isArgument_memory {offset base : Text} (ho : offset.Plain) (hb : base.Plain) :
    IsArgument (offset ++ "(" ++ base ++ ")") := by
  have hopen : Text.Visible "(" := by decide
  have hclose : Text.Visible ")" := by decide
  have hoffset : byte ',' ∉ offset := ho.not_mem (by decide)
  have hbase : byte ',' ∉ base := hb.not_mem (by decide)
  constructor
  · exact Text.visible_append (Text.visible_append (Text.visible_append ho.visible hopen) hb.visible) hclose
  · simp only [List.mem_append, not_or]
    exact ⟨⟨⟨hoffset, by decide⟩, hbase⟩, by decide⟩

theorem Operands.isArgument (operands : Operands) : ∀ t ∈ operands.arguments, IsArgument t := by
  have hreg := fun r : Register => r.plain_text.isArgument
  have himm := fun (kind : ImmKind) v => (kind.plain_text v).isArgument
  have hmemory := fun (kind : ImmKind) v (r : Register) => isArgument_memory (kind.plain_text v) r.plain_text
  have horder := fun bits => (Order.plain_text bits).isArgument
  cases operands <;>
    simp only [arguments, List.forall_mem_cons, List.not_mem_nil, false_imp_iff, implies_true, hreg, himm,
      hmemory, horder, and_self]

theorem Op.readOperands_arguments {op : Op} {operands : Operands}
    (h : Instruction.WellFormed ⟨op, operands⟩) : op.readOperands operands.arguments = .ok operands := by
  obtain ⟨hs, hvalid, himm⟩ := h
  have hs : op.info.shape = operands.shape := hs.symm
  cases operands with
  | u rd imm | j rd imm =>
    obtain ⟨hrd, himm⟩ := hvalid
    simp only [readOperands, hs, Operands.shape, Operands.arguments, Register.parse_text hrd,
      ImmKind.parse_text himm]
    rfl
  | i rs rt imm | b rs rt imm | shift rs rt imm =>
    obtain ⟨hrs, hrt, himm⟩ := hvalid
    simp only [readOperands, hs, Operands.shape, Operands.arguments, Register.parse_text hrs,
      Register.parse_text hrt, ImmKind.parse_text himm]
    rfl
  | load rd rs1 imm =>
    obtain ⟨hrd, hrs1, himm⟩ := hvalid
    simp only [readOperands, hs, Operands.shape, Operands.arguments, Register.parse_text hrd,
      MemoryOperand.parse_text hrs1 himm]
    rfl
  | s rs1 rs2 imm =>
    obtain ⟨hrs1, hrs2, himm⟩ := hvalid
    simp only [readOperands, hs, Operands.shape, Operands.arguments, Register.parse_text hrs2,
      MemoryOperand.parse_text hrs1 himm]
    rfl
  | r rd rs1 rs2 =>
    obtain ⟨hrd, hrs1, hrs2⟩ := hvalid
    simp only [readOperands, hs, Operands.shape, Operands.arguments, Register.parse_text hrd,
      Register.parse_text hrs1, Register.parse_text hrs2]
    rfl
  | fence pred succ fm =>
    obtain ⟨hpred, hsucc, rfl⟩ := hvalid
    simp only [readOperands, hs, Operands.shape, Operands.arguments, Order.parse_text hpred,
      Order.parse_text hsucc]
    rfl
  | csr rd number rs1 =>
    obtain ⟨hrd, hnumber, hrs1⟩ := hvalid
    simp only [readOperands, hs, Operands.shape, Operands.arguments, Register.parse_text hrd,
      ImmKind.parse_text hnumber, Register.parse_text hrs1]
    rfl
  | csri rd number uimm =>
    obtain ⟨hrd, hnumber, huimm⟩ := hvalid
    simp only [readOperands, hs, Operands.shape, Operands.arguments, Register.parse_text hrd,
      ImmKind.parse_text hnumber, ImmKind.parse_text huimm]
    rfl
  | system imm =>
    simp only [readOperands, hs, Operands.shape, Operands.arguments, ← himm imm rfl]
    rfl

/-! ### Mnemonics -/

namespace Op

theorem name_ne_nil : ∀ op : Op, op.name ≠ [] := by decide

theorem visible_name : ∀ op : Op, op.name.Visible := by decide

theorem lower_name : ∀ op : Op, Text.lower op.name = op.name := by decide

theorem ofName?_name : ∀ op : Op, Mnemonic.ofName? op.name = some (.op op) := by decide

theorem cutLine_name : ∀ op : Op, cutLine op.name = (op.name, []) := by decide

end Op

/-! ### Lines -/

/-- A name, a blank and arguments between commas are cut into just these. -/
theorem cutLine_join {name : Text} {args : List Text} (hname : name.Visible) (hne : name ≠ [])
    (hargs : ∀ t ∈ args, IsArgument t) (hjoin : Text.join [byte ','] args ≠ []) :
    cutLine (name ++ " " ++ Text.join [byte ','] args) = (Text.lower name, args) := by
  have hcomma : Text.Visible [byte ','] := by decide
  have hvisible := Text.visible_join hcomma fun t ht => (hargs t ht).1
  have hline : name ++ " " ++ Text.join [byte ','] args =
      name ++ byte ' ' :: Text.join [byte ','] args := List.append_assoc _ _ _
  -- the line starts with the name and ends with the last argument, so trimming takes nothing
  have htrim : Text.trim (name ++ byte ' ' :: Text.join [byte ','] args) =
      name ++ byte ' ' :: Text.join [byte ','] args := by
    apply Text.trim_eq_self
    · exact Text.ascii_append hname.ascii (List.forall_mem_cons.mpr ⟨by decide, hvisible.ascii⟩)
    · intro b hb
      rw [List.head?_append_of_ne_nil _ hne] at hb
      exact hname b (List.mem_of_mem_head? hb)
    · intro b hb
      rw [List.getLast?_append_of_ne_nil _ (by simp), List.getLast?_cons_of_ne_nil hjoin] at hb
      exact hvisible b (List.mem_of_mem_getLast? hb)
  have hnil : args ≠ [] := by
    rintro rfl
    exact hjoin rfl
  have hsplit := Text.split_join hnil fun t ht => (hargs t ht).2
  have hmap : args.map Text.trim = args := by
    conv_rhs => rw [← List.map_id args]
    exact List.map_congr_left fun t ht => (hargs t ht).1.trim
  simp only [cutLine, hline, htrim, Text.splitBlank_blank hname hvisible.ascii,
    Text.trim_blank hvisible.ascii, hvisible.trim, if_neg hjoin, hsplit, hmap]

theorem assemble_of_cutLine {line : Text} {inst : Instruction} (h : inst.WellFormed)
    (hcut : cutLine line = (inst.op.name, inst.operands.arguments)) : assemble line = .ok inst := by
  simp only [assemble, hcut, Op.ofName?_name, Mnemonic.read, Op.readOperands_arguments h]
  rfl

theorem Operands.text_eq_nil {operands : Operands} (h : operands.text = []) : operands.arguments = [] := by
  have hcomma : Text.ofString "," = [byte ','] := rfl
  cases operands with
  | system => rfl
  | _ => simp [text, hcomma] at h

/-- **A well-formed instruction is read from its text.** -/
theorem assemble_text {inst : Instruction} (h : inst.WellFormed) : assemble inst.text = .ok inst := by
  apply assemble_of_cutLine h
  by_cases hnil : inst.operands.text = []
  -- without operands the name stands alone, with no blank after it
  · simp only [Instruction.text, hnil, if_true, Operands.text_eq_nil hnil]
    exact inst.op.cutLine_name
  · simp only [Instruction.text, hnil, if_false]
    rw [Operands.text_eq_join] at hnil ⊢
    rw [cutLine_join inst.op.visible_name inst.op.name_ne_nil inst.operands.isArgument hnil,
      Op.lower_name]

/-- **Printing is undone by reading**: for every well-formed instruction, and so for whatever a line was
read as, the abbreviations included. -/
theorem assemble_printed :
    (∀ inst : Instruction, inst.WellFormed → assemble inst.text = .ok inst) ∧
      ∀ (line : Text) (inst : Instruction), assemble line = .ok inst → assemble inst.text = .ok inst :=
  ⟨fun _ h => assemble_text h, fun _ _ h => assemble_text (wellFormed_of_assemble h)⟩

/-- A fence with no accesses at all, and an abbreviation. -/
theorem assemble_printed_fence :
    Instruction.WellFormed ⟨.fence, .fence 0 0 0⟩ ∧
      assemble (Instruction.text ⟨.fence, .fence 0 0 0⟩) = .ok ⟨.fence, .fence 0 0 0⟩ ∧
      assemble " Li a0 , -0x10" = .ok ⟨.addi, .i ⟨10⟩ .zero (-16)⟩ ∧
      assemble (Instruction.text ⟨.addi, .i ⟨10⟩ .zero (-16)⟩) =
        .ok ⟨.addi, .i ⟨10⟩ .zero (-16)⟩ := by
  have hfence : Instruction.WellFormed ⟨.fence, .fence 0 0 0⟩ :=
    ⟨rfl, ⟨by decide, by decide, rfl⟩, nofun⟩
  have hline : assemble " Li a0 , -0x10" = .ok ⟨.addi, .i ⟨10⟩ .zero (-16)⟩ := by decide
  exact ⟨hfence, assemble_printed.1 _ hfence, hline, assemble_printed.2 _ _ hline⟩

end RvConsole
