import RvConsole.Proofs.Isa.Contents
import RvConsole.Proofs.Text.Binary

/-! What the bit columns of an instruction show.

A column has a label and some bits of the word. What the label promises is said from the instruction alone
(`Instruction.stated?`): a constant of the operation or an operand in binary, or, for a label that lists places of the
immediate in brackets, the immediate's bits at these places. Every field of a word fills one or two columns
(`Field.columns`), and what a column has of the word is what its label promises of the field's value
(`Field.digits?_gather`). So the columns of an instruction that was read tell the truth
(`slices_of_assembled`). -/
namespace RvConsole
open Text (byte figure digitsAt places binary)

/-! ### Labels -/

namespace Label

/-- The places of a range, which is one place or the highest and the lowest around a colon. -/
def range? (t : Text) : Option (List Nat) :=
  match (Text.split (byte ':') t).map (Text.natural? 10) with
  | [some k] => some [k]
  | [some high, some low] => some (places low (high + 1 - low))
  | _ => none

/-- The places of the immediate that a label lists: ranges in brackets, with bars between them. -/
def places? (label : Text) : Option (List Nat) :=
  match Text.after? "imm[" label with
  | some inside =>
    if inside.getLast? = some (byte ']') then
      ((Text.split (byte '|') inside.dropLast).mapM range?).map List.flatten
    else none
  | none => none

/-- How many digits the other labels have. -/
def widths : List (Text × Nat) := [
  ("opcode", 7), ("funct3", 3), ("funct7", 7), ("rd", 5), ("rs1", 5), ("rs2", 5), ("shamt", 5), ("csr", 12),
  ("uimm[4:0]", 5), ("pred", 4), ("succ", 4), ("fm", 4)]

/-- The digits that a label promises, of an immediate with these bits and of this number. -/
def digits? (label : Text) (bit : Nat → Bool) (number : Nat) : Option Text :=
  match places? label with
  | some listed => some (digitsAt bit listed)
  | none => (widths.lookup label).map fun width => binary width number

end Label

/-- The operands that have a label of their own. -/
def Operands.labelled : Operands → List (Text × Nat)
  | u rd _ | j rd _ => [("rd", rd.index.toNat)]
  | i rd rs1 _ | load rd rs1 _ => [("rd", rd.index.toNat), ("rs1", rs1.index.toNat)]
  | s rs1 rs2 _ | b rs1 rs2 _ => [("rs1", rs1.index.toNat), ("rs2", rs2.index.toNat)]
  | r rd rs1 rs2 => [("rd", rd.index.toNat), ("rs1", rs1.index.toNat), ("rs2", rs2.index.toNat)]
  | shift rd rs1 shamt => [("rd", rd.index.toNat), ("rs1", rs1.index.toNat), ("shamt", shamt.toNat)]
  | fence pred succ fm => [("pred", pred.toNat), ("succ", succ.toNat), ("fm", fm.toNat)]
  | csr rd number rs1 => [("rd", rd.index.toNat), ("csr", number.toNat), ("rs1", rs1.index.toNat)]
  | csri rd number uimm => [("rd", rd.index.toNat), ("csr", number.toNat), ("uimm[4:0]", uimm.toNat)]
  | system _ => []

/-- The immediate as the labels count its bits: an upper one starts at the twelfth. -/
def Operands.immediate : Operands → Int
  | u _ imm => imm * 2 ^ 12
  | j _ imm | i _ _ imm | load _ _ imm | s _ _ imm | b _ _ imm | system imm => imm
  | r .. | shift .. | fence .. | csr .. | csri .. => 0

namespace Instruction

/-- The number that a label stands for: a constant of the operation, or an operand, which is zero where there is
none. -/
def labelled (inst : Instruction) (label : Text) : Nat :=
  if label = "opcode" then inst.op.info.opcode.toNat
  else if label = "funct3" then inst.op.info.funct3.toNat
  else if label = "funct7" then inst.op.info.funct7.toNat
  else (inst.operands.labelled.lookup label).getD 0

/-- The digits that a label promises of an instruction. -/
def stated? (inst : Instruction) (label : Text) : Option Text :=
  Label.digits? label inst.operands.immediate.testBit (inst.labelled label)

end Instruction

/-! ### The columns of a field -/

namespace Field

/-- The columns that a field fills, each with its lowest bit. -/
def columns : Field → List (Column × Nat)
  | opcode => [(⟨"opcode", 7⟩, 0)]
  | funct3 => [(⟨"funct3", 3⟩, 12)]
  | funct7 => [(⟨"funct7", 7⟩, 25)]
  | fm => [(⟨"fm", 4⟩, 28)]
  | pred => [(⟨"pred", 4⟩, 24)]
  | succ => [(⟨"succ", 4⟩, 20)]
  | rd => [(⟨"rd", 5⟩, 7)]
  | rs1 => [(⟨"rs1", 5⟩, 15)]
  | rs2 => [(⟨"rs2", 5⟩, 20)]
  | imm .u => [(⟨"imm[31:12]", 20⟩, 12)]
  | imm .j => [(⟨"imm[20|10:1|11|19:12]", 20⟩, 12)]
  | imm .i => [(⟨"imm[11:0]", 12⟩, 20)]
  | imm .s => [(⟨"imm[11:5]", 7⟩, 25), (⟨"imm[4:0]", 5⟩, 7)]
  | imm .b => [(⟨"imm[12|10:5]", 7⟩, 25), (⟨"imm[4:1|11]", 5⟩, 7)]
  | imm .shift => [(⟨"shamt", 5⟩, 20)]
  | imm .csr => [(⟨"csr", 12⟩, 20)]
  | imm .uimm => [(⟨"uimm[4:0]", 5⟩, 15)]

/-- Whether a field's labels list places. -/
def listed : Field → Bool
  | imm .u | imm .j | imm .i | imm .s | imm .b => true
  | _ => false

/-- A field's value as the labels count its bits. -/
def raised (field : Field) (v : Word) : Word :=
  match field with
  | imm .u => v <<< 12
  | _ => v

/-- The places of a field's value that a column shows. -/
def shown (field : Field) (column : Column) : List Nat :=
  if field.listed then (Label.places? column.header).getD [] else places 0 column.width

theorem wiring_raised (field : Field) : Wiring field.raised := by
  unfold raised
  split <;> fun_prop

/-- Every column has the places that its label lists, or else as many as its label has digits. -/
theorem columns_labels : ∀ field ∈ all, ∀ p ∈ field.columns,
    (field.shown p.1).length = p.1.width ∧ (∀ k ∈ field.shown p.1, k < 32) ∧
      if field.listed then Label.places? p.1.header = some (field.shown p.1)
      else Label.places? p.1.header = none ∧ Label.widths.lookup p.1.header = some p.1.width ∧
        0 < p.1.width ∧ field.width = p.1.width ∧ field.signed = false := by
  decide +kernel

/-- Bit by bit, a column has from the word what it shows of the field's value. -/
theorem column_wiring : ∀ field ∈ all, ∀ p ∈ field.columns, ∀ q ∈ (places p.2 p.1.width).zip (field.shown p.1),
    ∀ i : Fin 32, (BitVec.twoPow 32 i).extractLsb' q.1 1 =
      (field.raised (field.gather (BitVec.twoPow 32 i))).extractLsb' q.2 1 := by
  decide +kernel

variable {field : Field} {p : Column × Nat} {v : Word}

theorem digitsAt_column (hp : p ∈ field.columns) (w : Word) :
    digitsAt w.getLsbD (places p.2 p.1.width) =
      digitsAt (field.raised (field.gather w)).getLsbD (field.shown p.1) := by
  have hlength : (places p.2 p.1.width).length = p.1.width := by
    rw [places, List.length_reverse, List.length_range']
  refine Text.digitsAt_congr (hlength.trans (columns_labels field (mem_all field) p hp).1.symm) fun q hq => ?_
  -- a single bit of either side is a wiring of the word, so it is enough to look at single bits
  have hbit := Wiring.ext (F := fun w => w.extractLsb' q.1 1)
    (G := fun w => (field.raised (field.gather w)).extractLsb' q.2 1) (.extract .id _ _)
    (.extract (.comp (wiring_raised field) (wiring_gather field)) _ _)
    (column_wiring field (mem_all field) p hp q hq) w
  simpa using congrArg (BitVec.getLsbD · 0) hbit

/-- What a label promises of a value that fits its field are the places that the column shows. -/
theorem digits?_column (hp : p ∈ field.columns) (hv : field.Fits v) :
    Label.digits? p.1.header (field.raised v).getLsbD v.toNat =
      some (digitsAt (field.raised v).getLsbD (field.shown p.1)) := by
  obtain ⟨-, -, hlabel⟩ := columns_labels field (mem_all field) p hp
  by_cases hlisted : field.listed
  · rw [if_pos hlisted] at hlabel
    rw [Label.digits?, hlabel]
  · rw [if_neg hlisted] at hlabel
    obtain ⟨hplaces, hlookup, hpos, hwidth, hsigned⟩ := hlabel
    have hraised : field.raised v = v := by
      unfold raised
      split
      · exact absurd rfl hlisted
      · rfl
    have hlt : v.toNat < 2 ^ p.1.width := by
      rw [← hwidth]
      exact (fits_iff_lt hsigned v).mp hv
    rw [Label.digits?, hplaces, hlookup, hraised, shown, if_neg hlisted]
    exact congrArg some (Text.digitsAt_testBit hpos hlt).symm

/-- **A column has from the word what its label promises of the field's value.** -/
theorem digits?_gather (hp : p ∈ field.columns) (w : Word) :
    Label.digits? p.1.header (field.raised (field.gather w)).getLsbD (field.gather w).toNat =
      some (digitsAt w.getLsbD (places p.2 p.1.width)) := by
  rw [digits?_column hp (gather_fits field w), digitsAt_column hp]

end Field

/-! ### The columns of an instruction -/

theorem getLsbD_wordOf (v : Int) {k : Nat} (h : k < 32) : (Instruction.wordOf v).getLsbD k = v.testBit k := by
  cases v with
  | ofNat n =>
    rw [Instruction.wordOf, Int.ofNat_eq_natCast, BitVec.ofInt_natCast, BitVec.getLsbD_ofNat, decide_eq_true h,
      Bool.true_and]
    rfl
  | negSucc n =>
    rw [Instruction.wordOf, BitVec.ofInt_negSucc_eq_not_ofNat, BitVec.getLsbD_not, BitVec.getLsbD_ofNat,
      decide_eq_true h, Bool.true_and, Bool.true_and]
    rfl

theorem wordOf_upper (v : Int) : Instruction.wordOf (v * 2 ^ 12) = Instruction.wordOf v <<< 12 := by
  rw [Instruction.wordOf, BitVec.ofInt_mul, BitVec.shiftLeft_eq_mul_twoPow]
  rfl

/-- Columns with the lowest bit of each, when the last one ends at bit zero. -/
def Column.placed : List Column → List (Column × Nat)
  | [] => []
  | column :: rest => (column, (rest.map Column.width).sum) :: placed rest

theorem Format.sum_widths (format : Format) : (format.columns.map Column.width).sum = 32 := by
  cases format <;> rfl

/-- The columns of an operation's format are those of its fields. -/
theorem Op.exists_field_of_placed : ∀ op : Op, ∀ p ∈ Column.placed op.info.format.columns,
    ∃ field ∈ op.info.shape.fields, p ∈ field.columns := by
  decide +kernel

namespace Instruction
variable {inst : Instruction}

theorem slice_digitsAt (bit : Nat → Bool) (columns : List Column) :
    slice columns (digitsAt bit (places 0 (columns.map Column.width).sum)) =
      (Column.placed columns).map fun p => ⟨p.1.header, digitsAt bit (places p.2 p.1.width)⟩ := by
  induction columns with
  | nil => rfl
  | cons column rest ih =>
    -- the first column has the highest places, and the others share those below
    have hplaces : places 0 ((column :: rest).map Column.width).sum =
        places (rest.map Column.width).sum column.width ++ places 0 (rest.map Column.width).sum := by
      rw [places, places, places, ← List.reverse_append, List.map_cons, List.sum_cons, Nat.add_comm,
        ← List.range'_append_1, Nat.zero_add]
    have hlength : (digitsAt bit (places (rest.map Column.width).sum column.width)).length = column.width := by
      rw [digitsAt, List.length_map, places, List.length_reverse, List.length_range']
    have hdigits : digitsAt bit (places 0 ((column :: rest).map Column.width).sum) =
        digitsAt bit (places (rest.map Column.width).sum column.width) ++
          digitsAt bit (places 0 (rest.map Column.width).sum) := by
      rw [hplaces]
      exact List.map_append
    rw [hdigits, slice, List.take_left' hlength, List.drop_left' hlength, ih]
    rfl

theorem slices_eq (inst : Instruction) :
    inst.slices = (Column.placed inst.op.info.format.columns).map fun p =>
      ⟨p.1.header, digitsAt inst.word.getLsbD (places p.2 p.1.width)⟩ := by
  rw [slices, Text.bits_eq_digitsAt, ← slice_digitsAt, Format.sum_widths]

/-- A field's value is what the instruction has for the field's labels. -/
def Agrees (inst : Instruction) (field : Field) (v : Word) : Prop :=
  if field.listed then ∀ k < 32, (field.raised v).getLsbD k = inst.operands.immediate.testBit k
  else ∀ p ∈ field.columns, inst.labelled p.1.header = v.toNat

theorem Agrees.stated?_eq {field : Field} {v : Word} (h : inst.Agrees field v) {p : Column × Nat}
    (hp : p ∈ field.columns) :
    inst.stated? p.1.header = Label.digits? p.1.header (field.raised v).getLsbD v.toNat := by
  obtain ⟨-, hplaces, hlabel⟩ := Field.columns_labels field (Field.mem_all field) p hp
  unfold Agrees at h
  by_cases hlisted : field.listed
  · rw [if_pos hlisted] at h hlabel
    rw [stated?, Label.digits?, Label.digits?, hlabel]
    refine congrArg some (List.map_congr_left fun k hk => congrArg figure ?_)
    exact (h k (hplaces k hk)).symm
  · rw [if_neg hlisted] at h hlabel
    rw [stated?, Label.digits?, Label.digits?, hlabel.1, h p hp]

/-- A field with one column that lists no places goes by the number of its label. -/
theorem agrees_labelled {field : Field} {v : Word} {p : Column × Nat} (hcolumns : field.columns = [p])
    (hfield : field.listed = false) (h : inst.labelled p.1.header = v.toNat) : inst.Agrees field v := by
  rw [Agrees, hfield, hcolumns]
  exact List.forall_mem_singleton.mpr h

theorem agrees_constants (inst : Instruction) : inst.Agrees .opcode inst.op.info.opcode ∧
    inst.Agrees .funct3 inst.op.info.funct3 ∧ inst.Agrees .funct7 inst.op.info.funct7 :=
  ⟨agrees_labelled rfl rfl rfl, agrees_labelled rfl rfl rfl, agrees_labelled rfl rfl rfl⟩

/-- The bits of an immediate that is not an upper one are those of its word. -/
theorem agrees_imm {kind : ImmKind} {v : Int} (hkind : (Field.imm kind).listed = true) (hu : kind ≠ .u)
    (h : inst.operands.immediate = v) : inst.Agrees (.imm kind) (wordOf v) := by
  have hraised : (Field.imm kind).raised (wordOf v) = wordOf v := by
    unfold Field.raised
    split
    case h_1 heq => exact absurd (Field.imm.inj heq) hu
    case h_2 => rfl
  rw [Agrees, if_pos hkind, hraised, h]
  exact fun k => getLsbD_wordOf v

theorem agrees_upper {v : Int} (h : inst.operands.immediate = v * 2 ^ 12) : inst.Agrees (.imm .u) (wordOf v) := by
  intro k hk
  rw [h, ← getLsbD_wordOf _ hk, wordOf_upper]
  rfl

/-- Operands that are not negative have the same number as a word. -/
theorem toNat_eq_toNat_wordOf {kind : ImmKind} {v : Int} (h : kind.Admits v) (h0 : 0 ≤ v) :
    v.toNat = (wordOf v).toNat := by
  have hword := Field.toNat_wordOf h h0
  omega

/-- **Every field of an instruction has the value that its labels stand for.** -/
theorem agrees_of_mem (h : inst.operands.Valid) : ∀ q ∈ inst.fields, inst.Agrees q.1 q.2 := by
  obtain ⟨hopcode, hfunct3, hfunct7⟩ := inst.agrees_constants
  rcases inst with ⟨op, operands⟩
  cases operands
  all_goals simp only [fields, List.forall_mem_cons, hopcode, hfunct3, hfunct7, true_and]
  case u rd imm => exact ⟨agrees_labelled rfl rfl rfl, agrees_upper rfl, List.forall_mem_nil _⟩
  case j rd imm =>
    exact ⟨agrees_labelled rfl rfl rfl, agrees_imm rfl (by decide) rfl, List.forall_mem_nil _⟩
  case i rd rs1 imm | load rd rs1 imm | s rs1 rs2 imm | b rs1 rs2 imm | system imm =>
    exact ⟨agrees_labelled rfl rfl rfl, agrees_labelled rfl rfl rfl, agrees_imm rfl (by decide) rfl,
      List.forall_mem_nil _⟩
  case r rd rs1 rs2 =>
    exact ⟨agrees_labelled rfl rfl rfl, agrees_labelled rfl rfl rfl, agrees_labelled rfl rfl rfl,
      List.forall_mem_nil _⟩
  case shift rd rs1 shamt =>
    exact ⟨agrees_labelled rfl rfl rfl, agrees_labelled rfl rfl rfl,
      agrees_labelled rfl rfl (toNat_eq_toNat_wordOf h.2.2 h.2.2.1), List.forall_mem_nil _⟩
  case fence pred succ fm =>
    exact ⟨agrees_labelled rfl rfl rfl, agrees_labelled rfl rfl rfl, agrees_labelled rfl rfl rfl,
      agrees_labelled rfl rfl rfl, agrees_labelled rfl rfl rfl, List.forall_mem_nil _⟩
  case csr rd number rs1 =>
    exact ⟨agrees_labelled rfl rfl rfl, agrees_labelled rfl rfl rfl,
      agrees_labelled rfl rfl (toNat_eq_toNat_wordOf h.2.1 h.2.1.1), List.forall_mem_nil _⟩
  case csri rd number uimm =>
    exact ⟨agrees_labelled rfl rfl rfl, agrees_labelled rfl rfl (toNat_eq_toNat_wordOf h.2.2 h.2.2.1),
      agrees_labelled rfl rfl (toNat_eq_toNat_wordOf h.2.1 h.2.1.1), List.forall_mem_nil _⟩

/-- Every column shows what its label promises. -/
theorem stated?_of_mem_slices (h : inst.WellFormed) :
    ∀ slice ∈ inst.slices, inst.stated? slice.header = some slice.bits := by
  obtain ⟨hshape, hvalid, -⟩ := h
  rw [slices_eq, List.forall_mem_map]
  intro p hp
  obtain ⟨field, hfield, hcolumn⟩ := inst.op.exists_field_of_placed p hp
  rw [← hshape, ← fields_fst] at hfield
  obtain ⟨⟨field, v⟩, hmem, rfl⟩ := List.mem_map.mp hfield
  have hv : field.gather inst.word = v := gather_word hvalid hmem
  subst hv
  exact ((agrees_of_mem hvalid _ hmem).stated?_eq hcolumn).trans (Field.digits?_gather hcolumn inst.word)

theorem headers_placed (columns : List Column) :
    (Column.placed columns).map (fun p => p.1.header) = columns.map Column.header := by
  induction columns with
  | nil => rfl
  | cons column rest ih => exact congrArg (column.header :: ·) ih

theorem flatten_slice (columns : List Column) (digits : Text) (h : digits.length = (columns.map Column.width).sum) :
    ((slice columns digits).map Slice.bits).flatten = digits := by
  induction columns generalizing digits with
  | nil => exact (List.length_eq_zero_iff.mp h).symm
  | cons column rest ih =>
    have hrest : (digits.drop column.width).length = (rest.map Column.width).sum := by
      rw [List.length_drop, h, List.map_cons, List.sum_cons, Nat.add_sub_cancel_left]
    rw [slice, List.map_cons, List.flatten_cons, ih _ hrest]
    exact List.take_append_drop column.width digits

end Instruction

/-- **The bit columns tell the truth about the word.** Whatever a line is read as can be encoded, and the columns of its
format make up a word. Under the labels of the format stand, one after the other, the thirty-two digits of the word in
binary. Each column shows what its label promises: a constant of the operation or an operand in binary, with zero for an
operand that there is not, or the bits of the immediate that the label lists, in that order. -/
theorem slices_of_assembled {line : Text} {inst : Instruction} (h : assemble line = .ok inst) :
    ∃ w, inst.encode = .ok w ∧ (inst.op.info.format.columns.map Column.width).sum = 32 ∧
      inst.slices.map Instruction.Slice.header = inst.op.info.format.columns.map Column.header ∧
      (inst.slices.map Instruction.Slice.bits).flatten = binary 32 w.toNat ∧ (binary 32 w.toNat).length = 32 ∧
      ∀ slice ∈ inst.slices, inst.stated? slice.header = some slice.bits := by
  have hwellFormed := wellFormed_of_assemble h
  have hbits : Text.bits inst.word = binary 32 inst.word.toNat := Text.bits_eq_binary (by decide) inst.word
  refine ⟨inst.word, Instruction.encode_eq_word hwellFormed.2.1, inst.op.info.format.sum_widths, ?_, ?_, ?_,
    Instruction.stated?_of_mem_slices hwellFormed⟩
  · rw [Instruction.slices_eq, List.map_map]
    exact Instruction.headers_placed _
  · rw [← hbits]
    exact Instruction.flatten_slice _ _ ((Text.length_bits _).trans (Format.sum_widths _).symm)
  · rw [← hbits, Text.length_bits]

/-- A jump backwards, whose label lists the places out of order, and a fence, which has neither register. -/
theorem slices_of_assembled_jal :
    (assemble "jal s1, -699050" = .ok ⟨.jal, .j ⟨9⟩ (-699050)⟩ ∧
      ∃ w, Instruction.encode ⟨.jal, .j ⟨9⟩ (-699050)⟩ = .ok w ∧ (Format.j.columns.map Column.width).sum = 32 ∧
        (Instruction.slices ⟨.jal, .j ⟨9⟩ (-699050)⟩).map Instruction.Slice.header =
          Format.j.columns.map Column.header ∧
        ((Instruction.slices ⟨.jal, .j ⟨9⟩ (-699050)⟩).map Instruction.Slice.bits).flatten = binary 32 w.toNat ∧
        (binary 32 w.toNat).length = 32 ∧
        ∀ slice ∈ Instruction.slices ⟨.jal, .j ⟨9⟩ (-699050)⟩,
          Instruction.stated? ⟨.jal, .j ⟨9⟩ (-699050)⟩ slice.header = some slice.bits) ∧
    (assemble "fence rw, o" = .ok ⟨.fence, .fence 3 4 0⟩ ∧
      ∀ slice ∈ Instruction.slices ⟨.fence, .fence 3 4 0⟩,
        Instruction.stated? ⟨.fence, .fence 3 4 0⟩ slice.header = some slice.bits) := by
  have hjal : assemble "jal s1, -699050" = .ok ⟨.jal, .j ⟨9⟩ (-699050)⟩ := by decide
  have hfence : assemble "fence rw, o" = .ok ⟨.fence, .fence 3 4 0⟩ := by decide
  obtain ⟨-, -, -, -, -, -, hcolumns⟩ := slices_of_assembled hfence
  exact ⟨⟨hjal, slices_of_assembled hjal⟩, hfence, hcolumns⟩

end RvConsole
