import RvConsole.Display.Listing
import RvConsole.Proofs.Display.Table
import RvConsole.Proofs.Isa.Columns
import RvConsole.Proofs.Isa.Printing
import RvConsole.Session.Line

/-! The assembly table of an instruction, and tables written to output that may stop.

The labels and the bits of an instruction are joined from columns that are as wide as the wider of the two, so both
lines have the same length and their bars stand one above the other (`breakdown_aligned`); the fill and the bars taken
away, the bits of the word are left (`breakdown_bits`). The row of the table has two lines (`tableLines_row`), the lower
one with the text, the word and the bits. Output with so much room takes the first bytes of what is written, wherever a
line ends (`writeLines_of_some`). -/
namespace RvConsole
open Text (Closed byte binary)

/-! ### Output with so much room -/

/-- Of all parts, the first bytes that there is room for are written, and it is told whether that was all. -/
theorem Sink.writeAll_of_some (written : Text) (room : Nat) (parts : List Text) :
    Sink.writeAll ⟨written, some room⟩ parts =
      (⟨written ++ parts.flatten.take room, some (room - parts.flatten.length)⟩,
        decide (parts.flatten.length ≤ room)) := by
  induction parts generalizing written room with
  | nil => simp [writeAll]
  | cons part rest ih =>
    have hlength : (part :: rest).flatten.length = part.length + rest.flatten.length := by
      rw [List.flatten_cons, List.length_append]
    by_cases hfits : part.length ≤ room
    · have hwrite : Sink.write ⟨written, some room⟩ part = (⟨written ++ part, some (room - part.length)⟩, true) :=
        write_of_fits fun _ hroom => Option.some.inj hroom ▸ hfits
      -- the rest has the room that the part leaves
      simp only [writeAll, hwrite, ih]
      refine Prod.ext (congrArg₂ Sink.mk ?_ (congrArg some ?_)) (decide_eq_decide.mpr ?_)
      · rw [List.flatten_cons, List.take_append, List.take_of_length_le hfits, List.append_assoc]
      · rw [hlength, Nat.sub_sub]
      · rw [hlength, Nat.le_sub_iff_add_le hfits, Nat.add_comm]
    · have hlt : room < part.length := not_le.mp hfits
      simp only [writeAll, write_of_lt hlt]
      refine Prod.ext (congrArg₂ Sink.mk ?_ (congrArg some ?_)) (decide_eq_false ?_).symm
      · rw [List.flatten_cons, List.take_append_of_le_length hlt.le]
      · rw [hlength]
        omega
      · rw [hlength]
        omega

/-- A line that does not fit ends the output inside it. -/
theorem Session.writeLines_of_some (written : Text) (room : Nat) (lines : List Text) :
    Session.writeLines ⟨written, some room⟩ lines =
      (⟨written ++ (Text.lines lines).take room, some (room - (Text.lines lines).length)⟩,
        if room < (Text.lines lines).length then some (.output .closed) else none) := by
  have hlines : (lines.map (· ++ ("\n" : Text))).flatten = Text.lines lines := rfl
  simp only [writeLines, Sink.writeAll_of_some, hlines]
  by_cases h : (Text.lines lines).length ≤ room
  · rw [decide_eq_true h, if_neg (not_lt.mpr h)]
  · rw [decide_eq_false h, if_pos (not_le.mp h)]

/-! ### Columns of bits under their labels -/

namespace Instruction
variable {inst : Instruction}

/-- The mark of the separator between columns. -/
def barMark : Rune := ⟨0x2502, "│"⟩

theorem runes_bar : bar.runes = [Text.asciiRune (byte ' '), barMark, Text.asciiRune (byte ' ')] := rfl

theorem closed_bar : Closed bar := fun _ => rfl

/-- How wide a column of a slice is. -/
def Slice.width (s : Slice) : Nat := max s.header.runeCount s.bits.length

theorem breakdown_eq (inst : Instruction) :
    inst.breakdown = (Text.join bar (inst.slices.map fun s => Align.center.fill s.width s.header),
      Text.join bar (inst.slices.map fun s => Align.center.fill s.width s.bits)) := by
  simp only [breakdown, List.map_map]
  rfl

theorem visible_header_of_placed : ∀ op : Op, ∀ p ∈ Column.placed op.info.format.columns, p.1.header.Visible := by
  decide +kernel

theorem visible_of_mem_slices {s : Slice} (h : s ∈ inst.slices) : s.header.Visible ∧ s.bits.Visible := by
  have hfigure : ∀ b, Text.Seen (Text.figure b) := by decide
  rw [slices_eq] at h
  obtain ⟨p, hp, rfl⟩ := List.mem_map.mp h
  exact ⟨visible_header_of_placed inst.op p hp, List.forall_mem_map.mpr fun k _ => hfigure _⟩

theorem length_slices (inst : Instruction) : inst.slices.length = inst.op.info.format.columns.length := by
  have hheaders := congrArg List.length (headers_placed inst.op.info.format.columns)
  rw [List.length_map, List.length_map] at hheaders
  rw [slices_eq, List.length_map, hheaders]

theorem slices_ne_nil (inst : Instruction) : inst.slices ≠ [] := by
  have hcolumns : ∀ op : Op, op.info.format.columns ≠ [] := by decide
  intro hnil
  have hlength := inst.length_slices
  rw [hnil] at hlength
  exact hcolumns inst.op (List.length_eq_zero_iff.mp hlength.symm)

theorem asciiRune_ne_barMark (b : UInt8) : Text.asciiRune b ≠ barMark := by
  intro heq
  have hlength : 1 = 3 := congrArg (fun r => r.bytes.length) heq
  exact absurd hlength (by decide)

theorem barMark_not_mem_runes {t : Text} (h : t.Ascii) : barMark ∉ t.runes := by
  rw [Text.runes_of_ascii h, List.mem_map]
  intro hmem
  obtain ⟨b, -, hb⟩ := hmem
  exact asciiRune_ne_barMark b hb

theorem not_mem_runes_bar {b : UInt8} (h : Text.Seen b) : Text.asciiRune b ∉ bar.runes := by
  have hblank : Text.asciiRune b ≠ Text.asciiRune (byte ' ') := by
    intro heq
    obtain rfl : b = byte ' ' := List.head_eq_of_cons_eq (congrArg Rune.bytes heq)
    exact absurd h (by decide)
  rw [runes_bar]
  simp [hblank, asciiRune_ne_barMark b]

/-- ASCII texts that are no wider than the columns, each in its own, are a line of which only the widths decide how long
it is and where its bars stand. -/
theorem joined_columns (inst : Instruction) (text : Slice → Text) (hascii : ∀ s ∈ inst.slices, Text.Ascii (text s))
    (hfits : ∀ s ∈ inst.slices, (text s).runeCount ≤ s.width) :
    Text.columnsOf bar (Text.join bar (inst.slices.map fun s => Align.center.fill s.width (text s))) =
        Text.gaps 3 (inst.slices.map Slice.width) ∧
      (Text.join bar (inst.slices.map fun s => Align.center.fill s.width (text s))).runeCount + 3 =
        (inst.slices.map fun s => s.width + 3).sum := by
  have hcell : ∀ s ∈ inst.slices, Text.Ascii (Align.center.fill s.width (text s)) := fun s hs =>
    Align.forall_mem_fill (by decide) (hascii s hs) _ _
  have hcount : ∀ s ∈ inst.slices, (Align.center.fill s.width (text s)).runeCount = s.width := fun s hs => by
    rw [Align.runeCount_fill, max_eq_left (hfits s hs)]
  have hclosed := List.forall_mem_map.mpr fun s hs => Text.closed_of_ascii (hcell s hs)
  have hmark : ∀ part ∈ inst.slices.map (fun s => Align.center.fill s.width (text s)), barMark ∉ part.runes :=
    List.forall_mem_map.mpr fun s hs => barMark_not_mem_runes (hcell s hs)
  have hne := inst.slices_ne_nil
  constructor
  · rw [Text.columnsOf_join closed_bar runes_bar (by decide) hclosed hmark, List.map_map]
    exact congrArg (Text.gaps 3) (List.map_congr_left hcount)
  · have hthree : bar.runeCount = 3 := rfl
    have hjoin := Text.runeCount_join closed_bar hclosed (by simpa using hne)
    rw [hthree, List.map_map] at hjoin
    rw [hjoin]
    exact congrArg List.sum (List.map_congr_left fun s hs => congrArg (· + 3) (hcount s hs))

/-- Both lines have the columns and the length that the widths give. -/
theorem breakdown_columns (inst : Instruction) :
    (Text.columnsOf bar inst.breakdown.1 = Text.gaps 3 (inst.slices.map Slice.width) ∧
        inst.breakdown.1.runeCount + 3 = (inst.slices.map fun s => s.width + 3).sum) ∧
      Text.columnsOf bar inst.breakdown.2 = Text.gaps 3 (inst.slices.map Slice.width) ∧
        inst.breakdown.2.runeCount + 3 = (inst.slices.map fun s => s.width + 3).sum := by
  have hbits : ∀ s ∈ inst.slices, s.bits.runeCount ≤ s.width := by
    intro s hs
    rw [Text.runeCount_of_ascii (visible_of_mem_slices hs).2.ascii]
    exact le_max_right _ _
  rw [breakdown_eq]
  exact ⟨inst.joined_columns Slice.header (fun s hs => (visible_of_mem_slices hs).1.ascii) fun s _ => le_max_left _ _,
    inst.joined_columns Slice.bits (fun s hs => (visible_of_mem_slices hs).2.ascii) hbits⟩

/-- **The bars of the labels and of the bits stand one above the other.** -/
theorem breakdown_aligned (inst : Instruction) :
    inst.breakdown.1.runeCount = inst.breakdown.2.runeCount ∧
      Text.columnsOf bar inst.breakdown.1 = Text.columnsOf bar inst.breakdown.2 ∧
      (Text.columnsOf bar inst.breakdown.2).length + 1 = inst.op.info.format.columns.length := by
  obtain ⟨⟨hlabels, hlong⟩, hdigits, hlong'⟩ := inst.breakdown_columns
  refine ⟨Nat.add_right_cancel (hlong.trans hlong'.symm), hlabels.trans hdigits.symm, ?_⟩
  rw [hdigits, Text.length_gaps (by simpa using inst.slices_ne_nil), List.length_map, length_slices]

theorem flatten_bits (inst : Instruction) : (inst.slices.map Slice.bits).flatten = Text.bits inst.word :=
  flatten_slice _ _ ((Text.length_bits _).trans (Format.sum_widths _).symm)

theorem without_blanks (n : Nat) : (blanks n).without bar = [] := by
  refine Text.without_eq_nil fun r hr => ?_
  rw [Text.runes_of_ascii (ascii_blanks n)] at hr
  obtain ⟨b, hb, rfl⟩ := List.mem_map.mp hr
  rw [List.eq_of_mem_replicate hb, runes_bar]
  exact List.mem_cons_self

theorem without_of_visible {t : Text} (h : t.Visible) : t.without bar = t := by
  refine Text.without_eq_self fun r hr => ?_
  rw [Text.runes_of_ascii h.ascii] at hr
  obtain ⟨b, hb, rfl⟩ := List.mem_map.mp hr
  exact not_mem_runes_bar (h b hb)

theorem without_fill {t : Text} (h : t.Visible) (align : Align) (width : Nat) :
    (align.fill width t).without bar = t := by
  obtain ⟨before, after, -, hfill⟩ := align.exists_fill width t
  have hbefore := Text.closed_of_ascii (ascii_blanks before)
  have hfront := hbefore.append (Text.closed_of_ascii h.ascii)
  rw [hfill, hfront.without_append, hbefore.without_append, without_blanks, without_blanks, without_of_visible h,
    List.nil_append, List.append_nil]

/-- **Without its blanks and bars the lower line is the bits of the word.** -/
theorem breakdown_bits (inst : Instruction) : inst.breakdown.2.without bar = Text.bits inst.word := by
  have hclosed : ∀ part ∈ inst.slices.map (fun s => Align.center.fill s.width s.bits), Closed part :=
    List.forall_mem_map.mpr fun s hs =>
      Text.closed_of_ascii (Align.forall_mem_fill (by decide) (visible_of_mem_slices hs).2.ascii _ _)
  have hcells : inst.slices.map (fun s => (Align.center.fill s.width s.bits).without bar) =
      inst.slices.map Slice.bits :=
    List.map_congr_left fun s hs => without_fill (visible_of_mem_slices hs).2 _ _
  rw [breakdown_eq, Text.without_join closed_bar hclosed (by decide), List.map_map]
  exact (congrArg List.flatten hcells).trans inst.flatten_bits

/-! ### The lines of the table -/

theorem graphic_text (inst : Instruction) : Table.Graphic inst.text := by
  have hname := Table.graphic_of_visible inst.op.visible_name
  have hoperands : inst.operands.text.Visible := by
    rw [Operands.text_eq_join]
    exact Text.visible_join (by decide) fun t ht => (inst.operands.isArgument t ht).1
  simp only [text]
  split_ifs
  · exact hname
  · have hblank : Table.Graphic " " := by decide
    exact List.forall_mem_append.mpr ⟨List.forall_mem_append.mpr ⟨hname, hblank⟩, Table.graphic_of_visible hoperands⟩

theorem graphic_joined (inst : Instruction) {text : Slice → Text} (h : ∀ s ∈ inst.slices, Text.Visible (text s)) :
    Table.Graphic (Text.join bar (inst.slices.map fun s => Align.center.fill s.width (text s))) :=
  Text.forall_mem_join (by decide : Table.Graphic bar) (List.forall_mem_map.mpr fun s hs =>
    Align.forall_mem_fill (by decide) (Table.graphic_of_visible (h s hs)) _ _)

theorem flat_breakdown (inst : Instruction) : Table.Flat inst.breakdown.1 ∧ Table.Flat inst.breakdown.2 := by
  rw [breakdown_eq]
  exact ⟨(inst.graphic_joined fun s hs => (visible_of_mem_slices hs).1).flat,
    (inst.graphic_joined fun s hs => (visible_of_mem_slices hs).2).flat⟩

/-- The lower line has at least the digits of the word. -/
theorem le_runeCount_bits (inst : Instruction) : 32 ≤ inst.breakdown.2.runeCount := by
  have hcount := inst.breakdown_columns.2.2
  have hdigits : (inst.slices.map fun s => s.bits.length).sum = 32 := by
    have hlength := congrArg List.length inst.flatten_bits
    rwa [List.length_flatten, List.map_map, Text.length_bits] at hlength
  have hle : (inst.slices.map fun s => s.bits.length + 3).sum ≤ (inst.slices.map fun s => s.width + 3).sum :=
    List.sum_le_sum fun s _ => Nat.add_le_add_right (le_max_right _ _) 3
  -- the columns have the digits of the word between them, and there is one at least
  have hpos := List.length_pos_iff.mpr inst.slices_ne_nil
  rw [List.sum_map_add, hdigits, List.map_const', List.sum_replicate, smul_eq_mul] at hle
  omega

/-- The row of the table. -/
def tableRow (inst : Instruction) : List Text :=
  ["\n" ++ inst.text, "\n" ++ Text.hexWord inst.word, inst.breakdown.1 ++ "\n" ++ inst.breakdown.2]

theorem rows_table (inst : Instruction) : inst.table.rows = [inst.tableRow] := rfl

/-- The lines of the cells of the row. -/
theorem cellLines_tableRow (inst : Instruction) :
    Table.cellLines (Table.cell inst.tableRow 0) = [[], inst.text] ∧
      Table.cellLines (Table.cell inst.tableRow 1) = [[], Text.hexWord inst.word] ∧
      Table.cellLines (Table.cell inst.tableRow 2) = [inst.breakdown.1, inst.breakdown.2] := by
  have htwo {a b : Text} (ha : Table.Flat a) (hb : Table.Flat b) :
      Table.cellLines (a ++ "\n" ++ b) = [a, b] := by
    have hjoin := Table.cellLines_join (List.cons_ne_nil a [b]) (by simp [ha, hb])
    rwa [Text.join, List.intercalate_cons_cons, List.intercalate_singleton] at hjoin
  have hnone : Table.Flat [] := ⟨List.not_mem_nil, List.not_mem_nil⟩
  have hhex : Table.Flat (Text.hexWord inst.word) :=
    (Table.graphic_of_visible (Text.plain_hexWord inst.word).visible).flat
  exact ⟨htwo hnone inst.graphic_text.flat, htwo hnone hhex, htwo inst.flat_breakdown.1 inst.flat_breakdown.2⟩

theorem range_columnCount (inst : Instruction) : List.range inst.table.columnCount = [0, 1, 2] := rfl

theorem columnCount_ne_zero (inst : Instruction) : inst.table.columnCount ≠ 0 := by
  show 3 ≠ 0
  decide

/-- Only the text and the bits decide how wide the table is: the word is narrower than its header. -/
theorem widths_table (inst : Instruction) :
    inst.table.width 0 = max 8 inst.text.runeCount ∧ inst.table.width 1 = 11 ∧
      inst.table.width 2 = inst.breakdown.2.runeCount := by
  have hwidth (column : Nat) : inst.table.width column = max (Table.columnWidth [inst.table.headers] column)
      (((Table.cellLines (Table.cell inst.tableRow column)).map Text.runeCount).foldl max 0) := by
    rw [Table.width, rows_table, Table.columnWidth_cons, Table.columnWidth_singleton inst.tableRow]
  have hheaders : Table.columnWidth [inst.table.headers] 0 = 8 ∧ Table.columnWidth [inst.table.headers] 1 = 11 ∧
      Table.columnWidth [inst.table.headers] 2 = 6 :=
    (by decide : Table.columnWidth [["Mnemonic", "Hexadecimal", "Binary"]] 0 = 8 ∧
      Table.columnWidth [["Mnemonic", "Hexadecimal", "Binary"]] 1 = 11 ∧
      Table.columnWidth [["Mnemonic", "Hexadecimal", "Binary"]] 2 = 6)
  obtain ⟨htext, hhex, hbits⟩ := inst.cellLines_tableRow
  have hword : (Text.hexWord inst.word).runeCount = 8 := by
    rw [Text.runeCount_of_ascii (Text.plain_hexWord inst.word).visible.ascii, Text.length_hexWord]
  have hlong := inst.le_runeCount_bits
  have hempty : Text.runeCount [] = 0 := rfl
  rw [hwidth, hwidth, hwidth, htext, hhex, hbits, hheaders.1, hheaders.2.1, hheaders.2.2]
  simp only [List.map_cons, List.map_nil, List.foldl_cons, List.foldl_nil, hempty, hword, inst.breakdown_aligned.1]
  omega

theorem rowLines_table (inst : Instruction) :
    inst.table.rowLines inst.table.headers = [inst.table.rowLine inst.table.headers 0] ∧
      inst.table.rowLines inst.tableRow = [inst.table.rowLine inst.tableRow 0, inst.table.rowLine inst.tableRow 1] := by
  obtain ⟨htext, hhex, hbits⟩ := inst.cellLines_tableRow
  constructor
  · refine Table.rowLines_eq (n := 1) inst.columnCount_ne_zero ?_
    exact (by decide : ∀ column < 3,
      (Table.cellLines (Table.cell ["Mnemonic", "Hexadecimal", "Binary"] column)).length = 1)
  · refine Table.rowLines_eq (n := 2) inst.columnCount_ne_zero fun column hcolumn => ?_
    have hcolumn : column < 3 := hcolumn
    interval_cases column
    · rw [htext]
      rfl
    · rw [hhex]
      rfl
    · rw [hbits]
      rfl

/-- The row takes two lines between the rules. -/
theorem tableLines_eq (inst : Instruction) :
    inst.tableLines = [inst.table.rule "┌" "┬" "┐", inst.table.rowLine inst.table.headers 0,
      inst.table.rule "├" "┼" "┤", inst.table.rowLine inst.tableRow 0, inst.table.rowLine inst.tableRow 1,
      inst.table.rule "└" "┴" "┘"] := by
  have hrows : inst.table.rows.flatMap inst.table.rowLines = inst.table.rowLines inst.tableRow := by
    rw [rows_table, List.flatMap_cons, List.flatMap_nil, List.append_nil]
  rw [tableLines, Table.lines, if_neg inst.columnCount_ne_zero, hrows, inst.rowLines_table.1, inst.rowLines_table.2]
  rfl

/-- What a line of the row shows: the lines of its cells between bars, each filled up to the width of its column. -/
theorem rowLine_tableRow (inst : Instruction) (n : Nat) :
    inst.table.rowLine inst.tableRow n =
      "│ " ++ Align.center.fill (max 8 inst.text.runeCount) (([[], inst.text] : List Text).getD n []) ++ " │ " ++
        Align.center.fill 11 (([[], Text.hexWord inst.word] : List Text).getD n []) ++ " │ " ++
        Align.left.fill inst.breakdown.2.runeCount ([inst.breakdown.1, inst.breakdown.2].getD n []) ++ " │" := by
  obtain ⟨htext, hhex, hbits⟩ := inst.cellLines_tableRow
  obtain ⟨htext', hhex', hbits'⟩ := inst.widths_table
  have hfirst : inst.table.filled inst.tableRow n 0 = " " ++ Align.center.fill (max 8 inst.text.runeCount)
      (([[], inst.text] : List Text).getD n []) ++ " " := by
    rw [Table.filled, htext, htext']
    rfl
  have hsecond : inst.table.filled inst.tableRow n 1 = " " ++ Align.center.fill 11
      (([[], Text.hexWord inst.word] : List Text).getD n []) ++ " " := by
    rw [Table.filled, hhex, hhex']
    rfl
  have hthird : inst.table.filled inst.tableRow n 2 = " " ++ Align.left.fill inst.breakdown.2.runeCount
      ([inst.breakdown.1, inst.breakdown.2].getD n []) ++ " " := by
    rw [Table.filled, hbits, hbits']
    rfl
  rw [Table.rowLine_eq, range_columnCount, List.map_cons, List.map_cons, List.map_cons, List.map_nil, hfirst, hsecond,
    hthird, Text.join, List.intercalate_cons_cons, List.intercalate_cons_cons, List.intercalate_singleton]
  simp only [List.append_assoc]
  rfl

theorem runeCount_of_mem_tableLines {line : Text} (h : line ∈ inst.tableLines) :
    line.runeCount = max 8 inst.text.runeCount + inst.breakdown.2.runeCount + 21 := by
  obtain ⟨htext, hhex, hbits⟩ := inst.widths_table
  rw [Table.runeCount_of_mem_lines inst.columnCount_ne_zero h, Table.breadth, range_columnCount]
  simp only [List.map_cons, List.map_nil, List.sum_cons, List.sum_nil, htext, hhex, hbits]
  omega

/-- The line of the labels, and the one of the text, the word and the bits. -/
theorem tableLines_row (inst : Instruction) :
    inst.tableLines[3]? = some ("│ " ++ blanks (max 8 inst.text.runeCount) ++ " │ " ++ blanks 11 ++ " │ " ++
        inst.breakdown.1 ++ " │") ∧
      inst.tableLines[4]? = some ("│ " ++ Align.center.fill (max 8 inst.text.runeCount) inst.text ++ " │ " ++
        Align.center.fill 11 (Text.hexWord inst.word) ++ " │ " ++ inst.breakdown.2 ++ " │") := by
  have hblanks (width : Nat) : Align.center.fill width [] = blanks width := by
    have hnone : Text.runeCount [] = 0 := rfl
    rw [Align.fill, hnone, List.append_nil, blanks, blanks, List.replicate_append_replicate]
    exact congrArg blanks (Nat.sub_add_cancel (Nat.div_le_self _ 2))
  rw [tableLines_eq]
  constructor
  · show some (inst.table.rowLine inst.tableRow 0) = _
    rw [rowLine_tableRow, ← hblanks, ← hblanks, List.getD_cons_zero, List.getD_cons_zero, List.getD_cons_zero,
      Align.fill_of_le inst.breakdown_aligned.1.ge]
  · show some (inst.table.rowLine inst.tableRow 1) = _
    rw [rowLine_tableRow, List.getD_cons_succ, List.getD_cons_succ, List.getD_cons_succ, List.getD_cons_zero,
      List.getD_cons_zero, List.getD_cons_zero, Align.fill_of_le le_rfl]

end Instruction

open Instruction (bar)

/-- **The assembly table is aligned and tells the truth, and output that stops leaves the start of it.** Whatever a line
is read as can be encoded. Its labels and its bits are lines of the same length with their bars at the same columns, one
fewer than the format has columns, and without blanks and bars the lower one is the thirty-two digits of the word in
binary. All lines of the table are of the same length; the labels stand above the line which shows the text of the
instruction, the eight digits of the word and the bits. The table, and that of any registers, is written as far as there
is room for its bytes, be it to the middle of a line, and there is an error just when some are left over. -/
theorem assembly_shown {line : Text} {inst : Instruction} (h : assemble line = .ok inst) :
    ∃ w, inst.encode = .ok w ∧
      (inst.breakdown.1.runeCount = inst.breakdown.2.runeCount ∧
        Text.columnsOf bar inst.breakdown.1 = Text.columnsOf bar inst.breakdown.2 ∧
        (Text.columnsOf bar inst.breakdown.2).length + 1 = inst.op.info.format.columns.length) ∧
      (inst.breakdown.2.without bar = binary 32 w.toNat ∧ (binary 32 w.toNat).length = 32) ∧
      (∀ shown ∈ inst.tableLines,
        shown.runeCount = max 8 inst.text.runeCount + inst.breakdown.2.runeCount + 21) ∧
      (inst.tableLines[3]? = some ("│ " ++ blanks (max 8 inst.text.runeCount) ++ " │ " ++ blanks 11 ++ " │ " ++
          inst.breakdown.1 ++ " │") ∧
        inst.tableLines[4]? = some ("│ " ++ Align.center.fill (max 8 inst.text.runeCount) inst.text ++ " │ " ++
          Align.center.fill 11 (Text.hexWord w) ++ " │ " ++ inst.breakdown.2 ++ " │") ∧
        (Text.hexWord w).length = 8 ∧ Text.natural? 16 (Text.hexWord w) = some w.toNat) ∧
      ∀ regs : RegisterFile, ∀ lines ∈ [inst.tableLines, regs.tableLines], ∀ (written : Text) (room : Nat),
        (Session.writeLines ⟨written, some room⟩ lines).1.written =
            written ++ (Text.lines lines).take (min room (Text.lines lines).length) ∧
          ((Session.writeLines ⟨written, some room⟩ lines).2 ≠ none ↔ room < (Text.lines lines).length) := by
  have hword := Instruction.encode_eq_word (wellFormed_of_assemble h).2.1
  have hbits : Text.bits inst.word = binary 32 inst.word.toNat := Text.bits_eq_binary (by decide) inst.word
  have hrow := inst.tableLines_row
  refine ⟨inst.word, hword, inst.breakdown_aligned, ⟨?_, ?_⟩, fun _ => Instruction.runeCount_of_mem_tableLines,
    ⟨hrow.1, hrow.2, Text.length_hexWord _, Text.natural?_hexWord _⟩, fun regs lines _ written room => ?_⟩
  · rw [← hbits, Instruction.breakdown_bits]
  · rw [← hbits, Text.length_bits]
  · rw [Session.writeLines_of_some, ← List.take_eq_take_min]
    refine ⟨rfl, ?_⟩
    by_cases hroom : room < (Text.lines lines).length
    · simp [hroom]
    · simp [hroom]

/-- A store, with its immediate in two columns, and output that stops one byte before the end of its table. -/
theorem assembly_shown_store :
    let inst : Instruction := ⟨.sw, .s ⟨2⟩ ⟨10⟩ 4⟩
    assemble "sw a0, 4(sp)" = .ok inst ∧ inst.encode = .ok 0x00A12223 ∧
      Text.columnsOf bar inst.breakdown.1 = [9, 17, 25, 34, 45] ∧
      inst.breakdown.2.without bar = "00000000101000010010001000100011" ∧
      inst.tableLines[3]? = some (Text.ofString
        "│              │             │ imm[11:5] │  rs2  │  rs1  │ funct3 │ imm[4:0] │  opcode │") ∧
      inst.tableLines[4]? = some (Text.ofString
        "│ sw x10,4(x2) │   00A12223  │  0000000  │ 01010 │ 00010 │   010  │   00100  │ 0100011 │") ∧
      (Text.lines inst.tableLines).length = 1106 ∧
      (Session.writeLines ⟨[], some 1105⟩ inst.tableLines).1.written = (Text.lines inst.tableLines).take 1105 ∧
      (Session.writeLines ⟨[], some 1105⟩ inst.tableLines).2 ≠ none ∧
      (Session.writeLines ⟨[], some 1106⟩ inst.tableLines).2 = none := by
  intro inst
  have hline : assemble "sw a0, 4(sp)" = .ok inst := by decide
  have hlength : (Text.lines inst.tableLines).length = 1106 := by decide +kernel
  obtain ⟨w, hword, ⟨-, hbars, -⟩, ⟨hbits, -⟩, -, ⟨hlabels, hrow, -, -⟩, hwrite⟩ := assembly_shown hline
  obtain rfl : w = 0x00A12223 := Except.ok.inj (hword.symm.trans (by decide))
  have hroom (room : Nat) := hwrite (Vector.replicate registerCount 0) inst.tableLines List.mem_cons_self [] room
  rw [hlength] at hroom
  refine ⟨hline, hword, hbars.trans (by decide +kernel), hbits.trans (by decide), hlabels.trans (by decide +kernel),
    hrow.trans (by decide +kernel), hlength, (hroom 1105).1, (hroom 1105).2.mpr (by decide), ?_⟩
  exact not_not.mp (mt (hroom 1106).2.mp (by decide))

end RvConsole
