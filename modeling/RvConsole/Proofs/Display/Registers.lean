import RvConsole.Display.Listing
import RvConsole.Proofs.Display.Table
import RvConsole.Proofs.Isa.Operand

/-! The register table shows every register, and nothing is lost in it.

Two tables stand side by side, the lower half of the registers in the left one. Their widths do not depend on what the
registers hold (`width_table`), since a value always has eight digits. So every register stands at columns of its own
(`frames`), from which its value can be read, and a register file is known from its table (`registers_shown`). -/
namespace RvConsole.RegisterFile
open Text (Closed byte)
open Table (Flat cell)

/-! ### Every index checked -/

/-- A register's row; none where there is no such register. -/
def row? (regs : RegisterFile) (index : Nat) : Option (List Text) :=
  regs[index]?.map fun value => [byte 'x' :: Text.numeral 10 index, Register.abiName index, "0x" ++ Text.hexWord value]

/-- The table at a position from the left; none if one of its rows is missing. -/
def table? (regs : RegisterFile) (position : Nat) : Option Table :=
  ((List.range rowCount).mapM fun n => regs.row? (position * rowCount + n)).map fun rows =>
    { headers := ["Name", "ABI", "Value"], rows }

/-- Lines put behind lines, with a blank between; none where there is no line to put one behind. -/
def beside? : List Text → List Text → Option (List Text)
  | lines, [] => some lines
  | [], _ :: _ => none
  | line :: lines, more :: rest => (beside? lines rest).map ((line ++ " " ++ more) :: ·)

/-- The lines of the tables, drawn one table after the other; none if anything is missing on the way. -/
def tableLines? (regs : RegisterFile) : Option (List Text) :=
  (List.range tableCount).foldlM (fun lines position => do
    let table ← regs.table? position
    if position = 0 then some table.lines else beside? lines table.lines) []

theorem mapM_eq_some {α β : Type} {f : α → Option β} {g : α → β} {xs : List α} (h : ∀ x ∈ xs, f x = some (g x)) :
    xs.mapM f = some (xs.map g) := by
  induction xs with
  | nil => rfl
  | cons x rest ih =>
    obtain ⟨hx, hrest⟩ := List.forall_mem_cons.mp h
    rw [List.mapM_cons, hx, ih hrest]
    rfl

theorem row?_eq (regs : RegisterFile) {index : Nat} (h : index < registerCount) :
    regs.row? index = some (regs.row index) := by
  rw [row?, row, Vector.getElem?_eq_getElem h]
  rfl

theorem table?_eq (regs : RegisterFile) {position : Nat} (h : position < tableCount) :
    regs.table? position = some (regs.table position) := by
  have hrows : ∀ n ∈ List.range rowCount, regs.row? (position * rowCount + n) =
      some (regs.row (position * rowCount + n)) := by
    intro n hn
    apply row?_eq
    have hn : n < 16 := List.mem_range.mp hn
    have h : position < 2 := h
    show position * 16 + n < 32
    omega
  rw [table?, mapM_eq_some hrows]
  rfl

theorem beside?_eq {left right : List Text} (h : left.length = right.length) :
    beside? left right = some (List.zipWith (fun a b : Text => a ++ " " ++ b) left right) := by
  induction left generalizing right with
  | nil =>
    rw [List.length_eq_zero_iff.mp h.symm]
    rfl
  | cons line lines ih =>
    obtain ⟨more, rest, rfl⟩ := List.exists_cons_of_length_eq_add_one h.symm
    rw [beside?, ih (Nat.succ.inj h)]
    rfl

/-! ### Cells -/

theorem plain_abiName (index : Nat) : Text.Plain (Register.abiName index) := by
  have hletter {b : UInt8} (hb : 45 ≤ b.toNat ∧ b.toNat < 127) (n : Nat) : Text.Plain (b :: Text.numeral 10 n) :=
    List.forall_mem_cons.mpr ⟨hb, Text.plain_numeral n⟩
  unfold Register.abiName
  split_ifs with h
  · exact (by decide : ∀ index < 5,
      Text.Plain ((["zero", "ra", "sp", "gp", "tp"] : List Text)[index]?.getD [])) index h
  all_goals exact hletter (by decide) _

theorem plain_cell (regs : RegisterFile) (index column : Nat) : Text.Plain (cell (regs.row index) column) := by
  rcases column with _ | _ | _ | column
  · exact List.forall_mem_cons.mpr ⟨by decide, Text.plain_numeral index⟩
  · exact plain_abiName index
  · exact List.forall_mem_append.mpr ⟨(by decide : Text.Plain "0x"), Text.plain_hexWord _⟩
  · exact List.forall_mem_nil _

variable {regs : RegisterFile} {position : Nat}

theorem row_mem (regs : RegisterFile) (position : Nat) {n : Nat} (h : n < rowCount) :
    regs.row (position * rowCount + n) ∈ (regs.table position).headers :: (regs.table position).rows :=
  List.mem_cons_of_mem _ (List.mem_map_of_mem (List.mem_range.mpr h))

theorem plain_of_mem {row : List Text} (h : row ∈ (regs.table position).headers :: (regs.table position).rows)
    (column : Nat) : Text.Plain (cell row column) := by
  rcases List.mem_cons.mp h with rfl | h
  · rcases column with _ | _ | _ | column
    · exact (by decide : Text.Plain "Name")
    · exact (by decide : Text.Plain "ABI")
    · exact (by decide : Text.Plain "Value")
    · exact List.forall_mem_nil _
  · obtain ⟨n, -, rfl⟩ := List.mem_map.mp h
    exact regs.plain_cell _ column

theorem flat_of_mem {row : List Text} (h : row ∈ (regs.table position).headers :: (regs.table position).rows)
    (column : Nat) : Table.Flat (cell row column) := (Table.graphic_of_visible (plain_of_mem h column).visible).flat

/-! ### Widths -/

theorem columnCount_table (regs : RegisterFile) (position : Nat) : (regs.table position).columnCount = 3 := by
  have hrows : (regs.table position).rows.map List.length = List.replicate rowCount 3 := by
    rw [List.eq_replicate_iff]
    simp [table, row]
  rw [Table.columnCount, List.map_cons, hrows]
  exact (by decide : (3 :: List.replicate rowCount 3).foldl max 0 = 3)

theorem columnCount_ne_zero (regs : RegisterFile) (position : Nat) : (regs.table position).columnCount ≠ 0 := by
  rw [columnCount_table]
  decide

/-- A column is as wide as the widest of its texts. -/
theorem width_table (position : Nat) {column : Nat} {count : Nat → Nat}
    (h : ∀ index, (cell (regs.row index) column).runeCount = count index) :
    (regs.table position).width column = ((cell ["Name", "ABI", "Value"] column).runeCount ::
      (List.range rowCount).map fun n => count (position * rowCount + n)).foldl max 0 := by
  rw [Table.width, Table.columnWidth_of_flat fun row hrow => flat_of_mem hrow column]
  refine congrArg (fun counts => List.foldl max 0 (_ :: counts)) ?_
  show ((List.range rowCount).map fun n => regs.row (position * rowCount + n)).map _ = _
  rw [List.map_map]
  exact List.map_congr_left fun n _ => h _

theorem runeCount_value (w : Word) : Text.runeCount ("0x" ++ Text.hexWord w) = 10 := by
  have hascii : Text.Ascii ("0x" ++ Text.hexWord w) :=
    Text.ascii_append (by decide : Text.Visible "0x").ascii (Text.plain_hexWord w).visible.ascii
  rw [Text.runeCount_of_ascii hascii, List.length_append, Text.length_hexWord]
  rfl

/-- The widths of the columns, which no value changes: only the names differ between the tables. -/
theorem widths_table (regs : RegisterFile) :
    ((regs.table 0).width 0 = 4 ∧ (regs.table 0).width 1 = 4 ∧ (regs.table 0).width 2 = 10) ∧
      (regs.table 1).width 0 = 4 ∧ (regs.table 1).width 1 = 3 ∧ (regs.table 1).width 2 = 10 := by
  have hname : ∀ index, (cell (regs.row index) 0).runeCount = Text.runeCount (byte 'x' :: Text.numeral 10 index) :=
    fun _ => rfl
  have habi : ∀ index, (cell (regs.row index) 1).runeCount = (Register.abiName index).runeCount := fun _ => rfl
  have hvalue : ∀ index, (cell (regs.row index) 2).runeCount = 10 := fun _ => runeCount_value _
  rw [width_table 0 hname, width_table 0 habi, width_table 0 hvalue, width_table 1 hname, width_table 1 habi,
    width_table 1 hvalue]
  decide +kernel

/-! ### Lines -/

theorem lines_table (regs : RegisterFile) (position : Nat) :
    (regs.table position).lines.length = 20 ∧
      ∀ n < rowCount, (regs.table position).lines[3 + n]? =
        some ((regs.table position).rowLine (regs.row (position * rowCount + n)) 0) := by
  rw [Table.lines_of_flat (columnCount_ne_zero regs position) fun row hrow column => flat_of_mem hrow column]
  constructor
  · simp [table, rowCount, registerCount, tableCount]
  · intro n hn
    have hrow : (regs.table position).rows[n]? = some (regs.row (position * rowCount + n)) := by
      simp [table, hn]
    have hlt : n < ((regs.table position).rows.map ((regs.table position).rowLine · 0)).length := by
      simpa [table] using hn
    rw [Nat.add_comm, List.getElem?_cons_succ, List.getElem?_cons_succ, List.getElem?_cons_succ,
      List.getElem?_append_left hlt, List.getElem?_map, hrow]
    rfl

theorem breadth_table (regs : RegisterFile) : (regs.table 0).breadth = 28 ∧ (regs.table 1).breadth = 27 := by
  obtain ⟨⟨hname, habi, hvalue⟩, hname', habi', hvalue'⟩ := widths_table regs
  have hthree : List.range 3 = [0, 1, 2] := rfl
  simp only [Table.breadth, columnCount_table, hthree, List.map_cons, List.map_nil, hname, habi, hvalue, hname', habi',
    hvalue']
  decide

theorem length_tableLines (regs : RegisterFile) : regs.tableLines.length = 20 := by
  rw [tableLines, List.length_zipWith, (lines_table regs 0).1, (lines_table regs 1).1]
  rfl

/-- No index is out of range. -/
theorem tableLines?_eq (regs : RegisterFile) : regs.tableLines? = some regs.tableLines := by
  have htables : List.range tableCount = [0, 1] := rfl
  have hlength : (regs.table 0).lines.length = (regs.table 1).lines.length := by
    rw [(lines_table regs 0).1, (lines_table regs 1).1]
  simp [tableLines?, htables, table?_eq regs (by decide : 0 < tableCount), table?_eq regs (by decide : 1 < tableCount),
    beside?_eq hlength, tableLines]

/-- The line of a register of the left table and of the one beside it. -/
theorem tableLines_getElem? (regs : RegisterFile) {n : Nat} (h : n < rowCount) :
    regs.tableLines[3 + n]? = some ((regs.table 0).rowLine (regs.row n) 0 ++ " " ++
      (regs.table 1).rowLine (regs.row (rowCount + n)) 0) := by
  have hleft := (lines_table regs 0).2 n h
  have hright := (lines_table regs 1).2 n h
  rw [Nat.zero_mul, Nat.zero_add] at hleft
  rw [Nat.one_mul] at hright
  rw [tableLines, List.getElem?_zipWith, hleft, hright]

theorem runeCount_of_mem {line : Text} (h : line ∈ regs.tableLines) : line.runeCount = 56 := by
  have hblank : Text.Ascii " " := ascii_blanks 1
  have hone : Text.runeCount " " = 1 := rfl
  obtain ⟨left, hleft, right, hright, rfl⟩ : ∃ left ∈ (regs.table 0).lines, ∃ right ∈ (regs.table 1).lines,
      left ++ " " ++ right = line := by
    obtain ⟨k, hk, rfl⟩ := List.getElem_of_mem h
    simp only [tableLines, List.getElem_zipWith]
    exact ⟨_, List.getElem_mem _, _, List.getElem_mem _, rfl⟩
  rw [(Text.closed_append_of_ascii left hblank (by decide)).runeCount_append,
    Text.runeCount_append_of_ascii left hblank, Table.runeCount_of_mem_lines (columnCount_ne_zero regs 0) hleft,
    Table.runeCount_of_mem_lines (columnCount_ne_zero regs 1) hright, (breadth_table regs).1, (breadth_table regs).2,
    hone]

/-! ### Registers in their frames -/

/-- A text stands in a line between two bars, from a column on and filled up to a width. -/
def Boxed (line : Text) (frame : Nat × Nat) (text : Text) : Prop :=
  line.window frame.1 (frame.2 + 4) = "│ " ++ Align.left.fill frame.2 text ++ " │"

instance (line : Text) (frame : Nat × Nat) (text : Text) : Decidable (Boxed line frame text) :=
  inferInstanceAs (Decidable (_ = _))

/-- Where the cells of a register stand: the column of the left bar, and the width of the text. -/
def frames (index : Nat) : List (Nat × Nat) :=
  if index < rowCount then [(0, 4), (7, 4), (14, 10)] else [(29, 4), (36, 3), (42, 10)]

variable {line before : Text} {n column : Nat}

/-- A register's cell stands in its frame, whatever stands around the line of its table. -/
theorem boxed_rowLine (regs : RegisterFile) (position : Nat) (hn : n < rowCount) (hcolumn : column < 3)
    (hbefore : Closed before) (after : Text) :
    Boxed (before ++ ((regs.table position).rowLine (regs.row (position * rowCount + n)) 0 ++ after))
      (before.runeCount + (regs.table position).edge column, (regs.table position).width column)
      (cell (regs.row (position * rowCount + n)) column) := by
  have hrow := row_mem regs position hn
  have hcolumn : column < (regs.table position).columnCount := by rwa [columnCount_table]
  have hinside := Table.edge_add_le hcolumn
  rw [← Table.runeCount_rowLine (Nat.ne_zero_of_lt hcolumn) hrow 0] at hinside
  have hfilled : (regs.table position).filled (regs.row (position * rowCount + n)) 0 column =
      " " ++ Align.left.fill ((regs.table position).width column)
        (cell (regs.row (position * rowCount + n)) column) ++ " " := by
    rw [Table.filled, Table.cellLines_of_flat (flat_of_mem hrow column)]
    rfl
  rw [Boxed, Text.window_add hbefore, Text.window_of_le (Table.closed_rowLine _ _ _) hinside,
    Table.window_rowLine hrow hcolumn, hfilled]
  simp only [List.append_assoc]
  rfl

theorem edges_table (regs : RegisterFile) :
    ((regs.table 0).edge 0 = 0 ∧ (regs.table 0).edge 1 = 7 ∧ (regs.table 0).edge 2 = 14) ∧
      (regs.table 1).edge 0 = 0 ∧ (regs.table 1).edge 1 = 7 ∧ (regs.table 1).edge 2 = 13 := by
  obtain ⟨⟨hname, habi, hvalue⟩, hname', habi', hvalue'⟩ := widths_table regs
  have hone : List.range 1 = [0] := rfl
  have htwo : List.range 2 = [0, 1] := rfl
  simp [Table.edge, hone, htwo, hname, habi, hname', habi']

theorem boxed_cells (regs : RegisterFile) (position : Nat) (hn : n < rowCount) (hbefore : Closed before)
    (after : Text) :
    List.Forall₂ (Boxed (before ++ ((regs.table position).rowLine (regs.row (position * rowCount + n)) 0 ++ after)))
      ([0, 1, 2].map fun column =>
        (before.runeCount + (regs.table position).edge column, (regs.table position).width column))
      (regs.row (position * rowCount + n)) :=
  .cons (boxed_rowLine regs position hn (by decide : 0 < 3) hbefore after)
    (.cons (boxed_rowLine regs position hn (by decide : 1 < 3) hbefore after)
      (.cons (boxed_rowLine regs position hn (by decide : 2 < 3) hbefore after) .nil))

/-- **Every register stands in its frames.** -/
theorem boxed_row (regs : RegisterFile) {index : Nat} (h : index < registerCount) :
    ∃ line, regs.tableLines[3 + index % rowCount]? = some line ∧
      List.Forall₂ (Boxed line) (frames index) (regs.row index) := by
  obtain ⟨⟨hname, habi, hvalue⟩, hname', habi', hvalue'⟩ := widths_table regs
  obtain ⟨⟨hfirst, hsecond, hthird⟩, hfirst', hsecond', hthird'⟩ := edges_table regs
  refine ⟨_, tableLines_getElem? regs (Nat.mod_lt _ (by decide)), ?_⟩
  by_cases hleft : index < rowCount
  · have hboxed := boxed_cells regs 0 hleft Text.closed_nil
      (" " ++ (regs.table 1).rowLine (regs.row (rowCount + index)) 0)
    simp only [Nat.zero_mul, Nat.zero_add, List.nil_append, List.map_cons, List.map_nil, hfirst, hsecond, hthird, hname,
      habi, hvalue] at hboxed
    rw [Nat.mod_eq_of_lt hleft, frames, if_pos hleft, List.append_assoc]
    exact hboxed
  · have hcount : index % rowCount < rowCount := Nat.mod_lt _ (by decide)
    have hindex : rowCount + index % rowCount = index := by
      have hle : rowCount ≤ index := not_lt.mp hleft
      have hlt : index - rowCount < rowCount := by
        show index - 16 < 16
        have : index < 32 := h
        have : 16 ≤ index := hle
        omega
      rw [Nat.mod_eq_sub_mod hle, Nat.mod_eq_of_lt hlt, Nat.add_sub_cancel' hle]
    have hblank : Text.Ascii " " := ascii_blanks 1
    have hrow := row_mem regs 0 hcount
    rw [Nat.zero_mul, Nat.zero_add] at hrow
    have hbefore : Text.runeCount ((regs.table 0).rowLine (regs.row (index % rowCount)) 0 ++ " ") = 29 := by
      rw [Text.runeCount_append_of_ascii _ hblank, Table.runeCount_rowLine (columnCount_ne_zero regs 0) hrow,
        (breadth_table regs).1]
      rfl
    have hboxed := boxed_cells regs 1 hcount (Text.closed_append_of_ascii
      ((regs.table 0).rowLine (regs.row (index % rowCount)) 0) hblank (by decide)) []
    rw [hbefore, Nat.one_mul, hindex, List.append_nil] at hboxed
    simp only [List.map_cons, List.map_nil, hfirst', hsecond', hthird', hname', habi', hvalue'] at hboxed
    rw [frames, if_neg hleft, hindex]
    exact hboxed

/-! ### Values read back -/

theorem boxed_value_injective {line : Text} {column : Nat} {v w : Word}
    (hv : Boxed line (column, 10) ("0x" ++ Text.hexWord v)) (hw : Boxed line (column, 10) ("0x" ++ Text.hexWord w)) :
    v = w := by
  have hfill (w : Word) : Align.left.fill 10 ("0x" ++ Text.hexWord w) = "0x" ++ Text.hexWord w := by
    rw [Align.fill, runeCount_value]
    exact List.append_nil _
  rw [Boxed, hfill] at hv hw
  have heq := List.append_cancel_left (List.append_cancel_right (hv.symm.trans hw))
  exact Text.hexWord_injective (List.append_cancel_left heq)

/-- A register file is known from its table. -/
theorem eq_of_tableLines {other : RegisterFile} (h : other.tableLines = regs.tableLines) : other = regs := by
  apply Vector.ext
  intro index hindex
  obtain ⟨line, hline, hcells⟩ := boxed_row regs hindex
  obtain ⟨line', hline', hcells'⟩ := boxed_row other hindex
  rw [h, hline] at hline'
  obtain rfl := Option.some.inj hline'
  obtain ⟨name, abi, column, hframes⟩ : ∃ name abi column, frames index = [name, abi, (column, 10)] := by
    unfold frames
    split_ifs
    · exact ⟨_, _, _, rfl⟩
    · exact ⟨_, _, _, rfl⟩
  have hvalue (regs : RegisterFile) : regs[index]?.getD 0 = regs[index] := by
    rw [Vector.getElem?_eq_getElem hindex]
    rfl
  rw [hframes, row, hvalue] at hcells hcells'
  simp only [List.forall₂_cons] at hcells hcells'
  exact boxed_value_injective hcells'.2.2.1 hcells.2.2.1

/-- **The register table is complete, rectangular and lossless.** For every register file, nothing that is asked for is
missing while the tables are drawn. There are twenty lines of fifty-six runes. In the line of its place within its table
every register stands between bars by its number, its name and the eight digits of its value, the lower half of the
registers in the left table and the upper half in the right one, at columns that the values do not move. So register
files that look alike are the same. -/
theorem registers_shown (regs : RegisterFile) :
    regs.tableLines? = some regs.tableLines ∧ regs.tableLines.length = 20 ∧
      (∀ line ∈ regs.tableLines, line.runeCount = 56) ∧
      (∀ i : Fin registerCount, (Text.hexWord regs[i]).length = 8 ∧
        ∃ line, regs.tableLines[3 + i % rowCount]? = some line ∧
          List.Forall₂ (Boxed line) (frames i)
            [byte 'x' :: Text.numeral 10 i, Register.abiName i, "0x" ++ Text.hexWord regs[i]]) ∧
      ∀ other : RegisterFile, other.tableLines = regs.tableLines → other = regs := by
  refine ⟨tableLines?_eq regs, length_tableLines regs, fun _ => runeCount_of_mem, fun i => ⟨Text.length_hexWord _, ?_⟩,
    fun _ => eq_of_tableLines⟩
  have hvalue : regs[i.val]?.getD 0 = regs[i] := by
    rw [Vector.getElem?_eq_getElem i.isLt]
    rfl
  have hrow := boxed_row regs i.isLt
  rw [row, hvalue] at hrow
  exact hrow

/-- The last register stands at the right, and a register file with nothing in it looks different. -/
theorem registers_shown_last :
    let regs : RegisterFile := ((Vector.replicate registerCount 0).set 10 5 (by decide)).set 31 0xDEADBEEF (by decide)
    (∃ line, regs.tableLines[18]? = some line ∧ line.runeCount = 56 ∧
      line.window 29 8 = Text.ofString "│ x31  │" ∧ line.window 36 7 = Text.ofString "│ t6  │" ∧
      line.window 42 14 = Text.ofString "│ 0xDEADBEEF │") ∧
    tableLines (Vector.replicate registerCount 0) ≠ regs.tableLines := by
  intro regs
  obtain ⟨-, -, hcount, hshown, hknown⟩ := registers_shown regs
  obtain ⟨-, line, hline, hcells⟩ := hshown ⟨31, by decide⟩
  have hframes : frames 31 = [(29, 4), (36, 3), (42, 10)] := rfl
  rw [hframes] at hcells
  simp only [List.forall₂_cons] at hcells
  obtain ⟨hname, habi, hvalue, -⟩ := hcells
  refine ⟨⟨line, hline, hcount line (List.mem_of_getElem? hline), hname.trans (by decide), habi.trans (by decide),
    hvalue.trans (by decide)⟩, fun h => ?_⟩
  exact absurd (congrArg (·[10]) (hknown _ h)) (by decide)

end RvConsole.RegisterFile
