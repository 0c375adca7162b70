import RvConsole.Display.Table
import RvConsole.Proofs.Text.Measure

/-! The geometry of tables.

Every line of a table is as wide as every other, whatever its cells hold (`runeCount_of_mem_lines`): each is cells of
the columns' widths between marks of one rune. So a cell stands between its bars at a column that only the widths decide
(`window_rowLine`), and a column is no wider than its widest line (`columnWidth_le_iff`). -/
namespace RvConsole
open Text (Closed byte)

/-! ### Blanks and marks -/

theorem ascii_blanks (n : Nat) : Text.Ascii (blanks n) := by
  intro b hb
  rw [List.eq_of_mem_replicate hb]
  decide

theorem runeCount_blanks (n : Nat) : (blanks n).runeCount = n := by
  rw [Text.runeCount_of_ascii (ascii_blanks n), blanks, List.length_replicate]

/-- A text of one rune that nothing behind it changes. -/
def IsMark (t : Text) : Prop := Closed t ∧ t.runeCount = 1

theorem isMark_bar : IsMark "│" := ⟨fun _ => rfl, rfl⟩

theorem isMark_dash : IsMark "─" := ⟨fun _ => rfl, rfl⟩

namespace Align

theorem exists_fill (align : Align) (width : Nat) (t : Text) :
    ∃ before after, before + after = width - t.runeCount ∧ align.fill width t = blanks before ++ t ++ blanks after := by
  cases align with
  | left => exact ⟨0, width - t.runeCount, Nat.zero_add _, rfl⟩
  | right => exact ⟨width - t.runeCount, 0, rfl, (List.append_nil _).symm⟩
  | center => exact ⟨_, _, Nat.sub_add_cancel (Nat.div_le_self _ 2), rfl⟩

/-- Filled text is as wide as asked for, or as the text. -/
theorem runeCount_fill (align : Align) (width : Nat) (t : Text) :
    (align.fill width t).runeCount = max width t.runeCount := by
  obtain ⟨before, after, hmissing, hfill⟩ := align.exists_fill width t
  rw [hfill, Text.runeCount_append_of_ascii _ (ascii_blanks after),
    (Text.closed_of_ascii (ascii_blanks before)).runeCount_append, runeCount_blanks, runeCount_blanks]
  omega

theorem fill_of_le {width : Nat} {t : Text} (h : width ≤ t.runeCount) (align : Align) : align.fill width t = t := by
  obtain ⟨before, after, hmissing, hfill⟩ := align.exists_fill width t
  rw [Nat.sub_eq_zero_of_le h, Nat.add_eq_zero_iff] at hmissing
  rw [hfill, hmissing.1, hmissing.2]
  exact List.append_nil t

theorem forall_mem_fill {P : UInt8 → Prop} {t : Text} (hblank : P (byte ' ')) (h : ∀ b ∈ t, P b) (align : Align)
    (width : Nat) : ∀ b ∈ align.fill width t, P b := by
  have hblanks (n : Nat) : ∀ b ∈ blanks n, P b := fun b hb => List.eq_of_mem_replicate hb ▸ hblank
  obtain ⟨before, after, -, hfill⟩ := align.exists_fill width t
  rw [hfill, List.forall_mem_append, List.forall_mem_append]
  exact ⟨⟨hblanks before, h⟩, hblanks after⟩

end Align

namespace Table
variable {t : Table} {row : List Text} {rows : List (List Text)} {line : Text} {column n : Nat}

/-! ### Widths -/

theorem foldl_max_le_iff (xs : List Nat) (start n : Nat) : xs.foldl max start ≤ n ↔ start ≤ n ∧ ∀ x ∈ xs, x ≤ n := by
  induction xs generalizing start with
  | nil => simp
  | cons x rest ih => rw [List.foldl_cons, ih, max_le_iff, List.forall_mem_cons, and_assoc]

/-- **A column is as wide as its widest line.** -/
theorem columnWidth_le_iff : columnWidth rows column ≤ n ↔
    ∀ row ∈ rows, ∀ line ∈ cellLines (cell row column), line.runeCount ≤ n := by
  simp only [columnWidth, foldl_max_le_iff, Nat.zero_le, true_and, List.forall_mem_flatMap, List.forall_mem_map]

theorem columnWidth_cons (row : List Text) (rows : List (List Text)) (column : Nat) :
    columnWidth (row :: rows) column = max (columnWidth [row] column) (columnWidth rows column) := by
  refine eq_of_forall_ge_iff fun n => ?_
  rw [max_le_iff, columnWidth_le_iff, columnWidth_le_iff, columnWidth_le_iff, List.forall_mem_cons,
    List.forall_mem_singleton]

theorem columnWidth_singleton (row : List Text) (column : Nat) :
    columnWidth [row] column = ((cellLines (cell row column)).map Text.runeCount).foldl max 0 := by
  rw [columnWidth, List.flatMap_cons, List.flatMap_nil, List.append_nil]

/-- The width of a column of a table, its header included. -/
def width (t : Table) (column : Nat) : Nat := columnWidth (t.headers :: t.rows) column

theorem runeCount_le_width (hrow : row ∈ t.headers :: t.rows) (column n : Nat) :
    ((cellLines (cell row column)).getD n []).runeCount ≤ t.width column := by
  rcases Nat.lt_or_ge n (cellLines (cell row column)).length with hlt | hge
  · rw [List.getD_eq_getElem _ _ hlt]
    exact columnWidth_le_iff.mp le_rfl row hrow _ (List.getElem_mem hlt)
  · rw [List.getD_eq_default _ _ hge]
    exact Nat.zero_le _

/-! ### Lines between marks -/

/-- Cells between marks, one in front, one behind, and one between neighbours. -/
theorem runeCount_framed {start between stop : Text} {cells : List Text} (hstart : IsMark start)
    (hbetween : IsMark between) (hstop : IsMark stop) (hcells : ∀ cell ∈ cells, Closed cell) (hne : cells ≠ []) :
    (start ++ Text.join between cells ++ stop).runeCount = (cells.map fun cell => cell.runeCount + 1).sum + 1 := by
  have hjoin := Text.runeCount_join hbetween.1 hcells hne
  have hclosed := hstart.1.append (Text.closed_join hbetween.1 hcells)
  rw [hbetween.2] at hjoin
  rw [hclosed.runeCount_append, hstart.1.runeCount_append, hstart.2, hstop.2, ← hjoin]
  omega

/-- One line of a cell, filled up, with its blanks. -/
def filled (t : Table) (row : List Text) (n column : Nat) : Text :=
  " " ++ (t.align column).fill (t.width column) ((cellLines (cell row column)).getD n []) ++ " "

theorem closed_filled (t : Table) (row : List Text) (n column : Nat) : Closed (t.filled row n column) :=
  Text.closed_append_of_ascii _ (ascii_blanks 1) (by decide)

theorem runeCount_filled (hrow : row ∈ t.headers :: t.rows) (n column : Nat) :
    (t.filled row n column).runeCount = t.width column + 2 := by
  have hblank : Text.Ascii " " := ascii_blanks 1
  have hone : Text.runeCount " " = 1 := rfl
  rw [filled, Text.runeCount_append_of_ascii _ hblank, (Text.closed_of_ascii hblank).runeCount_append,
    Align.runeCount_fill, max_eq_left (runeCount_le_width hrow column n), hone]
  omega

theorem widths_eq (t : Table) : t.widths = (List.range t.columnCount).map t.width := rfl

theorem rowLine_eq (t : Table) (row : List Text) (n : Nat) :
    t.rowLine row n = "│" ++ Text.join "│" ((List.range t.columnCount).map (t.filled row n)) ++ "│" := by
  have hcells : t.widths.mapIdx (fun column width =>
      " " ++ (t.align column).fill width ((cellLines (cell row column)).getD n []) ++ " ") =
        (List.range t.columnCount).map (t.filled row n) := by
    apply List.ext_getElem
    · simp [widths_eq]
    · intro column _ _
      simp [widths_eq, filled]
  rw [rowLine, hcells]

theorem closed_rowLine (t : Table) (row : List Text) (n : Nat) : Closed (t.rowLine row n) := by
  have hcells := List.forall_mem_map.mpr fun column (_ : column ∈ List.range t.columnCount) =>
    t.closed_filled row n column
  rw [rowLine_eq]
  exact (isMark_bar.1.append (Text.closed_join isMark_bar.1 hcells)).append isMark_bar.1

/-- How wide the lines of a table are. -/
def breadth (t : Table) : Nat := ((List.range t.columnCount).map fun column => t.width column + 3).sum + 1

theorem runeCount_rowLine (hcolumns : t.columnCount ≠ 0) (hrow : row ∈ t.headers :: t.rows) (n : Nat) :
    (t.rowLine row n).runeCount = t.breadth := by
  have hne : (List.range t.columnCount).map (t.filled row n) ≠ [] := by simpa using hcolumns
  rw [rowLine_eq, runeCount_framed isMark_bar isMark_bar isMark_bar
    (List.forall_mem_map.mpr fun column _ => t.closed_filled row n column) hne, List.map_map, breadth]
  refine congrArg (List.sum · + 1) (List.map_congr_left fun column _ => ?_)
  rw [Function.comp_apply, runeCount_filled hrow]

theorem isMark_dashes (n : Nat) :
    Closed (List.replicate n ("─" : Text)).flatten ∧ Text.runeCount (List.replicate n ("─" : Text)).flatten = n := by
  induction n with
  | zero => exact ⟨Text.closed_nil, rfl⟩
  | succ n ih =>
    rw [List.replicate_succ, List.flatten_cons, isMark_dash.1.runeCount_append, isMark_dash.2, ih.2]
    exact ⟨isMark_dash.1.append ih.1, Nat.add_comm 1 n⟩

theorem runeCount_rule (hcolumns : t.columnCount ≠ 0) {start between stop : Text} (hstart : IsMark start)
    (hbetween : IsMark between) (hstop : IsMark stop) : (t.rule start between stop).runeCount = t.breadth := by
  have hne : t.widths ≠ [] := by simpa [widths_eq] using hcolumns
  rw [rule, runeCount_framed hstart hbetween hstop
    (List.forall_mem_map.mpr fun width _ => (isMark_dashes (width + 2)).1) (by simpa using hne), List.map_map, breadth,
    widths_eq, List.map_map]
  refine congrArg (List.sum · + 1) (List.map_congr_left fun column _ => ?_)
  rw [Function.comp_apply, Function.comp_apply, (isMark_dashes _).2]

/-- **Tables are rectangular.** -/
theorem runeCount_of_mem_lines (hcolumns : t.columnCount ≠ 0) (h : line ∈ t.lines) : line.runeCount = t.breadth := by
  have hmark : ∀ mark ∈ (["┌", "┬", "┐", "├", "┼", "┤", "└", "┴", "┘"] : List Text), IsMark mark := by
    simp only [List.forall_mem_cons]
    exact ⟨⟨fun _ => rfl, rfl⟩, ⟨fun _ => rfl, rfl⟩, ⟨fun _ => rfl, rfl⟩, ⟨fun _ => rfl, rfl⟩, ⟨fun _ => rfl, rfl⟩,
      ⟨fun _ => rfl, rfl⟩, ⟨fun _ => rfl, rfl⟩, ⟨fun _ => rfl, rfl⟩, ⟨fun _ => rfl, rfl⟩, List.forall_mem_nil _⟩
  have hrows : ∀ row ∈ t.headers :: t.rows, ∀ line ∈ t.rowLines row, line.runeCount = t.breadth := by
    intro row hrow line hline
    obtain ⟨n, -, rfl⟩ := List.mem_map.mp hline
    exact runeCount_rowLine hcolumns hrow n
  rw [lines, if_neg hcolumns] at h
  simp only [List.mem_append, List.mem_singleton, List.mem_flatMap] at h
  obtain (((rfl | hline) | rfl) | ⟨row, hrow, hline⟩) | rfl := h
  · exact runeCount_rule hcolumns (hmark _ (by simp)) (hmark _ (by simp)) (hmark _ (by simp))
  · exact hrows _ List.mem_cons_self _ hline
  · exact runeCount_rule hcolumns (hmark _ (by simp)) (hmark _ (by simp)) (hmark _ (by simp))
  · exact hrows _ (List.mem_cons_of_mem _ hrow) _ hline
  · exact runeCount_rule hcolumns (hmark _ (by simp)) (hmark _ (by simp)) (hmark _ (by simp))

/-! ### Cells -/

theorem frame_eq_flatMap (bar : Text) {cells : List Text} (hne : cells ≠ []) :
    bar ++ Text.join bar cells ++ bar = cells.flatMap (bar ++ ·) ++ bar := by
  obtain ⟨cell, rest, rfl⟩ := List.exists_cons_of_ne_nil hne
  rw [Text.join_cons, List.flatMap_cons, List.append_assoc bar cell]

theorem flatMap_append_bar (bar : Text) (cells : List Text) :
    cells.flatMap (bar ++ ·) ++ bar = bar ++ cells.flatMap (· ++ bar) := by
  induction cells with
  | nil => simp
  | cons cell rest ih => rw [List.flatMap_cons, List.append_assoc, ih, List.flatMap_cons]; simp only [List.append_assoc]

/-- The column at which the frame of a cell starts. -/
def edge (t : Table) (column : Nat) : Nat := ((List.range column).map fun column => t.width column + 3).sum

theorem exists_range_eq {count : Nat} (h : column < count) :
    ∃ rest, List.range count = List.range column ++ column :: rest := by
  obtain ⟨more, rfl⟩ := Nat.exists_eq_add_of_le (Nat.succ_le_of_lt h)
  refine ⟨(List.range more).map (column + 1 + ·), ?_⟩
  rw [Nat.succ_eq_add_one, List.range_add, List.range_succ, List.append_assoc]
  rfl

/-- The frame of a cell is inside the line. -/
theorem edge_add_le (hcolumn : column < t.columnCount) : t.edge column + (t.width column + 4) ≤ t.breadth := by
  obtain ⟨rest, hrest⟩ := exists_range_eq hcolumn
  rw [breadth, hrest, List.map_append, List.sum_append, List.map_cons, List.sum_cons, edge]
  omega

/-- **A cell stands between its bars at a column that only the widths decide.** -/
theorem window_rowLine (hrow : row ∈ t.headers :: t.rows) (hcolumn : column < t.columnCount) (n : Nat) :
    (t.rowLine row n).window (t.edge column) (t.width column + 4) = "│" ++ t.filled row n column ++ "│" := by
  obtain ⟨rest, hrest⟩ := exists_range_eq hcolumn
  have hbars (k : Nat) : Closed (("│" : Text) ++ t.filled row n k) := isMark_bar.1.append (t.closed_filled row n k)
  -- the cells in front, the cell between its bars, and the rest
  have hline : t.rowLine row n = ((List.range column).flatMap fun k => ("│" : Text) ++ t.filled row n k) ++
      (("│" ++ t.filled row n column ++ "│") ++ (rest.map (t.filled row n)).flatMap (· ++ ("│" : Text))) := by
    rw [rowLine_eq, frame_eq_flatMap _ (by simp [hrest]), hrest, List.map_append, List.map_cons, List.flatMap_append,
      List.flatMap_cons, List.append_assoc, List.append_assoc, List.append_assoc, flatMap_append_bar, List.flatMap_map]
    simp only [List.append_assoc]
  have hedge : t.edge column =
      Text.runeCount ((List.range column).flatMap fun k => ("│" : Text) ++ t.filled row n k) := by
    rw [Text.runeCount_flatMap fun k _ => hbars k, edge]
    refine congrArg List.sum (List.map_congr_left fun k _ => ?_)
    rw [isMark_bar.1.runeCount_append, isMark_bar.2, runeCount_filled hrow]
    omega
  have hframe : t.width column + 4 = Text.runeCount ("│" ++ t.filled row n column ++ "│") := by
    rw [(hbars column).runeCount_append, isMark_bar.1.runeCount_append, isMark_bar.2, runeCount_filled hrow]
    omega
  rw [hline, hedge, hframe]
  exact Text.window_between (Text.closed_flatMap fun k _ => hbars k) ((hbars column).append isMark_bar.1) _

/-! ### Lines of cells -/

/-- Text that stays on its line and that no tab widens. -/
def Flat (t : Text) : Prop := byte '\n' ∉ t ∧ byte '\t' ∉ t

/-- Text without control characters. -/
def Graphic (t : Text) : Prop := ∀ b ∈ t, 32 ≤ b.toNat

instance (t : Text) : Decidable (Graphic t) := List.decidableBAll _ t

theorem Graphic.flat {t : Text} (h : Graphic t) : Flat t := by
  have hnot {b : UInt8} (hb : b.toNat < 32) : b ∉ t := fun hmem => absurd (h b hmem) (not_le.mpr hb)
  exact ⟨hnot (by decide), hnot (by decide)⟩

theorem graphic_of_visible {t : Text} (h : t.Visible) : Graphic t := fun b hb => (Nat.le_succ 32).trans (h b hb).1

/-- Lines put into one cell are its lines. -/
theorem cellLines_join {parts : List Text} (hne : parts ≠ []) (h : ∀ part ∈ parts, Flat part) :
    cellLines (Text.join [byte '\n'] parts) = parts := by
  have htab : ∀ b ∈ Text.join [byte '\n'] parts, b ≠ byte '\t' :=
    Text.forall_mem_join (List.forall_mem_singleton.mpr (by decide))
      fun part hpart b hb heq => (h part hpart).2 (heq ▸ hb)
  have hflat : (Text.join [byte '\n'] parts).flatMap (fun b => if b = byte '\t' then blanks 4 else [b]) =
      Text.join [byte '\n'] parts := by
    rw [List.flatMap_congr fun b hb => if_neg (htab b hb), List.flatMap_singleton']
  rw [cellLines, hflat, Text.split_join hne fun part hpart => (h part hpart).1]

theorem cellLines_of_flat {cell : Text} (h : Flat cell) : cellLines cell = [cell] := by
  have hjoin := cellLines_join (List.cons_ne_nil cell []) (List.forall_mem_singleton.mpr h)
  rwa [Text.join, List.intercalate_singleton] at hjoin

theorem rowLines_eq (hcolumns : t.columnCount ≠ 0)
    (h : ∀ column < t.columnCount, (cellLines (cell row column)).length = n) :
    t.rowLines row = (List.range n).map (t.rowLine row) := by
  have hheight : t.height row = n := by
    refine eq_of_forall_ge_iff fun k => ?_
    simp only [height, foldl_max_le_iff, Nat.zero_le, true_and, List.forall_mem_map, List.mem_range]
    constructor
    · intro hle
      rw [← h 0 (Nat.pos_of_ne_zero hcolumns)]
      exact hle 0 (Nat.pos_of_ne_zero hcolumns)
    · intro hle column hcolumn
      rw [h column hcolumn]
      exact hle
  rw [rowLines, hheight]

/-! ### Cells of one line -/

theorem columnWidth_of_flat (h : ∀ row ∈ rows, Flat (cell row column)) :
    columnWidth rows column = (rows.map fun row => (cell row column).runeCount).foldl max 0 := by
  refine eq_of_forall_ge_iff fun n => ?_
  rw [columnWidth_le_iff, foldl_max_le_iff, List.forall_mem_map, and_iff_right (Nat.zero_le n)]
  refine forall₂_congr fun row hrow => ?_
  rw [cellLines_of_flat (h row hrow), List.forall_mem_singleton]

/-- A table whose cells have one line each has one line for each row. -/
theorem lines_of_flat (hcolumns : t.columnCount ≠ 0)
    (h : ∀ row ∈ t.headers :: t.rows, ∀ column, Flat (cell row column)) :
    t.lines = t.rule "┌" "┬" "┐" :: t.rowLine t.headers 0 :: t.rule "├" "┼" "┤" ::
      (t.rows.map (t.rowLine · 0) ++ [t.rule "└" "┴" "┘"]) := by
  have hone : ∀ row ∈ t.headers :: t.rows, t.rowLines row = [t.rowLine row 0] := fun row hrow =>
    rowLines_eq hcolumns fun column _ => by rw [cellLines_of_flat (h row hrow column)]; rfl
  have hrows : t.rows.flatMap t.rowLines = t.rows.map (t.rowLine · 0) := by
    rw [List.flatMap_congr fun row hrow => hone row (List.mem_cons_of_mem _ hrow), List.map_eq_flatMap]
  rw [lines, if_neg hcolumns, hone _ List.mem_cons_self, hrows]
  rfl

end Table

end RvConsole
