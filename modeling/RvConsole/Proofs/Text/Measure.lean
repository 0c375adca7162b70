import RvConsole.Proofs.Text.Sequences

/-! Text measured in runes.

A text is closed if it ends with a whole rune: then what is put behind it keeps its own runes (`Closed`), and counts of
runes add up. Any text becomes closed by a blank behind it. Columns of a line are counted in runes: a text that stands
between closed ones is found again from its column and its width (`window_between`), and the columns of a separator
between parts are known from the widths of the parts (`columnsOf_join`). -/
namespace RvConsole.Text
variable {s t u sep : Text} {parts : List Text}

/-! ### Closed text -/

/-- Text that ends with a whole rune, which nothing behind it can change. -/
def Closed (s : Text) : Prop := ∀ t, (s ++ t).runes = s.runes ++ t.runes

theorem runes_append_of_head (s : Text) (h : ∀ c ∈ t.head?, Rune.isTail c = false) :
    (s ++ t).runes = s.runes ++ t.runes :=
  runes_append fun _ _ _ => Rune.first_append_of_head h

theorem closed_nil : Closed [] := fun _ => rfl

theorem Closed.append (hs : Closed s) (ht : Closed t) : Closed (s ++ t) := by
  intro u
  rw [List.append_assoc, hs, ht, hs, List.append_assoc]

theorem closed_of_ascii (h : Ascii s) : Closed s := by
  intro t
  induction s with
  | nil => rfl
  | cons b rest ih =>
    obtain ⟨hb, hrest⟩ := List.forall_mem_cons.mp h
    rw [List.cons_append, runes_cons, runes_cons, first_of_ascii hb, first_of_ascii hb]
    exact congrArg (asciiRune b :: ·) (ih hrest)

theorem not_isTail_of_ascii {b : UInt8} (h : b.toNat < 128) : Rune.isTail b = false := by
  by_contra htail
  exact Rune.not_ascii_of_isTail (Bool.eq_true_of_not_eq_false htail) h

/-- ASCII text does not become a part of the last rune before it. -/
theorem runes_append_of_ascii (s : Text) (h : Ascii t) : (s ++ t).runes = s.runes ++ t.runes :=
  runes_append_of_head s fun _ hc => not_isTail_of_ascii (h _ (List.mem_of_mem_head? hc))

/-- Some ASCII text closes what it stands behind. -/
theorem closed_append_of_ascii (s : Text) (h : Ascii t) (hne : t ≠ []) : Closed (s ++ t) := by
  intro u
  have hhead : ∀ c ∈ (t ++ u).head?, Rune.isTail c = false := by
    intro c hc
    rw [List.head?_append_of_ne_nil t hne] at hc
    exact not_isTail_of_ascii (h c (List.mem_of_mem_head? hc))
  rw [List.append_assoc, runes_append_of_head s hhead, closed_of_ascii h, runes_append_of_ascii s h, List.append_assoc]

theorem closed_flatMap {α : Type} {f : α → Text} {xs : List α} (h : ∀ x ∈ xs, Closed (f x)) :
    Closed (xs.flatMap f) := by
  induction xs with
  | nil => exact closed_nil
  | cons x rest ih =>
    obtain ⟨hx, hrest⟩ := List.forall_mem_cons.mp h
    rw [List.flatMap_cons]
    exact hx.append (ih hrest)

theorem runes_flatMap {α : Type} {f : α → Text} {xs : List α} (h : ∀ x ∈ xs, Closed (f x)) :
    runes (xs.flatMap f) = xs.flatMap fun x => (f x).runes := by
  induction xs with
  | nil => rfl
  | cons x rest ih =>
    obtain ⟨hx, hrest⟩ := List.forall_mem_cons.mp h
    rw [List.flatMap_cons, hx, ih hrest, List.flatMap_cons]

theorem closed_join (hsep : Closed sep) (h : ∀ part ∈ parts, Closed part) : Closed (join sep parts) := by
  cases parts with
  | nil => exact closed_nil
  | cons part rest =>
    obtain ⟨hpart, hrest⟩ := List.forall_mem_cons.mp h
    rw [join_cons]
    exact hpart.append (closed_flatMap fun t ht => hsep.append (hrest t ht))

/-! ### Counts -/

theorem runeCount_append_of_ascii (s : Text) (h : Ascii t) : (s ++ t).runeCount = s.runeCount + t.runeCount := by
  rw [runeCount, runes_append_of_ascii s h, List.length_append]
  rfl

theorem Closed.runeCount_append (hs : Closed s) (t : Text) : (s ++ t).runeCount = s.runeCount + t.runeCount := by
  rw [runeCount, hs, List.length_append]
  rfl

theorem runeCount_of_ascii (h : Ascii t) : t.runeCount = t.length := by
  rw [runeCount, runes_of_ascii h, List.length_map]

theorem runeCount_flatMap {α : Type} {f : α → Text} {xs : List α} (h : ∀ x ∈ xs, Closed (f x)) :
    runeCount (xs.flatMap f) = (xs.map fun x => (f x).runeCount).sum := by
  rw [runeCount, runes_flatMap h, List.length_flatMap]
  rfl

/-- Joined parts with one separator more than stand between them. -/
theorem runeCount_join (hsep : Closed sep) (h : ∀ part ∈ parts, Closed part) (hne : parts ≠ []) :
    (join sep parts).runeCount + sep.runeCount = (parts.map fun part => part.runeCount + sep.runeCount).sum := by
  obtain ⟨part, rest, rfl⟩ := List.exists_cons_of_ne_nil hne
  obtain ⟨hpart, hrest⟩ := List.forall_mem_cons.mp h
  have hcounts : (rest.map fun t => (sep ++ t).runeCount) = rest.map fun t => t.runeCount + sep.runeCount :=
    List.map_congr_left fun t _ => (hsep.runeCount_append t).trans (Nat.add_comm _ _)
  rw [join_cons, hpart.runeCount_append, runeCount_flatMap fun t ht => hsep.append (hrest t ht), hcounts,
    List.map_cons, List.sum_cons, Nat.add_right_comm]

/-! ### Columns -/

/-- What stands in a line from a column on, so many runes. -/
def window (start count : Nat) (t : Text) : Text := ofRunes ((t.runes.drop start).take count)

/-- What stands between closed texts is found again. -/
theorem window_between (hs : Closed s) (ht : Closed t) (u : Text) :
    (s ++ (t ++ u)).window s.runeCount t.runeCount = t := by
  rw [window, hs, ht, runeCount, runeCount, List.drop_left, List.take_left, ofRunes_runes]

theorem window_of_le {start count : Nat} (hs : Closed s) (h : start + count ≤ s.runeCount) (t : Text) :
    (s ++ t).window start count = s.window start count := by
  have hstart : start ≤ s.runes.length := (Nat.le_add_right start count).trans h
  have hcount : count ≤ (s.runes.drop start).length := by
    rw [List.length_drop]
    exact Nat.le_sub_of_add_le' h
  rw [window, hs, List.drop_append_of_le_length hstart, List.take_append_of_le_length hcount, window]

theorem window_add (hs : Closed s) (start count : Nat) (t : Text) :
    (s ++ t).window (s.runeCount + start) count = t.window start count := by
  rw [window, hs, ← List.drop_drop, runeCount, List.drop_left, window]

/-- The columns at which a separator stands in a line. -/
def columnsOf (sep t : Text) : List Nat :=
  (List.range t.runeCount).filter fun k => sep.runes.isPrefixOf (t.runes.drop k)

/-- The columns of the gaps between parts of some widths, for gaps of one width. -/
def gaps (gap : Nat) : List Nat → List Nat
  | [] | [_] => []
  | width :: next :: rest => width :: (gaps gap (next :: rest)).map (width + gap + ·)

theorem length_gaps {gap : Nat} {widths : List Nat} (h : widths ≠ []) :
    (gaps gap widths).length + 1 = widths.length := by
  induction widths with
  | nil => exact absurd rfl h
  | cons width rest ih =>
    cases rest with
    | nil => rfl
    | cons next rest =>
      rw [gaps, List.length_cons, List.length_map, ih (List.cons_ne_nil next rest)]
      rfl

theorem columnsOf_append (hs : Closed s) (t : Text) :
    columnsOf sep (s ++ t) =
      ((List.range s.runeCount).filter fun k => sep.runes.isPrefixOf ((s ++ t).runes.drop k)) ++
        (columnsOf sep t).map (s.runeCount + ·) := by
  have hdrop (k : Nat) : (s.runes ++ t.runes).drop (s.runeCount + k) = t.runes.drop k := by
    rw [← List.drop_drop, runeCount, List.drop_left]
  rw [columnsOf, hs.runeCount_append, List.range_add, List.filter_append, List.filter_map, hs]
  refine congrArg (_ ++ List.map _ ·) (List.filter_congr fun k _ => ?_)
  rw [Function.comp_apply, hdrop]

section Separator
variable {blank mark : Rune}

theorem columnsOf_of_not_mem (hrunes : sep.runes = [blank, mark, blank]) (h : mark ∉ t.runes) :
    columnsOf sep t = [] := by
  rw [columnsOf, List.filter_eq_nil_iff]
  intro k _ hk
  rw [List.isPrefixOf_iff_prefix, hrunes] at hk
  exact h (List.mem_of_mem_drop (hk.subset (by simp)))

/-- No separator starts before the one that ends a part. -/
theorem not_separator_initial (hne : blank ≠ mark) {rs : List Rune} (hrs : rs ≠ []) (h : mark ∉ rs) (more : List Rune) :
    ¬ [blank, mark, blank] <+: rs ++ blank :: more := by
  intro hinit
  cases rs with
  | nil => exact hrs rfl
  | cons r rs =>
    obtain ⟨-, hinit⟩ := List.cons_prefix_cons.mp hinit
    cases rs with
    | nil => exact hne (List.cons_prefix_cons.mp hinit).1.symm
    | cons r' rs => exact h (by simp [(List.cons_prefix_cons.mp hinit).1])

/-- Joined parts start with no mark. -/
theorem head?_runes_join_ne (hsep : Closed sep) (hrunes : sep.runes = [blank, mark, blank]) (hne : blank ≠ mark)
    (hclosed : ∀ part ∈ parts, Closed part) (h : ∀ part ∈ parts, mark ∉ part.runes) :
    (join sep parts).runes.head? ≠ some mark := by
  cases parts with
  | nil => exact Option.some_ne_none mark ∘ Eq.symm
  | cons part rest =>
    obtain ⟨hpart, hrest⟩ := List.forall_mem_cons.mp h
    obtain ⟨hfirst, hothers⟩ := List.forall_mem_cons.mp hclosed
    rw [join_cons, hfirst, List.head?_append]
    cases hr : part.runes with
    | cons r rs =>
      intro heq
      rw [hr, Option.some.inj heq] at hpart
      exact hpart List.mem_cons_self
    | nil =>
      cases rest with
      | nil => exact Option.some_ne_none mark ∘ Eq.symm
      | cons next rest =>
        rw [List.flatMap_cons, List.append_assoc, hsep, hrunes]
        exact fun heq => hne (Option.some.inj heq)

/-- A separator that what follows it does not make into another stands at its own column only. -/
theorem columnsOf_separator (hsep : Closed sep) (hrunes : sep.runes = [blank, mark, blank]) (hne : blank ≠ mark)
    (h : t.runes.head? ≠ some mark) : columnsOf sep (sep ++ t) = 0 :: (columnsOf sep t).map (3 + ·) := by
  have hcount : sep.runeCount = 3 := congrArg List.length hrunes
  have hstart : ¬ [blank, mark, blank] <+: blank :: t.runes := by
    intro hinit
    obtain ⟨more, hmore⟩ := (List.cons_prefix_cons.mp hinit).2
    exact h (by rw [← hmore]; rfl)
  have hmark : ¬ [blank, mark, blank] <+: mark :: blank :: t.runes := fun hinit =>
    hne (List.cons_prefix_cons.mp hinit).1
  have hthree : List.range 3 = [0, 1, 2] := rfl
  rw [← List.isPrefixOf_iff_prefix] at hstart hmark
  rw [columnsOf_append hsep, hsep, hcount, hrunes, hthree, List.filter_cons_of_pos, List.filter_cons_of_neg,
    List.filter_cons_of_neg]
  · rfl
  · exact hstart
  · exact hmark
  · exact List.isPrefixOf_iff_prefix.mpr (List.prefix_append _ _)

/-- **Separators stand where the widths of the parts put them.** -/
theorem columnsOf_join (hsep : Closed sep) (hrunes : sep.runes = [blank, mark, blank]) (hne : blank ≠ mark)
    (hclosed : ∀ part ∈ parts, Closed part) (h : ∀ part ∈ parts, mark ∉ part.runes) :
    columnsOf sep (join sep parts) = gaps 3 (parts.map runeCount) := by
  induction parts with
  | nil => rfl
  | cons part rest ih =>
    obtain ⟨hpart, hrest⟩ := List.forall_mem_cons.mp h
    obtain ⟨hfirst, hothers⟩ := List.forall_mem_cons.mp hclosed
    cases rest with
    | nil =>
      rw [join, List.intercalate_singleton]
      exact columnsOf_of_not_mem hrunes hpart
    | cons next rest =>
      have hhead := head?_runes_join_ne hsep hrunes hne hothers hrest
      have hnone : ((List.range part.runeCount).filter fun k =>
          sep.runes.isPrefixOf ((part ++ (sep ++ join sep (next :: rest))).runes.drop k)) = [] := by
        rw [List.filter_eq_nil_iff]
        intro k hk hinit
        have hlt : k < part.runes.length := List.mem_range.mp hk
        rw [List.isPrefixOf_iff_prefix, hfirst, hsep, hrunes, List.drop_append_of_le_length hlt.le] at hinit
        exact not_separator_initial hne (by simpa using hlt) (fun hmem => hpart (List.mem_of_mem_drop hmem)) _ hinit
      rw [join, List.intercalate_cons_cons, List.append_assoc]
      show columnsOf sep (part ++ (sep ++ join sep (next :: rest))) = _
      rw [columnsOf_append hfirst, hnone, columnsOf_separator hsep hrunes hne hhead, ih hothers hrest, List.nil_append,
        List.map_cons, List.map_map]
      simp [gaps, Function.comp_def, Nat.add_assoc]

end Separator

/-! ### Runes taken out -/

/-- A line without the runes of some marks. -/
def without (t marks : Text) : Text := ofRunes (t.runes.filter fun r => r ∉ marks.runes)

variable {marks : Text}

theorem without_eq_self (h : ∀ r ∈ t.runes, r ∉ marks.runes) : t.without marks = t := by
  rw [without, List.filter_eq_self.mpr fun r hr => decide_eq_true (h r hr), ofRunes_runes]

theorem without_eq_nil (h : ∀ r ∈ t.runes, r ∈ marks.runes) : t.without marks = [] := by
  rw [without, List.filter_eq_nil_iff.mpr fun r hr => by simp [h r hr]]
  rfl

theorem Closed.without_append (hs : Closed s) (t : Text) :
    (s ++ t).without marks = s.without marks ++ t.without marks := by
  rw [without, hs, List.filter_append, ofRunes, List.flatMap_append]
  rfl

theorem without_flatMap {α : Type} {f : α → Text} {xs : List α} (h : ∀ x ∈ xs, Closed (f x)) :
    without (xs.flatMap f) marks = xs.flatMap fun x => (f x).without marks := by
  rw [without, runes_flatMap h, List.filter_flatMap, ofRunes, List.flatMap_assoc]
  rfl

theorem without_join (hsep : Closed sep) (hparts : ∀ part ∈ parts, Closed part) (h : sep.without marks = []) :
    (join sep parts).without marks = (parts.map (without · marks)).flatten := by
  cases parts with
  | nil => rfl
  | cons part rest =>
    obtain ⟨hpart, hrest⟩ := List.forall_mem_cons.mp hparts
    have hothers : (rest.map fun t => (sep ++ t).without marks) = rest.map (without · marks) :=
      List.map_congr_left fun t _ => by rw [hsep.without_append, h, List.nil_append]
    rw [join_cons, hpart.without_append, without_flatMap fun t ht => hsep.append (hrest t ht), List.flatMap_def,
      hothers, List.map_cons, List.flatten_cons]

end RvConsole.Text
