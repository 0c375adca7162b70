import RvConsole.Proofs.Text.Trimming

/-! The first word of a line.

A text is its first word and what follows it, which starts with white space if there is any (`splitBlank_eq`). No rune
reaches from one into the other, so a text that is put together in this way is cut there again
(`splitBlank_append`), and the word is the first of the text's fields (`fields_append`). -/
namespace RvConsole.Text

variable {s t w : Text} {rs : List Rune}

/-- Text that starts with white space, if it has anything at all. -/
def StartsBlank (t : Text) : Prop := ∀ r ∈ t.runes.head?, r.isBlank = true

instance (t : Text) : Decidable (StartsBlank t) := inferInstanceAs (Decidable (∀ r ∈ t.runes.head?, _))

/-! ### The cut behind the first word -/

theorem StartsBlank.head (h : StartsBlank t) : ∀ c ∈ t.head?, Rune.isTail c = false := by
  cases t with
  | nil => exact fun c hc => absurd hc (Option.not_mem_none c)
  | cons b rest =>
    intro c hc
    obtain rfl : b = c := Option.some.inj hc
    have hblank := h (Rune.first b rest) (by rw [runes_cons]; rfl)
    by_contra htail
    exact not_stray_of_isBlank hblank (Rune.first_of_isTail (Bool.eq_true_of_not_eq_false htail) rest)

theorem runes_append_of_startsBlank (ht : StartsBlank t) (s : Text) : (s ++ t).runes = s.runes ++ t.runes :=
  runes_append fun _ _ _ => Rune.first_append_of_head ht.head

theorem Blanks.startsBlank (h : Blanks w) : StartsBlank w := fun r hr => h r (List.mem_of_mem_head? hr)

theorem Blanks.startsBlank_append (hw : Blanks w) (hw0 : w ≠ []) (t : Text) : StartsBlank (w ++ t) := by
  intro r hr
  obtain ⟨r', rest, hrunes⟩ := exists_runes_cons hw0
  rw [runes_blanks_append hw, hrunes, List.cons_append, List.head?_cons] at hr
  obtain rfl : r' = r := Option.some.inj hr
  exact hw r' (hrunes ▸ List.mem_cons_self)

theorem StartsBlank.append_blanks (ht : StartsBlank t) (hw : Blanks w) : StartsBlank (t ++ w) := by
  by_cases hne : t = []
  · rw [hne, List.nil_append]
    exact hw.startsBlank
  · intro r hr
    obtain ⟨r', rest, hrunes⟩ := exists_runes_cons hne
    rw [runes_append_blanks hw, hrunes, List.cons_append, List.head?_cons] at hr
    exact ht r (by rwa [hrunes])

/-- **A text is cut at its first white space.** -/
theorem splitBlank_append (hs : Blankless s) (ht : StartsBlank t) : splitBlank (s ++ t) = (s, t) := by
  have hall : ∀ r ∈ s.runes, (!r.isBlank) = true := fun r hr => by rw [hs r hr]; rfl
  have hstop : t.runes.takeWhile (fun r => !r.isBlank) = [] ∧ t.runes.dropWhile (fun r => !r.isBlank) = t.runes := by
    cases hrunes : t.runes with
    | nil => exact ⟨rfl, rfl⟩
    | cons r rest =>
      have hr := ht r (by rw [hrunes]; rfl)
      simp [hr]
  rw [splitBlank, runes_append_of_startsBlank ht, List.span_eq_takeWhile_dropWhile,
    List.takeWhile_append_of_pos hall, List.dropWhile_append_of_pos hall, hstop.1, hstop.2, List.append_nil]
  show (ofRunes s.runes, ofRunes t.runes) = (s, t)
  rw [ofRunes_runes, ofRunes_runes]

/-- What a text is cut into is a word and what follows it. -/
theorem splitBlank_eq (t : Text) :
    ∃ word back, splitBlank t = (word, back) ∧ t = word ++ back ∧ Blankless word ∧ StartsBlank back := by
  let isOther (r : Rune) : Bool := !r.isBlank
  have hfront : (ofRunes (t.runes.takeWhile isOther)).runes = t.runes.takeWhile isOther :=
    runes_ofRunes_of_initial (List.takeWhile_prefix _)
  have hback : (ofRunes (t.runes.dropWhile isOther)).runes = t.runes.dropWhile isOther :=
    runes_ofRunes_of_suffix (List.dropWhile_suffix _)
  refine ⟨ofRunes (t.runes.takeWhile isOther), ofRunes (t.runes.dropWhile isOther), ?_, ?_, ?_, ?_⟩
  · rw [splitBlank, List.span_eq_takeWhile_dropWhile]
  · rw [ofRunes, ofRunes, ← List.flatMap_append, List.takeWhile_append_dropWhile]
    exact (ofRunes_runes t).symm
  · intro r hr
    rw [hfront] at hr
    simpa [isOther] using List.mem_takeWhile_imp hr
  · intro r hr
    rw [hback] at hr
    have hnot := List.head?_dropWhile_not isOther t.runes
    rw [Option.mem_def.mp hr] at hnot
    simpa [isOther] using hnot

/-! ### Fields -/

/-- The pieces between white space, the empty ones among them. -/
def fieldPieces (rs : List Rune) : List Text := rs.foldr fieldStep [[]]

theorem fieldPieces_ne_nil (rs : List Rune) : fieldPieces rs ≠ [] := by
  induction rs with
  | nil => exact List.cons_ne_nil _ _
  | cons r rest _ =>
    show fieldStep r (fieldPieces rest) ≠ []
    unfold fieldStep
    split <;> split_ifs <;> exact List.cons_ne_nil _ _

theorem fieldPieces_blank {r : Rune} (hr : r.isBlank = true) (rs : List Rune) :
    fieldPieces (r :: rs) = [] :: fieldPieces rs := by
  show fieldStep r (fieldPieces rs) = _
  obtain ⟨piece, more, hpieces⟩ := List.exists_cons_of_ne_nil (fieldPieces_ne_nil rs)
  rw [hpieces, fieldStep, if_pos hr]

theorem fieldPieces_word (hrs : ∀ r ∈ rs, r.isBlank = false) {piece : Text} {more : List Text} {after : List Rune}
    (h : fieldPieces after = piece :: more) : fieldPieces (rs ++ after) = (ofRunes rs ++ piece) :: more := by
  induction rs with
  | nil => exact h
  | cons r rest ih =>
    obtain ⟨hr, hrest⟩ := List.forall_mem_cons.mp hrs
    show fieldStep r (fieldPieces (rest ++ after)) = _
    rw [ih hrest, fieldStep, hr, if_neg Bool.false_ne_true, ← List.append_assoc]
    rfl

theorem fields_eq_filter (t : Text) : fields t = (fieldPieces t.runes).filter (· ≠ []) := rfl

theorem fields_blanks_append (hw : Blanks w) (t : Text) : fields (w ++ t) = fields t := by
  have hdrop : ∀ bs : List Rune, (∀ r ∈ bs, r.isBlank = true) →
      (fieldPieces (bs ++ t.runes)).filter (· ≠ []) = (fieldPieces t.runes).filter (· ≠ []) := by
    intro bs hbs
    induction bs with
    | nil => rfl
    | cons r rest ih =>
      obtain ⟨hr, hrest⟩ := List.forall_mem_cons.mp hbs
      rw [List.cons_append, fieldPieces_blank hr]
      exact ih hrest
  rw [fields_eq_filter, runes_blanks_append hw, hdrop _ hw, ← fields_eq_filter]

/-- **The first word of a text is its first field.** -/
theorem fields_append (hs : Blankless s) (hne : s ≠ []) (ht : StartsBlank t) : fields (s ++ t) = s :: fields t := by
  have hpieces : ∃ more, fieldPieces t.runes = [] :: more := by
    cases hrunes : t.runes with
    | nil => exact ⟨[], rfl⟩
    | cons r rest => exact ⟨_, fieldPieces_blank (ht r (by rw [hrunes]; rfl)) rest⟩
  obtain ⟨more, hmore⟩ := hpieces
  have hword := fieldPieces_word hs hmore
  rw [ofRunes_runes, List.append_nil] at hword
  rw [fields_eq_filter, fields_eq_filter, runes_append_of_startsBlank ht, hword, hmore]
  simp [hne]

theorem trim_eq_nil_of_fields (h : fields t = []) : trim t = [] := by
  obtain ⟨w, w', hw, hw', ht⟩ := exists_padding t
  obtain ⟨word, back, -, htrim, hword, hback⟩ := splitBlank_eq (trim t)
  by_cases hne : word = []
  -- what starts with white space is no trimmed text
  · rw [hne, List.nil_append] at htrim
    rw [← htrim] at hback
    by_contra htrim0
    obtain ⟨r, rest, hrunes⟩ := exists_runes_cons htrim0
    have hr := hback r (by rw [hrunes]; rfl)
    have htwice := congrArg runes (trim_trim t)
    rw [runes_trim, trimmed, hrunes, List.dropWhile_cons_of_pos hr] at htwice
    have hlength := congrArg List.length htwice
    have hinit := ((trimEnd_initial (rest.dropWhile Rune.isBlank)).length_le).trans
      (List.dropWhile_suffix (l := rest) Rune.isBlank).length_le
    rw [List.length_cons] at hlength
    omega
  · have hfields : fields t = word :: fields (back ++ w') := by
      conv_lhs => rw [ht, htrim]
      rw [List.append_assoc, List.append_assoc, fields_blanks_append hw,
        fields_append hword hne (hback.append_blanks hw')]
    rw [hfields] at h
    cases h

end RvConsole.Text
