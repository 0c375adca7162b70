import RvConsole.Proofs.Text.Sequences

/-! White space around a text.

White space is trimmed off a text wherever it stands around it (`trim_padded`), and it is all that trimming takes
(`exists_padding`). A line is cut at its first white space, which ends its first word (`splitBlank_trim`), and at
separators, which are no white space, so that white space around a text is white space around its pieces
(`map_trim_split_trim`). -/
namespace RvConsole.Text

variable {s t w w' : Text} {rs : List Rune}

/-! ### White space -/

/-- Text that is nothing but white space. -/
def Blanks (t : Text) : Prop := ∀ r ∈ t.runes, r.isBlank = true

instance (t : Text) : Decidable (Blanks t) := List.decidableBAll _ t.runes

theorem blanks_nil : Blanks [] := List.forall_mem_nil _

theorem not_stray_of_isBlank {b : UInt8} {rest : Text} (h : (Rune.first b rest).isBlank = true) :
    Rune.first b rest ≠ Rune.stray b := by
  intro hstray
  have hcode : (Rune.stray b).isBlank = false := rfl
  rw [hstray, hcode] at h
  cases h

theorem Blanks.head (h : Blanks w) : ∀ c ∈ w.head?, Rune.isTail c = false := by
  cases w with
  | nil => exact nofun
  | cons b rest =>
    rintro _ ⟨⟩
    have hfirst := not_stray_of_isBlank (h _ (by rw [runes_cons]; exact List.mem_cons_self))
    by_contra htail
    exact hfirst (Rune.first_of_isTail (Bool.eq_true_of_not_eq_false htail) rest)

theorem runes_append_blanks (hw : Blanks w) (t : Text) : (t ++ w).runes = t.runes ++ w.runes :=
  runes_append fun _ _ _ => Rune.first_append_of_head hw.head

theorem runes_blanks_append (hw : Blanks w) (t : Text) : (w ++ t).runes = w.runes ++ t.runes := by
  apply runes_append
  intro b rest hmem
  rcases Rune.stray_or_whole b rest with hstray | hwhole
  · exact absurd hstray (not_stray_of_isBlank (hw _ hmem))
  · exact hwhole.append t

theorem Blanks.append (hw : Blanks w) (hw' : Blanks w') : Blanks (w ++ w') := by
  rw [Blanks, runes_blanks_append hw]
  exact List.forall_mem_append.mpr ⟨hw, hw'⟩

/-- White space has no byte that can be seen. -/
theorem Blanks.not_mem (h : Blanks w) {b : UInt8} (hb : Seen b) : b ∉ w := by
  intro hmem
  have hascii : b.toNat < 128 := by
    have := hb.2
    omega
  have hblank := h _ (asciiRune_mem_runes hmem hascii)
  rw [not_isBlank_of_seen hb] at hblank
  cases hblank

/-! ### Trimming -/

/-- Runes without the white space at either end. -/
def trimmed (rs : List Rune) : List Rune := trimEnd (rs.dropWhile Rune.isBlank)

theorem trimEnd_append {bs : List Rune} (hbs : ∀ r ∈ bs, r.isBlank = true) (rs : List Rune) :
    trimEnd (rs ++ bs) = trimEnd rs := by
  have hreverse : ∀ r ∈ bs.reverse, r.isBlank = true := fun r hr => hbs r (List.mem_reverse.mp hr)
  rw [trimEnd, List.reverse_append, List.dropWhile_append_of_pos hreverse, trimEnd]

theorem trimmed_append {bs : List Rune} (hbs : ∀ r ∈ bs, r.isBlank = true) (rs : List Rune) :
    trimmed (rs ++ bs) = trimmed rs := by
  unfold trimmed
  rw [List.dropWhile_append]
  split_ifs with hempty
  · rw [List.isEmpty_iff.mp hempty, List.dropWhile_eq_nil_iff.mpr hbs]
  · exact trimEnd_append hbs _

theorem append_trimmed {bs : List Rune} (hbs : ∀ r ∈ bs, r.isBlank = true) (rs : List Rune) :
    trimmed (bs ++ rs) = trimmed rs := by
  rw [trimmed, List.dropWhile_append_of_pos hbs, trimmed]

theorem trim_append_blanks (hw : Blanks w) (t : Text) : trim (t ++ w) = trim t := by
  show ofRunes (trimmed (t ++ w).runes) = ofRunes (trimmed t.runes)
  rw [runes_append_blanks hw, trimmed_append hw]

theorem trim_blanks_append (hw : Blanks w) (t : Text) : trim (w ++ t) = trim t := by
  show ofRunes (trimmed (w ++ t).runes) = ofRunes (trimmed t.runes)
  rw [runes_blanks_append hw, append_trimmed hw]

/-- **White space around a text is trimmed off**, whatever the text is. -/
theorem trim_padded (hw : Blanks w) (hw' : Blanks w') (t : Text) : trim (w ++ t ++ w') = trim t := by
  rw [trim_append_blanks hw', trim_blanks_append hw]

theorem trimmed_within (rs : List Rune) : trimmed rs <:+: rs :=
  (List.rdropWhile_prefix _ _).isInfix.trans (List.dropWhile_suffix _).isInfix

theorem runes_trim (t : Text) : (trim t).runes = trimmed t.runes := runes_ofRunes (trimmed_within _)

/-- A text is what is left of it when it is trimmed, with white space around that. -/
theorem exists_padding (t : Text) : ∃ w w', Blanks w ∧ Blanks w' ∧ t = w ++ trim t ++ w' := by
  let front := t.runes.takeWhile Rune.isBlank
  let middle := t.runes.dropWhile Rune.isBlank
  let back := middle.rtakeWhile Rune.isBlank
  have hfront : (ofRunes front).runes = front := runes_ofRunes (List.takeWhile_prefix _).isInfix
  have hback : (ofRunes back).runes = back :=
    runes_ofRunes ((List.rtakeWhile_suffix _ _).trans (List.dropWhile_suffix _)).isInfix
  refine ⟨ofRunes front, ofRunes back, ?_, ?_, ?_⟩
  · rw [Blanks, hfront]
    exact fun r hr => List.mem_takeWhile_imp hr
  · rw [Blanks, hback]
    exact fun r hr => List.mem_rtakeWhile_imp hr
  · have hruns : front ++ trimmed t.runes ++ back = t.runes := by
      rw [List.append_assoc]
      show front ++ (middle.rdropWhile Rune.isBlank ++ back) = _
      rw [List.rdropWhile_append_rtakeWhile, List.takeWhile_append_dropWhile]
    conv_lhs => rw [← ofRunes_runes t, ← hruns]
    simp only [ofRunes, List.flatMap_append]
    rfl

theorem trim_eq_nil_iff : trim t = [] ↔ Blanks t := by
  constructor
  · intro h
    obtain ⟨w, w', hw, hw', ht⟩ := exists_padding t
    rw [h, List.append_nil] at ht
    exact ht ▸ hw.append hw'
  · intro h
    exact trim_append_blanks h []

theorem trim_within (t : Text) : trim t <:+: t := by
  obtain ⟨w, w', -, -, ht⟩ := exists_padding t
  exact ⟨w, w', ht.symm⟩

/-- Trimming takes no byte that can be seen. -/
theorem mem_trim_iff {b : UInt8} (hb : Seen b) : b ∈ trim t ↔ b ∈ t := by
  obtain ⟨w, w', hw, hw', ht⟩ := exists_padding t
  conv_rhs => rw [ht]
  simp [hw.not_mem hb, hw'.not_mem hb]

theorem trim_trim (t : Text) : trim (trim t) = trim t := by
  obtain ⟨w, w', hw, hw', ht⟩ := exists_padding t
  have htrim := trim_padded hw hw' (trim t)
  rw [← ht] at htrim
  exact htrim.symm

/-- Trimmed text does not end with white space. -/
theorem eq_nil_of_trim_eq_append {u : Text} (hw : Blanks w) (h : trim t = u ++ w) : w = [] := by
  have hu : trim (trim t) = trim u := by rw [h, trim_append_blanks hw]
  have hlength := (trim_within u).length_le
  rw [← hu, trim_trim, h, List.length_append] at hlength
  exact List.length_eq_zero_iff.mp (by omega)

/-- Text that neither starts nor ends with white space. -/
def Unpadded (t : Text) : Prop :=
  (∀ r ∈ t.runes.head?, r.isBlank = false) ∧ ∀ r ∈ t.runes.getLast?, r.isBlank = false

instance (t : Text) : Decidable (Unpadded t) := inferInstanceAs (Decidable (_ ∧ _))

theorem Unpadded.trim_eq (h : Unpadded t) : trim t = t := by
  obtain ⟨hhead, hlast⟩ := h
  have hfront : t.runes.dropWhile Rune.isBlank = t.runes := by
    cases hr : t.runes with
    | nil => rfl
    | cons r rest =>
      rw [hr] at hhead
      exact List.dropWhile_cons_of_neg (by simp [hhead r rfl])
  have hback : trimEnd t.runes = t.runes := by
    refine List.rdropWhile_eq_self_iff.mpr fun hne => ?_
    simp [hlast _ (List.getLast?_eq_some_getLast hne)]
  show ofRunes (trimEnd (t.runes.dropWhile Rune.isBlank)) = t
  rw [hfront, hback, ofRunes_runes]

/-! ### The first word -/

/-- What a rune list has besides white space at its end is kept when the end is trimmed. -/
theorem trimEnd_append_of_blankless {front : List Rune} (hfront : ∀ r ∈ front, r.isBlank = false) (rs : List Rune) :
    trimEnd (front ++ rs) = front ++ trimEnd rs := by
  have hreverse : front.reverse.dropWhile Rune.isBlank = front.reverse :=
    Blankless.dropWhile_eq fun r hr => hfront r (List.mem_reverse.mp hr)
  rw [trimEnd, List.reverse_append, List.dropWhile_append]
  split_ifs with hempty
  · rw [hreverse, trimEnd, List.isEmpty_iff.mp hempty, List.reverse_reverse, List.reverse_nil, List.append_nil]
  · rw [List.reverse_append, List.reverse_reverse, trimEnd]

theorem trimmed_trimEnd (rs : List Rune) : trimmed (trimEnd rs) = trimmed rs := by
  have hbs : ∀ r ∈ rs.rtakeWhile Rune.isBlank, r.isBlank = true := fun r hr => List.mem_rtakeWhile_imp hr
  rw [← trimmed_append hbs (trimEnd rs)]
  exact congrArg trimmed List.rdropWhile_append_rtakeWhile

theorem trimEnd_initial (rs : List Rune) : trimEnd rs <+: rs := List.rdropWhile_prefix _ _

theorem exists_runes_cons (h : t ≠ []) : ∃ r rest, t.runes = r :: rest := by
  obtain ⟨b, rest, rfl⟩ := List.exists_cons_of_ne_nil h
  exact ⟨_, _, runes_cons b rest⟩

/-- Text that starts with white space still does so when its end is trimmed, if anything is left. -/
theorem takeWhile_trimEnd (hw : Blanks w) (hw0 : w ≠ []) (t : Text) :
    (trimEnd (w ++ t).runes).takeWhile (fun r => !r.isBlank) = [] := by
  cases hback : trimEnd (w ++ t).runes with
  | nil => rfl
  | cons r rest =>
    have hinit := hback ▸ trimEnd_initial (w ++ t).runes
    obtain ⟨r', rest', hr'⟩ := exists_runes_cons hw0
    rw [runes_blanks_append hw, hr', List.cons_append] at hinit
    obtain ⟨rfl, -⟩ := List.cons_prefix_cons.mp hinit
    simp [hw r (hr' ▸ List.mem_cons_self)]

/-- **The first word of a text ends where white space starts.** Trimming the text takes nothing of the word, and
what follows the word is, when trimmed, what followed the white space. -/
theorem splitBlank_trim {word : Text} (hword : Blankless word) (hne : word ≠ []) (hw : Blanks w) (hw0 : w ≠ [])
    (t : Text) : ∃ back, splitBlank (trim (word ++ w ++ t)) = (word, back) ∧ trim back = trim t := by
  have hhead : ∀ c ∈ (w ++ t).head?, Rune.isTail c = false := by
    rw [List.head?_append_of_ne_nil _ hw0]
    exact hw.head
  have hrunes : (word ++ w ++ t).runes = word.runes ++ (w ++ t).runes := by
    rw [List.append_assoc]
    exact runes_append fun _ _ _ => Rune.first_append_of_head hhead
  have htrim : (trim (word ++ w ++ t)).runes = word.runes ++ trimEnd (w ++ t).runes := by
    obtain ⟨r, rest, hr⟩ := exists_runes_cons hne
    have hr0 : ¬ r.isBlank = true := by simp [hword r (hr ▸ List.mem_cons_self)]
    rw [runes_trim, hrunes, trimmed, hr, List.cons_append, List.dropWhile_cons_of_neg hr0, ← List.cons_append, ← hr]
    exact trimEnd_append_of_blankless hword _
  have hstop := takeWhile_trimEnd hw hw0 t
  have hrest := List.takeWhile_append_dropWhile (p := fun r : Rune => !r.isBlank) (l := trimEnd (w ++ t).runes)
  rw [hstop, List.nil_append] at hrest
  have hall : ∀ r ∈ word.runes, (!r.isBlank) = true := fun r hr => by rw [hword r hr]; rfl
  refine ⟨ofRunes (trimEnd (w ++ t).runes), ?_, ?_⟩
  · rw [splitBlank, htrim, List.span_eq_takeWhile_dropWhile, List.takeWhile_append_of_pos hall,
      List.dropWhile_append_of_pos hall, hstop, hrest, List.append_nil]
    show (ofRunes word.runes, _) = _
    rw [ofRunes_runes]
  · show ofRunes (trimmed (ofRunes (trimEnd (w ++ t).runes)).runes) = _
    rw [runes_ofRunes_of_initial (trimEnd_initial _), trimmed_trimEnd]
    exact trim_blanks_append hw t

/-! ### Text that ends with what is seen -/

section
variable {f s : Text}

/-- Nothing is trimmed behind text that is seen. -/
theorem exists_trim_append (hs : Visible s) (hne : s ≠ []) (f : Text) :
    ∃ w, Blanks w ∧ f ++ s = w ++ (f ++ s).trim := by
  obtain ⟨w, w', hw, hw', hwhole⟩ := exists_padding (f ++ s)
  have hw'0 : w' = [] := by
    by_contra hw'0
    have hlast : (f ++ s).getLast? = w'.getLast? := by rw [hwhole, List.getLast?_append_of_ne_nil _ hw'0]
    rw [List.getLast?_append_of_ne_nil _ hne, List.getLast?_eq_some_getLast hne] at hlast
    exact hw'.not_mem (hs _ (List.getLast_mem hne)) (List.mem_of_getLast? hlast.symm)
  rw [hw'0, List.append_nil] at hwhole
  exact ⟨w, hw, hwhole⟩

theorem getLast?_trim_append (hs : Visible s) (hne : s ≠ []) (f : Text) :
    (f ++ s).trim.getLast? = s.getLast? := by
  obtain ⟨w, hw, hwhole⟩ := exists_trim_append hs hne f
  have hne' : (f ++ s).trim ≠ [] := by
    intro hnil
    rw [hnil, List.append_nil] at hwhole
    obtain ⟨b, hb⟩ := List.exists_mem_of_ne_nil s hne
    exact hw.not_mem (hs b hb) (hwhole ▸ List.mem_append_right f hb)
  rw [← List.getLast?_append_of_ne_nil w hne', ← hwhole, List.getLast?_append_of_ne_nil f hne]

/-- What is left of a text is all seen only if no more than white space is cut off from the part that is. -/
theorem blanks_of_visible_trim (hf : ∀ b ∈ f.getLast?, ¬ Seen b) (hs : Visible s) (hne : s ≠ [])
    (h : Visible (f ++ s).trim) : Blanks f := by
  obtain ⟨w, hw, hwhole⟩ := exists_trim_append hs hne f
  obtain ⟨more, hmore, hrest⟩ | ⟨kept, hkept, hrest⟩ := List.append_eq_append_iff.mp hwhole
  · cases more with
    | nil =>
      rw [List.append_nil] at hmore
      exact hmore ▸ hw
    | cons b more =>
      have hseen : Seen b := hs b (hrest ▸ List.mem_cons_self)
      exact absurd (hmore ▸ List.mem_append_right f List.mem_cons_self) (hw.not_mem hseen)
  · by_cases hkept0 : kept = []
    · rw [hkept0, List.append_nil] at hkept
      exact hkept ▸ hw
    · have hlast : kept.getLast hkept0 ∈ f.getLast? := by
        rw [hkept, List.getLast?_append_of_ne_nil _ hkept0]
        exact List.getLast?_eq_some_getLast hkept0
      refine absurd (h _ ?_) (hf _ hlast)
      rw [hrest]
      exact List.mem_append_left s (List.getLast_mem hkept0)

theorem trim_eq_of_head (hs : Visible s) (hne : s ≠ []) (h : ∀ r ∈ (f ++ s).runes.head?, r.isBlank = false) :
    (f ++ s).trim = f ++ s := by
  obtain ⟨w, hw, hwhole⟩ := exists_trim_append hs hne f
  by_cases hw0 : w = []
  · rw [hw0, List.nil_append] at hwhole
    exact hwhole.symm
  · obtain ⟨r, rest, hrunes⟩ := exists_runes_cons hw0
    have hhead : r ∈ (f ++ s).runes.head? := by
      rw [hwhole, runes_blanks_append hw, hrunes]
      rfl
    have hblank := hw r (hrunes ▸ List.mem_cons_self)
    rw [h r hhead] at hblank
    cases hblank

end

/-! ### Pieces between separators -/

theorem split_append_sep (sep : UInt8) (s t : Text) : split sep (s ++ sep :: t) = split sep s ++ split sep t := by
  simp only [split_eq_splitOn, List.splitOn_eq_splitOnP]
  exact List.splitOnP_append_cons s t (beq_self_eq_true sep)

/-- Pieces have no separators in them. -/
theorem not_mem_of_mem_split {sep : UInt8} {piece : Text} (h : piece ∈ split sep t) : sep ∉ piece := by
  induction hn : t.length using Nat.strong_induction_on generalizing t with
  | _ n ih =>
    by_cases hmem : sep ∈ t
    · obtain ⟨front, back, rfl, hfront⟩ := List.eq_append_cons_of_mem hmem
      rw [split_append_sep, split_of_not_mem hfront] at h
      rcases List.mem_append.mp h with h | h
      · exact List.mem_singleton.mp h ▸ hfront
      · exact ih back.length (by simp at hn; omega) h rfl
    · rw [split_of_not_mem hmem] at h
      exact List.mem_singleton.mp h ▸ hmem

/-- Text without separators goes on with the last piece. -/
theorem exists_split_append (sep : UInt8) (t : Text) :
    ∃ front last, last <:+ t ∧ sep ∉ last ∧ ∀ u, sep ∉ u → split sep (t ++ u) = front ++ [last ++ u] := by
  induction hn : t.length using Nat.strong_induction_on generalizing t with
  | _ n ih =>
    by_cases hmem : sep ∈ t
    · obtain ⟨piece, rest, rfl, hpiece⟩ := List.eq_append_cons_of_mem hmem
      obtain ⟨front, last, hlast, hsep, hrest⟩ := ih rest.length (by simp at hn; omega) rest rfl
      refine ⟨piece :: front, last, ?_, hsep, fun u hu => ?_⟩
      · exact hlast.trans ((List.suffix_cons sep rest).trans (List.suffix_append piece _))
      · rw [List.append_assoc, List.cons_append, split_append_sep, split_of_not_mem hpiece, hrest u hu]
        rfl
    · refine ⟨[], t, List.suffix_rfl, hmem, fun u hu => ?_⟩
      exact split_of_not_mem (List.not_mem_append hmem hu)

theorem map_trim_split_append {sep : UInt8} (hsep : Seen sep) (hw : Blanks w) (t : Text) :
    (split sep (t ++ w)).map trim = (split sep t).map trim := by
  induction hn : t.length using Nat.strong_induction_on generalizing t with
  | _ n ih =>
    by_cases hmem : sep ∈ t
    · obtain ⟨piece, rest, rfl, hpiece⟩ := List.eq_append_cons_of_mem hmem
      have hrest := ih rest.length (by simp at hn; omega) rest rfl
      rw [List.append_assoc, List.cons_append, split_append_sep, split_append_sep, List.map_append, List.map_append,
        hrest]
    · have hmem' : sep ∉ t ++ w := by simp [hmem, hw.not_mem hsep]
      rw [split_of_not_mem hmem, split_of_not_mem hmem', List.map_singleton, List.map_singleton,
        trim_append_blanks hw]

theorem map_trim_split_blanks_append {sep : UInt8} (hsep : Seen sep) (hw : Blanks w) (t : Text) :
    (split sep (w ++ t)).map trim = (split sep t).map trim := by
  by_cases hmem : sep ∈ t
  · obtain ⟨piece, rest, rfl, hpiece⟩ := List.eq_append_cons_of_mem hmem
    have hpiece' : sep ∉ w ++ piece := by simp [hpiece, hw.not_mem hsep]
    rw [← List.append_assoc, split_append_sep, split_append_sep, split_of_not_mem hpiece, split_of_not_mem hpiece',
      List.map_append, List.map_append, List.map_singleton, List.map_singleton, trim_blanks_append hw]
  · have hmem' : sep ∉ w ++ t := by simp [hmem, hw.not_mem hsep]
    rw [split_of_not_mem hmem, split_of_not_mem hmem', List.map_singleton, List.map_singleton,
      trim_blanks_append hw]

/-- **White space around a text is white space around its pieces.** -/
theorem map_trim_split_trim {sep : UInt8} (hsep : Seen sep) (t : Text) :
    (split sep (trim t)).map trim = (split sep t).map trim := by
  obtain ⟨w, w', hw, hw', ht⟩ := exists_padding t
  conv_rhs => rw [ht]
  rw [map_trim_split_append hsep hw', map_trim_split_blanks_append hsep hw]

end RvConsole.Text
