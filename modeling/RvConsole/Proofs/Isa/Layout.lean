import RvConsole.Proofs.Isa.Arguments

/-! The layout of a line does not matter.

A line is laid out as its mnemonic in any letter case and its arguments between commas, with white space around all
of them (`Laid`). However that is done, the line is cut into the same parts (`Laid.cutLine_eq`), and it is read as
its parts are. Inside a memory operand the offset and the register have white space around them too, which the slots
of a mnemonic do not see (`Slot.alike_padded`). -/
namespace RvConsole
open Text (byte Blanks Blankless Unpadded)

/-! ### Lines laid out -/

/-- Arguments between commas, with white space on both sides of each comma and at the end. -/
inductive Spread : List Text → Text → Prop where
  | last {a w : Text} : Blanks w → Spread [a] (a ++ w)
  | cons {a w w' t : Text} {args : List Text} :
    Blanks w → Blanks w' → Spread args t → Spread (a :: args) (a ++ w ++ "," ++ w' ++ t)

/-- A mnemonic and its arguments laid out as a line. -/
inductive Laid (m : Text) : List Text → Text → Prop where
  | bare {w w' : Text} : Blanks w → Blanks w' → Laid m [] (w ++ m ++ w')
  | spread {w gap t : Text} {args : List Text} :
    Blanks w → Blanks gap → gap ≠ [] → Spread args t → Laid m args (w ++ m ++ gap ++ t)

/-- The line with one blank behind the mnemonic and none elsewhere. -/
def tight (m : Text) (args : List Text) : Text :=
  if args = [] then m else m ++ " " ++ Text.join [byte ','] args

/-- Texts that differ in the case of ASCII letters only. -/
def SameLetters (m m' : Text) : Prop := m.map Text.lowerByte = m'.map Text.lowerByte

instance (m m' : Text) : Decidable (SameLetters m m') := inferInstanceAs (Decidable (_ = _))

variable {m m' t line line' : Text} {args args' : List Text}

theorem SameLetters.lower_eq (h : SameLetters m m') : m.lower = m'.lower := by
  rw [← Text.lower_map_lowerByte m, h, Text.lower_map_lowerByte]

theorem SameLetters.blankless (h : SameLetters m m') (hm : Blankless m) : Blankless m' := by
  rw [← Text.blankless_map_lowerByte] at hm ⊢
  exact h ▸ hm

theorem SameLetters.ne_nil (h : SameLetters m m') (hm : m ≠ []) : m' ≠ [] := by
  rintro rfl
  exact hm (List.map_eq_nil_iff.mp h)

theorem spread_join (hne : args ≠ []) : Spread args (Text.join [byte ','] args) := by
  induction args with
  | nil => exact absurd rfl hne
  | cons a rest ih =>
    cases rest with
    | nil =>
      have hlast := Spread.last (a := a) Text.blanks_nil
      simpa [Text.join] using hlast
    | cons b rest =>
      have hcons := Spread.cons (a := a) Text.blanks_nil Text.blanks_nil (ih (List.cons_ne_nil b rest))
      simp only [List.append_nil, List.append_assoc] at hcons
      exact hcons

theorem laid_tight (m : Text) (args : List Text) : Laid m args (tight m args) := by
  unfold tight
  split_ifs with hargs
  · subst hargs
    have hbare := Laid.bare (m := m) Text.blanks_nil Text.blanks_nil
    rwa [List.nil_append, List.append_nil] at hbare
  · exact Laid.spread Text.blanks_nil (by decide) (by decide) (spread_join hargs)

/-! ### Cutting -/

theorem seen_comma : Text.Seen (byte ',') := by decide

theorem Spread.map_trim_split (h : Spread args t) (hcomma : ∀ a ∈ args, byte ',' ∉ a) :
    (t.split (byte ',')).map Text.trim = args.map Text.trim := by
  induction h with
  | @last a w hw =>
    have hnot : byte ',' ∉ a ++ w := by simp [hcomma a List.mem_cons_self, hw.not_mem seen_comma]
    rw [Text.split_of_not_mem hnot, List.map_singleton, List.map_singleton, Text.trim_append_blanks hw]
  | @cons a w w' t args hw hw' _ ih =>
    obtain ⟨ha, hargs⟩ := List.forall_mem_cons.mp hcomma
    have hnot : byte ',' ∉ a ++ w := by simp [ha, hw.not_mem seen_comma]
    have hline : a ++ w ++ "," ++ w' ++ t = a ++ w ++ byte ',' :: (w' ++ t) := by
      rw [List.append_assoc _ w' t, List.append_assoc (a ++ w)]
      rfl
    rw [hline, Text.split_append_sep, Text.split_of_not_mem hnot, List.map_append, List.map_singleton,
      Text.map_trim_split_blanks_append seen_comma hw', ih hargs, Text.trim_append_blanks hw]
    rfl

/-- Only one argument that is nothing is no argument. -/
theorem Spread.trim_ne_nil (h : Spread args t) (hone : ∀ a, args = [a] → a.trim ≠ []) : t.trim ≠ [] := by
  cases h with
  | @last a w hw =>
    rw [Text.trim_append_blanks hw]
    exact hone a rfl
  | cons =>
    intro hnil
    have hmem : byte ',' ∈ Text.ofString "," := by decide
    refine (Text.trim_eq_nil_iff.mp hnil).not_mem seen_comma ?_
    simp [hmem]

/-- **A line is cut into what it is laid out of.** -/
theorem Laid.cutLine_eq (h : Laid m args line) (hm : Blankless m) (hne : m ≠ [])
    (hcomma : ∀ a ∈ args, byte ',' ∉ a) (hone : ∀ a, args = [a] → a.trim ≠ []) :
    cutLine line = (m.lower, args.map Text.trim) := by
  cases h with
  | bare hw hw' =>
    simp only [cutLine, Text.trim_padded hw hw', hm.trim_eq, hm.splitBlank_eq]
    rfl
  | @spread w gap t _ hw hgap hgap0 hspread =>
    obtain ⟨back, hsplit, hback⟩ := Text.splitBlank_trim hm hne hgap hgap0 t
    have htrim : Text.trim (w ++ m ++ gap ++ t) = Text.trim (m ++ gap ++ t) := by
      rw [List.append_assoc, List.append_assoc, Text.trim_blanks_append hw, ← List.append_assoc]
    simp only [cutLine, htrim, hsplit, hback, hspread.trim_ne_nil hone, if_false,
      Text.map_trim_split_trim seen_comma, hspread.map_trim_split hcomma]

theorem assemble_congr (h : cutLine line = cutLine line') : assemble line = assemble line' := by
  simp only [assemble, h]

/-- Unpadded arguments are those of the tight line, in any layout and letter case. -/
theorem Laid.assemble_eq (h : Laid m' args line) (hm : Blankless m) (hne : m ≠ []) (hsame : SameLetters m m')
    (hargs : ∀ a ∈ args, byte ',' ∉ a ∧ Unpadded a) (hone : args ≠ [[]]) :
    assemble line = assemble (tight m args) := by
  have hcomma : ∀ a ∈ args, byte ',' ∉ a := fun a ha => (hargs a ha).1
  have hone' : ∀ a, args = [a] → a.trim ≠ [] := by
    rintro a rfl
    rw [(hargs a List.mem_cons_self).2.trim_eq]
    rintro rfl
    exact hone rfl
  apply assemble_congr
  rw [h.cutLine_eq (hsame.blankless hm) (hsame.ne_nil hne) hcomma hone',
    (laid_tight m args).cutLine_eq hm hne hcomma hone', hsame.lower_eq]

/-! ### White space inside memory operands -/

theorem Literal.Unsigned.plain {n : Nat} (h : Literal.Unsigned t n) : t.Plain := by
  have happend {lead digits : Text} (hlead : lead.Plain) (hdigits : digits.Plain) : Text.Plain (lead ++ digits) :=
    List.forall_mem_append.mpr ⟨hlead, hdigits⟩
  cases h with
  | hex hdigits => exact happend (by decide) hdigits.plain
  | binary hdigits => exact happend (by decide) hdigits.plain
  | zero => decide
  | decimal _ hdigits => exact hdigits.plain

theorem ImmKind.Means.plain {kind : ImmKind} {v : Int} (h : kind.Means t v) : t.Plain := by
  cases h with
  | name hname =>
    have hnames : ∀ entry ∈ csrNames, entry.1.Plain := by decide
    exact hnames _ hname
  | literal hfits =>
    cases hfits.1 with
    | plain hunsigned => exact hunsigned.plain
    | negated hunsigned => exact List.forall_mem_cons.mpr ⟨by decide, hunsigned.plain⟩

theorem Order.Lists.plain {bits : Word} (h : Order.Lists t bits) : t.Plain := by
  obtain ⟨chosen, hsublist, rfl, -⟩ := h
  have haccesses : Text.Plain (Order.accesses.map Prod.fst) := by decide
  exact fun b hb => haccesses b ((hsublist.map Prod.fst).subset hb)

namespace MemoryOperand
variable {kind : ImmKind} {offset base w₁ w₂ w₃ w₄ : Text} {operand : MemoryOperand}

theorem free_padded (hw : Blanks w₁) (hw' : Blanks w₂) : Free (w₁ ++ t ++ w₂) ↔ Free t := by
  have hopen : Text.Seen (byte '(') := by decide
  have hclose : Text.Seen (byte ')') := by decide
  simp [Free, hw.not_mem hopen, hw.not_mem hclose, hw'.not_mem hopen, hw'.not_mem hclose]

theorem indexed_padded (h₁ : Blanks w₁) (h₂ : Blanks w₂) (h₃ : Blanks w₃) (h₄ : Blanks w₄) :
    Indexed kind (w₁ ++ offset ++ w₂) (w₃ ++ base ++ w₄) operand ↔ Indexed kind offset base operand := by
  constructor
  · rintro ⟨hoffset, hbase, hnamed, hv⟩
    rw [Text.trim_padded h₃ h₄] at hnamed
    rw [Text.trim_padded h₁ h₂] at hv
    exact ⟨(free_padded h₁ h₂).mp hoffset, (free_padded h₃ h₄).mp hbase, hnamed, hv⟩
  · rintro ⟨hoffset, hbase, hnamed, hv⟩
    refine ⟨(free_padded h₁ h₂).mpr hoffset, (free_padded h₃ h₄).mpr hbase, ?_, ?_⟩
    · rwa [Text.trim_padded h₃ h₄]
    · rwa [Text.trim_padded h₁ h₂]

/-- The parentheses of a memory operand are where they are seen first. -/
theorem eq_of_around_eq {offset' base' : Text} (hoffset : Free offset) (hbase : Free base)
    (h : around offset base = around offset' base') : offset = offset' ∧ base = base' := by
  have hspan := congrArg (List.span (· ≠ byte '(')) h
  rw [around_eq, around_eq, Text.span_sep hoffset.1] at hspan
  by_cases hopen : byte '(' ∈ offset'
  · obtain ⟨front, back, rfl, hfront⟩ := List.eq_append_cons_of_mem hopen
    rw [List.append_assoc, List.cons_append, Text.span_sep hfront] at hspan
    have hmem : byte '(' ∈ base ++ [byte ')'] := by
      rw [(List.cons.inj (Prod.mk.inj hspan).2).2]
      simp
    rcases List.mem_append.mp hmem with hmem | hmem
    · exact absurd hmem hbase.1
    · exact absurd hmem (by decide)
  · rw [Text.span_sep hopen] at hspan
    obtain ⟨rfl, hback⟩ := Prod.mk.inj hspan
    exact ⟨rfl, List.append_cancel_right (List.cons.inj hback).2⟩

theorem written_around_iff : Written kind (around offset base) operand ↔ Indexed kind offset base operand := by
  constructor
  · intro h
    generalize htoken : around offset base = token at h
    cases h with
    | bare hnamed =>
      have hnot : byte '(' ∉ around offset base := htoken ▸ hnamed.plain.not_mem (by decide)
      exact absurd (open_mem_around offset base) hnot
    | indexed hparts =>
      obtain ⟨rfl, rfl⟩ := eq_of_around_eq hparts.offset_free hparts.base_free htoken.symm
      exact hparts
  · exact .indexed

/-- Trimming a token with parentheses trims the front of its offset. -/
theorem exists_trim_around (offset base : Text) :
    ∃ w rest, Blanks w ∧ offset = w ++ rest ∧ (around offset base).trim = around rest base := by
  obtain ⟨w, w', hw, hw', htoken⟩ := Text.exists_padding (around offset base)
  have hw'0 : w' = [] := by
    by_contra hne
    have hlast : (around offset base).getLast? = some (byte ')') := List.getLast?_concat
    rw [htoken, List.getLast?_append_of_ne_nil _ hne] at hlast
    exact hw'.not_mem (by decide) (List.mem_of_getLast? hlast)
  rw [hw'0, List.append_nil, around_eq] at htoken
  rw [around_eq]
  rcases List.append_eq_append_iff.mp htoken with ⟨front, hfront, hrest⟩ | ⟨rest, hoffset, hrest⟩
  -- the white space ends before the parenthesis, so it is the whole offset at most
  · cases front with
    | nil =>
      rw [List.append_nil] at hfront
      exact ⟨w, [], hw, by rw [hfront, List.append_nil], hrest.symm⟩
    | cons b front =>
      obtain ⟨rfl, -⟩ := List.cons.inj hrest
      exact absurd (hfront ▸ List.mem_append_right _ List.mem_cons_self) (hw.not_mem (by decide))
  · exact ⟨w, rest, hw, hoffset, by rw [hrest, around_eq]⟩

/-- Trimming the token changes nothing about its parts. -/
theorem written_trim_around_iff :
    Written kind (around offset base).trim operand ↔ Indexed kind offset base operand := by
  obtain ⟨w, rest, hw, rfl, htrim⟩ := exists_trim_around offset base
  have hpadded : Indexed kind (w ++ rest ++ []) ([] ++ base ++ []) operand ↔ Indexed kind rest base operand :=
    indexed_padded hw Text.blanks_nil Text.blanks_nil Text.blanks_nil
  simp only [List.append_nil, List.nil_append] at hpadded
  rw [htrim, written_around_iff, hpadded]

end MemoryOperand

/-! ### Arguments that read alike -/

namespace Slot
variable {slot : Slot} {datum : Datum} {data : List Datum}

/-- Arguments that every slot reads as the same. -/
def Alike (a a' : Text) : Prop := ∀ slot datum, Reads slot a datum ↔ Reads slot a' datum

theorem readAs_zip_congr {slots : List Slot} (h : List.Forall₂ Alike args args') :
    ReadAs (slots.zip args) data ↔ ReadAs (slots.zip args') data := by
  induction h generalizing slots data with
  | nil => rfl
  | cons ha _ ih =>
    cases slots with
    | nil => rfl
    | cons slot slots =>
      cases data with
      | nil => simp [ReadAs]
      | cons datum data =>
        simp only [ReadAs, List.zip_cons_cons, List.forall₂_cons]
        exact and_congr (ha slot datum) ih

/-- What is read with a parenthesis in it is a memory operand. -/
theorem reads_trim_around_iff {offset base : Text} :
    Reads slot (MemoryOperand.around offset base).trim datum ↔
      ∃ kind operand, slot = .memory kind ∧ datum = .memory operand ∧
        MemoryOperand.Indexed kind offset base operand := by
  have hopen : byte '(' ∈ (MemoryOperand.around offset base).trim := by
    rw [Text.mem_trim_iff (by decide)]
    exact MemoryOperand.open_mem_around offset base
  constructor
  · intro h
    cases h with
    | register h => exact absurd hopen (h.plain.not_mem (by decide))
    | immediate h => exact absurd hopen (h.plain.not_mem (by decide))
    | memory h => exact ⟨_, _, rfl, rfl, MemoryOperand.written_trim_around_iff.mp h⟩
    | order h => exact absurd hopen (h.plain.not_mem (by decide))
  · rintro ⟨kind, operand, rfl, rfl, h⟩
    exact .memory (MemoryOperand.written_trim_around_iff.mpr h)

/-- **White space around the parts of a memory operand is not seen.** -/
theorem alike_padded {offset base w₁ w₂ w₃ w₄ : Text} (h₁ : Blanks w₁) (h₂ : Blanks w₂) (h₃ : Blanks w₃)
    (h₄ : Blanks w₄) :
    Alike (MemoryOperand.around (w₁ ++ offset ++ w₂) (w₃ ++ base ++ w₄)).trim
      (MemoryOperand.around offset base).trim := by
  intro slot datum
  simp only [reads_trim_around_iff, MemoryOperand.indexed_padded h₁ h₂ h₃ h₄]

end Slot

theorem assemble_eq_ok_congr {inst : Instruction} (h : cutLine line = (t, args)) (h' : cutLine line' = (t, args'))
    (halike : List.Forall₂ Slot.Alike args args') : assemble line = .ok inst ↔ assemble line' = .ok inst := by
  simp only [assemble, h, h']
  cases Mnemonic.ofName? t with
  | none => exact iff_of_false (by rintro ⟨⟩) (by rintro ⟨⟩)
  | some m => simp only [Mnemonic.read_eq_ok_iff, halike.length_eq, Slot.readAs_zip_congr halike]

/-- An operand among the arguments keeps a line from having none. -/
theorem trim_ne_nil_of_around {offset base : Text} {front back : List Text} {a : Text}
    (h : front ++ MemoryOperand.around offset base :: back = [a]) : a.trim ≠ [] := by
  have hmem : MemoryOperand.around offset base ∈ [a] := h ▸ List.mem_append_right _ List.mem_cons_self
  rw [← List.mem_singleton.mp hmem]
  intro hnil
  have hopen := MemoryOperand.open_mem_around offset base
  rw [← Text.mem_trim_iff (by decide), hnil] at hopen
  cases hopen

theorem Laid.assemble_padded {front back : List Text} {offset base w₁ w₂ w₃ w₄ : Text} {inst : Instruction}
    (h : Laid m' (front ++ MemoryOperand.around (w₁ ++ offset ++ w₂) (w₃ ++ base ++ w₄) :: back) line)
    (h₁ : Blanks w₁) (h₂ : Blanks w₂) (h₃ : Blanks w₃) (h₄ : Blanks w₄) (hm : Blankless m) (hne : m ≠ [])
    (hsame : SameLetters m m') (hcomma : ∀ a ∈ front ++ MemoryOperand.around offset base :: back, byte ',' ∉ a) :
    assemble line = .ok inst ↔
      assemble (tight m (front ++ MemoryOperand.around offset base :: back)) = .ok inst := by
  have htight := (laid_tight m _).cutLine_eq hm hne hcomma fun _ => trim_ne_nil_of_around
  have hcomma' : ∀ a ∈ front ++ MemoryOperand.around (w₁ ++ offset ++ w₂) (w₃ ++ base ++ w₄) :: back,
      byte ',' ∉ a := by
    simp only [List.forall_mem_append, List.forall_mem_cons] at hcomma ⊢
    refine ⟨hcomma.1, ?_, hcomma.2.2⟩
    have hplain := hcomma.2.1
    simp only [MemoryOperand.around, List.mem_append, not_or] at hplain ⊢
    simp only [hplain, h₁.not_mem seen_comma, h₂.not_mem seen_comma, h₃.not_mem seen_comma, h₄.not_mem seen_comma,
      not_false_eq_true, and_self]
  have hline := h.cutLine_eq (hsame.blankless hm) (hsame.ne_nil hne) hcomma' fun _ => trim_ne_nil_of_around
  rw [← hsame.lower_eq] at hline
  refine assemble_eq_ok_congr hline htight ?_
  have hsame (args : List Text) : List.Forall₂ Slot.Alike args args :=
    List.forall₂_same.mpr fun _ _ _ _ => Iff.rfl
  simp only [List.map_append, List.map_cons]
  exact List.rel_append (hsame _) (.cons (Slot.alike_padded h₁ h₂ h₃ h₄) (hsame _))

/-- **The layout of a line does not matter.** The mnemonic in any letter case and the arguments in any layout give
what the tight line gives. White space around the parts of a memory operand changes nothing that is read, neither the
operand itself nor a line that has it among its arguments. -/
theorem layout_irrelevant :
    (∀ (m m' : Text) (args : List Text) (line : Text), m ≠ [] → Blankless m → SameLetters m m' →
      (∀ a ∈ args, byte ',' ∉ a ∧ Unpadded a) → args ≠ [[]] → Laid m' args line →
        assemble line = assemble (tight m args)) ∧
    ∀ w₁ w₂ w₃ w₄ offset base : Text, Blanks w₁ → Blanks w₂ → Blanks w₃ → Blanks w₄ →
      let plain := offset ++ "(" ++ base ++ ")"
      let spaced := w₁ ++ offset ++ w₂ ++ "(" ++ (w₃ ++ base ++ w₄) ++ ")"
      (∀ (kind : ImmKind) (operand : MemoryOperand),
        MemoryOperand.parse kind spaced = .ok operand ↔ MemoryOperand.parse kind plain = .ok operand) ∧
      ∀ (m m' : Text) (front back : List Text) (line : Text) (inst : Instruction), m ≠ [] → Blankless m →
        SameLetters m m' → (∀ a ∈ front ++ plain :: back, byte ',' ∉ a) → Laid m' (front ++ spaced :: back) line →
          (assemble line = .ok inst ↔ assemble (tight m (front ++ plain :: back)) = .ok inst) := by
  refine ⟨fun m m' args line hne hm hsame hargs hone h => h.assemble_eq hm hne hsame hargs hone, ?_⟩
  intro w₁ w₂ w₃ w₄ offset base h₁ h₂ h₃ h₄ plain spaced
  refine ⟨fun kind operand => ?_, fun m m' front back line inst hne hm hsame hcomma h => ?_⟩
  · rw [MemoryOperand.parse_eq_ok_iff, MemoryOperand.parse_eq_ok_iff]
    exact MemoryOperand.written_around_iff.trans
      ((MemoryOperand.indexed_padded h₁ h₂ h₃ h₄).trans MemoryOperand.written_around_iff.symm)
  · exact Laid.assemble_padded h h₁ h₂ h₃ h₄ hm hne hsame hcomma

/-- A fence with two empty arguments, and a load with white space of several kinds inside its operand. -/
theorem layout_irrelevant_lines :
    assemble " FENCE\t ,\u00a0" = assemble "fence ," ∧
      (MemoryOperand.parse .i "-4\u2003( sp\t)" = .ok ⟨⟨2⟩, -4⟩ ↔
        MemoryOperand.parse .i "-4(sp)" = .ok ⟨⟨2⟩, -4⟩) ∧
      (assemble "Lw a0, -4\u2003( sp\t)\r" = .ok ⟨.lw, .load ⟨10⟩ ⟨2⟩ (-4)⟩ ↔
        assemble "lw a0,-4(sp)" = .ok ⟨.lw, .load ⟨10⟩ ⟨2⟩ (-4)⟩) := by
  have hfence : Laid "FENCE" [[], []] " FENCE\t ,\u00a0" :=
    Laid.spread (by decide : Blanks " ") (by decide : Blanks "\t ") (by decide)
      (.cons Text.blanks_nil (by decide : Blanks "\u00a0") (.last Text.blanks_nil))
  have hload : Laid "Lw" (["a0"] ++ ["-4\u2003( sp\t)"]) "Lw a0, -4\u2003( sp\t)\r" :=
    Laid.spread Text.blanks_nil (by decide : Blanks " ") (by decide)
      (.cons Text.blanks_nil (by decide : Blanks " ") (.last (by decide : Blanks "\r")))
  have hmemory := layout_irrelevant.2 [] "\u2003" " " "\t" "-4" "sp" (by decide) (by decide) (by decide) (by decide)
  exact ⟨layout_irrelevant.1 "fence" "FENCE" [[], []] _ (by decide) (by decide) (by decide) (by decide) (by decide)
      hfence, hmemory.1 .i ⟨⟨2⟩, -4⟩,
    hmemory.2 "lw" "Lw" ["a0"] [] _ _ (by decide) (by decide) (by decide) (by decide) hload⟩

end RvConsole
