import RvConsole.Proofs.Isa.Grammar

/-! Memory operands by the places of their parentheses.

What is read is an offset before a register in parentheses (`MemoryOperand.Written`). What is refused goes by where
the first parenthesis of either kind stands: a token is `Enclosed` when the first closing one ends it and the first
opening one is before that. Then both parts lie within the token, and the register is looked at before the offset
(`parse_of_enclosed`); every other token with an opening parenthesis is refused for its parentheses alone. -/
namespace RvConsole
open Text (byte)

namespace MemoryOperand
variable {kind : ImmKind} {token offset base inside rest : Text}

/-- Where the first opening parenthesis stands. -/
def openAt (token : Text) : Nat := token.idxOf (byte '(')

/-- Where the first closing parenthesis stands. -/
def closeAt (token : Text) : Nat := token.idxOf (byte ')')

/-- The text before the first opening parenthesis. -/
def offsetPart (token : Text) : Text := token.take (openAt token)

/-- The text from the first opening parenthesis to the first closing one. -/
def basePart (token : Text) : Text := (token.take (closeAt token)).drop (openAt token + 1)

/-- The first closing parenthesis ends the token, and does not stand before the first opening one. -/
structure Enclosed (token : Text) : Prop where
  opened : byte '(' ∈ token
  closed : byte ')' ∈ token
  last : closeAt token + 1 = token.length
  ordered : ¬ closeAt token < openAt token

/-! ### Places -/

theorem openAt_append (h : byte '(' ∉ offset) : openAt (offset ++ byte '(' :: inside) = offset.length := by
  rw [openAt, List.idxOf_append_of_notMem h, List.idxOf_cons_self, Nat.add_zero]

theorem closeAt_lt_of_mem (h : byte ')' ∈ offset) : closeAt (offset ++ inside) < offset.length := by
  rw [closeAt, List.idxOf_append_of_mem h]
  exact List.idxOf_lt_length_of_mem h

theorem closeAt_append (hoffset : byte ')' ∉ offset) (hbase : byte ')' ∉ base) :
    closeAt (offset ++ byte '(' :: (base ++ byte ')' :: rest)) = offset.length + (base.length + 1) := by
  rw [closeAt, List.idxOf_append_of_notMem hoffset, List.idxOf_cons_ne _ (by decide),
    List.idxOf_append_of_notMem hbase, List.idxOf_cons_self, Nat.add_zero]

theorem close_mem_inside (h : byte ')' ∈ offset ++ byte '(' :: inside) (hoffset : byte ')' ∉ offset) :
    byte ')' ∈ inside := by
  rcases List.mem_append.mp h with h | h
  · exact absurd h hoffset
  · exact List.mem_of_ne_of_mem (by decide) h

/-- An enclosed token is its two parts around the parentheses, and both parts lie within it. -/
theorem Enclosed.parts (h : Enclosed token) :
    token = around (offsetPart token) (basePart token) ∧ byte '(' ∉ offsetPart token ∧ byte ')' ∉ offsetPart token ∧
      byte ')' ∉ basePart token ∧ openAt token + 1 ≤ closeAt token := by
  obtain ⟨hopened, hclosed, hlast, hordered⟩ := h
  obtain ⟨offset, inside, rfl, hopen⟩ := List.eq_append_cons_of_mem hopened
  rw [openAt_append hopen] at hordered
  have hclose : byte ')' ∉ offset := fun hmem => hordered (closeAt_lt_of_mem hmem)
  obtain ⟨base, rest, rfl, hbase⟩ := List.eq_append_cons_of_mem (close_mem_inside hclosed hclose)
  have hplace : closeAt (offset ++ byte '(' :: (base ++ byte ')' :: rest)) = _ := closeAt_append hclose hbase
  have hrest : rest = [] := by
    rw [hplace] at hlast
    simp only [List.length_append, List.length_cons] at hlast
    exact List.length_eq_zero_iff.mp (by omega)
  subst hrest
  have hoffsetPart : offsetPart (offset ++ byte '(' :: (base ++ [byte ')'])) = offset := by
    rw [offsetPart, openAt_append hopen, List.take_left]
  have hbasePart : basePart (offset ++ byte '(' :: (base ++ [byte ')'])) = base := by
    rw [basePart, openAt_append hopen, hplace]
    simp [List.take_append, List.drop_append]
  rw [hoffsetPart, hbasePart, openAt_append hopen, hplace]
  exact ⟨(around_eq offset base).symm, hopen, hclose, hbase, by omega⟩

/-! ### Refusals -/

theorem parse_of_unclosed (hopen : byte '(' ∈ token) (hclose : byte ')' ∉ token) :
    parse kind token = .error .missingClose := by
  obtain ⟨offset, inside, rfl, hoffset⟩ := List.eq_append_cons_of_mem hopen
  have hbefore : byte ')' ∉ offset := fun h => hclose (List.mem_append_left _ h)
  have hinside : byte ')' ∉ inside := fun h => hclose (List.mem_append_right _ (List.mem_cons_of_mem _ h))
  simp only [parse, Text.span_sep hoffset, Text.span_of_not_mem hinside, List.contains_eq_mem, hbefore, decide_false,
    Bool.false_eq_true, if_false]

/-- A closing parenthesis that comes first or has text behind it is refused. -/
theorem parse_of_not_enclosed (hopen : byte '(' ∈ token) (hclose : byte ')' ∈ token)
    (h : closeAt token + 1 ≠ token.length ∨ closeAt token < openAt token) :
    parse kind token = .error .textAfterClose := by
  obtain ⟨offset, inside, rfl, hoffset⟩ := List.eq_append_cons_of_mem hopen
  simp only [parse, Text.span_sep hoffset, List.contains_eq_mem, decide_eq_true_eq]
  by_cases hbefore : byte ')' ∈ offset
  · rw [if_pos hbefore]
  · obtain ⟨base, rest, rfl, hbase⟩ := List.eq_append_cons_of_mem (close_mem_inside hclose hbefore)
    rw [closeAt_append hbefore hbase, openAt_append hoffset] at h
    simp only [List.length_append, List.length_cons] at h
    rw [if_neg hbefore]
    simp only [Text.span_sep hbase]
    cases rest with
    | nil =>
      rw [List.length_nil] at h
      omega
    | cons b rest => rfl

theorem parse_of_enclosed (h : Enclosed token) :
    parse kind token = (do
      let r ← Register.parse (basePart token).trim
      let v ← parseOffset kind (offsetPart token).trim
      return ⟨r, v⟩) := by
  obtain ⟨htoken, hopen, hclose, hbase, -⟩ := h.parts
  rw [← parse_of_around hopen hclose hbase, ← htoken]

theorem parse_of_bad_base (h : Enclosed token) {e : OperandError}
    (hbase : Register.parse (basePart token).trim = .error e) : parse kind token = .error e := by
  rw [parse_of_enclosed h, hbase]
  rfl

theorem parse_of_bad_offset (h : Enclosed token) {r : Register} {e : OperandError}
    (hbase : Register.parse (basePart token).trim = .ok r) (hne : (offsetPart token).trim ≠ [])
    (hoffset : kind.parse (offsetPart token).trim = .error e) : parse kind token = .error e := by
  rw [parse_of_enclosed h, hbase, parseOffset, if_neg hne, hoffset]
  rfl

/-- What a memory operand is, with the two ways of writing it side by side. -/
theorem written_iff {operand : MemoryOperand} : Written kind token operand ↔
    byte '(' ∉ token ∧ Register.Named token operand.base.index.toNat ∧ operand.offset = 0 ∨
      ∃ offset base, token = offset ++ "(" ++ base ++ ")" ∧ Indexed kind offset base operand := by
  constructor
  · intro h
    cases h with
    | bare hnamed => exact .inl ⟨hnamed.plain.not_mem (by decide), hnamed, rfl⟩
    | indexed hparts => exact .inr ⟨_, _, rfl, hparts⟩
  · rintro (⟨-, hnamed, hoffset⟩ | ⟨offset, base, rfl, hparts⟩)
    · obtain ⟨r, v⟩ := operand
      obtain rfl : v = 0 := hoffset
      exact .bare hnamed
    · exact .indexed hparts

end MemoryOperand

open MemoryOperand

/-- **Memory operands are read exactly.** A token is read as a base with an offset if and only if it is the name of
the base, without a parenthesis and with offset zero, or an offset and then the base in parentheses, neither with a
parenthesis in it and each with any white space around it. A token that opens a parenthesis is refused for a missing
one when it closes none, and for text behind it when the first that it closes is not its last byte or comes before
the first that it opens. Otherwise the two parts lie within the token, and a bad register in it is reported before a
bad offset. -/
theorem memory_operands_read_exactly (kind : ImmKind) (token : Text) :
    (∀ operand, MemoryOperand.parse kind token = .ok operand ↔
      byte '(' ∉ token ∧ Register.Named token operand.base.index.toNat ∧ operand.offset = 0 ∨
        ∃ offset base, token = offset ++ "(" ++ base ++ ")" ∧ Indexed kind offset base operand) ∧
    (byte '(' ∉ token → ∀ e, Register.parse token = .error e → MemoryOperand.parse kind token = .error e) ∧
    (byte '(' ∈ token → byte ')' ∉ token → MemoryOperand.parse kind token = .error .missingClose) ∧
    (byte '(' ∈ token → byte ')' ∈ token → closeAt token + 1 ≠ token.length ∨ closeAt token < openAt token →
      MemoryOperand.parse kind token = .error .textAfterClose) ∧
    (byte '(' ∈ token → byte ')' ∈ token → closeAt token + 1 = token.length → ¬ closeAt token < openAt token →
      (openAt token + 1 ≤ closeAt token ∧ closeAt token ≤ token.length) ∧
      (∀ e, Register.parse (basePart token).trim = .error e → MemoryOperand.parse kind token = .error e) ∧
      ∀ r e, Register.parse (basePart token).trim = .ok r → (offsetPart token).trim ≠ [] →
        kind.parse (offsetPart token).trim = .error e → MemoryOperand.parse kind token = .error e) := by
  refine ⟨fun operand => MemoryOperand.parse_eq_ok_iff.trans written_iff, ?_, parse_of_unclosed,
    parse_of_not_enclosed, ?_⟩
  · intro hopen e hbase
    rw [parse_of_bare hopen, hbase]
    rfl
  · intro hopen hclose hlast hordered
    have henclosed : Enclosed token := ⟨hopen, hclose, hlast, hordered⟩
    obtain ⟨-, -, -, -, hplaces⟩ := henclosed.parts
    exact ⟨⟨hplaces, by omega⟩, fun e => parse_of_bad_base henclosed, fun r e => parse_of_bad_offset henclosed⟩

/-- White space inside and outside of the parentheses; parentheses that are not closed, closed twice, and the wrong way
round; an opening one too many, with an offset that is bad as well; an offset out of range. -/
theorem memory_operands_read_exactly_parentheses :
    (Indexed .s " -2048\t" " sp " ⟨⟨2⟩, -2048⟩ ∧ MemoryOperand.parse .s " -2048\t( sp )" = .ok ⟨⟨2⟩, -2048⟩) ∧
    MemoryOperand.parse .i "4(sp" = .error .missingClose ∧
    (closeAt "0((sp))" + 1 ≠ List.length (Text.ofString "0((sp))") ∧
      MemoryOperand.parse .i "0((sp))" = .error .textAfterClose) ∧
    (closeAt ")4(sp" < openAt ")4(sp" ∧ MemoryOperand.parse .i ")4(sp" = .error .textAfterClose) ∧
    (basePart "x((sp)" = "(sp" ∧ MemoryOperand.parse .i "x((sp)" = .error (.notRegister "(sp")) ∧
    MemoryOperand.parse .s "2048(sp)" = .error (.outsideRange 2048 (-2048) 2047) := by
  have hpadded : Indexed .s " -2048\t" " sp " ⟨⟨2⟩, -2048⟩ :=
    ⟨⟨by decide, by decide⟩, ⟨by decide, by decide⟩, Register.named_of_parse (r := ⟨2⟩) (by decide),
      parseOffset_eq_ok_iff.mp (by decide)⟩
  have htwice : closeAt "0((sp))" + 1 ≠ List.length (Text.ofString "0((sp))") := by decide
  have hreversed : closeAt ")4(sp" < openAt ")4(sp" := by decide
  obtain ⟨-, hnested, -⟩ := (memory_operands_read_exactly .i "x((sp)").2.2.2.2 (by decide) (by decide) (by decide)
    (by decide)
  obtain ⟨-, -, hfar⟩ := (memory_operands_read_exactly .s "2048(sp)").2.2.2.2 (by decide) (by decide) (by decide)
    (by decide)
  exact ⟨⟨hpadded, ((memory_operands_read_exactly .s _).1 _).mpr (.inr ⟨_, _, rfl, hpadded⟩)⟩,
    (memory_operands_read_exactly .i "4(sp").2.2.1 (by decide) (by decide),
    ⟨htwice, (memory_operands_read_exactly .i _).2.2.2.1 (by decide) (by decide) (.inl htwice)⟩,
    ⟨hreversed, (memory_operands_read_exactly .i _).2.2.2.1 (by decide) (by decide) (.inr hreversed)⟩,
    ⟨by decide, hnested _ (by decide)⟩, hfar ⟨2⟩ _ (by decide) (by decide) (by decide)⟩

end RvConsole
