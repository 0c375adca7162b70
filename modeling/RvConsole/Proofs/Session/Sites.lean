import RvConsole.Proofs.Isa.Operand
import RvConsole.Proofs.Session.Equates
import RvConsole.Proofs.Text.Trimming

/-! Where an expression ends.

The expression of a line is taken up to the last bracket that closes, and not to the one that belongs to its own. So it
stands for its value where no such bracket follows it; where one does, the text in between is evaluated along with the
expression (`expand_expression`). A memory operand whose offset is an expression therefore does not expand
(`expression_not_its_value`). -/
namespace RvConsole

namespace Expand

/-- Brackets that match: none closes that was not opened, and all are closed. -/
def Balanced (t : Text) : Prop :=
  t.count (Text.byte '(') = t.count (Text.byte ')') ∧
    ∀ front ∈ t.inits, front.count (Text.byte ')') ≤ front.count (Text.byte '(')

instance (t : Text) : Decidable (Balanced t) :=
  inferInstanceAs (Decidable (_ ∧ _))

/-- An expression reaches to the last closing bracket. -/
theorem site?_of_last (source : Text) {after : Text} (h : Text.byte ')' ∉ after) :
    site? (Text.byte '(' :: (source ++ Text.byte ')' :: after)) = some (source, after) := by
  have hother : ∀ c ∈ after.reverse, decide (c ≠ Text.byte ')') = true := by
    intro c hc
    apply decide_eq_true
    intro heq
    exact h (heq ▸ List.mem_reverse.mp hc)
  have hreverse : (source ++ Text.byte ')' :: after).reverse = after.reverse ++ Text.byte ')' :: source.reverse := by
    simp
  simp only [site?, if_true, hreverse]
  rw [List.dropWhile_append_of_pos hother, List.takeWhile_append_of_pos hother]
  simp

/-- A line with one dollar keeps what stands in front of it. -/
theorem expressions_of_dollar (evaluate : Evaluator) {front t : Text} (hfront : dollar ∉ front) (ht : dollar ∉ t) :
    expressions evaluate (front ++ dollar :: t) = (piece evaluate t).map (front ++ ·) := by
  rw [expressions, Text.split_append_sep, Text.split_of_not_mem hfront, Text.split_of_not_mem ht]
  simp only [List.singleton_append, pieces]
  cases piece evaluate t with
  | error e => rfl
  | ok text => simp [Except.map, bind, Except.bind, pure, Except.pure]

theorem marked_eq (pre source after : Text) :
    pre ++ "$(" ++ source ++ ")" ++ after =
      pre ++ dollar :: (Text.byte '(' :: (source ++ Text.byte ')' :: after)) := by
  have hopen : Text.ofString "$(" = [dollar, Text.byte '('] := by decide
  have hclose : Text.ofString ")" = [Text.byte ')'] := by decide
  rw [hopen, hclose]
  simp

theorem dollar_not_mem_decimal (v : Int) : dollar ∉ Text.decimal v := (Text.plain_decimal v).not_mem (by decide)

/-- The one expression of a line is what stands up to its last closing bracket. -/
theorem expressions_of_site (evaluate : Evaluator) {pre source after : Text} (hpre : dollar ∉ pre)
    (hsource : dollar ∉ source) (hafter : dollar ∉ after) (hlast : Text.byte ')' ∉ after) :
    expressions evaluate (pre ++ "$(" ++ source ++ ")" ++ after) =
      (evaluate source).map fun v => pre ++ Text.decimal v ++ after := by
  have hrest : dollar ∉ Text.byte '(' :: (source ++ Text.byte ')' :: after) := by
    have hopen : dollar ≠ Text.byte '(' := by decide
    have hclose : dollar ≠ Text.byte ')' := by decide
    simp [hopen, hclose, hsource, hafter]
  rw [marked_eq, expressions_of_dollar evaluate hpre hrest, piece, site?_of_last source hlast]
  dsimp only
  cases evaluate source with
  | error e => rfl
  | ok v => simp [Except.map]

section
variable {evaluate : Evaluator} (equates : Equates) {pre source after : Text} (hpre : dollar ∉ pre)
  (hsource : dollar ∉ source) (hafter : dollar ∉ after) (hlast : Text.byte ')' ∉ after)
include hpre hsource hafter hlast

/-- An expression that has a value is as good as its value. -/
theorem expand_of_value {v : Int} (hvalue : evaluate source = .ok v) :
    expand evaluate equates (pre ++ "$(" ++ source ++ ")" ++ after) =
      expand evaluate equates (pre ++ Text.decimal v ++ after) := by
  have hplain : dollar ∉ pre ++ Text.decimal v ++ after := by
    simp [hpre, hafter, dollar_not_mem_decimal]
  rw [expand, expand, expressions_of_site evaluate hpre hsource hafter hlast, hvalue,
    expressions_of_not_mem evaluate hplain]
  rfl

/-- An expression that has none fails the line. -/
theorem expand_of_failure {e : ExpandError} (hvalue : evaluate source = .error e) :
    expand evaluate equates (pre ++ "$(" ++ source ++ ")" ++ after) = (.error e, equates) := by
  rw [expand, expressions_of_site evaluate hpre hsource hafter hlast, hvalue]
  rfl

end

/-- **An expression stands for its value where no bracket closes behind it.** Where one does, the text up to the last
such bracket goes with the expression: what is then evaluated is not the expression alone, and its value, if it has
one, takes the place of all that text. -/
theorem expand_expression (evaluate : Evaluator) (equates : Equates) {pre source post : Text} (hpre : dollar ∉ pre)
    (hsource : dollar ∉ source) (hpost : dollar ∉ post) {v : Int} (hvalue : evaluate source = .ok v) :
    (Text.byte ')' ∉ post →
        expand evaluate equates (pre ++ "$(" ++ source ++ ")" ++ post) =
          expand evaluate equates (pre ++ Text.decimal v ++ post)) ∧
      ∀ between after : Text, post = between ++ ")" ++ after → Text.byte ')' ∉ after →
        (∀ u, evaluate (source ++ ")" ++ between) = .ok u →
            expand evaluate equates (pre ++ "$(" ++ source ++ ")" ++ post) =
              expand evaluate equates (pre ++ Text.decimal u ++ after)) ∧
          ∀ e, evaluate (source ++ ")" ++ between) = .error e →
            expand evaluate equates (pre ++ "$(" ++ source ++ ")" ++ post) = (.error e, equates) := by
  refine ⟨fun hlast => expand_of_value equates hpre hsource hpost hlast hvalue, ?_⟩
  intro between after hpost_eq hlast
  subst hpost_eq
  have hwhole : pre ++ "$(" ++ source ++ ")" ++ (between ++ ")" ++ after) =
      pre ++ "$(" ++ (source ++ ")" ++ between) ++ ")" ++ after := by
    simp only [List.append_assoc]
  have hclose : dollar ∉ Text.ofString ")" := by decide
  simp only [List.mem_append, not_or] at hpost
  obtain ⟨⟨hbetween, -⟩, hafter⟩ := hpost
  have hlonger : dollar ∉ source ++ ")" ++ between := by
    simp [hsource, hclose, hbetween]
  rw [hwhole]
  exact ⟨fun u hu => expand_of_value equates hpre hlonger hafter hlast hu,
    fun e he => expand_of_failure equates hpre hlonger hafter hlast he⟩

/-! ### With the equates of a session -/

/-- A text that does not parse has no value. -/
theorem evaluate_of_grammar {equates : Equates} {source : Text} {e : Expression.GrammarError}
    (h : Expression.parse (Expression.assignment source) = .error e) :
    equates.evaluate Expression.language source = .error (.expression ⟨.grammar, e.message⟩) := by
  have hrun : Expression.language equates.integers (Expression.assignment source) =
      .error ⟨.grammar, e.message⟩ := by
    unfold Expression.language Expression.run
    rw [h]
    rfl
  unfold Equates.evaluate
  rw [hrun]

theorem evaluate_sum : Equates.evaluate [] Expression.language "4+4" = .ok 8 :=
  Equates.evaluate_of_run (Expression.run_of_eval rfl rfl rfl) (by decide)

/-- With the base register behind it, the sum is no expression. -/
theorem evaluate_sum_based :
    ∃ e, Equates.evaluate [] Expression.language (Text.ofString "4+4" ++ ")" ++ "(sp") = .error e :=
  ⟨_, evaluate_of_grammar rfl⟩

theorem marked_sum : Text.ofString "lw a0, " ++ "$(" ++ "4+4" ++ ")" ++ "(sp)" = "lw a0, $(4+4)(sp)" := by decide

/-- Nested brackets do no harm to an expression that ends its line; as an offset, the expression takes the base register
in, and the line does not expand. -/
theorem expand_expression_offset :
    let evaluate := Equates.evaluate [] Expression.language
    (Balanced "(4+4)*2" ∧ evaluate "(4+4)*2" = .ok 16 ∧
      expand evaluate [] "addi a0, a0, $((4+4)*2)" = expand evaluate [] "addi a0, a0, 16") ∧
    (Balanced "4+4" ∧ evaluate "4+4" = .ok 8 ∧
      ∃ e, expand evaluate [] "lw a0, $(4+4)(sp)" = (.error e, [])) := by
  intro evaluate
  have hnested : evaluate "(4+4)*2" = .ok 16 :=
    Equates.evaluate_of_run (Expression.run_of_eval rfl rfl rfl) (by decide)
  have hends := expand_expression evaluate []
    (show dollar ∉ Text.ofString "addi a0, a0, " by decide) (show dollar ∉ Text.ofString "(4+4)*2" by decide)
    (show dollar ∉ Text.ofString "" by decide) hnested
  have hoffset := expand_expression evaluate []
    (show dollar ∉ Text.ofString "lw a0, " by decide) (show dollar ∉ Text.ofString "4+4" by decide)
    (show dollar ∉ Text.ofString "(sp)" by decide) evaluate_sum
  obtain ⟨e, he⟩ := evaluate_sum_based
  refine ⟨⟨by decide, hnested, hends.1 (by decide)⟩, by decide, evaluate_sum, e, ?_⟩
  rw [← marked_sum]
  exact (hoffset.2 "(sp" [] (by decide) (by decide)).2 e he

/-- **An expression does not stand for its value everywhere**: not as the offset of a memory operand. -/
theorem expression_not_its_value :
    ¬ ∀ (equates : Equates) (pre source post : Text) (v : Int), dollar ∉ pre → dollar ∉ source → dollar ∉ post →
      Balanced source → equates.evaluate Expression.language source = .ok v →
        expand (equates.evaluate Expression.language) equates (pre ++ "$(" ++ source ++ ")" ++ post) =
          expand (equates.evaluate Expression.language) equates (pre ++ Text.decimal v ++ post) := by
  intro h
  have hsame := h [] "lw a0, " "4+4" "(sp)" 8 (by decide) (by decide) (by decide) (by decide) evaluate_sum
  have hvalue : (expand (Equates.evaluate [] Expression.language) []
      (Text.ofString "lw a0, " ++ Text.decimal 8 ++ "(sp)")).1 = .ok (Text.ofString "lw a0, 8(sp)") := rfl
  obtain ⟨e, he⟩ := evaluate_sum_based
  have hlonger : Text.ofString "lw a0, $(4+4)(sp)" =
      Text.ofString "lw a0, " ++ "$(" ++ (Text.ofString "4+4" ++ ")" ++ "(sp") ++ ")" ++ "" := by decide
  have hfails : expand (Equates.evaluate [] Expression.language) [] "lw a0, $(4+4)(sp)" = (.error e, []) := by
    rw [hlonger]
    exact expand_of_failure [] (by decide) (by decide) (by decide) (by decide) he
  rw [← hsame, marked_sum, hfails] at hvalue
  cases hvalue

end Expand

end RvConsole
