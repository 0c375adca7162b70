import RvConsole.Link.Device
import RvConsole.Proofs.Session.Step

/-! Equates are given once.

A line gives an equate when its expressions all have values and what it then reads is the directive, a name that
has no text yet, and a text (`Equates.Gives`). Such a line adds just that equate and comes to nothing
(`expand_of_gives`); any other leaves the equates as they are, whatever becomes of it (`expand_of_not_gives`).
So however a session is used, a name that has a text keeps it (`equates_given_once`). -/
namespace RvConsole

namespace Equates
variable {equates : Equates} {language : Expression.Language} {line name value : Text}

/-- A line gives a name a text. -/
def Gives (equates : Equates) (language : Expression.Language) (line name value : Text) : Prop :=
  (∃ plain, Expand.expressions (equates.evaluate language) line = .ok plain ∧
    plain.fields = [Expand.directive, name, value]) ∧ equates.get? name = none

/-! ### One line -/

/-- A name given last is found, and all others as before. -/
theorem get?_append_given (h : equates.get? name = none) (value other : Text) :
    get? (equates ++ [(name, value)]) other =
      if other = name then some value else equates.get? other := by
  unfold get? at h ⊢
  rw [List.lookup_append]
  by_cases hother : other = name
  · subst hother
    simp [h]
  · simp [hother, List.lookup_cons, beq_eq_false_iff_ne.mpr hother]

theorem expand_of_gives (h : equates.Gives language line name value) :
    expand (equates.evaluate language) equates line = (.ok [], equates ++ [(name, value)]) := by
  obtain ⟨⟨plain, hplain, hfields⟩, hnone⟩ := h
  simp only [expand, hplain, Expand.plain, hfields, if_true, define?, hnone]

/-- A line that gives nothing leaves the equates as they are. -/
theorem expand_of_not_gives (h : ¬ ∃ name value, equates.Gives language line name value) :
    (expand (equates.evaluate language) equates line).2 = equates := by
  unfold expand
  split
  · rfl
  case h_2 plain hplain =>
    unfold Expand.plain
    split
    · rfl
    case h_2 first rest hfields =>
      split_ifs with hfirst
      · subst hfirst
        split
        case h_1 name value =>
          cases hname : equates.get? name with
          | some old => simp only [define?, hname]
          | none => exact absurd ⟨name, value, ⟨plain, hplain, hfields⟩, hname⟩ h
        case h_2 => rfl
      · rfl

theorem get?_expand_of_gives (h : equates.Gives language line name value) (other : Text) :
    get? (expand (equates.evaluate language) equates line).2 other =
      if other = name then some value else equates.get? other := by
  rw [expand_of_gives h]
  exact get?_append_given h.2 value other

/-- **The equates change exactly when the line gives one.** -/
theorem expand_changes_iff :
    (∃ name, get? (expand (equates.evaluate language) equates line).2 name ≠ equates.get? name) ↔
      ∃ name value, equates.Gives language line name value := by
  constructor
  · rintro ⟨name, hname⟩
    by_contra h
    rw [expand_of_not_gives h] at hname
    exact hname rfl
  · rintro ⟨name, value, h⟩
    refine ⟨name, ?_⟩
    rw [get?_expand_of_gives h, if_pos rfl, h.2]
    exact Option.some_ne_none value

theorem get?_expand_of_bound (h : equates.get? name = some value) (line : Text) :
    get? (expand (equates.evaluate language) equates line).2 name = some value := by
  by_cases hgives : ∃ name value, equates.Gives language line name value
  · obtain ⟨name', value', hgives⟩ := hgives
    have hne : name ≠ name' := by
      rintro rfl
      rw [hgives.2] at h
      cases h
    rw [get?_expand_of_gives hgives, if_neg hne, h]
  · rw [expand_of_not_gives hgives, h]

end Equates

/-! ### Values -/

namespace Expression
variable {given : List (Text × Int)} {source : Text} {place : Position} {e : Expr} {bound : List Text} {v : Value}

/-- An expression that is read as a single value leaves that value. -/
theorem run_of_eval (hparse : parse (assignment source) = .ok [.assign (.name place resultName) e])
    (hresolve : resolve (given.map (·.1)) [.assign (.name place resultName) e] = .ok bound)
    (heval : e.eval ⟨given, bound, []⟩ = .ok v) : run given (assignment source) = .ok [(resultName, v)] := by
  have hrun : Statement.run ⟨given, bound, []⟩ (.assign (.name place resultName) e) =
      .ok (Scope.set ⟨given, bound, []⟩ resultName v) := by
    simp only [Statement.run, heval]
    exact Expr.assign.eq_1 ..
  have hrunAll : [Statement.assign (.name place resultName) e].foldlM Statement.run ⟨given, bound, []⟩ =
      .ok (Scope.set ⟨given, bound, []⟩ resultName v) := by
    rw [List.foldlM_cons, hrun]
    rfl
  unfold run
  rw [hparse]
  show ((resolve _ _).mapError _ >>= _) = _
  rw [hresolve]
  show (Except.mapError _ (List.foldlM _ _ _) >>= _) = _
  rw [hrunAll]
  rfl

theorem language_of_run {program : Text} {globals : List (Text × Value)} (h : run given program = .ok globals) :
    ∃ integers, language given program = .ok integers ∧
      ∀ {name n}, globals.lookup name = some (.int n) → integers name = some n := by
  unfold language
  rw [h]
  refine ⟨_, rfl, fun hvalue => ?_⟩
  simp only [hvalue]

end Expression

namespace Equates
variable {equates : Equates} {language : Expression.Language} {source : Text} {n : Int}

theorem evaluate_of_int {globals : Text → Option Int}
    (h : language equates.integers (Expression.assignment source) = .ok globals)
    (hvariable : globals Expression.resultName = some n)
    (hn : -0x8000000000000000 ≤ n ∧ n < 0x8000000000000000) : equates.evaluate language source = .ok n := by
  unfold Equates.evaluate
  simp only [h, hvariable]
  exact if_pos hn

theorem evaluate_of_run
    (h : Expression.run equates.integers (Expression.assignment source) = .ok [(Expression.resultName, .int n)])
    (hn : -0x8000000000000000 ≤ n ∧ n < 0x8000000000000000) :
    equates.evaluate Expression.language source = .ok n := by
  obtain ⟨globals, hlanguage, hvariable⟩ := Expression.language_of_run h
  exact evaluate_of_int hlanguage (hvariable (by simp)) hn

end Equates

/-! ### Sessions -/

namespace Session
variable {σ : Type} {p : Port σ} {s : Session σ} {name value : Text}

/-- A line that gives an equate is remembered and does nothing else. -/
theorem line_of_gives {line : Text} (h : s.equates.Gives s.language line.trim name value) (p : Port σ) (out : Sink) :
    s.line p out line =
      { session := { s.remember line.trim with equates := s.equates ++ [(name, value)] }, out } := by
  have hexpand := Equates.expand_of_gives h
  have hne : line.trim ≠ [] := by
    intro hnil
    rw [hnil, expand_nil] at hexpand
    simp at hexpand
  have hcommand : command? line.trim = none := by
    cases hc : command? line.trim with
    | none => rfl
    | some c =>
      rw [expand_of_command _ _ hc] at hexpand
      simp at hexpand
  rw [line_of_instruct hne hcommand]
  simp only [instruct, remember_equates, remember_language, hexpand]

/-- A way to use a session. -/
inductive Use where
  | expand (line : Text)
  | line (out : Sink) (line : Text)
  | run (out : Sink) (input : Text)

/-- The session after it was used once. -/
def afterUse (p : Port σ) (s : Session σ) : Use → Session σ
  | .expand line => { s with equates := (RvConsole.expand (s.equates.evaluate s.language) s.equates line).2 }
  | .line out line => (s.line p out line).session
  | .run out input => (s.run p out input).session

/-- The session after it was used any number of times. -/
def afterUses (p : Port σ) (s : Session σ) (uses : List Use) : Session σ :=
  uses.foldl (fun s u => s.afterUse p u) s

theorem get?_foldl_after {equates : Equates} (h : equates.get? name = some value)
    (language : Expression.Language) (lines : List Text) :
    Equates.get? (lines.foldl (fun equates line => equates.after language line) equates) name = some value := by
  induction lines generalizing equates with
  | nil => exact h
  | cons line rest ih => exact ih (Equates.get?_expand_of_bound h line.trim)

theorem get?_afterUse (h : s.equates.get? name = some value) (u : Use) :
    (s.afterUse p u).equates.get? name = some value := by
  cases u with
  | expand line => exact Equates.get?_expand_of_bound h line
  | line out line =>
    simp only [afterUse, line_equates]
    exact Equates.get?_expand_of_bound h line.trim
  | run out input =>
    simp only [afterUse, run_equates]
    exact get?_foldl_after h _ _

theorem get?_afterUses (h : s.equates.get? name = some value) (uses : List Use) :
    (s.afterUses p uses).equates.get? name = some value := by
  unfold afterUses
  induction uses generalizing s with
  | nil => exact h
  | cons u rest ih => exact ih (get?_afterUse h u)

/-- A line that fails, quits or writes anything gives no equate. -/
theorem line_equates_of_effect {out : Sink} {line : Text}
    (h : (s.line p out line).error.isSome ∨ (s.line p out line).quit ∨ (s.line p out line).out ≠ out) :
    (s.line p out line).session.equates = s.equates := by
  rw [line_equates]
  apply Equates.expand_of_not_gives
  rintro ⟨name, value, hgives⟩
  rw [line_of_gives hgives p out] at h
  simp at h

/-- A session that knows a size, and whose port has nothing to say. -/
def sized : Session Script := { equates := [("SIZE", "16")], port := some { reply := [] } }

/-- The text given is the value of the expression. -/
theorem sized_gives : sized.equates.Gives sized.language ".equ TWICE $(SIZE*2)" "TWICE" "32" := by
  have hvalue : sized.equates.evaluate sized.language "SIZE*2" = .ok 32 := by
    have hintegers : sized.equates.integers = [(Text.ofString "SIZE", 16)] := by decide
    apply Equates.evaluate_of_run
    · rw [hintegers]
      exact Expression.run_of_eval rfl rfl rfl
    · decide
  have hsplit : Text.split Expand.dollar ".equ TWICE $(SIZE*2)" =
      [Text.ofString ".equ TWICE ", Text.ofString "(SIZE*2)"] := by decide
  have hsite : Expand.site? "(SIZE*2)" = some (Text.ofString "SIZE*2", []) := by decide
  refine ⟨⟨".equ TWICE 32", ?_, by decide⟩, by decide⟩
  rw [Expand.expressions, hsplit]
  simp only [Expand.pieces, Expand.piece, hsite, hvalue]
  rfl

/-- **Equates are given once**, whatever language expressions are in. However a session is used, a name that has a
text keeps it. An expansion changes the equates exactly when its line gives one; then it adds that one and comes to
nothing, and otherwise, as whenever it fails, it leaves the equates as they are. A line of a session leaves what the
expansion of its trimmed text leaves, and gives nothing if it fails, quits or writes anything; an input leaves what
its lines leave, as far as they are reached. -/
theorem equates_given_once (p : Port σ) (s : Session σ) :
    (∀ (uses : List Use) (name value : Text), s.equates.get? name = some value →
        (s.afterUses p uses).equates.get? name = some value) ∧
      (∀ line, (∃ name, Equates.get? (expand (s.equates.evaluate s.language) s.equates line).2 name ≠
          s.equates.get? name) ↔ ∃ name value, s.equates.Gives s.language line name value) ∧
      (∀ line name value, s.equates.Gives s.language line name value →
        expand (s.equates.evaluate s.language) s.equates line = (.ok [], s.equates ++ [(name, value)]) ∧
          ∀ other, Equates.get? (s.equates ++ [(name, value)]) other =
            if other = name then some value else s.equates.get? other) ∧
      (∀ line, ((∃ e, (expand (s.equates.evaluate s.language) s.equates line).1 = .error e) ∨
          ¬ ∃ name value, s.equates.Gives s.language line name value) →
        (expand (s.equates.evaluate s.language) s.equates line).2 = s.equates) ∧
      (∀ out line, (s.line p out line).session.equates =
          (expand (s.equates.evaluate s.language) s.equates line.trim).2 ∧
        ((s.line p out line).error.isSome ∨ (s.line p out line).quit ∨ (s.line p out line).out ≠ out →
          (s.line p out line).session.equates = s.equates)) ∧
      ∀ out input, (s.run p out input).session.equates =
        (s.reached p out (Text.scanLines input).read).foldl
          (fun equates line => (expand (equates.evaluate s.language) equates line.trim).2) s.equates := by
  refine ⟨fun uses name value h => get?_afterUses h uses, fun line => Equates.expand_changes_iff,
    fun line name value h => ⟨Equates.expand_of_gives h, Equates.get?_append_given h.2 value⟩, ?_,
    fun out line => ⟨line_equates p s out line, line_equates_of_effect⟩, run_equates p s⟩
  rintro line (⟨e, he⟩ | hgives)
  · apply Equates.expand_of_not_gives
    rintro ⟨name, value, hgives⟩
    rw [Equates.expand_of_gives hgives] at he
    cases he
  · exact Equates.expand_of_not_gives hgives

/-- The size is kept through a new name, a second size by a line and one by an input; an instruction fails with its
port and gives nothing. -/
theorem equates_given_once_sized :
    (sized.equates.get? "SIZE" = some (Text.ofString "16") ∧
      (sized.afterUses Script.port [.expand ".equ TWICE $(SIZE*2)", .line {} ".equ SIZE 8",
        .run {} ".equ SIZE 9\nnop\n"]).equates.get? "SIZE" = some (Text.ofString "16")) ∧
    (sized.equates.Gives sized.language ".equ TWICE $(SIZE*2)" "TWICE" "32" ∧
      expand (sized.equates.evaluate sized.language) sized.equates ".equ TWICE $(SIZE*2)" =
        (.ok [], sized.equates ++ [(Text.ofString "TWICE", Text.ofString "32")])) ∧
    ((expand (sized.equates.evaluate sized.language) sized.equates ".equ SIZE 8").1 = .error .equateDuplicate ∧
      (expand (sized.equates.evaluate sized.language) sized.equates ".equ SIZE 8").2 = sized.equates) ∧
    ((sized.line Script.port {} "nop").error = some (.link (.read .endOfInput)) ∧
      (sized.line Script.port {} "nop").session.equates = sized.equates) := by
  have h := equates_given_once Script.port sized
  have hsize : sized.equates.get? "SIZE" = some (Text.ofString "16") := by decide
  have hduplicate : (expand (sized.equates.evaluate sized.language) sized.equates ".equ SIZE 8").1 =
      .error .equateDuplicate := rfl
  have hnop : (sized.line Script.port {} "nop").error = some (.link (.read .endOfInput)) := by
    decide +kernel
  exact ⟨⟨hsize, h.1 _ _ _ hsize⟩, ⟨sized_gives, (h.2.2.1 _ _ _ sized_gives).1⟩,
    ⟨hduplicate, h.2.2.2.1 _ (.inl ⟨_, hduplicate⟩)⟩,
    ⟨hnop, (h.2.2.2.2.1 _ _).2 (.inl (by rw [hnop]; rfl))⟩⟩

end Session

end RvConsole
