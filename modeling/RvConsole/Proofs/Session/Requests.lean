import RvConsole.Proofs.Session.Step

/-! What lines ask for.

The lines of a session ask for instructions one after the other, each under the equates that the lines before
it gave, until one quits (`Equates.requests`). The lines that ask for nothing are of a few kinds (`Idle`). -/
namespace RvConsole

namespace Session

/-- A line that quits. -/
def Quits (line : Text) : Prop := command? line.trim = some .quit

instance (line : Text) : Decidable (Quits line) := inferInstanceAs (Decidable (_ = _))

end Session

/-- The instructions that lines ask for, up to the first line that quits. -/
def Equates.requests (equates : Equates) (language : Expression.Language) : List Text → List Instruction
  | [] => []
  | line :: rest =>
    if Session.Quits line then []
    else (equates.request? language line).toList ++ (equates.after language line).requests language rest

/-- Lines that ask for nothing: blank ones, help, the history, any that start with the directive, those that do
not expand and those that expand to no instruction. -/
inductive Session.Idle (equates : Equates) (language : Expression.Language) (line : Text) : Prop where
  | blank : line.trim = [] → Idle equates language line
  | help : command? line.trim = some .help → Idle equates language line
  | history : command? line.trim = some .history → Idle equates language line
  | directive {text : Text} {operands : List Text} :
    Expand.expressions (equates.evaluate language) line.trim = .ok text →
      text.fields = Expand.directive :: operands → Idle equates language line
  | unexpanded {e : ExpandError} :
    (expand (equates.evaluate language) equates line.trim).1 = .error e → Idle equates language line
  | unassembled {source : Text} {e : ParseError} :
    (expand (equates.evaluate language) equates line.trim).1 = .ok source → assemble source = .error e →
      Idle equates language line

/-- The words of the instructions that lines ask for. -/
def Equates.words (equates : Equates) (language : Expression.Language) (lines : List Text) : List Word :=
  (equates.requests language lines).map Instruction.word

namespace Equates
variable {equates : Equates} {language : Expression.Language} {line : Text}

/-- A directive comes to nothing, or fails. -/
theorem expand_of_directive {text : Text} {operands : List Text}
    (htext : Expand.expressions (equates.evaluate language) line = .ok text)
    (hfields : text.fields = Expand.directive :: operands) :
    (expand (equates.evaluate language) equates line).1 = .ok [] ∨
      ∃ e, (expand (equates.evaluate language) equates line).1 = .error e := by
  simp only [expand, htext, Expand.plain, hfields, if_true]
  split
  · split
    · exact .inl rfl
    · exact .inr ⟨_, rfl⟩
  · exact .inr ⟨_, rfl⟩

theorem request?_of_idle (h : Session.Idle equates language line) : equates.request? language line = none := by
  cases h with
  | blank hblank => exact request?_of_blank hblank
  | help hcommand => exact request?_of_command hcommand
  | history hcommand => exact request?_of_command hcommand
  | directive htext hfields =>
    obtain hok | ⟨e, he⟩ := expand_of_directive htext hfields
    · simp [request?, hok]
    · simp [request?, he]
  | unexpanded he => simp [request?, he]
  | unassembled hsource he => simp [request?, hsource, he, Except.toOption]

theorem requests_of_quits (h : Session.Quits line) (rest : List Text) : equates.requests language (line :: rest) = [] :=
  if_pos h

theorem requests_of_idle (hquits : ¬ Session.Quits line) (h : equates.request? language line = none)
    (rest : List Text) :
    equates.requests language (line :: rest) = (equates.after language line).requests language rest := by
  rw [requests, if_neg hquits, h, Option.toList_none, List.nil_append]

theorem not_quits_of_request {inst : Instruction} (h : equates.request? language line = some inst) :
    ¬ Session.Quits line := by
  rw [Session.Quits, not_command_of_request h]
  simp

theorem requests_of_request {inst : Instruction} (h : equates.request? language line = some inst) (rest : List Text) :
    equates.requests language (line :: rest) = inst :: (equates.after language line).requests language rest := by
  rw [requests, if_neg (not_quits_of_request h), h, Option.toList_some, List.singleton_append]

theorem words_of_quits (h : Session.Quits line) (rest : List Text) : equates.words language (line :: rest) = [] := by
  rw [words, requests_of_quits h, List.map_nil]

theorem words_of_idle (hquits : ¬ Session.Quits line) (h : equates.request? language line = none) (rest : List Text) :
    equates.words language (line :: rest) = (equates.after language line).words language rest := by
  rw [words, requests_of_idle hquits h, words]

theorem words_of_request {inst : Instruction} (h : equates.request? language line = some inst) (rest : List Text) :
    equates.words language (line :: rest) = inst.word :: (equates.after language line).words language rest := by
  rw [words, requests_of_request h, List.map_cons, words]

end Equates

end RvConsole
