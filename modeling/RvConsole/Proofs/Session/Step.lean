import RvConsole.Proofs.Text.Runes
import RvConsole.Session.Line

/-! What a line is to a session.

A line does two things that outlast it: it may give an equate (`Equates.after`), and it may ask for an
instruction (`Equates.request?`). Both are up to the equates, the line and the language that expressions are in,
which may be any. Commands need no exception here: they expand to themselves and are no instructions
(`expand_of_command`, `assemble_of_command`), so a command gives no equate and asks for nothing, as a blank line
does. -/
namespace RvConsole

namespace Equates

/-- The equates after a line. -/
def after (equates : Equates) (language : Expression.Language) (line : Text) : Equates :=
  (expand (equates.evaluate language) equates line.trim).2

/-- The instruction that a line asks for: what it expands to, if that is some text and can be
assembled. -/
def request? (equates : Equates) (language : Expression.Language) (line : Text) : Option Instruction :=
  match (expand (equates.evaluate language) equates line.trim).1 with
  | .ok source => if source = [] then none else (assemble source).toOption
  | .error _ => none

variable {equates : Equates} {language : Expression.Language} {line : Text}

theorem request?_eq_some {inst : Instruction} (h : equates.request? language line = some inst) :
    ∃ source, (expand (equates.evaluate language) equates line.trim).1 = .ok source ∧ source ≠ [] ∧
      assemble source = .ok inst := by
  unfold request? at h
  split at h
  case h_1 source hsource =>
    split_ifs at h with hnil
    refine ⟨source, hsource, hnil, ?_⟩
    cases hinst : assemble source with
    | error e =>
      rw [hinst] at h
      cases h
    | ok inst' =>
      rw [hinst] at h
      rw [Option.some.inj h]
  case h_2 => cases h

end Equates

/-! ### Commands -/

namespace Session

/-- The words that are commands. -/
def commandWords : List Text := ["quit", "exit", "help", "history"]

theorem lower_of_command {t : Text} {c : Command} (h : command? t = some c) : t.lower ∈ commandWords := by
  simp only [command?] at h
  simp only [commandWords, List.mem_cons, List.not_mem_nil, or_false]
  split_ifs at h <;> tauto

theorem letters_of_command {t : Text} {c : Command} (h : command? t = some c) : t.lower.Letters :=
  (by decide : ∀ word ∈ commandWords, Text.Letters word) _ (lower_of_command h)

theorem ne_nil_of_command {t : Text} {c : Command} (h : command? t = some c) : t ≠ [] := by
  rintro rfl
  cases h

end Session

/-- A line without a dollar has no expressions. -/
theorem Expand.expressions_of_not_mem (evaluate : Evaluator) {t : Text} (h : dollar ∉ t) :
    expressions evaluate t = .ok t := by
  simp only [expressions, Text.split_of_not_mem h, pieces, Except.map, List.append_nil]

/-- Nothing expands to nothing. -/
theorem expand_nil (evaluate : Evaluator) (equates : Equates) : expand evaluate equates [] = (.ok [], equates) :=
  rfl

/-- A command expands to itself. -/
theorem expand_of_command (evaluate : Evaluator) (equates : Equates) {t : Text} {c : Session.Command}
    (h : Session.command? t = some c) : expand evaluate equates t = (.ok t, equates) := by
  have hletters := Session.letters_of_command h
  have hblankless := Text.blankless_of_lower hletters
  have hdollar : Expand.dollar ∉ t := Text.not_mem_of_lower hletters (by decide)
  have hdirective : t ≠ Expand.directive := by
    rintro rfl
    exact absurd hletters (by decide)
  rw [expand, Expand.expressions_of_not_mem evaluate hdollar]
  simp only [Expand.plain, hblankless.fields_eq (Session.ne_nil_of_command h), if_neg hdirective,
    hblankless.trim_eq, hblankless.splitBlank_eq]
  simp [Expand.substitute, Expand.runs]

/-- A command is no instruction. -/
theorem assemble_of_command {t : Text} {c : Session.Command} (h : Session.command? t = some c) :
    assemble t = .error (.unknownMnemonic t.lower) := by
  have hblankless := Text.blankless_of_lower (Session.letters_of_command h)
  have hcut : cutLine t = (t.lower, []) := by
    simp only [cutLine, hblankless.trim_eq, hblankless.splitBlank_eq]
    rfl
  have hname : Mnemonic.ofName? t.lower = none :=
    (by decide : ∀ word ∈ Session.commandWords, Mnemonic.ofName? word = none) _
      (Session.lower_of_command h)
  simp only [assemble, hcut, hname]

namespace Equates
variable {equates : Equates} {language : Expression.Language} {line : Text}

theorem request?_of_command {c : Session.Command} (h : Session.command? line.trim = some c) :
    equates.request? language line = none := by
  simp only [request?, expand_of_command _ _ h, assemble_of_command h]
  split_ifs <;> rfl

theorem after_of_command {c : Session.Command} (h : Session.command? line.trim = some c) :
    equates.after language line = equates := by
  rw [after, expand_of_command _ _ h]

theorem request?_of_blank (h : line.trim = []) : equates.request? language line = none := by
  rw [request?, h, expand_nil]
  rfl

theorem after_of_blank (h : line.trim = []) : equates.after language line = equates := by
  rw [after, h, expand_nil]

theorem ne_nil_of_request {inst : Instruction} (h : equates.request? language line = some inst) :
    line.trim ≠ [] := by
  intro hblank
  rw [request?_of_blank hblank] at h
  cases h

theorem not_command_of_request {inst : Instruction} (h : equates.request? language line = some inst) :
    Session.command? line.trim = none := by
  cases hcommand : Session.command? line.trim with
  | none => rfl
  | some c =>
    rw [request?_of_command hcommand] at h
    cases h

end Equates

/-! ### Lines -/

namespace Session
variable {σ : Type} {p : Port σ} {s : Session σ} {out : Sink} {line : Text}

theorem line_of_blank (h : line.trim = []) : s.line p out line = { session := s, out } := by
  simp only [Session.line, h, if_true]

theorem line_of_quit (h : command? line.trim = some .quit) :
    s.line p out line = { session := s.remember line.trim, out, quit := true } := by
  simp only [Session.line, ne_nil_of_command h, if_false, h]

theorem line_of_instruct (hne : line.trim ≠ []) (h : command? line.trim = none) :
    s.line p out line = (s.remember line.trim).instruct p out line.trim := by
  simp only [Session.line, hne, if_false, h]

/-- Remembering a line changes the history, and with a file for it the files or the journal. -/
theorem remember_frame (s : Session σ) (t : Text) :
    ∃ files journal, s.remember t = { s with history := s.history ++ [t], files, journal } := by
  unfold remember
  dsimp only
  split_ifs
  · exact ⟨_, _, rfl⟩
  · split
    · exact ⟨_, _, rfl⟩
    · exact ⟨_, _, rfl⟩

@[simp]
theorem remember_equates (s : Session σ) (t : Text) : (s.remember t).equates = s.equates := by
  obtain ⟨files, journal, h⟩ := remember_frame s t
  rw [h]

@[simp]
theorem remember_language (s : Session σ) (t : Text) : (s.remember t).language = s.language := by
  obtain ⟨files, journal, h⟩ := remember_frame s t
  rw [h]

@[simp]
theorem remember_style (s : Session σ) (t : Text) : (s.remember t).style = s.style := by
  obtain ⟨files, journal, h⟩ := remember_frame s t
  rw [h]

@[simp]
theorem remember_history (s : Session σ) (t : Text) : (s.remember t).history = s.history ++ [t] := by
  obtain ⟨files, journal, h⟩ := remember_frame s t
  rw [h]

/-- Running an instruction changes the port, and the journal. -/
theorem evaluate_frame (p : Port σ) (s : Session σ) (out : Sink) (port : σ) (inst : Instruction) :
    ∃ port' journal, (s.evaluate p out port inst).session = { s with port := port', journal } := by
  unfold Session.evaluate
  dsimp only
  split <;> exact ⟨_, _, rfl⟩

theorem perform_frame (p : Port σ) (s : Session σ) (out : Sink) (source : Text) (inst : Instruction) :
    ∃ port journal, (s.perform p out source inst).session = { s with port, journal } := by
  obtain ⟨journal, htold⟩ : ∃ journal,
      (if s.verbose then s.tell (instructionNote source inst) else s) = { s with journal } := by
    split_ifs
    · exact ⟨_, rfl⟩
    · exact ⟨s.journal, rfl⟩
  unfold perform
  dsimp only
  rw [htold]
  split
  · exact ⟨_, _, rfl⟩
  · split
    · exact ⟨_, _, rfl⟩
    · exact evaluate_frame ..

/-- A line that is no command changes the equates as its expansion does, and what running an instruction changes. -/
theorem instruct_frame (p : Port σ) (s : Session σ) (out : Sink) (line : Text) :
    ∃ port journal, (s.instruct p out line).session =
      { s with port, equates := (expand (s.equates.evaluate s.language) s.equates line).2, journal } := by
  simp only [instruct]
  split
  · exact ⟨_, _, rfl⟩
  · exact ⟨_, _, rfl⟩
  · split
    · exact ⟨_, _, rfl⟩
    · exact perform_frame ..

/-- What a line leaves of the equates is up to its expansion, and the settings of the session stay. -/
theorem line_frame (p : Port σ) (s : Session σ) (out : Sink) (line : Text) :
    ∃ port history files journal, (s.line p out line).session =
      { s with port, equates := s.equates.after s.language line, history, files, journal } := by
  by_cases hne : line.trim = []
  · rw [line_of_blank hne, Equates.after_of_blank hne]
    exact ⟨_, _, _, _, rfl⟩
  obtain ⟨files, journal, hremember⟩ := remember_frame s line.trim
  cases hcommand : command? line.trim with
  | some c =>
    rw [Equates.after_of_command hcommand]
    cases c <;> simp only [Session.line, hne, hcommand, if_false, hremember] <;> exact ⟨_, _, _, _, rfl⟩
  | none =>
    rw [line_of_instruct hne hcommand, hremember]
    obtain ⟨port, journal, hinstruct⟩ := instruct_frame p _ out line.trim
    rw [hinstruct]
    exact ⟨_, _, _, _, rfl⟩

theorem line_equates (p : Port σ) (s : Session σ) (out : Sink) (line : Text) :
    (s.line p out line).session.equates = s.equates.after s.language line := by
  obtain ⟨port, history, files, journal, h⟩ := line_frame p s out line
  rw [h]

/-- Two sessions that treat lines alike: what one of them shows, evaluates and waits for is up to these. -/
structure SameSettings (s s' : Session σ) : Prop where
  style : s'.style = s.style
  language : s'.language = s.language
  reads : s'.reads = s.reads

theorem line_settings (p : Port σ) (s : Session σ) (out : Sink) (line : Text) :
    SameSettings s (s.line p out line).session := by
  obtain ⟨port, history, files, journal, h⟩ := line_frame p s out line
  rw [h]
  exact ⟨rfl, rfl, rfl⟩

/-! ### Lines one after the other -/

/-- The lines that a session gets to: all up to the first that quits or fails. -/
def reached (p : Port σ) (s : Session σ) (out : Sink) : List Text → List Text
  | [] => []
  | first :: rest =>
    let turn := s.line p out first
    first :: if turn.quit ∨ turn.error.isSome then [] else turn.session.reached p turn.out rest

/-- Each line that is reached leaves its equates to the next. -/
theorem lines_equates (p : Port σ) (s : Session σ) (out : Sink) (lines : List Text) :
    (s.lines p out lines).session.equates =
      (s.reached p out lines).foldl (fun equates line => equates.after s.language line) s.equates := by
  induction lines generalizing s out with
  | nil => rfl
  | cons first rest ih =>
    simp only [Session.lines, reached, List.foldl_cons, ← line_equates p s out first]
    split_ifs
    · rfl
    · rw [ih, (line_settings p s out first).language]

theorem run_session (p : Port σ) (s : Session σ) (out : Sink) (input : Text) :
    (s.run p out input).session = (s.lines p out (Text.scanLines input).read).session := by
  unfold run
  dsimp only
  split_ifs <;> rfl

theorem run_equates (p : Port σ) (s : Session σ) (out : Sink) (input : Text) :
    (s.run p out input).session.equates =
      (s.reached p out (Text.scanLines input).read).foldl
        (fun equates line => equates.after s.language line) s.equates := by
  rw [run_session, lines_equates]

end Session

end RvConsole
