import RvConsole.Proofs.Session.OverPort
import RvConsole.Proofs.Session.Patience

/-! What a session sends and shows.

The words that a session sends are those its lines ask for, under the equates given before, until it quits or an
exchange fails; it fails only for that or for a line that is too long; and over a simulator the registers it
shows are those after the words so far (`traffic_of_requests`). All of it is by induction over how the
session goes from line to line (`Course`), whatever the language of its expressions and however many reads an
answer takes. -/
namespace RvConsole.Session

variable {σ : Type}

/-! ### Lines one after the other -/

/-- How a session with a port goes over some lines while its output has room: a line that quits ends it, one that
asks for nothing changes nothing of the port, and one that asks for an instruction makes one exchange, which may
end it as well. -/
inductive Course (p : Port σ) : Session σ → σ → Text → List Text → Prop where
  | done {s : Session σ} {port : σ} {written : Text} : Course p s port written []
  | quit {s s' : Session σ} {port : σ} {written shown line : Text} {rest : List Text} :
    Quits line →
    s.line p ⟨written, none⟩ line = { session := s', out := ⟨written ++ shown, none⟩, quit := true } →
    Course p s port written (line :: rest)
  | idle {s s' : Session σ} {port : σ} {written shown line : Text} {rest : List Text} :
    ¬ Quits line → s.equates.request? s.language line = none →
    s.line p ⟨written, none⟩ line = { session := s', out := ⟨written ++ shown, none⟩ } →
    s'.port = some port → SameSettings s s' → s'.equates = s.equates.after s.language line →
    Course p s' port (written ++ shown) rest → Course p s port written (line :: rest)
  | answered {s s' : Session σ} {port port' : σ} {written shown line : Text} {rest : List Text}
      {inst : Instruction} {regs : RegisterFile} :
    s.equates.request? s.language line = some inst → p.exchange s.reads port inst.word = (.ok regs, port') →
    shown = Text.lines inst.tableLines ++ answerText s.style (.ok regs) →
    s.line p ⟨written, none⟩ line = { session := s', out := ⟨written ++ shown, none⟩ } →
    s'.port = some (p.notes port').2 → SameSettings s s' → s'.equates = s.equates.after s.language line →
    Course p s' (p.notes port').2 (written ++ shown) rest → Course p s port written (line :: rest)
  | failed {s s' : Session σ} {port port' : σ} {written shown line : Text} {rest : List Text}
      {inst : Instruction} {e : LinkError} :
    s.equates.request? s.language line = some inst → p.exchange s.reads port inst.word = (.error e, port') →
    shown = Text.lines inst.tableLines ++ answerText s.style (.error e) →
    s.line p ⟨written, none⟩ line =
      { session := s', out := ⟨written ++ shown, none⟩, error := some (.link e) } →
    Course p s port written (line :: rest)

/-- Every session with a port takes its course. -/
theorem course (p : Port σ) {s : Session σ} {port : σ} (hport : s.port = some port) (written : Text)
    (lines : List Text) : Course p s port written lines := by
  induction lines generalizing s port written with
  | nil => exact .done
  | cons line rest ih =>
    have hsame := line_settings p s ⟨written, none⟩ line
    have hequates := line_equates p s ⟨written, none⟩ line
    cases hrequest : s.equates.request? s.language line with
    | none =>
      obtain ⟨shown, hline⟩ := line_of_idle_room hrequest p written
      rw [hline] at hsame hequates
      by_cases hquits : Quits line
      · rw [decide_eq_true hquits] at hline
        exact .quit hquits hline
      · rw [decide_eq_false hquits] at hline
        have hport' := (heard_port s line).trans hport
        exact .idle hquits hrequest hline hport' hsame hequates (ih hport' _)
    | some inst =>
      obtain ⟨s', hline, hport'⟩ := line_of_request_room hport hrequest p written
      rw [hline] at hsame hequates
      obtain ⟨answer, port', hexchange⟩ : ∃ answer port', p.exchange s.reads port inst.word = (answer, port') :=
        ⟨_, _, rfl⟩
      rw [hexchange] at hline hport'
      cases answer with
      | ok regs => exact .answered hrequest hexchange rfl hline hport' hsame hequates (ih hport' _)
      | error e => exact .failed hrequest hexchange rfl hline

section
variable {p : Port σ} {s s' : Session σ} {line : Text}

theorem lines_of_end {out : Sink} (h : (s.line p out line).quit ∨ (s.line p out line).error.isSome)
    (rest : List Text) : s.lines p out (line :: rest) = s.line p out line := if_pos h

theorem lines_of_going {out out' : Sink} (h : s.line p out line = { session := s', out := out' })
    (rest : List Text) : s.lines p out (line :: rest) = s'.lines p out' rest := by
  simp [Session.lines, h]

theorem lines_recorded_of_end {out : Sink} {sent sent' : Text}
    (h : (s.recording sent).line p.recorded out line = (s.line p out line).recording sent')
    (hend : (s.line p out line).quit ∨ (s.line p out line).error.isSome) (rest : List Text) :
    (s.recording sent).lines p.recorded out (line :: rest) = (s.lines p out (line :: rest)).recording sent' := by
  rw [lines_of_end hend, lines_of_end (by rw [h]; exact hend), h]

theorem lines_recorded_of_going {out out' : Sink} {sent sent' : Text}
    (h : (s.recording sent).line p.recorded out line = (s.line p out line).recording sent')
    (hline : s.line p out line = { session := s', out := out' }) (rest : List Text) :
    (s.recording sent).lines p.recorded out (line :: rest) = (s'.recording sent').lines p.recorded out' rest := by
  rw [hline] at h
  exact lines_of_going h rest

/-- What comes of a line: the instruction it asked for and what was shown. -/
structure Visit where
  request : Option Instruction
  shown : Text

/-- What comes of the lines that a session gets to. -/
def visits (p : Port σ) (s : Session σ) (out : Sink) : List Text → List Visit
  | [] => []
  | line :: rest =>
    let turn := s.line p out line
    let visit := ⟨s.equates.request? s.language line, turn.out.written.drop out.written.length⟩
    visit :: if turn.quit ∨ turn.error.isSome then [] else turn.session.visits p turn.out rest

/-- The instructions among visits, with what was shown. -/
def evaluated (visits : List Visit) : List (Instruction × Text) :=
  visits.filterMap fun visit => visit.request.map (·, visit.shown)

theorem visits_of_line {written shown : Text} {quit : Bool} {error : Option SessionError}
    (h : s.line p ⟨written, none⟩ line = { session := s', out := ⟨written ++ shown, none⟩, quit, error })
    (rest : List Text) :
    s.visits p ⟨written, none⟩ (line :: rest) = ⟨s.equates.request? s.language line, shown⟩ ::
      if quit ∨ error.isSome then [] else s'.visits p ⟨written ++ shown, none⟩ rest := by
  simp only [visits, h, List.drop_left]

theorem visits_of_going {written shown : Text}
    (h : s.line p ⟨written, none⟩ line = { session := s', out := ⟨written ++ shown, none⟩ }) (rest : List Text) :
    s.visits p ⟨written, none⟩ (line :: rest) =
      ⟨s.equates.request? s.language line, shown⟩ :: s'.visits p ⟨written ++ shown, none⟩ rest := by
  rw [visits_of_line h, if_neg (by decide)]

end

namespace Course
variable {p : Port σ} {s : Session σ} {port : σ} {written : Text} {lines : List Text}

/-- **A session sends the words that its lines ask for**, up to the first whose exchange fails. -/
theorem lines_recorded (h : Course p s port written lines) (hport : s.port = some port) (sent : Text) :
    (s.recording sent).lines p.recorded ⟨written, none⟩ lines =
      (s.lines p ⟨written, none⟩ lines).recording
        (sent ++ (p.sent s.reads port (s.equates.words s.language lines)).flatMap Word.toBytes) := by
  induction h generalizing sent with
  | done =>
    show _ = Turn.recording _ (sent ++ [])
    rw [List.append_nil]
    rfl
  | @quit s s' port written shown line rest hquits hline =>
    have hrequest : s.equates.request? s.language line = none := Equates.request?_of_command hquits
    have hrecorded := line_recorded_of_idle hrequest p ⟨written, none⟩ sent
    rw [lines_recorded_of_end hrecorded (.inl (by rw [hline])), Equates.words_of_quits hquits]
    show _ = Turn.recording _ (sent ++ [])
    rw [List.append_nil]
  | @idle s s' port written shown line rest hquits hrequest hline hport' hsame hequates _ ih =>
    have hrecorded := line_recorded_of_idle hrequest p ⟨written, none⟩ sent
    rw [lines_recorded_of_going hrecorded hline, ih hport', lines_of_going hline,
      Equates.words_of_idle hquits hrequest, hequates, hsame.language, hsame.reads]
  | @answered s s' port port' written shown line rest inst regs hrequest hexchange _ hline hport' hsame hequates _
      ih =>
    have hrecorded := line_recorded_of_request hport hrequest p written sent
    rw [lines_recorded_of_going hrecorded hline, ih hport', lines_of_going hline,
      Equates.words_of_request hrequest, hequates, hsame.language, hsame.reads, Port.sent_of_ok hexchange,
      List.flatMap_cons, List.append_assoc]
  | @failed s s' port port' written shown line rest inst e hrequest hexchange _ hline =>
    -- The word is written before the answer is known, so the record has it although the exchange fails.
    have hrecorded := line_recorded_of_request hport hrequest p written sent
    rw [lines_recorded_of_end hrecorded (.inr (by rw [hline]; rfl)), Equates.words_of_request hrequest,
      Port.sent_of_error hexchange, List.flatMap_singleton]

/-- A session ends in failure exactly if an exchange did. -/
theorem lines_error (h : Course p s port written lines) :
    (s.lines p ⟨written, none⟩ lines).error =
      (p.answers s.reads port (s.equates.words s.language lines)).findSome? failure? := by
  induction h with
  | done => rfl
  | quit hquits hline =>
    rw [lines_of_end (.inl (by rw [hline])), hline, Equates.words_of_quits hquits]
    rfl
  | idle hquits hrequest hline _ hsame hequates _ ih =>
    rw [lines_of_going hline, ih, Equates.words_of_idle hquits hrequest, hequates, hsame.language, hsame.reads]
  | answered hrequest hexchange _ hline _ hsame hequates _ ih =>
    rw [lines_of_going hline, ih, Equates.words_of_request hrequest, Port.answers_of_ok hexchange, hequates,
      hsame.language, hsame.reads]
    rfl
  | failed hrequest hexchange _ hline =>
    rw [lines_of_end (.inr (by rw [hline]; rfl)), hline, Equates.words_of_request hrequest,
      Port.answers_of_error hexchange]
    rfl

/-- A session that does not fail quits exactly if a line does. -/
theorem lines_quit (h : Course p s port written lines) (herror : (s.lines p ⟨written, none⟩ lines).error = none) :
    (s.lines p ⟨written, none⟩ lines).quit = true ↔ ∃ line ∈ lines, Quits line := by
  induction h with
  | done => simp [Session.lines]
  | quit hquits hline =>
    rw [lines_of_end (.inl (by rw [hline])), hline]
    simp [hquits]
  | idle hquits _ hline _ _ _ _ ih =>
    rw [lines_of_going hline] at herror ⊢
    simp [ih herror, hquits]
  | answered hrequest _ _ hline _ _ _ _ ih =>
    rw [lines_of_going hline] at herror ⊢
    simp [ih herror, Equates.not_quits_of_request hrequest]
  | failed _ _ _ hline =>
    rw [lines_of_end (.inr (by rw [hline]; rfl)), hline] at herror
    cases herror

/-- A session writes what it shows for its lines, and nothing else. -/
theorem lines_out (h : Course p s port written lines) :
    (s.lines p ⟨written, none⟩ lines).out =
      ⟨written ++ (s.visits p ⟨written, none⟩ lines).flatMap Visit.shown, none⟩ := by
  induction h with
  | done => simp [Session.lines, visits]
  | quit _ hline =>
    rw [lines_of_end (.inl (by rw [hline])), hline, visits_of_line hline, if_pos (.inl rfl), List.flatMap_singleton]
  | idle _ _ hline _ _ _ _ ih =>
    rw [lines_of_going hline, ih, visits_of_going hline, List.flatMap_cons, List.append_assoc]
  | answered _ _ _ hline _ _ _ _ ih =>
    rw [lines_of_going hline, ih, visits_of_going hline, List.flatMap_cons, List.append_assoc]
  | failed _ _ _ hline =>
    rw [lines_of_end (.inr (by rw [hline]; rfl)), hline, visits_of_line hline, if_pos (.inr rfl),
      List.flatMap_singleton]

/-- A session shows each instruction that it evaluates, and what the port answered. -/
theorem visits_evaluated (h : Course p s port written lines) :
    evaluated (s.visits p ⟨written, none⟩ lines) =
      List.zipWith (fun inst answer => (inst, Text.lines inst.tableLines ++ answerText s.style answer))
        (s.equates.requests s.language lines) (p.answers s.reads port (s.equates.words s.language lines)) := by
  induction h with
  | done => rfl
  | quit hquits hline =>
    rw [visits_of_line hline, if_pos (.inl rfl), Equates.requests_of_quits hquits,
      Equates.request?_of_command hquits]
    rfl
  | idle hquits hrequest hline _ hsame hequates _ ih =>
    rw [visits_of_going hline, Equates.requests_of_idle hquits hrequest, Equates.words_of_idle hquits hrequest,
      hrequest, ← hequates, ← hsame.style, ← hsame.language, ← hsame.reads, ← ih]
    rfl
  | answered hrequest hexchange hshown hline _ hsame hequates _ ih =>
    rw [visits_of_going hline, Equates.requests_of_request hrequest, Equates.words_of_request hrequest,
      Port.answers_of_ok hexchange, hrequest, List.zipWith_cons_cons, ← hequates, ← hshown, ← hsame.style,
      ← hsame.language, ← hsame.reads, ← ih]
    rfl
  | failed hrequest hexchange hshown hline =>
    rw [visits_of_line hline, if_pos (.inr rfl), Equates.requests_of_request hrequest,
      Equates.words_of_request hrequest, Port.answers_of_error hexchange, hrequest, List.zipWith_cons_cons, ← hshown,
      List.zipWith_nil_right]
    rfl

end Course

/-! ### A whole input -/

theorem run_error (p : Port σ) (s : Session σ) (out : Sink) (input : Text) :
    (s.run p out input).error = (s.lines p out (Text.scanLines input).read).error.or
      (if (Text.scanLines input).overlong ∧ ¬ (s.lines p out (Text.scanLines input).read).quit
        then some .lineTooLong else none) := by
  simp only [run]
  obtain ⟨s', out', quit, error⟩ := s.lines p out (Text.scanLines input).read
  cases error <;> cases quit <;> cases (Text.scanLines input).overlong <;> rfl

theorem run_out (p : Port σ) (s : Session σ) (out : Sink) (input : Text) :
    (s.run p out input).out = (s.lines p out (Text.scanLines input).read).out := by
  simp only [run]
  split_ifs <;> rfl

theorem run_recorded {p : Port σ} {s : Session σ} {out : Sink} {input sent sent' : Text}
    (h : (s.recording sent).lines p.recorded out (Text.scanLines input).read =
      (s.lines p out (Text.scanLines input).read).recording sent') :
    (s.recording sent).run p.recorded out input = (s.run p out input).recording sent' := by
  simp only [run, h]
  generalize s.lines p out (Text.scanLines input).read = turn
  by_cases hlong : (Text.scanLines input).overlong ∧ !turn.quit ∧ turn.error.isNone
  · rw [if_pos hlong]
    exact if_pos hlong
  · rw [if_neg hlong]
    exact if_neg hlong

theorem exists_failure (answers : List (Except LinkError RegisterFile)) :
    (answers.findSome? failure?).isSome ↔ ∃ e, .error e ∈ answers := by
  rw [List.findSome?_isSome_iff]
  constructor
  · rintro ⟨e | regs, hmem, hfails⟩
    · exact ⟨e, hmem⟩
    · cases hfails
  · rintro ⟨e, hmem⟩
    exact ⟨.error e, hmem, rfl⟩

/-- Only the last answer can be a failure, so any that there is comes first. -/
theorem findSome_failure_iff (p : Port σ) (reads : Nat) (port : σ) (ws : List Word) (e : LinkError) :
    (p.answers reads port ws).findSome? failure? = some (.link e) ↔ .error e ∈ p.answers reads port ws := by
  induction ws generalizing port with
  | nil => simp [Port.answers]
  | cons w ws ih =>
    obtain ⟨answer, port', hexchange⟩ : ∃ answer port', p.exchange reads port w = (answer, port') := ⟨_, _, rfl⟩
    cases answer with
    | ok regs =>
      rw [Port.answers_of_ok hexchange, List.findSome?_cons_of_isNone (by rfl), ih]
      simp
    | error e' =>
      rw [Port.answers_of_error hexchange]
      simp [failure?, eq_comm]

section
variable {p : Port σ} {s : Session σ} {port : σ} {written input : Text}

/-- A session with a port fails exactly if an exchange does, or if it comes to a line that is too long. -/
theorem Course.run_fails_iff (h : Course p s port written (Text.scanLines input).read) :
    (s.run p ⟨written, none⟩ input).error.isSome ↔
      (∃ e, .error e ∈ p.answers s.reads port (s.equates.words s.language (Text.scanLines input).read)) ∨
        ((Text.scanLines input).overlong ∧ ∀ line ∈ (Text.scanLines input).read, ¬ Quits line) := by
  rw [run_error, ← exists_failure, ← h.lines_error]
  -- Once an exchange has failed, lines that were not reached do not matter.
  cases herror : (s.lines p ⟨written, none⟩ (Text.scanLines input).read).error with
  | some e => simp
  | none =>
    have hquit : ¬ (s.lines p ⟨written, none⟩ (Text.scanLines input).read).quit ↔
        ∀ line ∈ (Text.scanLines input).read, ¬ Quits line := by
      rw [h.lines_quit herror]
      simp
    rw [← hquit]
    split_ifs <;> simp_all

/-- An exchange that fails is why the session does. -/
theorem Course.run_link_iff (h : Course p s port written (Text.scanLines input).read) (e : LinkError) :
    (s.run p ⟨written, none⟩ input).error = some (.link e) ↔
      .error e ∈ p.answers s.reads port (s.equates.words s.language (Text.scanLines input).read) := by
  rw [run_error, ← findSome_failure_iff, ← h.lines_error]
  cases (s.lines p ⟨written, none⟩ (Text.scanLines input).read).error <;> split_ifs <;> simp

end

/-- Over a simulator, what is shown for an instruction is its assembly and the registers after the words so far. -/
theorem Course.visits_simulator {s : Session Simulator} {sim : Simulator} {written : Text} {lines : List Text}
    (h : Course Simulator.port s sim written lines) (hsim : sim.Resting) (hreads : 0 < s.reads) :
    evaluated (s.visits Simulator.port ⟨written, none⟩ lines) =
      (s.equates.requests s.language lines).mapIdx fun k inst =>
        (inst, Text.lines inst.tableLines ++ Text.lines (sim.machine.executeAll sim.clock
          ((s.equates.words s.language lines).take (k + 1))).regs.tableLines) := by
  rw [h.visits_evaluated, Simulator.answers_eq hsim hreads]
  apply List.ext_getElem
  · simp [Machine.length_files, Equates.words]
  · intro k _ _
    simp [Machine.getElem_files, answerText]

/-- A session with a machine that has done nothing yet, while time goes on. -/
def fresh : Session Simulator := { port := some { machine := Machine.new, clock := fun k => BitVec.ofNat 64 k } }

/-- Help, an equate, an instruction that uses it, a word that is none, one more instruction, and one behind
the end. -/
def dialogue : Text := "help\n.equ N 5\naddi a0, zero, N\nadd\nadd a0, a0, a0\nquit\nnop\n"

theorem requests_dialogue : fresh.equates.requests Expression.language (Text.scanLines dialogue).read =
    [⟨.addi, .i ⟨10⟩ .zero 5⟩, ⟨.add, .r ⟨10⟩ ⟨10⟩ ⟨10⟩⟩] := by decide +kernel

/-- **What a session sends and shows.** With a port and room for its output, all that a session writes to the port
while it runs an input is the words its lines ask for, up to the first exchange that fails. It ends in failure
exactly if an exchange failed, with the failure of that, or if a line is too long and none before it quits; and its
output is what it shows line by line. Unless the port keeps it waiting for an answer, more reads for every answer
change nothing of all that. A line that asks for nothing and does not quit writes nothing to the port and lets the
session go on, whatever the output. Over a simulator at rest each instruction is shown with the registers after the
words up to its own, each executed at its reading of the clock. -/
theorem traffic_of_requests :
    (∀ {σ : Type} (p : Port σ) (s : Session σ) (port : σ) (out : Sink) (input : Text),
      s.port = some port → out.room = none →
        (s.recording []).run p.recorded out input =
            (s.run p out input).recording
              ((p.sent s.reads port (s.equates.words s.language (Text.scanLines input).read)).flatMap Word.toBytes) ∧
          ((s.run p out input).error.isSome ↔
            (∃ e, .error e ∈ p.answers s.reads port (s.equates.words s.language (Text.scanLines input).read)) ∨
              ((Text.scanLines input).overlong ∧ ∀ line ∈ (Text.scanLines input).read, ¬ Quits line)) ∧
          (∀ e, (s.run p out input).error = some (.link e) ↔
            .error e ∈ p.answers s.reads port (s.equates.words s.language (Text.scanLines input).read)) ∧
          (¬ (s.run p out input).Waits → ∀ reads, s.reads ≤ reads →
            (s.allowing reads).run p out input = (s.run p out input).allowing reads) ∧
          (s.run p out input).out.written =
            out.written ++ (s.visits p out (Text.scanLines input).read).flatMap Visit.shown) ∧
    (∀ {σ : Type} (p : Port σ) (s : Session σ) (out : Sink) (line sent : Text),
      Idle s.equates s.language line → ¬ Quits line →
        (s.recording sent).line p.recorded out line = (s.line p out line).recording sent ∧
          (s.line p out line).quit = false ∧ (s.line p out line).error = none) ∧
    ∀ (s : Session Simulator) (sim : Simulator) (out : Sink) (input : Text),
      s.port = some sim → sim.Resting → 0 < s.reads → out.room = none →
        evaluated (s.visits Simulator.port out (Text.scanLines input).read) =
          (s.equates.requests s.language (Text.scanLines input).read).mapIdx fun k inst =>
            (inst, Text.lines inst.tableLines ++ Text.lines (sim.machine.executeAll sim.clock
              ((s.equates.words s.language (Text.scanLines input).read).take (k + 1))).regs.tableLines) := by
  refine ⟨?_, ?_, ?_⟩
  · rintro σ p s port ⟨written, room⟩ input hport rfl
    have hcourse := course p hport written (Text.scanLines input).read
    refine ⟨run_recorded (hcourse.lines_recorded hport []), hcourse.run_fails_iff, hcourse.run_link_iff,
      fun hwaits reads hreads => run_allowing hreads hwaits, ?_⟩
    rw [run_out, hcourse.lines_out]
  · intro σ p s out line sent hidle hquits
    have hrequest := Equates.request?_of_idle hidle
    obtain ⟨told, htells⟩ := tells_of_idle hrequest
    have hline := htells.line_eq p out
    rw [decide_eq_false hquits] at hline
    refine ⟨line_recorded_of_idle hrequest p out sent, ?_, ?_⟩
    · rw [hline]
    · rw [hline]
  · rintro s sim ⟨written, room⟩ input hport hsim hreads rfl
    exact (course Simulator.port hport written _).visits_simulator hsim hreads

/-- Two words are sent, and the second table has what both left. -/
theorem traffic_of_requests_dialogue :
    (fresh.recording []).run Simulator.port.recorded {} dialogue =
        (fresh.run Simulator.port {} dialogue).recording
          [0x13, 0x05, 0x50, 0x00, 0x33, 0x05, 0xa5, 0x00] ∧
      (fresh.run Simulator.port {} dialogue).error.isSome = false ∧
      (fresh.allowing 2000000).run Simulator.port {} dialogue =
        (fresh.run Simulator.port {} dialogue).allowing 2000000 ∧
      (Idle fresh.equates Expression.language "help" ∧ (fresh.line Simulator.port {} "help").quit = false) ∧
      (evaluated (fresh.visits Simulator.port {} (Text.scanLines dialogue).read))[1]? =
        some (⟨.add, .r ⟨10⟩ ⟨10⟩ ⟨10⟩⟩,
          Text.lines (Instruction.tableLines ⟨.add, .r ⟨10⟩ ⟨10⟩ ⟨10⟩⟩) ++
            Text.lines (Machine.new.executeAll (fun k => BitVec.ofNat 64 k)
              [0x00500513, 0x00a50533]).regs.tableLines) := by
  have hresting : Simulator.Resting { machine := Machine.new, clock := fun k => BitVec.ofNat 64 k } :=
    ⟨rfl, rfl, rfl⟩
  have hreads : 0 < fresh.reads := by decide
  have hwords : fresh.equates.words fresh.language (Text.scanLines dialogue).read = [0x00500513, 0x00a50533] := by
    rw [Equates.words, show fresh.language = Expression.language from rfl, requests_dialogue]
    decide
  have hhelp : Idle fresh.equates fresh.language "help" := .help (by decide)
  obtain ⟨hrun, hline, hshown⟩ := traffic_of_requests
  obtain ⟨hsent, hfails, -, hmore, -⟩ := hrun Simulator.port fresh _ {} dialogue rfl rfl
  rw [Port.sent, Simulator.answers_eq hresting hreads, hwords] at hsent
  rw [Simulator.answers_eq hresting hreads] at hfails
  have herror : (fresh.run Simulator.port {} dialogue).error.isSome = false := by
    rw [Bool.eq_false_iff, Ne, hfails]
    rintro (⟨e, he⟩ | ⟨hlong, -⟩)
    · simp at he
    · exact absurd hlong (by decide +kernel)
  have hwaits : ¬ (fresh.run Simulator.port {} dialogue).Waits := by
    intro hwaits
    rw [hwaits] at herror
    cases herror
  refine ⟨hsent, herror, hmore hwaits _ (by decide), ⟨hhelp, ?_⟩, ?_⟩
  · exact (hline Simulator.port fresh {} "help" [] hhelp (by decide)).2.1
  · rw [hshown fresh _ {} dialogue rfl hresting hreads rfl, show fresh.language = Expression.language from rfl,
      requests_dialogue, show fresh.equates.words Expression.language _ = _ from hwords]
    rfl

end RvConsole.Session
