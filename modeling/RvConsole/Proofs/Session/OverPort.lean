import RvConsole.Proofs.Link.Record
import RvConsole.Proofs.Session.Requests

/-! One line over a port.

A line that asks for no instruction does the same whatever the port, and leaves the port alone (`tells_of_idle`).
A line that asks for one makes one exchange and shows the answer (`line_of_request_room`); over a port with a record
it does the same, and the record grows by the word (`line_recorded_of_request`). -/
namespace RvConsole

/-! ### Output that has room -/

namespace Session
variable {σ τ : Type}

theorem writeAll_of_room (written : Text) (parts : List Text) :
    Sink.writeAll ⟨written, none⟩ parts = (⟨written ++ parts.flatten, none⟩, true) := by
  induction parts generalizing written with
  | nil => simp [Sink.writeAll]
  | cons part rest ih => simp only [Sink.writeAll, Sink.write, ih, List.flatten_cons, List.append_assoc]

theorem writeLines_of_room (written : Text) (lines : List Text) :
    writeLines ⟨written, none⟩ lines = (⟨written ++ Text.lines lines, none⟩, none) := by
  simp only [writeLines, writeAll_of_room]
  rfl

theorem foldl_put_of_room (written : Text) (parts : List Text) :
    parts.foldl Sink.put ⟨written, none⟩ = ⟨written ++ parts.flatten, none⟩ := by
  induction parts generalizing written with
  | nil => simp
  | cons part rest ih =>
    rw [List.foldl_cons, List.flatten_cons, ← List.append_assoc]
    exact ih (written ++ part)

/-! ### Another port -/

/-- The session over another port. -/
def withPort (s : Session σ) (port : Option τ) : Session τ where
  verbose := s.verbose
  style := s.style
  port := port
  historyFile := s.historyFile
  equates := s.equates
  language := s.language
  reads := s.reads
  history := s.history
  files := s.files
  journal := s.journal

def Turn.withPort (t : Turn σ) (port : Option τ) : Turn τ where
  session := t.session.withPort port
  out := t.out
  quit := t.quit
  error := t.error

theorem withPort_port (s : Session σ) : s.withPort s.port = s := rfl

theorem remember_withPort (s : Session σ) (port : Option τ) (line : Text) :
    (s.withPort port).remember line = (s.remember line).withPort port := by
  by_cases hfile : s.historyFile = []
  · simp [remember, withPort, hfile]
  · cases happend : s.files.appendLine s.historyFile line <;>
      simp [remember, withPort, hfile, happend, tell]

/-- The session once it has a line: the line is remembered, and if it gives an equate, that is given. -/
def heard (s : Session σ) (line : Text) : Session σ :=
  if line.trim = [] then s else { s.remember line.trim with equates := s.equates.after s.language line }

theorem heard_of_command (s : Session σ) {line : Text} {c : Command} (h : command? line.trim = some c) :
    s.heard line = s.remember line.trim := by
  have hequates : (s.remember line.trim).equates = s.equates.after s.language line := by
    rw [remember_equates, Equates.after_of_command h]
  rw [heard, if_neg (ne_nil_of_command h), ← hequates]

theorem heard_withPort (s : Session σ) (port : Option τ) (line : Text) :
    (s.withPort port).heard line = (s.heard line).withPort port := by
  unfold heard
  split_ifs
  · rfl
  · rw [remember_withPort]
    rfl

theorem heard_port (s : Session σ) (line : Text) : (s.heard line).port = s.port := by
  have h := heard_withPort s s.port line
  rw [withPort_port] at h
  rw [h]
  rfl

theorem heard_settings (s : Session σ) (line : Text) : SameSettings s (s.heard line) := by
  unfold heard
  split_ifs
  · exact ⟨rfl, rfl, rfl⟩
  · obtain ⟨files, journal, h⟩ := remember_frame s line.trim
    rw [h]
    exact ⟨rfl, rfl, rfl⟩

/-! ### One line -/

theorem putLines_eq_foldl (out : Sink) (lines : List Text) :
    putLines out lines = (lines.map (· ++ Text.ofString "\n")).foldl Sink.put out := by
  rw [putLines, List.foldl_map]

/-- Over every port, the session hears the line and writes the parts told, and nothing else comes of it; it goes on
unless the line quits. -/
def Tells (s : Session σ) (line : Text) (told : List Text) : Prop :=
  ∀ {τ : Type} (q : Port τ) (port : Option τ) (out : Sink),
    (s.withPort port).line q out line =
      { session := (s.withPort port).heard line, out := told.foldl Sink.put out, quit := Quits line }

section
variable {s : Session σ} {line : Text} {told : List Text}

theorem Tells.line_eq (h : s.Tells line told) (p : Port σ) (out : Sink) :
    s.line p out line = { session := s.heard line, out := told.foldl Sink.put out, quit := Quits line } :=
  h p s.port out

theorem tells_of_blank (h : line.trim = []) : s.Tells line [] := by
  intro τ q port out
  have hquits : ¬ Quits line := fun hquits => ne_nil_of_command hquits h
  rw [line_of_blank h, heard, if_pos h, decide_eq_false hquits, List.foldl_nil]

theorem tells_of_command {c : Command} (h : command? line.trim = some c) : ∃ told, s.Tells line told := by
  have hne := ne_nil_of_command h
  cases c with
  | quit =>
    refine ⟨[], fun q port out => ?_⟩
    rw [line_of_quit h, heard_of_command _ h, decide_eq_true (show Quits line from h), List.foldl_nil]
  | help =>
    refine ⟨helpLines.map (· ++ "\n"), fun q port out => ?_⟩
    rw [heard_of_command _ h, ← putLines_eq_foldl]
    simp [Session.line, hne, h, Quits]
  | history =>
    refine ⟨(historyLines (s.history ++ [line.trim])).map (· ++ "\n"), fun q port out => ?_⟩
    have hhistory : (s.withPort port).history = s.history := rfl
    rw [heard_of_command _ h, ← putLines_eq_foldl]
    simp [Session.line, hne, h, Quits, hhistory]

/-- A line that is neither blank nor a command tells why it is no instruction, or nothing if it gives an equate. -/
theorem tells_of_instruct (hne : line.trim ≠ []) (hcommand : command? line.trim = none)
    (h : s.equates.request? s.language line = none) : ∃ told, s.Tells line told := by
  have hquits : ¬ Quits line := by simp [Quits, hcommand]
  have hequates {τ : Type} (port : Option τ) : (s.withPort port).equates = s.equates := rfl
  have hlanguage {τ : Type} (port : Option τ) : (s.withPort port).language = s.language := rfl
  have hstyle {τ : Type} (port : Option τ) : (s.withPort port).style = s.style := rfl
  simp only [Tells, line_of_instruct hne hcommand, instruct, remember_equates, remember_language, remember_style,
    heard, if_neg hne, decide_eq_false hquits, hequates, hlanguage, hstyle, Equates.after]
  unfold Equates.request? at h
  -- From here on only what the line expands to matters.
  generalize expand (s.equates.evaluate s.language) s.equates line.trim = expansion at h ⊢
  obtain ⟨e | source, equates⟩ := expansion
  · exact ⟨[badInstruction ++ "\n  " ++ e.message s.style ++ "\n"], fun q port out => rfl⟩
  cases source with
  | nil => exact ⟨[], fun q port out => rfl⟩
  | cons b source =>
    dsimp only at h ⊢
    cases hassemble : assemble (b :: source) with
    | ok inst =>
      rw [hassemble, if_neg (List.cons_ne_nil b source)] at h
      cases h
    | error e => exact ⟨[badInstruction ++ "\n  " ++ e.message s.style ++ "\n"], fun q port out => rfl⟩

/-- **A line that asks for nothing leaves the port alone.** -/
theorem tells_of_idle (h : s.equates.request? s.language line = none) : ∃ told, s.Tells line told := by
  by_cases hne : line.trim = []
  · exact ⟨[], tells_of_blank hne⟩
  cases hcommand : command? line.trim with
  | some c => exact tells_of_command hcommand
  | none => exact tells_of_instruct hne hcommand h

end

/-- A line that asks for an instruction performs it, whatever the port. -/
theorem line_of_request {s : Session σ} {line : Text} {inst : Instruction}
    (h : s.equates.request? s.language line = some inst) :
    ∃ source, ∀ {τ : Type} (q : Port τ) (port : Option τ) (out : Sink),
      (s.withPort port).line q out line = ((s.withPort port).heard line).perform q out source inst := by
  obtain ⟨source, hexpand, hsource, hassemble⟩ := Equates.request?_eq_some h
  refine ⟨source, fun q port out => ?_⟩
  have hne := Equates.ne_nil_of_request h
  have hequates : (s.withPort port).equates = s.equates := rfl
  have hlanguage : (s.withPort port).language = s.language := rfl
  rw [line_of_instruct hne (Equates.not_command_of_request h), heard, if_neg hne]
  simp only [instruct, remember_equates, remember_language, hequates, hlanguage, hexpand, Equates.after]
  cases source with
  | nil => exact absurd rfl hsource
  | cons b source => simp only [hassemble]

/-! ### The record -/

/-- The session over the port with a record. -/
def recording (s : Session σ) (sent : Text) : Session (σ × Text) := s.withPort (s.port.map (·, sent))

def Turn.recording (t : Turn σ) (sent : Text) : Turn (σ × Text) := t.withPort (t.session.port.map (·, sent))

theorem recording_of_port {s : Session σ} {port : σ} (h : s.port = some port) (sent : Text) :
    s.recording sent = s.withPort (some (port, sent)) := by
  rw [recording, h, Option.map_some]

theorem line_recorded_of_idle {s : Session σ} {line : Text} (h : s.equates.request? s.language line = none)
    (p : Port σ) (out : Sink) (sent : Text) :
    (s.recording sent).line p.recorded out line = (s.line p out line).recording sent := by
  obtain ⟨told, htells⟩ := tells_of_idle h
  rw [recording, htells, htells.line_eq, Turn.recording, heard_port, heard_withPort]
  rfl

/-- Evaluating an instruction records its word. -/
theorem evaluate_recorded (p : Port σ) (s : Session σ) (out : Sink) (port : σ) (before : Option (σ × Text))
    (sent : Text) (inst : Instruction) :
    (s.withPort before).evaluate p.recorded out (port, sent) inst =
      (s.evaluate p out port inst).recording (sent ++ inst.word.toBytes) := by
  have hreads : (s.withPort before).reads = s.reads := rfl
  simp only [evaluate, Port.exchange_recorded, Port.recorded_notes, hreads]
  obtain ⟨(cause | cause | _) | regs, port'⟩ := p.exchange s.reads port inst.word
  · rfl
  · rfl
  · rfl
  · -- The table is the same on both sides and must not be computed.
    generalize hshown : writeLines out regs.tableLines = shown
    simp only [hshown]
    rfl

/-! ### A port and room -/

theorem perform_of_room {s : Session σ} {port : σ} (h : s.port = some port) (p : Port σ) (written source : Text)
    (inst : Instruction) :
    s.perform p ⟨written, none⟩ source inst =
      (if s.verbose then s.tell (instructionNote source inst) else s).evaluate p
        ⟨written ++ Text.lines inst.tableLines, none⟩ port inst := by
  have hport : (if s.verbose then s.tell (instructionNote source inst) else s).port = some port := by
    split_ifs <;> exact h
  simp only [perform, writeLines_of_room, hport]

theorem line_recorded_of_request {s : Session σ} {port : σ} {line : Text} {inst : Instruction}
    (hport : s.port = some port) (h : s.equates.request? s.language line = some inst) (p : Port σ)
    (written sent : Text) :
    (s.recording sent).line p.recorded ⟨written, none⟩ line =
      (s.line p ⟨written, none⟩ line).recording (sent ++ inst.word.toBytes) := by
  obtain ⟨source, hline⟩ := line_of_request h
  have hself := hline p s.port ⟨written, none⟩
  rw [withPort_port] at hself
  rw [recording_of_port hport, hline, hself, heard_withPort, perform_of_room rfl,
    perform_of_room ((heard_port s line).trans hport), ← evaluate_recorded p _ _ _ (some (port, sent))]
  congr 1
  show (if (s.heard line).verbose = true then _ else _) = _
  split_ifs <;> rfl

/-- What a session shows of an answer. -/
def answerText (style : NumberStyle) : Except LinkError RegisterFile → Text
  | .ok regs => Text.lines regs.tableLines
  | .error (.write cause) => Text.ofString "Error writing to serial port:" ++ "\n  " ++ cause.message ++ "\n"
  | .error (.read cause) =>
    Text.ofString "Error reading from serial port:" ++ "\n  " ++ LinkError.message style (.read cause) ++ "\n"
  | .error .waiting => []

/-- Why a session cannot go on after an answer. -/
def failure? : Except LinkError RegisterFile → Option SessionError
  | .ok _ => none
  | .error e => some (.link e)

theorem evaluate_of_room (p : Port σ) (s : Session σ) (written : Text) (port : σ) (inst : Instruction) :
    s.evaluate p ⟨written, none⟩ port inst =
      { session := { s with port := some (p.notes (p.exchange s.reads port inst.word).2).2 }.tell
          (p.notes (p.exchange s.reads port inst.word).2).1
        out := ⟨written ++ answerText s.style (p.exchange s.reads port inst.word).1, none⟩
        error := failure? (p.exchange s.reads port inst.word).1 } := by
  simp only [evaluate]
  obtain ⟨(cause | cause | _) | regs, port'⟩ := p.exchange s.reads port inst.word
  · rfl
  · rfl
  · simp only [answerText, List.append_nil]
    rfl
  · simp only [writeLines_of_room]
    rfl

theorem line_of_idle_room {s : Session σ} {line : Text} (h : s.equates.request? s.language line = none)
    (p : Port σ) (written : Text) :
    ∃ shown, s.line p ⟨written, none⟩ line =
      { session := s.heard line, out := ⟨written ++ shown, none⟩, quit := Quits line } := by
  obtain ⟨told, htells⟩ := tells_of_idle h
  refine ⟨told.flatten, ?_⟩
  rw [htells.line_eq, foldl_put_of_room]

theorem line_of_request_room {s : Session σ} {port : σ} {line : Text} {inst : Instruction}
    (hport : s.port = some port) (h : s.equates.request? s.language line = some inst) (p : Port σ)
    (written : Text) :
    ∃ s', s.line p ⟨written, none⟩ line =
        { session := s'
          out := ⟨written ++ (Text.lines inst.tableLines ++
            answerText s.style (p.exchange s.reads port inst.word).1), none⟩
          error := failure? (p.exchange s.reads port inst.word).1 } ∧
      s'.port = some (p.notes (p.exchange s.reads port inst.word).2).2 := by
  obtain ⟨source, hline⟩ := line_of_request h
  have hself := hline p s.port ⟨written, none⟩
  rw [withPort_port, perform_of_room ((heard_port s line).trans hport), evaluate_of_room] at hself
  have hsame : SameSettings s (if (s.heard line).verbose then (s.heard line).tell (instructionNote source inst)
      else s.heard line) := by
    obtain ⟨hstyle, hlanguage, hreads⟩ := heard_settings s line
    split_ifs <;> exact ⟨hstyle, hlanguage, hreads⟩
  rw [hsame.style, hsame.reads, List.append_assoc] at hself
  exact ⟨_, hself, rfl⟩

end Session

end RvConsole
