import RvConsole.Link.Simulator
import RvConsole.Proofs.Files.Store
import RvConsole.Proofs.Session.Step
import RvConsole.Proofs.Text.Lines

/-! The history of one session after the other.

While a session runs, the history file holds the lines of the session's history, one after the other (`Recording`): a
line that is entered is added to both. So the next session that loads the file has the same history, and goes on with
it. What happens to the lines otherwise, what port there is and how the session ends make no difference, nor do the
language of expressions and the number of reads that an answer is given. -/
namespace RvConsole

/-! ### Lines kept in a file -/

/-- A file that keeps lines: it is absent but can be written, or holds the lines. -/
inductive Store.Keeps (path : Text) (files : Store) : List Text → Prop where
  | nothing {e : FileError} {one : Text} {files' : Store} :
    files.read path = .error e → e.reason = .missing → files.appendLine path one = .ok files' →
    Keeps path files []
  | lines {xs : List Text} :
    files.look (Path.directory path) = .ok .directory → files.read path = .ok (Text.lines xs) →
    Keeps path files xs

namespace Store
variable {path : Text} {files : Store} {kept : List Text}

theorem Keeps.path_ne_nil (h : Keeps path files kept) : path ≠ [] := by
  rintro rfl
  cases h with
  | nothing _ _ happend =>
    obtain ⟨made, -, hupdate⟩ := appendLine_eq_ok.mp happend
    cases hupdate
  | lines _ hread => cases hread

/-- A file that keeps lines takes one more. -/
theorem Keeps.appendLine (h : Keeps path files kept) (line : Text) :
    ∃ files', files.appendLine path line = .ok files' ∧ Keeps path files' (kept ++ [line]) := by
  have hlines (xs : List Text) : Text.lines (xs ++ [line]) = Text.lines xs ++ (line ++ "\n") := by
    simp only [Text.lines, List.flatMap_append, List.flatMap_singleton]
    rfl
  cases h with
  | nothing habsent _ hone =>
    obtain ⟨files', happend, hdirectory, hread⟩ := appendLine_of_absent habsent hone line
    exact ⟨files', happend, .lines hdirectory (by rw [hlines]; exact hread)⟩
  | lines hdirectory hread =>
    obtain ⟨files', happend, hdirectory', hread'⟩ := appendLine_of_file hdirectory hread line
    exact ⟨files', happend, .lines hdirectory' (by rw [hlines]; exact hread')⟩

end Store

namespace Session
variable {σ : Type} {p : Port σ} {s s' : Session σ} {out : Sink} {path line : Text}

/-- The lines that are remembered. -/
def entered (lines : List Text) : List Text := (lines.map Text.trim).filter (· ≠ [])

theorem entered_of_blank (h : line.trim = []) : entered [line] = [] := by
  simp [entered, h]

theorem entered_of_ne (h : line.trim ≠ []) : entered [line] = [line.trim] := by
  simp [entered, h]

theorem entered_cons (line : Text) (rest : List Text) : entered (line :: rest) = entered [line] ++ entered rest := by
  rw [entered, entered, entered, ← List.singleton_append, List.map_append, List.filter_append]

/-! ### What leaves the history alone -/

/-- A session with the history of another, and the same files. -/
structure SameHistory (s s' : Session σ) : Prop where
  historyFile : s'.historyFile = s.historyFile
  history : s'.history = s.history
  files : s'.files = s.files

/-- After a line is remembered, nothing that it does touches the history again. -/
theorem sameHistory_line (p : Port σ) (s : Session σ) (out : Sink) (hne : line.trim ≠ []) :
    SameHistory (s.remember line.trim) (s.line p out line).session := by
  cases hcommand : command? line.trim with
  | none =>
    obtain ⟨port, journal, hinstruct⟩ := instruct_frame p (s.remember line.trim) out line.trim
    rw [line_of_instruct hne hcommand, hinstruct]
    exact ⟨rfl, rfl, rfl⟩
  | some c => cases c <;> simp only [Session.line, hne, hcommand, if_false] <;> exact ⟨rfl, rfl, rfl⟩

/-! ### Recording -/

/-- A session whose history is what its history file keeps. -/
structure Recording (path : Text) (s : Session σ) : Prop where
  historyFile : s.historyFile = path
  keeps : s.files.Keeps path s.history
  isLine : ∀ x ∈ s.history, x.IsLine

theorem Recording.remember (h : Recording path s) (hline : line.IsLine) : Recording path (s.remember line) := by
  obtain ⟨files', happend, hkeeps⟩ := h.keeps.appendLine line
  have hfile : s.historyFile ≠ [] := h.historyFile ▸ h.keeps.path_ne_nil
  have hremember : s.remember line = { s with history := s.history ++ [line], files := files' } := by
    rw [← h.historyFile] at happend
    simp only [Session.remember, hfile, if_false, happend]
  rw [hremember]
  exact ⟨h.historyFile, hkeeps, List.forall_mem_append.mpr ⟨h.isLine, List.forall_mem_singleton.mpr hline⟩⟩

theorem Recording.congr (h : Recording path s) (hsame : SameHistory s s') : Recording path s' := by
  obtain ⟨hfile, hhistory, hfiles⟩ := hsame
  exact ⟨hfile.trans h.historyFile, hfiles ▸ hhistory ▸ h.keeps, hhistory ▸ h.isLine⟩

/-- A line is added to the history and to its file, unless it is blank. -/
theorem Recording.after_line (h : Recording path s) (p : Port σ) (out : Sink)
    (hline : line.trim ≠ [] → line.trim.IsLine) :
    Recording path (s.line p out line).session ∧
      (s.line p out line).session.history = s.history ++ entered [line] := by
  by_cases hne : line.trim = []
  · rw [line_of_blank hne, entered_of_blank hne, List.append_nil]
    exact ⟨h, rfl⟩
  · have hsame := sameHistory_line p s out hne
    exact ⟨(h.remember (hline hne)).congr hsame, by rw [hsame.history, remember_history, entered_of_ne hne]⟩

/-- **A session adds the lines it gets to.** -/
theorem Recording.after_lines (h : Recording path s) (p : Port σ) (out : Sink) {lines : List Text}
    (hlines : ∀ line ∈ lines, line.trim ≠ [] → line.trim.IsLine) :
    Recording path (s.lines p out lines).session ∧
      (s.lines p out lines).session.history = s.history ++ entered (s.reached p out lines) := by
  induction lines generalizing s out with
  | nil => exact ⟨h, (List.append_nil _).symm⟩
  | cons first rest ih =>
    obtain ⟨hfirst, hrest⟩ := List.forall_mem_cons.mp hlines
    obtain ⟨hstep, hhistory⟩ := h.after_line p out hfirst
    simp only [Session.lines, reached]
    split_ifs
    · exact ⟨hstep, hhistory⟩
    · obtain ⟨hrun, hadded⟩ := ih hstep (s.line p out first).out hrest
      rw [entered_cons, ← List.append_assoc, ← hhistory]
      exact ⟨hrun, hadded⟩

/-- **A session that starts on a file that keeps lines has them as its history.** -/
theorem loadHistory_of_keeps {kept : List Text} (hfile : s.historyFile = path) (hhistory : s.history = [])
    (hkeeps : s.files.Keeps path kept) (hlines : ∀ x ∈ kept, x.IsLine) :
    s.loadHistory = ({ s with history := kept }, none) := by
  have hne : s.historyFile ≠ [] := hfile ▸ hkeeps.path_ne_nil
  cases hkeeps with
  | nothing habsent hmissing =>
    rw [← hfile] at habsent
    simp only [loadHistory, hne, if_false, habsent, hmissing, if_true, ← hhistory]
  | lines _ hread =>
    rw [← hfile] at hread
    have hfilter : kept.filter (· ≠ []) = kept :=
      List.filter_eq_self.mpr fun x hx => decide_eq_true (hlines x hx).ne_nil
    simp only [loadHistory, hne, if_false, hread, Text.scanLines_lines hlines, hfilter, hhistory, List.nil_append]
    rfl

theorem reached_take (p : Port σ) (s : Session σ) (out : Sink) (lines : List Text) (k : Nat) :
    s.reached p out (lines.take k) = (s.reached p out lines).take k := by
  induction lines generalizing s out k with
  | nil => simp [reached]
  | cons first rest ih =>
    cases k with
    | zero => rfl
    | succ k =>
      simp only [List.take_succ_cons, reached]
      split_ifs
      · simp
      · rw [ih]

end Session

/-! ### One session after the other -/

/-- What a session is started with: a port of its own, settings, an output and an input. -/
structure Launch where
  σ : Type
  port : Port σ
  settings : Session σ
  out : Sink
  input : Text

namespace Launch
variable {path : Text} {files : Store}

/-- The session on a history file, once it has loaded its history, and what was wrong with the file. -/
def opened (launch : Launch) (path : Text) (files : Store) : Session launch.σ × Option SessionError :=
  { launch.settings with historyFile := path, history := [], files }.loadHistory

/-- The lines of the input. -/
def lines (launch : Launch) : List Text := (Text.scanLines launch.input).read

/-- The lines that the session gets to. -/
def reached (launch : Launch) (path : Text) (files : Store) : List Text :=
  (launch.opened path files).1.reached launch.port launch.out launch.lines

/-- The session at its end. -/
def closed (launch : Launch) (path : Text) (files : Store) : Session launch.σ :=
  ((launch.opened path files).1.run launch.port launch.out launch.input).session

/-- The files after some sessions. -/
def filesAfter (path : Text) (files : Store) (launches : List Launch) : Store :=
  launches.foldl (fun files launch => (launch.closed path files).files) files

/-- The lines entered in some sessions, each on the files that the one before it left. -/
def entered (path : Text) : Store → List Launch → List Text
  | _, [] => []
  | files, launch :: rest =>
    Session.entered (launch.reached path files) ++ entered path (launch.closed path files).files rest

theorem isLine_of_mem_lines (launch : Launch) : ∀ line ∈ launch.lines, line.trim ≠ [] → line.trim.IsLine :=
  fun _ => Text.isLine_trim

/-- Files that keep lines as they can be read back. -/
def Ready (path : Text) (files : Store) (kept : List Text) : Prop :=
  files.Keeps path kept ∧ ∀ x ∈ kept, x.IsLine

theorem opened_of_ready {kept : List Text} (h : Ready path files kept) (launch : Launch) :
    (launch.opened path files).2 = none ∧ (launch.opened path files).1.history = kept ∧
      (launch.opened path files).1.Recording path := by
  have hload : launch.opened path files =
      ({ launch.settings with historyFile := path, history := kept, files }, none) :=
    Session.loadHistory_of_keeps rfl rfl h.1 h.2
  rw [hload]
  exact ⟨rfl, rfl, rfl, h.1, h.2⟩

theorem ready_after {kept : List Text} (h : Ready path files kept) (launch : Launch) :
    Ready path (launch.closed path files).files (kept ++ Session.entered (launch.reached path files)) := by
  obtain ⟨-, hhistory, hrecording⟩ := opened_of_ready h launch
  obtain ⟨hclosed, hadded⟩ := hrecording.after_lines launch.port launch.out launch.isLine_of_mem_lines
  rw [closed, Session.run_session]
  rw [hhistory] at hadded
  exact hadded ▸ ⟨hclosed.keeps, hclosed.isLine⟩

/-- The files keep all that was entered. -/
theorem ready_filesAfter {kept : List Text} (h : Ready path files kept) (launches : List Launch) :
    Ready path (filesAfter path files launches) (kept ++ entered path files launches) := by
  induction launches generalizing files kept with
  | nil => rwa [entered, List.append_nil]
  | cons launch rest ih =>
    rw [entered, ← List.append_assoc]
    exact ih (ready_after h launch)

end Launch

/-- **The history survives sessions exactly.** On a file that is absent and can be written at first, after any sessions
with any ports, settings and inputs, a session loads without a fault just the lines that were entered in those before
it, and has these and its own lines as its history after each line it gets to and at its end. The settings include the
language of expressions and the reads for an answer; a line whose answer does not come is in the history as well. -/
theorem history_survives (path : Text) (files : Store)
    (habsent : ∃ e, files.read path = .error e ∧ e.reason = .missing)
    (hwritable : ∃ line files', files.appendLine path line = .ok files')
    (earlier : List Launch) (launch : Launch) :
    let past := Launch.entered path files earlier
    let left := Launch.filesAfter path files earlier
    let opened := launch.opened path left
    opened.2 = none ∧ opened.1.history = past ∧
      (∀ k, (opened.1.lines launch.port launch.out (launch.lines.take k)).session.history =
        past ++ Session.entered ((launch.reached path left).take k)) ∧
      (launch.closed path left).history = past ++ Session.entered (launch.reached path left) := by
  obtain ⟨e, hread, hmissing⟩ := habsent
  obtain ⟨one, files', happend⟩ := hwritable
  have hready : Launch.Ready path files [] := ⟨.nothing hread hmissing happend, List.forall_mem_nil _⟩
  have hleft := Launch.ready_filesAfter hready earlier
  rw [List.nil_append] at hleft
  intro past left opened
  obtain ⟨hfault, hhistory, hrecording⟩ := Launch.opened_of_ready hleft launch
  refine ⟨hfault, hhistory, fun k => ?_, ?_⟩
  · have htake : ∀ line ∈ launch.lines.take k, line.trim ≠ [] → line.trim.IsLine :=
      fun line hline => launch.isLine_of_mem_lines line (List.mem_of_mem_take hline)
    obtain ⟨-, hadded⟩ := hrecording.after_lines launch.port launch.out htake
    rw [hhistory, Session.reached_take] at hadded
    exact hadded
  · obtain ⟨-, hadded⟩ := hrecording.after_lines launch.port launch.out launch.isLine_of_mem_lines
    rw [hhistory] at hadded
    rw [Launch.closed, Session.run_session]
    exact hadded

/-- A session on a simulator or without a port. -/
def Launch.onSimulator (port : Option Simulator) (input : Text) : Launch :=
  ⟨Simulator, Simulator.port, { port }, {}, input⟩

/-- A session that quits, one that loses its port, and one that asks for the history. -/
theorem history_survives_three_sessions :
    let earlier := [Launch.onSimulator none " .equ A 1 \r\n\nno\rsense\nQUIT\nnop\n",
      Launch.onSimulator (some { machine := Machine.new, isOpen := false }) "nop\nnop\n"]
    let launch := Launch.onSimulator none "history\r\n"
    let left := Launch.filesAfter "logs/history" {} earlier
    (launch.opened "logs/history" left).2 = none ∧
      (launch.opened "logs/history" left).1.history = [".equ A 1", "no\rsense", "QUIT", "nop"] ∧
      (launch.closed "logs/history" left).history = [".equ A 1", "no\rsense", "QUIT", "nop", "history"] := by
  intro earlier launch
  dsimp only
  have hpast : Launch.entered "logs/history" {} earlier = [".equ A 1", "no\rsense", "QUIT", "nop"] := by decide +kernel
  have hreached : Session.entered (launch.reached "logs/history" (Launch.filesAfter "logs/history" {} earlier)) =
      ["history"] := by decide +kernel
  obtain ⟨hfault, hhistory, -, hclosed⟩ :=
    history_survives "logs/history" {} ⟨_, rfl, rfl⟩ ⟨"nop", _, rfl⟩ earlier launch
  rw [hpast] at hhistory hclosed
  rw [hreached] at hclosed
  exact ⟨hfault, hhistory, hclosed⟩

end RvConsole
