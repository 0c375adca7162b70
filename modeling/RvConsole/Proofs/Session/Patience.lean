import RvConsole.Proofs.Link.Pieces
import RvConsole.Proofs.Session.Step

/-! A session that is not left waiting.

A session gives every answer a number of reads to arrive in. If none of its answers takes more than that, the number
does not matter: with more reads the session does the same (`run_allowing`). So a session that is left waiting with
every number of reads is one that never ends, and any other has its one course. -/
namespace RvConsole.Session

variable {σ : Type}

/-- The session with another number of reads. -/
def allowing (s : Session σ) (reads : Nat) : Session σ := { s with reads }

def Turn.allowing (t : Turn σ) (reads : Nat) : Turn σ := { t with session := t.session.allowing reads }

/-- Whether the session was left without an answer. -/
def Turn.Waits (t : Turn σ) : Prop := t.error = some (.link .waiting)

variable {p : Port σ} {s : Session σ} {out : Sink} {reads : Nat}

theorem remember_allowing (s : Session σ) (reads : Nat) (line : Text) :
    (s.allowing reads).remember line = (s.remember line).allowing reads := by
  by_cases hfile : s.historyFile = []
  · simp [remember, allowing, hfile]
  · cases happend : s.files.appendLine s.historyFile line <;>
      simp [remember, allowing, hfile, happend, tell]

theorem evaluate_allowing (hreads : s.reads ≤ reads) {port : σ} {inst : Instruction}
    (h : ¬ (s.evaluate p out port inst).Waits) :
    (s.allowing reads).evaluate p out port inst = (s.evaluate p out port inst).allowing reads := by
  have hwaits : (p.exchange s.reads port inst.word).1 ≠ .error .waiting := by
    intro hwaiting
    apply h
    simp only [evaluate, Turn.Waits, hwaiting]
  have hexchange : p.exchange (s.allowing reads).reads port inst.word = p.exchange s.reads port inst.word :=
    Port.exchange_of_le hreads hwaits
  simp only [evaluate, hexchange]
  obtain ⟨(cause | cause | _) | regs, port'⟩ := p.exchange s.reads port inst.word
  · rfl
  · rfl
  · rfl
  · -- The table is the same on both sides and must not be computed.
    generalize hshown : writeLines out regs.tableLines = shown
    simp only [hshown]
    rfl

theorem perform_allowing (hreads : s.reads ≤ reads) {source : Text} {inst : Instruction}
    (h : ¬ (s.perform p out source inst).Waits) :
    (s.allowing reads).perform p out source inst = (s.perform p out source inst).allowing reads := by
  obtain ⟨told, htold⟩ : ∃ told, told = if s.verbose then s.tell (instructionNote source inst) else s := ⟨_, rfl⟩
  have htold' : (if (s.allowing reads).verbose then (s.allowing reads).tell (instructionNote source inst)
      else s.allowing reads) = told.allowing reads := by
    rw [htold]
    show (if s.verbose then _ else _) = _
    split_ifs <;> rfl
  have hport : (told.allowing reads).port = told.port := rfl
  have htoldReads : told.reads ≤ reads := by
    rw [htold]
    split_ifs <;> exact hreads
  simp only [perform, ← htold, htold', hport] at h ⊢
  generalize writeLines out inst.tableLines = shown at h ⊢
  obtain ⟨out', _ | error⟩ := shown
  · cases hport' : told.port with
    | none => rfl
    | some port =>
      simp only [hport'] at h
      exact evaluate_allowing htoldReads h
  · rfl

theorem instruct_allowing (hreads : s.reads ≤ reads) {line : Text} (h : ¬ (s.instruct p out line).Waits) :
    (s.allowing reads).instruct p out line = (s.instruct p out line).allowing reads := by
  have hequates : (s.allowing reads).equates = s.equates := rfl
  have hlanguage : (s.allowing reads).language = s.language := rfl
  simp only [instruct, hequates, hlanguage] at h ⊢
  generalize expand (s.equates.evaluate s.language) s.equates line = expansion at h ⊢
  obtain ⟨e | source, equates⟩ := expansion
  · rfl
  cases source with
  | nil => rfl
  | cons b source =>
    dsimp only at h ⊢
    cases hassemble : assemble (b :: source) with
    | error e => rfl
    | ok inst =>
      rw [hassemble] at h
      exact perform_allowing (s := { s with equates }) hreads h

/-- A line whose answer has come is the same with more reads. -/
theorem line_allowing (hreads : s.reads ≤ reads) {line : Text} (h : ¬ (s.line p out line).Waits) :
    (s.allowing reads).line p out line = (s.line p out line).allowing reads := by
  by_cases hne : line.trim = []
  · rw [line_of_blank hne, line_of_blank hne]
    rfl
  cases hcommand : command? line.trim with
  | some c =>
    cases c <;> simp only [Session.line, hne, hcommand, if_false, remember_allowing] <;> rfl
  | none =>
    rw [line_of_instruct hne hcommand] at h ⊢
    rw [line_of_instruct hne hcommand, remember_allowing]
    obtain ⟨files, journal, hremember⟩ := remember_frame s line.trim
    exact instruct_allowing (by rw [hremember]; exact hreads) h

theorem lines_allowing (hreads : s.reads ≤ reads) {lines : List Text} (h : ¬ (s.lines p out lines).Waits) :
    (s.allowing reads).lines p out lines = (s.lines p out lines).allowing reads := by
  induction lines generalizing s out with
  | nil => rfl
  | cons first rest ih =>
    simp only [Session.lines] at h ⊢
    by_cases hend : (s.line p out first).quit ∨ (s.line p out first).error.isSome
    · rw [if_pos hend] at h ⊢
      rw [line_allowing hreads h]
      exact if_pos hend
    · rw [if_neg hend] at h ⊢
      -- A line after which the session goes on has failed in no way.
      have hwaits : ¬ (s.line p out first).Waits := by
        intro hwaits
        exact hend (.inr (by rw [hwaits]; rfl))
      rw [line_allowing hreads hwaits, ← ih _ h]
      · exact if_neg hend
      · rw [(line_settings p s out first).reads]
        exact hreads

/-- **A session that is not left waiting does the same with more reads.** -/
theorem run_allowing (hreads : s.reads ≤ reads) {input : Text} (h : ¬ (s.run p out input).Waits) :
    (s.allowing reads).run p out input = (s.run p out input).allowing reads := by
  have hlines : ¬ (s.lines p out (Text.scanLines input).read).Waits := by
    intro hwaits
    apply h
    simp only [run]
    rw [if_neg (by rw [hwaits]; simp)]
    exact hwaits
  simp only [run, lines_allowing hreads hlines]
  generalize s.lines p out (Text.scanLines input).read = turn
  by_cases hlong : (Text.scanLines input).overlong ∧ !turn.quit ∧ turn.error.isNone
  · rw [if_pos hlong]
    exact if_pos hlong
  · rw [if_neg hlong]
    exact if_neg hlong

end RvConsole.Session
