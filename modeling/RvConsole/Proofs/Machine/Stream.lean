import RvConsole.Proofs.Machine.Served

/-! Serving any byte string into any output.

A byte string is some words and at most three bytes that fill none. Where the answers to all words fit the output,
all words are executed and answered, and only the bytes left over can make serving fail (`serve_of_fits`). Where
they do not, the word whose answer is cut short is the last one that is executed (`serve_of_lt`). Whether a word
fails to execute makes no difference to either. -/
namespace RvConsole.Machine
variable (m : Machine) (clock : Clock)

theorem eventsAll_append (a b : List Word) :
    m.eventsAll clock (a ++ b) =
      m.eventsAll clock a ++ (m.executeAll clock a).eventsAll (clock.after a.length) b := by
  induction a generalizing m clock with
  | nil => rfl
  | cons w a ih =>
    rw [List.cons_append, eventsAll, ih, eventsAll, executeAll, Clock.after_after, List.length_cons, Nat.add_comm,
      List.append_assoc]

theorem length_answers (ws : List Word) :
    ((m.files clock ws).flatMap RegisterFile.toBytes).length = RegisterFile.byteCount * ws.length := by
  induction ws generalizing m clock with
  | nil => rfl
  | cons w ws ih =>
    rw [files, List.flatMap_cons, List.length_append, RegisterFile.length_toBytes, ih, List.length_cons,
      Nat.mul_succ, Nat.add_comm]

/-- Where all answers fit, all words are executed and answered; bytes left over are an unexpected end. -/
theorem serve_of_fits {room : Option Nat} {ws : List Word}
    (hfits : ∀ limit, room = some limit → RegisterFile.byteCount * ws.length ≤ limit) {tail : Text}
    (htail : tail.length < 4) :
    m.serve clock ⟨[], room⟩ (ws.flatMap Word.toBytes ++ tail) =
      { machine := m.executeAll clock ws
        output :=
          ⟨(m.files clock ws).flatMap RegisterFile.toBytes, room.map (· - RegisterFile.byteCount * ws.length)⟩
        told := m.eventsAll clock ws
        fault := if tail.length = 0 then none else some .unexpectedEnd } := by
  rw [serve, m.serveFrom_words clock ws hfits, serveFrom_short _ _ htail, List.nil_append, List.nil_append]

/-- Where they do not, the answers are cut off at the limit, and the word whose answer is cut is the last. -/
theorem serve_of_lt {limit : Nat} {ws : List Word} (hlimit : limit < RegisterFile.byteCount * ws.length)
    (rest : Text) :
    m.serve clock ⟨[], some limit⟩ (ws.flatMap Word.toBytes ++ rest) =
      { machine := m.executeAll clock (ws.take (limit / RegisterFile.byteCount + 1))
        output := ⟨((m.files clock ws).flatMap RegisterFile.toBytes).take limit, some 0⟩
        told := m.eventsAll clock (ws.take (limit / RegisterFile.byteCount + 1))
        fault := some .closed } := by
  have hpos : 0 < RegisterFile.byteCount := by decide
  generalize hk : limit / RegisterFile.byteCount = k
  have hle : RegisterFile.byteCount * k ≤ limit := hk ▸ Nat.mul_div_le limit _
  have hleft : limit - RegisterFile.byteCount * k < RegisterFile.byteCount := by
    rw [← hk, ← Nat.mod_eq_sub_mul_div]
    exact Nat.mod_lt _ hpos
  have hlt : k < ws.length := hk ▸ Nat.div_lt_of_lt_mul hlimit
  -- The words answered in full, the one whose answer is cut, and those never reached.
  obtain ⟨a, w, b, rfl, rfl⟩ : ∃ a w b, ws = a ++ w :: b ∧ a.length = k :=
    ⟨ws.take k, ws[k], ws.drop (k + 1), by rw [List.getElem_cons_drop, List.take_append_drop],
      List.length_take_of_le hlt.le⟩
  have htake : (a ++ w :: b).take (a.length + 1) = a ++ [w] := by
    rw [List.take_append, List.take_of_length_le (Nat.le_succ _), Nat.add_sub_cancel_left]
    rfl
  have hfits : ∀ room, some limit = some room → RegisterFile.byteCount * a.length ≤ room := by
    intro room hroom
    exact Option.some.inj hroom ▸ hle
  generalize hlast : (m.executeAll clock a).next (clock.after a.length 0) w = last
  have hcut : limit - RegisterFile.byteCount * a.length < (RegisterFile.toBytes last.regs).length := by
    rw [RegisterFile.length_toBytes]
    exact hleft
  have hwritten : ((m.files clock (a ++ w :: b)).flatMap RegisterFile.toBytes).take limit =
      (m.files clock a).flatMap RegisterFile.toBytes ++
        (RegisterFile.toBytes last.regs).take (limit - RegisterFile.byteCount * a.length) := by
    rw [files_append, List.flatMap_append, List.take_append, m.length_answers,
      List.take_of_length_le (by rw [m.length_answers]; exact hle), files, List.flatMap_cons, hlast,
      List.take_append_of_le_length hcut.le]
  rw [← hlast] at hcut
  rw [serve, List.flatMap_append, List.flatMap_cons, List.append_assoc, List.append_assoc,
    m.serveFrom_words clock a hfits, List.nil_append, List.nil_append, Option.map_some,
    serveFrom_last _ _ w (Sink.write_of_lt hcut _), htake, hwritten, executeAll_append, eventsAll_append, hlast]
  simp [executeAll, eventsAll, hlast]

/-- **Any byte string is served into any output.** Its words are those of its bytes, four by four. Where the output
takes 128 bytes for each, they are all executed in order, failing ones too, each when the clock has its own reading,
and the output holds the registers after each; serving ends well unless bytes are left over, and these change
nothing. Where the output takes less, it is filled with the front of those answers, the word whose answer does not
fit is the last to be executed, and serving ends with the fault of the output. -/
theorem serve_any (m : Machine) (clock : Clock) (room : Option Nat) (input : Text) :
    let words := Word.listOfBytes input
    let answers := (m.files clock words).flatMap RegisterFile.toBytes
    let served := m.serve clock ⟨[], room⟩ input
    (words.length = input.length / 4 ∧
        words.flatMap Word.toBytes ++ input.drop (4 * (input.length / 4)) = input) ∧
      ((∀ limit, room = some limit → 128 * (input.length / 4) ≤ limit) →
        served.machine = m.executeAll clock words ∧ served.told = m.eventsAll clock words ∧
          served.output.written = answers ∧
          served.fault = if input.length % 4 = 0 then none else some .unexpectedEnd) ∧
      ∀ limit, room = some limit → limit < 128 * (input.length / 4) →
        served.machine = m.executeAll clock (words.take (limit / 128 + 1)) ∧
          served.told = m.eventsAll clock (words.take (limit / 128 + 1)) ∧
          served.output.written = answers.take limit ∧ served.fault = some .closed := by
  intro words answers served
  have hlength : words.length = input.length / 4 := Word.length_listOfBytes input
  have hinput : words.flatMap Word.toBytes ++ input.drop (4 * (input.length / 4)) = input :=
    Word.flatMap_listOfBytes input
  have htail : (input.drop (4 * (input.length / 4))).length = input.length % 4 := by
    rw [List.length_drop]
    omega
  refine ⟨⟨hlength, hinput⟩, fun hfits => ?_, fun limit hroom hlimit => ?_⟩
  · rw [← hlength] at hfits
    have hserve := m.serve_of_fits clock hfits (htail ▸ Nat.mod_lt _ (by decide))
    rw [hinput, htail] at hserve
    rw [show served = _ from hserve]
    exact ⟨rfl, rfl, rfl, rfl⟩
  · rw [← hlength] at hlimit
    have hserve := m.serve_of_lt clock hlimit (input.drop (4 * (input.length / 4)))
    rw [hinput, ← hroom] at hserve
    rw [show served = _ from hserve]
    exact ⟨rfl, rfl, rfl, rfl⟩

/-- A word that reads the clock, one that fails, another that reads the clock, and two bytes. -/
def stumbling : Text := [0x73, 0x25, 0x10, 0xC0, 0xFF, 0xFF, 0xFF, 0xFF, 0xF3, 0x25, 0x10, 0xC0, 0x13, 0x05]

/-- A clock that goes on by seven from word to word. -/
def ticking : Clock := fun k => BitVec.ofNat 64 (7 * k)

/-- The word behind the one that fails is executed where the output has room for it, at a later time than the first,
and is not reached where 200 bytes are all that fit. -/
theorem serve_any_stumbling :
    (Word.listOfBytes stumbling = [0xC0102573, 0xFFFFFFFF, 0xC01025F3] ∧
      (((ofSize 8).next 0 0xC0102573).execute 0xFFFFFFFF).2.isSome) ∧
    ((ofSize 8).serve ticking ⟨[], none⟩ stumbling).machine =
      (ofSize 8).executeAll ticking [0xC0102573, 0xFFFFFFFF, 0xC01025F3] ∧
    (((ofSize 8).serve ticking ⟨[], none⟩ stumbling).machine.reg 10 = 0 ∧
      ((ofSize 8).serve ticking ⟨[], none⟩ stumbling).machine.reg 11 = 14) ∧
    ((ofSize 8).serve ticking ⟨[], none⟩ stumbling).fault = some .unexpectedEnd ∧
    200 < 128 * (stumbling.length / 4) ∧
    ((ofSize 8).serve ticking ⟨[], some 200⟩ stumbling).machine =
      (ofSize 8).executeAll ticking [0xC0102573, 0xFFFFFFFF] ∧
    ((ofSize 8).serve ticking ⟨[], some 200⟩ stumbling).fault = some .closed := by
  obtain ⟨-, hfits, -⟩ := serve_any (ofSize 8) ticking none stumbling
  obtain ⟨-, -, hlimit⟩ := serve_any (ofSize 8) ticking (some 200) stumbling
  have hall := hfits (by intro limit h; cases h)
  have hcut := hlimit 200 rfl (by decide)
  refine ⟨⟨by decide, by decide⟩, hall.1, ?_, hall.2.2.2, by decide, hcut.1, hcut.2.2.2⟩
  rw [hall.1]
  exact ⟨by decide, by decide⟩

end RvConsole.Machine
