import RvConsole.Link.Exchange
import RvConsole.Proofs.Machine.Values

/-! Words and register files as bytes, and what serving them comes to.

A word comes back from its four bytes and a register file from its bytes, so a stream of either can be cut
where the values end. Serving the bytes of some words executes them in order and answers each with the
register file after it, as long as the answers fit the output (`serveFrom_words`, `serve_words`). -/
namespace RvConsole

/-! ### Bytes -/

namespace Word

theorem length_toBytes (w : Word) : w.toBytes.length = 4 := rfl

theorem ofBytes_byteAt (w : Word) :
    Word.ofBytes (w.byteAt 0) (w.byteAt 1) (w.byteAt 2) (w.byteAt 3) = w := by
  apply BitVec.eq_of_toNat_eq
  have hw := w.isLt
  simp only [Memory.toNat_ofBytes, Memory.byteAt_eq, UInt8.toNat_ofNat']
  omega

theorem listOfBytes_append (w : Word) (rest : Text) :
    listOfBytes (w.toBytes ++ rest) = w :: listOfBytes rest :=
  congrArg (· :: listOfBytes rest) (ofBytes_byteAt w)

theorem listOfBytes_flatMap (ws : List Word) : listOfBytes (ws.flatMap toBytes) = ws := by
  induction ws with
  | nil => rfl
  | cons w ws ih => rw [List.flatMap_cons, listOfBytes_append, ih]

theorem toBytes_ofBytes (a b c d : UInt8) : (ofBytes a b c d).toBytes = [a, b, c, d] := by
  have ha := a.toNat_lt
  have hb := b.toNat_lt
  have hc := c.toNat_lt
  have hd := d.toNat_lt
  simp only [toBytes, Memory.byteAt_eq, Memory.toNat_ofBytes, List.cons.injEq, and_true, ← UInt8.toNat_inj,
    UInt8.toNat_ofNat']
  omega

theorem length_lt_of_not_word {t : Text} (h : ∀ a b c d rest, t = a :: b :: c :: d :: rest → False) :
    t.length < 4 := by
  by_contra hlength
  obtain _ | ⟨a, _ | ⟨b, _ | ⟨c, _ | ⟨d, rest⟩⟩⟩⟩ := t
  · exact hlength (by decide)
  · exact hlength (by simp)
  · exact hlength (by simp)
  · exact hlength (by simp)
  · exact h a b c d rest rfl

theorem length_listOfBytes (t : Text) : (listOfBytes t).length = t.length / 4 := by
  fun_induction listOfBytes t with
  | case1 a b c d rest ih =>
    simp only [List.length_cons, ih]
    omega
  | case2 t hshort => rw [List.length_nil, Nat.div_eq_of_lt (length_lt_of_not_word hshort)]

/-- A byte string is its words and then the bytes that fill none. -/
theorem flatMap_listOfBytes (t : Text) :
    (listOfBytes t).flatMap toBytes ++ t.drop (4 * (t.length / 4)) = t := by
  fun_induction listOfBytes t with
  | case1 a b c d rest ih =>
    have hlength : 4 * ((a :: b :: c :: d :: rest).length / 4) = 4 * (rest.length / 4) + 4 := by
      simp only [List.length_cons]
      omega
    rw [List.flatMap_cons, toBytes_ofBytes, hlength, List.append_assoc]
    exact congrArg ([a, b, c, d] ++ ·) ih
  | case2 t hshort =>
    rw [Nat.div_eq_of_lt (length_lt_of_not_word hshort)]
    rfl

end Word

namespace RegisterFile
variable (regs : RegisterFile)

theorem length_toBytes : (RegisterFile.toBytes regs).length = RegisterFile.byteCount := by
  simp [RegisterFile.toBytes, List.length_flatMap, Word.length_toBytes, byteCount, mul_comm]

/-- A register file comes back from its bytes. -/
theorem ofBytes_toBytes : RegisterFile.ofBytes (RegisterFile.toBytes regs) = regs := by
  apply Vector.ext
  intro i hi
  rw [RegisterFile.ofBytes, RegisterFile.toBytes, Word.listOfBytes_flatMap, Vector.getElem_ofFn]
  simp [hi]

/-- Bytes of the right number come back from their register file. -/
theorem toBytes_ofBytes {t : Text} (h : t.length = RegisterFile.byteCount) :
    RegisterFile.toBytes (RegisterFile.ofBytes t) = t := by
  have hlength : (Word.listOfBytes t).length = registerCount := by
    rw [Word.length_listOfBytes, h]
    rfl
  have hlist : (RegisterFile.ofBytes t).toList = Word.listOfBytes t := by
    apply List.ext_getElem
    · rw [Vector.length_toList, hlength]
    · intro i _ hi
      rw [Vector.getElem_toList]
      simp [RegisterFile.ofBytes, hi]
  have hdrop : t.drop (4 * (t.length / 4)) = [] := by
    rw [h]
    exact List.drop_eq_nil_of_le h.le
  have hbytes := Word.flatMap_listOfBytes t
  rwa [hdrop, List.append_nil, ← hlist] at hbytes

end RegisterFile

/-! ### Words one after the other -/

theorem Clock.after_zero (clock : Clock) : clock.after 0 = clock := rfl

theorem Clock.after_after (clock : Clock) (a b : Nat) : (clock.after a).after b = clock.after (a + b) := by
  funext k
  exact congrArg clock (by omega)

namespace Machine
variable (m : Machine) (clock : Clock)

/-- The machine after a word that is taken at some time. -/
def next (m : Machine) (reading : BitVec 64) (w : Word) : Machine := ((m.atTime reading).execute w).1

/-- The machine after some words, each at its own time. -/
def executeAll (m : Machine) (clock : Clock) : List Word → Machine
  | [] => m
  | w :: ws => (m.next (clock 0) w).executeAll (clock.after 1) ws

/-- The register files after each of some words. -/
def files (m : Machine) (clock : Clock) : List Word → List RegisterFile
  | [] => []
  | w :: ws => (m.next (clock 0) w).regs :: (m.next (clock 0) w).files (clock.after 1) ws

/-- What is told about some words, one after the other. -/
def eventsAll (m : Machine) (clock : Clock) : List Word → List Event
  | [] => []
  | w :: ws => (m.atTime (clock 0)).events w ++ (m.next (clock 0) w).eventsAll (clock.after 1) ws

theorem executeAll_append (a b : List Word) :
    m.executeAll clock (a ++ b) = (m.executeAll clock a).executeAll (clock.after a.length) b := by
  induction a generalizing m clock with
  | nil => rfl
  | cons w a ih => rw [List.cons_append, executeAll, ih, executeAll, Clock.after_after, List.length_cons, Nat.add_comm]

theorem files_append (a b : List Word) :
    m.files clock (a ++ b) =
      m.files clock a ++ (m.executeAll clock a).files (clock.after a.length) b := by
  induction a generalizing m clock with
  | nil => rfl
  | cons w a ih =>
    rw [List.cons_append, files, ih, files, executeAll, Clock.after_after, List.length_cons, Nat.add_comm,
      List.cons_append]

theorem length_files (ws : List Word) : (m.files clock ws).length = ws.length := by
  induction ws generalizing m clock with
  | nil => rfl
  | cons w ws ih => exact congrArg (· + 1) (ih _ _)

/-- A word whose answer could be written, and then whatever follows its bytes. -/
theorem serveFrom_word (w : Word) {output output' : Sink}
    (hwrite : output.write (RegisterFile.toBytes (m.next (clock 0) w).regs) = (output', true)) (rest : Text)
    (told : List Event) :
    m.serveFrom clock output told (w.toBytes ++ rest) =
      (m.next (clock 0) w).serveFrom (clock.after 1) output' (told ++ (m.atTime (clock 0)).events w) rest := by
  rw [next] at hwrite
  show m.serveFrom _ _ told (w.byteAt 0 :: w.byteAt 1 :: w.byteAt 2 :: w.byteAt 3 :: rest) = _
  simp only [serveFrom, Word.ofBytes_byteAt, hwrite]
  rfl

/-- A word whose answer could not be written is the last one. -/
theorem serveFrom_last (w : Word) {output output' : Sink}
    (hwrite : output.write (RegisterFile.toBytes (m.next (clock 0) w).regs) = (output', false)) (rest : Text)
    (told : List Event) :
    m.serveFrom clock output told (w.toBytes ++ rest) =
      ⟨m.next (clock 0) w, output', told ++ (m.atTime (clock 0)).events w, some .closed⟩ := by
  rw [next] at hwrite
  show m.serveFrom _ _ told (w.byteAt 0 :: w.byteAt 1 :: w.byteAt 2 :: w.byteAt 3 :: rest) = _
  simp only [serveFrom, Word.ofBytes_byteAt, hwrite]
  rfl

/-- Words whose answers fit are all executed and answered, and serving goes on behind them. -/
theorem serveFrom_words (ws : List Word) {output : Sink}
    (hfits : ∀ room, output.room = some room → RegisterFile.byteCount * ws.length ≤ room) (rest : Text)
    (told : List Event) :
    m.serveFrom clock output told (ws.flatMap Word.toBytes ++ rest) =
      (m.executeAll clock ws).serveFrom (clock.after ws.length)
        ⟨output.written ++ (m.files clock ws).flatMap RegisterFile.toBytes,
          output.room.map (· - RegisterFile.byteCount * ws.length)⟩
        (told ++ m.eventsAll clock ws) rest := by
  induction ws generalizing m clock output told with
  | nil =>
    obtain ⟨written, _ | room⟩ := output <;> simp [executeAll, files, eventsAll, Clock.after_zero]
  | cons w ws ih =>
    have hlength := RegisterFile.length_toBytes (m.next (clock 0) w).regs
    have hboth : ∀ n, output.room = some n → RegisterFile.byteCount * ws.length + RegisterFile.byteCount ≤ n := by
      intro n hn
      have := hfits n hn
      rwa [List.length_cons, Nat.mul_succ] at this
    have hword : ∀ n, output.room = some n → (RegisterFile.toBytes (m.next (clock 0) w).regs).length ≤ n := by
      intro n hn
      have := hboth n hn
      omega
    have hrest : ∀ n, output.room.map (· - RegisterFile.byteCount) = some n →
        RegisterFile.byteCount * ws.length ≤ n := by
      intro n hn
      obtain ⟨n, hroom, rfl⟩ := Option.map_eq_some_iff.mp hn
      exact Nat.le_sub_of_add_le (hboth n hroom)
    have hroom : (output.room.map (· - RegisterFile.byteCount)).map (· - RegisterFile.byteCount * ws.length) =
        output.room.map (· - RegisterFile.byteCount * (w :: ws).length) := by
      rw [Option.map_map]
      apply congrArg (Option.map · output.room)
      funext n
      rw [Function.comp_apply, Nat.sub_sub, List.length_cons, Nat.mul_succ, Nat.add_comm]
    have hwrite := Sink.write_of_fits hword
    rw [hlength] at hwrite
    rw [List.flatMap_cons, List.append_assoc, serveFrom_word m clock w hwrite, ih _ _ hrest, hroom, files,
      List.flatMap_cons, eventsAll, List.append_assoc, List.append_assoc, Clock.after_after, executeAll,
      List.length_cons, Nat.add_comm 1]

/-- Bytes that fill no word are not served. -/
theorem serveFrom_short {tail : Text} (h : tail.length < 4) (output : Sink) (told : List Event) :
    m.serveFrom clock output told tail =
      ⟨m, output, told, if tail.length = 0 then none else some .unexpectedEnd⟩ := by
  obtain _ | ⟨a, _ | ⟨b, _ | ⟨c, _ | ⟨d, tail⟩⟩⟩⟩ := tail
  · rfl
  · rfl
  · rfl
  · rfl
  · simp only [List.length_cons] at h
    omega

/-- **Serving the bytes of some words executes them in order and answers each with its registers.** -/
theorem serve_words (ws : List Word) :
    (m.serve clock {} (ws.flatMap Word.toBytes)).machine = m.executeAll clock ws ∧
      (m.serve clock {} (ws.flatMap Word.toBytes)).output.written =
        (m.files clock ws).flatMap RegisterFile.toBytes ∧
      (m.serve clock {} (ws.flatMap Word.toBytes)).fault = none := by
  have hroom : ∀ room, Sink.room {} = some room → RegisterFile.byteCount * ws.length ≤ room := by
    intro room h
    cases h
  have h := m.serveFrom_words clock ws hroom [] []
  rw [List.append_nil] at h
  simp only [serve, h, serveFrom, List.nil_append, and_self]

/-- A word by itself. -/
theorem serve_word (w : Word) :
    (m.serve clock {} w.toBytes).machine = m.next (clock 0) w ∧
      (m.serve clock {} w.toBytes).output.written = RegisterFile.toBytes (m.next (clock 0) w).regs := by
  obtain ⟨hmachine, hwritten, -⟩ := m.serve_words clock [w]
  rw [List.flatMap_singleton] at hmachine hwritten
  rw [hmachine, hwritten]
  exact ⟨rfl, List.flatMap_singleton ..⟩

end Machine

end RvConsole
