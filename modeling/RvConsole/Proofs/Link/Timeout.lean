import RvConsole.Link.Device
import RvConsole.Link.Serial
import RvConsole.Proofs.Link.Refinement

/-! An exchange over a serial port ends.

A serial port that has nothing to say answers a read with nothing, for ever. With time-outs as the end of the
input every read either brings a byte or is the last, so the bytes of a value are collected in no more reads than
there are bytes (`readFull_serial`), and what comes of an exchange can be read off its last read
(`exchange_serial`). -/
namespace RvConsole

/-! ### Collecting -/

namespace Reading

/-- The bytes of some readings, one behind the other. -/
def collected (readings : List Reading) : Text := readings.flatMap bytes

/-- Readings that collect missing bytes. All but the last bring some of them and no fault, and leave some missing.
The last brings none, or a fault, or the rest. -/
structure Collects (missing : Nat) (front : List Reading) (last : Reading) : Prop where
  going : ∀ r ∈ front, r.bytes ≠ [] ∧ r.fault = none
  short : (collected front).length < missing
  stops : last.bytes = [] ∨ last.fault ≠ none ∨ (collected (front ++ [last])).length = missing
  within : (collected (front ++ [last])).length ≤ missing

theorem collected_cons (r : Reading) (rest : List Reading) : collected (r :: rest) = r.bytes ++ collected rest :=
  List.flatMap_cons

theorem collected_singleton (r : Reading) : collected [r] = r.bytes := List.flatMap_singleton ..

/-- A reading that goes on, in front of the readings of what it leaves missing. -/
theorem Collects.cons {missing : Nat} {r last : Reading} {front : List Reading}
    (h : Collects (missing - r.bytes.length) front last) (hne : r.bytes ≠ []) (hfault : r.fault = none) :
    Collects missing (r :: front) last where
  going := List.forall_mem_cons.mpr ⟨⟨hne, hfault⟩, h.going⟩
  short := by
    have := h.short
    rw [collected_cons, List.length_append]
    omega
  stops := by
    refine h.stops.imp_right (Or.imp_right fun hfull => ?_)
    have := h.short
    rw [List.cons_append, collected_cons, List.length_append]
    omega
  within := by
    have := h.within
    have := h.short
    rw [List.cons_append, collected_cons, List.length_append]
    omega

/-- A reading that stops at once. -/
theorem collects_single {missing : Nat} {last : Reading} (hmissing : 0 < missing) (hle : last.bytes.length ≤ missing)
    (hstops : last.bytes = [] ∨ last.fault ≠ none ∨ last.bytes.length = missing) : Collects missing [] last where
  going := List.forall_mem_nil _
  short := hmissing
  stops := by rwa [List.nil_append, collected_singleton]
  within := by rwa [List.nil_append, collected_singleton]

theorem length_le_collected {readings : List Reading} (h : ∀ r ∈ readings, r.bytes ≠ []) :
    readings.length ≤ (collected readings).length := by
  induction readings with
  | nil => exact Nat.zero_le _
  | cons r rest ih =>
    obtain ⟨hr, hrest⟩ := List.forall_mem_cons.mp h
    have hpos := List.length_pos_iff.mpr hr
    have := ih hrest
    rw [collected_cons, List.length_append, List.length_cons]
    omega

/-- There are no more readings than bytes to collect. -/
theorem Collects.length_le {missing : Nat} {front : List Reading} {last : Reading} (h : Collects missing front last) :
    (front ++ [last]).length ≤ missing := by
  have hfront := length_le_collected fun r hr => (h.going r hr).1
  have := h.short
  rw [List.length_append, List.length_singleton]
  omega

end Reading

/-- The contacts of readings that each ask for what is still missing. -/
def Contact.asking : Nat → List Reading → List Contact
  | _, [] => []
  | missing, r :: rest => .read missing r :: asking (missing - r.bytes.length) rest

theorem Contact.length_asking (missing : Nat) (readings : List Reading) :
    (asking missing readings).length = readings.length := by
  induction readings generalizing missing with
  | nil => rfl
  | cons r rest ih => exact congrArg (· + 1) (ih _)

/-- The readings can be told from their contacts. -/
theorem Contact.asking_inj {missing : Nat} {a b : List Reading} (h : asking missing a = asking missing b) : a = b := by
  induction a generalizing missing b with
  | nil => cases b with
    | nil => rfl
    | cons r rest => cases h
  | cons r rest ih => cases b with
    | nil => cases h
    | cons r' rest' =>
      obtain ⟨hread, hrest⟩ := List.cons.inj h
      obtain ⟨-, rfl⟩ := Contact.read.inj hread
      rw [ih hrest]

theorem Contact.pos_of_asking {missing : Nat} {front : List Reading} (h : (Reading.collected front).length < missing)
    {last r : Reading} {size : Nat} (hmem : Contact.read size r ∈ asking missing (front ++ [last])) : 0 < size := by
  induction front generalizing missing with
  | nil =>
    obtain ⟨rfl, -⟩ := Contact.read.inj (List.mem_singleton.mp hmem)
    omega
  | cons first front ih =>
    rw [Reading.collected_cons, List.length_append] at h
    obtain heq | hrest := List.mem_cons.mp hmem
    · obtain ⟨rfl, -⟩ := Contact.read.inj heq
      omega
    · exact ih (by omega) hrest

/-! ### Reading -/

namespace Port
variable {σ τ : Type}

theorem serial_read (p : Port σ) (s : σ) (size : Nat) :
    p.serial.read s size =
      (if (p.read s size).1.bytes = [] ∧ (p.read s size).1.fault = none ∧ size ≠ 0 then
        { (p.read s size).1 with fault := some .endOfInput } else (p.read s size).1, (p.read s size).2) := by
  show (if _ then _ else _) = _
  split_ifs <;> rfl

/-- Ports that behave alike do so with time-outs too. -/
def Refinement.serial {impl : Port τ} {spec : Port σ} (r : Refinement impl spec) :
    Refinement impl.serial spec.serial where
  Rel := r.Rel
  read := by
    intro t s h size
    obtain ⟨hreading, hrel⟩ := r.read h size
    rw [serial_read, serial_read, hreading]
    exact ⟨rfl, hrel⟩
  write := r.write
  close := r.close

open Reading (collected Collects)

/-- What reading comes to, by all that was collected and the last fault: a read that timed out ends the input. -/
def verdict (want : Nat) (got : Text) (fault : Option Fault) : Except LinkError Text :=
  if want ≤ got.length then .ok got else .error (.read (shortfall got (fault.getD .endOfInput)))

section
variable {p : Port σ} {want : Nat} {got : Text} {s s' : σ} {reading : Reading}

theorem watched_serial_read (hgot : got.length < want) (hread : p.read s (want - got.length) = (reading, s'))
    (seen : List Contact) :
    p.watched.serial.read (s, seen) (want - got.length) =
      (if reading.bytes = [] ∧ reading.fault = none then { reading with fault := some .endOfInput } else reading,
        (s', seen ++ [.read (want - got.length) reading])) := by
  have hsize : want - got.length ≠ 0 := by omega
  have hwatched : p.watched.read (s, seen) (want - got.length) =
      (reading, (s', seen ++ [.read (want - got.length) reading])) := by
    show ((p.read s (want - got.length)).1, ((p.read s (want - got.length)).2, _)) = _
    rw [hread]
  rw [serial_read, hwatched]
  simp only [hsize, ne_eq, not_false_eq_true, and_true]

/-- A read that brings something and no fault is followed by others. -/
theorem readFull_of_going (hgot : got.length < want) (hread : p.read s (want - got.length) = (reading, s'))
    (hne : reading.bytes ≠ []) (hfault : reading.fault = none) (reads : Nat) (seen : List Contact) :
    p.watched.serial.readFull want (reads + 1) (s, seen) got =
      p.watched.serial.readFull want reads (s', seen ++ [.read (want - got.length) reading])
        (got ++ reading.bytes) := by
  apply readFull_piece hgot
  rw [watched_serial_read hgot hread, if_neg fun h => hne h.1, ← hfault]

/-- A read that brings nothing, a fault or the rest is the last. -/
theorem readFull_of_stops (hgot : got.length < want) (hread : p.read s (want - got.length) = (reading, s'))
    (hstops : reading.bytes = [] ∨ reading.fault ≠ none ∨ want ≤ (got ++ reading.bytes).length) (reads : Nat)
    (seen : List Contact) :
    p.watched.serial.readFull want (reads + 1) (s, seen) got =
      (verdict want (got ++ reading.bytes) reading.fault,
        (s', seen ++ [.read (want - got.length) reading])) := by
  rw [readFull, if_neg (by omega), watched_serial_read hgot hread, verdict]
  dsimp only
  by_cases hsilent : reading.bytes = [] ∧ reading.fault = none
  · have hshort : ¬ want ≤ (got ++ reading.bytes).length := by
      rw [hsilent.1, List.append_nil]
      omega
    rw [if_pos hsilent, hsilent.2]
    dsimp only
    rw [if_neg hshort, if_neg hshort]
    rfl
  rw [if_neg hsilent]
  by_cases hfull : want ≤ (got ++ reading.bytes).length
  · rw [if_pos hfull, if_pos hfull]
  rw [if_neg hfull, if_neg hfull]
  obtain ⟨fault, hfault⟩ : ∃ fault, reading.fault = some fault := by
    apply Option.ne_none_iff_exists'.mp
    intro hnone
    obtain hbytes | hfault | hfull' := hstops
    · exact hsilent ⟨hbytes, hnone⟩
    · exact hfault hnone
    · exact hfull hfull'
  rw [hfault]
  rfl

end

/-- **Reading over a serial port ends.** It takes no more reads than bytes are missing, and each asks for those. -/
theorem readFull_serial {p : Port σ} (hbound : ∀ s size, (p.read s size).1.bytes.length ≤ size)
    {want reads : Nat} {got : Text} (hgot : got.length < want) (hreads : want - got.length ≤ reads)
    (s : σ) (seen : List Contact) :
    ∃ front last s', Collects (want - got.length) front last ∧
      p.watched.serial.readFull want reads (s, seen) got =
        (verdict want (got ++ collected (front ++ [last])) last.fault,
          (s', seen ++ Contact.asking (want - got.length) (front ++ [last]))) := by
  induction reads generalizing got s seen with
  | zero => omega
  | succ reads ih =>
    obtain ⟨reading, s', hread⟩ : ∃ reading s', p.read s (want - got.length) = (reading, s') := ⟨_, _, rfl⟩
    have hle : reading.bytes.length ≤ want - got.length := by
      have := hbound s (want - got.length)
      rwa [hread] at this
    have hlength : (got ++ reading.bytes).length = got.length + reading.bytes.length := List.length_append
    by_cases hstops : reading.bytes = [] ∨ reading.fault ≠ none ∨ want ≤ (got ++ reading.bytes).length
    · refine ⟨[], reading, s', Reading.collects_single (by omega) hle ?_, ?_⟩
      · exact hstops.imp_right (Or.imp_right fun hfull => by omega)
      · rw [readFull_of_stops hgot hread hstops, List.nil_append, Reading.collected_singleton]
        rfl
    · simp only [not_or, not_not, not_le] at hstops
      obtain ⟨hne, hfault, hshort⟩ := hstops
      have hpos : 0 < reading.bytes.length := List.length_pos_iff.mpr hne
      have hmissing : want - (got ++ reading.bytes).length = want - got.length - reading.bytes.length := by omega
      obtain ⟨front, last, s'', hcollects, hreads⟩ :=
        ih hshort (by omega) s' (seen ++ [.read (want - got.length) reading])
      rw [hmissing] at hcollects hreads
      refine ⟨reading :: front, last, s'', hcollects.cons hne hfault, ?_⟩
      rw [readFull_of_going hgot hread hne hfault, hreads, List.cons_append, Reading.collected_cons,
        Contact.asking, List.append_assoc, List.append_assoc]
      rfl

/-! ### Exchanges -/

/-- A word that goes out is answered by what is then read. -/
theorem exchange_of_written {p : Port σ} {s s' : σ} {w : Word} (hwrite : (p.write s w.toBytes).1.fault = none)
    {reads : Nat} {result : Except LinkError Text}
    (hread : p.readFull RegisterFile.byteCount reads (p.write s w.toBytes).2 [] = (result, s')) :
    p.exchange reads s w = (result.map RegisterFile.ofBytes, s') := by
  unfold exchange
  dsimp only
  rw [hwrite, hread]

/-- What an exchange gives, by all that was collected and the last fault. -/
theorem answer_of_verdict {all : Text} (hle : all.length ≤ 128) {fault : Option Fault} :
    let result := (verdict RegisterFile.byteCount all fault).map RegisterFile.ofBytes
    ((∃ regs, result = .ok regs) ↔ all.length = 128) ∧
      (∀ regs, result = .ok regs → RegisterFile.toBytes regs = all) ∧
      (all.length ≠ 128 → RegisterFile.received result = Vector.replicate registerCount 0 ∧
        (∀ cause, fault = some cause → cause ≠ .endOfInput → result = .error (.read cause)) ∧
        (fault = none ∨ fault = some .endOfInput →
          result = .error (.read (if all = [] then .endOfInput else .unexpectedEnd)))) := by
  by_cases hfull : all.length = 128
  · have hok : verdict RegisterFile.byteCount all fault = .ok all := if_pos hfull.ge
    rw [hok]
    refine ⟨⟨fun _ => hfull, fun _ => ⟨_, rfl⟩⟩, fun regs hregs => ?_, fun hshort => absurd hfull hshort⟩
    rw [← Except.ok.inj hregs, RegisterFile.toBytes_ofBytes hfull]
  · have herror : verdict RegisterFile.byteCount all fault =
        .error (.read (shortfall all (fault.getD .endOfInput))) := if_neg fun hge => hfull (le_antisymm hle hge)
    rw [herror]
    refine ⟨⟨?_, fun h => absurd h hfull⟩, ?_, fun _ => ⟨rfl, ?_, ?_⟩⟩
    · intro h
      obtain ⟨regs, hregs⟩ := h
      cases hregs
    · intro regs hregs
      cases hregs
    · intro cause hcause hne
      rw [hcause, Option.getD_some, shortfall, if_neg fun h => hne h.2]
      rfl
    · intro hend
      have hgetD : fault.getD .endOfInput = .endOfInput := by
        obtain h | h := hend
        · rw [h, Option.getD_none]
        · rw [h, Option.getD_some]
      rw [hgetD, shortfall]
      simp only [and_true, ne_eq, ite_not]
      rfl

/-- **An exchange over a serial port ends, with the right verdict.** Let the port answer its reads as it likes, with no
more bytes than asked for, and let writes succeed. The word goes out first. Then at most 128 reads are made, however
many more are allowed, each of them for the bytes still missing, up to the first that brings nothing, a fault or the
last byte. The exchange succeeds just when 128 bytes were collected, whatever fault came with the last of them, and
then gives the registers of these bytes. Otherwise no register is set, and the cause is the port's own fault; but where
the last read found the end of the input, or brought nothing at all, it is the end of the input if no byte came, and an
unexpected one if some did. -/
theorem exchange_serial (p : Port σ) (hbound : ∀ s size, (p.read s size).1.bytes.length ≤ size)
    (hwrite : ∀ s data, (p.write s data).1.fault = none) {reads : Nat} (hreads : 128 ≤ reads) (s : σ) (w : Word) :
    ∃ (front : List Reading) (last : Reading),
      let contacts := Contact.asking 128 (front ++ [last])
      let all := collected (front ++ [last])
      let result := (p.serial.exchange reads s w).1
      ((p.watched.serial.exchange reads (s, []) w).2.2 = .write w.toBytes (p.write s w.toBytes).1 :: contacts ∧
          (p.watched.serial.exchange reads (s, []) w).1 = result) ∧
        (contacts.length ≤ 128 ∧ ∀ size r, .read size r ∈ contacts → 0 < size) ∧
        ((∀ r ∈ front, r.bytes ≠ [] ∧ r.fault = none) ∧ (collected front).length < 128) ∧
        (last.bytes = [] ∨ last.fault ≠ none ∨ all.length = 128) ∧ all.length ≤ 128 ∧
        ((∃ regs, result = .ok regs) ↔ all.length = 128) ∧
        (∀ regs, result = .ok regs → RegisterFile.toBytes regs = all) ∧
        (all.length ≠ 128 → RegisterFile.received result = Vector.replicate registerCount 0 ∧
          (∀ fault, last.fault = some fault → fault ≠ .endOfInput → result = .error (.read fault)) ∧
          (last.fault = none ∨ last.fault = some .endOfInput →
            result = .error (.read (if all = [] then .endOfInput else .unexpectedEnd)))) := by
  have hnone : ([] : Text).length < RegisterFile.byteCount := by decide
  have hcount : RegisterFile.byteCount - ([] : Text).length = 128 := rfl
  obtain ⟨front, last, s', hcollects, hread⟩ := readFull_serial hbound hnone hreads (p.write s w.toBytes).2
    [.write w.toBytes (p.write s w.toBytes).1]
  rw [hcount, List.nil_append] at hread
  rw [hcount] at hcollects
  have hsent : (p.watched.serial.write (s, []) w.toBytes).1.fault = none := hwrite s w.toBytes
  have hexchange : p.watched.serial.exchange reads (s, []) w = _ := exchange_of_written hsent hread
  have hsame : (p.watched.serial.exchange reads (s, []) w).1 = (p.serial.exchange reads s w).1 :=
    ((Refinement.watched p).serial.exchange rfl reads w).1
  refine ⟨front, last, ⟨by rw [hexchange]; rfl, hsame⟩, ⟨?_, ?_⟩, ⟨hcollects.going, hcollects.short⟩,
    hcollects.stops, hcollects.within, ?_⟩
  · rw [Contact.length_asking]
    exact hcollects.length_le
  · exact fun size r hmem => Contact.pos_of_asking hcollects.short hmem
  rw [← hsame, hexchange]
  exact answer_of_verdict hcollects.within

/-- Readings laid down beforehand: three bytes, and then silence. -/
def trailing : Rehearsal := { entries := [[1, 2, 3]], afterwards := none }

/-- The second read times out, so the registers are not received, though three bytes came. -/
theorem exchange_serial_trailing :
    ((∀ s size, (Rehearsal.port.read s size).1.bytes.length ≤ size) ∧
      ∀ s data, (Rehearsal.port.write s data).1.fault = none) ∧
    (Rehearsal.port.watched.serial.exchange 128 (trailing, []) 0x13).2.2 =
      [.write [0x13, 0, 0, 0] ⟨4, none⟩, .read 128 ⟨[1, 2, 3], none⟩, .read 125 ⟨[], none⟩] ∧
    (Rehearsal.port.serial.exchange 128 trailing 0x13).1 = .error (.read .unexpectedEnd) := by
  have hbound : ∀ s size, (Rehearsal.port.read s size).1.bytes.length ≤ size := by
    intro s size
    obtain ⟨_ | ⟨entry, rest⟩, failsLast, afterwards, onClose, calls⟩ := s
    · exact Nat.zero_le size
    · exact List.length_take_le size entry
  have hwrite : ∀ s data, (Rehearsal.port.write s data).1.fault = none := fun _ _ => rfl
  have hcontacts : (Rehearsal.port.watched.serial.exchange 128 (trailing, []) 0x13).2.2 =
      [.write [0x13, 0, 0, 0] ⟨4, none⟩, .read 128 ⟨[1, 2, 3], none⟩, .read 125 ⟨[], none⟩] := by
    decide +kernel
  obtain ⟨front, last, ⟨hcourse, -⟩, -, -, -, -, -, -, hfails⟩ :=
    exchange_serial Rehearsal.port hbound hwrite le_rfl trailing 0x13
  have hreadings : front ++ [last] = [⟨[1, 2, 3], none⟩] ++ [⟨[], none⟩] :=
    Contact.asking_inj (List.cons.inj (hcourse.symm.trans hcontacts)).2
  obtain ⟨rfl, hlast⟩ := List.append_inj' hreadings rfl
  cases hlast
  exact ⟨⟨hbound, hwrite⟩, hcontacts, (hfails (by decide)).2.2 (.inl rfl)⟩

end Port

end RvConsole
