import RvConsole.Proofs.Link.Pipe

/-! What goes through a pipe arrives.

One value at most is under way: none (`Between`), a word for the machine (`Asking`) or a register file for the
host (`Answering`). A step leads from stage to stage and leaves less work (`Stage.step`), and before the end
there is a step to take (`Stage.exists_step`). So every run is short, and what the host got and what the machine
executed can be read off the stage. -/
namespace RvConsole.Pipe
variable {m : Machine} {clock : Clock} {done rest words : List Word} {w : Word} {room : Nat} {c c' : Pipe}

/-! ### What a whole value does -/

theorem Host.got_short (host : Host) (w : Word) {pieces : List Text}
    (h : pieces.flatten.length < RegisterFile.byteCount) :
    host.got w pieces = { host with phase := .receiving w pieces } := if_pos h

/-- The pieces of a register file are the result of an exchange. -/
theorem Host.got_file (host : Host) (w : Word) {pieces : List Text} {regs : RegisterFile}
    (hne : ∀ piece ∈ pieces, piece ≠ []) (h : pieces.flatten = RegisterFile.toBytes regs) :
    host.got w pieces = { host with phase := .idle, results := host.results ++ [.ok regs] } := by
  rw [Host.got, if_neg (by rw [h, RegisterFile.length_toBytes]; exact Nat.lt_irrefl _),
    Rehearsal.exchange_of_pieces hne h]

theorem Target.got_short (target : Target) {bytes : Text} (h : bytes.length < 4) :
    target.got bytes = ({ target with phase := .reading bytes }, []) := if_pos h

/-- The bytes of a word have it executed and answered. -/
theorem Target.got_word (target : Target) (w : Word) :
    target.got w.toBytes =
      (⟨target.machine.next (target.clock 0) w, target.clock.after 1, target.executed ++ [w], .writing⟩,
        RegisterFile.toBytes (target.machine.next (target.clock 0) w).regs) := by
  obtain ⟨hmachine, hwritten⟩ := target.machine.serve_word target.clock w
  have hwords : Word.listOfBytes w.toBytes = [w] := by
    simpa using Word.listOfBytes_flatMap [w]
  rw [Target.got, if_neg (by rw [Word.length_toBytes]; exact Nat.lt_irrefl _)]
  simp only [hmachine, hwritten, hwords, List.length_singleton]

/-- What is got of a value is shorter than the value as long as some of it is pending. -/
theorem length_lt_of_pending {got pending value : Text} (h : got ++ pending = value) (hne : pending ≠ []) :
    got.length < value.length := by
  have := List.length_pos_iff.mpr hne
  rw [← h, List.length_append]
  omega

/-! ### Stages -/

/-- The host has exchanged the words `done` and has `rest` to come; the machine has executed `taken`. -/
structure Standing (m : Machine) (clock : Clock) (done taken rest : List Word) (c : Pipe) : Prop where
  todo : c.host.todo = rest
  results : c.host.results = (m.files clock done).map .ok
  executed : c.target.executed = taken
  machine : c.target.machine = m.executeAll clock taken
  clock : c.target.clock = clock.after taken.length

/-- Nothing is under way. -/
structure Between (m : Machine) (clock : Clock) (done rest : List Word) (c : Pipe) : Prop where
  standing : Standing m clock done done rest c
  host : c.host.phase = .idle ∨ c.host.phase = .closed
  request : c.request.pending = []
  reply : c.reply.pending = []
  target : c.target.phase = .reading [] ∨ c.target.phase = .writing

/-- Some of a word has still to reach the machine. -/
structure Asking (m : Machine) (clock : Clock) (done : List Word) (w : Word) (rest : List Word) (c : Pipe) : Prop where
  standing : Standing m clock done done rest c
  host : c.host.phase = .sending w ∨ c.host.phase = .receiving w [] ∧ c.request.left = []
  reply : c.reply.pending = []
  request_ne : c.request.pending ≠ []
  target : ∃ got, got ++ c.request.pending = w.toBytes ∧
    (c.target.phase = .reading got ∨ c.target.phase = .writing ∧ got = [])

/-- Some of the register file after a word has still to reach the host. -/
structure Answering (m : Machine) (clock : Clock) (done : List Word) (w : Word) (rest : List Word) (c : Pipe) :
    Prop where
  standing : Standing m clock done (done ++ [w]) rest c
  request : c.request.pending = []
  reply_ne : c.reply.pending ≠ []
  host : ∃ pieces, (∀ piece ∈ pieces, piece ≠ []) ∧
    pieces.flatten ++ c.reply.pending = RegisterFile.toBytes (m.executeAll clock (done ++ [w])).regs ∧
    (c.host.phase = .receiving w pieces ∨ c.host.phase = .sending w ∧ pieces = [])
  target : c.target.phase = .writing ∨ c.target.phase = .reading [] ∧ c.reply.left = []

/-- The host is gone, and serving ended well. -/
structure Ended (m : Machine) (clock : Clock) (done rest : List Word) (c : Pipe) : Prop where
  standing : Standing m clock done done rest c
  host : c.host.phase = .closed
  request : c.request.pending = []
  reply : c.reply.pending = []
  target : c.target.phase = .ended none

inductive Stage (m : Machine) (clock : Clock) : List Word → Pipe → Prop where
  | between {done rest : List Word} {c : Pipe} : Between m clock done rest c → Stage m clock (done ++ rest) c
  | asking {done rest : List Word} {w : Word} {c : Pipe} : Asking m clock done w rest c →
    Stage m clock (done ++ w :: rest) c
  | answering {done rest : List Word} {w : Word} {c : Pipe} : Answering m clock done w rest c →
    Stage m clock (done ++ w :: rest) c
  | ended {done rest : List Word} {c : Pipe} : Ended m clock done rest c → Stage m clock (done ++ rest) c

theorem stage_start (m : Machine) (clock : Clock) (words : List Word) :
    Stage m clock words (start m clock words) := by
  have h : Between m clock [] words (start m clock words) :=
    ⟨⟨rfl, rfl, rfl, rfl, rfl⟩, .inl rfl, rfl, rfl, .inl rfl⟩
  exact .between h

/-! ### Work -/

def Host.Phase.work : Host.Phase → Nat
  | idle => 1
  | sending _ => 3
  | receiving .. => 2
  | closed => 0

def Target.Phase.work : Target.Phase → Nat
  | reading _ => 1
  | writing => 2
  | ended _ => 0

/-- A bound on the steps to come. A byte of a request costs more than a whole answer, and a word to exchange
costs more than its bytes. -/
def work (c : Pipe) : Nat :=
  2000 * c.host.todo.length + c.host.phase.work + c.request.work 300 + c.reply.work 1 + c.target.phase.work

/-! ### Steps -/

theorem Between.step (h : Between m clock done rest c) (hstep : Step room c c') :
    Stage m clock (done ++ rest) c' ∧ c'.work < c.work := by
  obtain ⟨⟨htodo, hresults, hexecuted, hmachine, hclock⟩, hhost, hrequest, hreply, htarget⟩ := h
  cases hstep with
  | @ask w rest' hidle hcons =>
    obtain rfl : rest = w :: rest' := htodo.symm.trans hcons
    have hpending := Channel.pending_offer hrequest w.toBytes
    refine ⟨.asking ⟨⟨rfl, hresults, hexecuted, hmachine, hclock⟩, .inl rfl, hreply, ?_, ?_⟩, ?_⟩
    · rw [hpending]
      exact List.cons_ne_nil _ _
    · exact ⟨[], hpending, htarget.imp_right fun hwriting => ⟨hwriting, rfl⟩⟩
    · simp only [work, Channel.work_offer hrequest, Word.length_toBytes, hidle, hcons, Host.Phase.work,
        List.length_cons]
      omega
  | putRequest hput => exact absurd hrequest hput.pending_ne
  | getRequest _ hget => exact absurd hrequest hget.pending_ne
  | asked hsending => rcases hhost with h | h <;> simp [h] at hsending
  | putReply hput => exact absurd hreply hput.pending_ne
  | getReply _ hget => exact absurd hreply hget.pending_ne
  | answered hwriting =>
    refine ⟨.between ⟨⟨htodo, hresults, hexecuted, hmachine, hclock⟩, hhost, hrequest, hreply, .inl rfl⟩, ?_⟩
    simp only [work, hwriting, Target.Phase.work]
    omega
  | close hidle =>
    refine ⟨.between ⟨⟨htodo, hresults, hexecuted, hmachine, hclock⟩, .inr rfl, hrequest, hreply, htarget⟩, ?_⟩
    simp only [work, hidle, Host.Phase.work]
    omega
  | @finish got hclosed hreading =>
    obtain rfl : got = [] := by rcases htarget with h | h <;> simp_all
    refine ⟨.ended ⟨⟨htodo, hresults, hexecuted, hmachine, hclock⟩, hclosed, hrequest, hreply, rfl⟩, ?_⟩
    simp only [work, hreading, Target.Phase.work]
    omega
  | refuse _ _ hleft => exact absurd (Channel.left_of_pending hreply) hleft

/-- A piece of a word reaches the machine; with the last one the word is executed. -/
theorem Asking.getRequest (h : Asking m clock done w rest c) {got piece : Text} {request : Channel}
    (hreading : c.target.phase = .reading got) (hget : c.request.Get piece request) :
    let c' : Pipe := { c with
      request
      reply := c.reply.offer (c.target.got (got ++ piece)).2
      target := (c.target.got (got ++ piece)).1 }
    Stage m clock (done ++ w :: rest) c' ∧ c'.work < c.work := by
  obtain ⟨⟨htodo, hresults, hexecuted, hmachine, hclock⟩, hhost, hreply, -, got', hgot, htarget⟩ := h
  obtain rfl : got = got' := by rcases htarget with h | ⟨h, -⟩ <;> simp_all
  rw [hget.pending_eq, ← List.append_assoc] at hgot
  have hwork := hget.work_le 300
  by_cases hwhole : request.pending = []
  · rw [hwhole, List.append_nil] at hgot
    have hafter : c.target.machine.next (c.target.clock 0) w = m.executeAll clock (done ++ [w]) := by
      rw [hmachine, hclock, Machine.executeAll_append]
      rfl
    have hlater : c.target.clock.after 1 = clock.after (done ++ [w]).length := by
      rw [hclock, Clock.after_after, List.length_append, List.length_singleton]
    have hreplied := Channel.pending_offer hreply
      (RegisterFile.toBytes (c.target.machine.next (c.target.clock 0) w).regs)
    simp only [hgot, Target.got_word]
    refine ⟨.answering ⟨⟨htodo, hresults, congrArg (· ++ [w]) hexecuted, hafter, hlater⟩, hwhole, ?_,
      ⟨[], List.forall_mem_nil _, hreplied.trans (by rw [hafter]), ?_⟩, .inl rfl⟩, ?_⟩
    · rw [hreplied, ← List.length_pos_iff, RegisterFile.length_toBytes]
      decide
    · exact hhost.symm.imp And.left fun hsending => ⟨hsending, rfl⟩
    · simp only [work, hreading, Target.Phase.work, Channel.work_offer hreply, RegisterFile.length_toBytes,
        RegisterFile.byteCount, registerCount]
      omega
  · have hshort : (got ++ piece).length < 4 := length_lt_of_pending hgot hwhole
    simp only [Target.got_short _ hshort]
    refine ⟨.asking ⟨⟨htodo, hresults, hexecuted, hmachine, hclock⟩,
      hhost.imp_right (And.imp_right hget.left_nil), ?_, hwhole, _, hgot, .inl rfl⟩, ?_⟩
    · exact Channel.pending_offer hreply []
    · have := Channel.work_offer hreply [] 1
      simp only [work, hreading, Target.Phase.work, this, List.length_nil]
      omega

theorem Asking.step (h : Asking m clock done w rest c) (hstep : Step room c c') :
    Stage m clock (done ++ w :: rest) c' ∧ c'.work < c.work := by
  have ⟨⟨htodo, hresults, hexecuted, hmachine, hclock⟩, hhost, hreply, hne, got, hgot, htarget⟩ := h
  cases hstep with
  | ask hidle => rcases hhost with h | ⟨h, -⟩ <;> simp [h] at hidle
  | @putRequest request hput =>
    refine ⟨.asking ⟨⟨htodo, hresults, hexecuted, hmachine, hclock⟩, ?_, hreply, ?_, got, ?_, htarget⟩, ?_⟩
    · -- a host that waits for its answer has nothing left to put
      refine hhost.imp_right fun ⟨_, hleft⟩ => ?_
      have := hput.left_lt
      simp [hleft] at this
    · exact hput.pending_eq ▸ hne
    · exact hput.pending_eq ▸ hgot
    · have := hput.work_lt 300
      simp only [work]
      omega
  | getRequest hreading hget => exact h.getRequest hreading hget
  | @asked w' hsending hleft =>
    obtain rfl : w' = w := by rcases hhost with h | ⟨h, -⟩ <;> simp_all
    refine ⟨.asking ⟨⟨htodo, hresults, hexecuted, hmachine, hclock⟩, .inr ⟨rfl, hleft⟩, hreply, hne, got, hgot,
      htarget⟩, ?_⟩
    simp only [work, hsending, Host.Phase.work]
    omega
  | putReply hput => exact absurd hreply hput.pending_ne
  | getReply _ hget => exact absurd hreply hget.pending_ne
  | answered hwriting =>
    obtain rfl : got = [] := by rcases htarget with h | ⟨-, h⟩ <;> simp_all
    refine ⟨.asking ⟨⟨htodo, hresults, hexecuted, hmachine, hclock⟩, hhost, hreply, hne, [], hgot, .inl rfl⟩, ?_⟩
    simp only [work, hwriting, Target.Phase.work]
    omega
  | close hidle => rcases hhost with h | ⟨h, -⟩ <;> simp [h] at hidle
  | finish hclosed => rcases hhost with h | ⟨h, -⟩ <;> simp [h] at hclosed
  | refuse hclosed => rcases hhost with h | ⟨h, -⟩ <;> simp [h] at hclosed

/-- A piece of a register file reaches the host; with the last one the exchange is over. -/
theorem Answering.getReply (h : Answering m clock done w rest c) {w' : Word} {pieces : List Text} {piece : Text}
    {reply : Channel} (hreceiving : c.host.phase = .receiving w' pieces) (hget : c.reply.Get piece reply) :
    let c' : Pipe := { c with host := c.host.got w' (pieces ++ [piece]), reply }
    Stage m clock (done ++ w :: rest) c' ∧ c'.work < c.work := by
  obtain ⟨⟨htodo, hresults, hexecuted, hmachine, hclock⟩, hrequest, -, ⟨pieces', hpieces, hbytes, hhost⟩, htarget⟩ := h
  obtain ⟨rfl, rfl⟩ : w = w' ∧ pieces = pieces' := by rcases hhost with h | ⟨h, -⟩ <;> simp_all
  have hmore : ∀ p ∈ pieces ++ [piece], p ≠ [] :=
    List.forall_mem_append.mpr ⟨hpieces, List.forall_mem_singleton.mpr hget.ne_nil⟩
  have hflatten : (pieces ++ [piece]).flatten ++ reply.pending =
      RegisterFile.toBytes (m.executeAll clock (done ++ [w])).regs := by
    rw [← hbytes, hget.pending_eq, List.flatten_append, List.flatten_singleton, List.append_assoc]
  have hwork := hget.work_le 1
  by_cases hwhole : reply.pending = []
  · rw [hwhole, List.append_nil] at hflatten
    have hfiles : c.host.results ++ [.ok (m.executeAll clock (done ++ [w])).regs] =
        (m.files clock (done ++ [w])).map .ok := by
      rw [hresults, Machine.files_append, List.map_append, Machine.executeAll_append]
      rfl
    rw [Host.got_file _ _ hmore hflatten, List.append_cons done w rest]
    refine ⟨.between ⟨⟨htodo, hfiles, hexecuted, hmachine, hclock⟩, .inl rfl, hrequest, hwhole,
      htarget.symm.imp And.left id⟩, ?_⟩
    simp only [work, hreceiving, Host.Phase.work]
    omega
  · have hshort := length_lt_of_pending hflatten hwhole
    rw [RegisterFile.length_toBytes] at hshort
    rw [Host.got_short _ _ hshort]
    refine ⟨.answering ⟨⟨htodo, hresults, hexecuted, hmachine, hclock⟩, hrequest, hwhole,
      ⟨_, hmore, hflatten, .inl rfl⟩, htarget.imp_right (And.imp_right hget.left_nil)⟩, ?_⟩
    simp only [work, hreceiving, Host.Phase.work]
    omega

theorem Answering.step (h : Answering m clock done w rest c) (hstep : Step room c c') :
    Stage m clock (done ++ w :: rest) c' ∧ c'.work < c.work := by
  have ⟨⟨htodo, hresults, hexecuted, hmachine, hclock⟩, hrequest, hne, ⟨pieces, hpieces, hbytes, hhost⟩, htarget⟩ := h
  cases hstep with
  | ask hidle => rcases hhost with h | ⟨h, -⟩ <;> simp [h] at hidle
  | putRequest hput => exact absurd hrequest hput.pending_ne
  | getRequest _ hget => exact absurd hrequest hget.pending_ne
  | @asked w' hsending _ =>
    obtain ⟨rfl, rfl⟩ : w' = w ∧ pieces = [] := by rcases hhost with h | ⟨h, rfl⟩ <;> simp_all
    refine ⟨.answering ⟨⟨htodo, hresults, hexecuted, hmachine, hclock⟩, hrequest, hne,
      ⟨[], hpieces, hbytes, .inl rfl⟩, htarget⟩, ?_⟩
    simp only [work, hsending, Host.Phase.work]
    omega
  | @putReply reply hput =>
    refine ⟨.answering ⟨⟨htodo, hresults, hexecuted, hmachine, hclock⟩, hrequest, hput.pending_eq ▸ hne,
      ⟨pieces, hpieces, hput.pending_eq ▸ hbytes, hhost⟩, ?_⟩, ?_⟩
    · -- a machine that reads again has nothing left to put
      refine htarget.imp_right fun ⟨_, hleft⟩ => ?_
      have := hput.left_lt
      simp [hleft] at this
    · have := hput.work_lt 1
      simp only [work]
      omega
  | getReply hreceiving hget => exact h.getReply hreceiving hget
  | answered hwriting hleft =>
    refine ⟨.answering ⟨⟨htodo, hresults, hexecuted, hmachine, hclock⟩, hrequest, hne,
      ⟨pieces, hpieces, hbytes, hhost⟩, .inr ⟨rfl, hleft⟩⟩, ?_⟩
    simp only [work, hwriting, Target.Phase.work]
    omega
  | close hidle => rcases hhost with h | ⟨h, -⟩ <;> simp [h] at hidle
  | finish hclosed => rcases hhost with h | ⟨h, -⟩ <;> simp [h] at hclosed
  | refuse hclosed => rcases hhost with h | ⟨h, -⟩ <;> simp [h] at hclosed

theorem Ended.not_step (h : Ended m clock done rest c) : ¬ Step room c c' := by
  obtain ⟨-, hhost, hrequest, hreply, htarget⟩ := h
  intro hstep
  cases hstep with
  | ask hidle => simp [hhost] at hidle
  | putRequest hput => exact hput.pending_ne hrequest
  | getRequest _ hget => exact hget.pending_ne hrequest
  | asked hsending => simp [hhost] at hsending
  | putReply hput => exact hput.pending_ne hreply
  | getReply _ hget => exact hget.pending_ne hreply
  | answered hwriting => simp [htarget] at hwriting
  | close hidle => simp [hhost] at hidle
  | finish _ hreading => simp [htarget] at hreading
  | refuse _ hwriting => simp [htarget] at hwriting

/-- **A step leads to a stage, and leaves less work.** -/
theorem Stage.step (h : Stage m clock words c) (hstep : Step room c c') :
    Stage m clock words c' ∧ c'.work < c.work := by
  cases h with
  | between h => exact h.step hstep
  | asking h => exact h.step hstep
  | answering h => exact h.step hstep
  | ended h => exact absurd hstep h.not_step

/-- Nobody waits for ever: some end has a step to take without the host closing, or the host has all its
answers and may close, or serving is over. -/
theorem Stage.exists_step (h : Stage m clock words c) (room : Nat) :
    (∃ c', Step room c c' ∧ (c'.host.phase = .closed → c.host.phase = .closed)) ∨
      c.host.phase = .idle ∧ c.host.results.length = words.length ∨ c.target.phase = .ended none := by
  cases h with
  | @between done rest _ h =>
    obtain ⟨hstanding, hhost, hrequest, hreply, htarget⟩ := h
    rcases htarget with hreading | hwriting
    · rcases hhost with hidle | hclosed
      · cases hrest : rest with
        | nil =>
          refine .inr (.inl ⟨hidle, ?_⟩)
          rw [hstanding.results, List.length_map, Machine.length_files, List.append_nil]
        | cons w rest => exact .inl ⟨_, .ask hidle (hstanding.todo.trans hrest), nofun⟩
      · exact .inl ⟨_, .finish hclosed hreading hrequest, id⟩
    · exact .inl ⟨_, .answered hwriting (Channel.left_of_pending hreply), id⟩
  | asking h =>
    obtain ⟨-, -, hreply, hne, got, hgot, hreading | ⟨hwriting, -⟩⟩ := h
    · have hshort : got.length < 4 := length_lt_of_pending hgot hne
      obtain ⟨piece, request, hget, hfits⟩ := Channel.exists_get hne (Nat.sub_pos_of_lt hshort)
      exact .inl ⟨_, .getRequest hreading hget hfits, id⟩
    · exact .inl ⟨_, .answered hwriting (Channel.left_of_pending hreply), id⟩
  | answering h =>
    obtain ⟨-, hrequest, hne, ⟨pieces, -, hbytes, hreceiving | ⟨hsending, -⟩⟩, -⟩ := h
    · have hshort := length_lt_of_pending hbytes hne
      rw [RegisterFile.length_toBytes] at hshort
      obtain ⟨piece, reply, hget, hfits⟩ := Channel.exists_get hne (Nat.sub_pos_of_lt hshort)
      refine .inl ⟨_, .getReply hreceiving hget hfits, ?_⟩
      simp only [Host.got]
      split_ifs <;> exact nofun
    · exact .inl ⟨_, .asked hsending (Channel.left_of_pending hrequest), nofun⟩
  | ended h => exact .inr (.inr h.target)

/-! ### What a stage says -/

/-- The answers to the first words: each is the register file after the words up to its own. -/
def answers (m : Machine) (clock : Clock) (words : List Word) (count : Nat) :
    List (Except LinkError RegisterFile) :=
  (List.range count).map fun k => .ok (m.executeAll clock (words.take (k + 1))).regs

theorem map_files (m : Machine) (clock : Clock) (done more : List Word) :
    (m.files clock done).map .ok = answers m clock (done ++ more) done.length := by
  induction done generalizing m clock with
  | nil => rfl
  | cons w done ih =>
    rw [Machine.files, List.map_cons, ih]
    simp only [answers, List.length_cons, List.range_succ_eq_map, List.map_cons, List.map_map]
    rfl

/-- What holds of a pipe at any time. -/
structure Faithful (m : Machine) (clock : Clock) (words : List Word) (c : Pipe) : Prop where
  results : c.host.results = answers m clock words c.host.results.length
  /-- The words are executed in order, each once. -/
  executed : c.target.executed <+: words
  machine : c.target.machine = m.executeAll clock c.target.executed
  /-- The machine is ahead by the word in hand at most. -/
  ahead : c.host.results.length ≤ c.target.executed.length ∧
    c.target.executed.length ≤ c.host.results.length + 1
  /-- Once the host is gone, nothing that was executed is unanswered. -/
  closed : c.host.phase = .closed → c.target.executed.length = c.host.results.length
  /-- Serving ends only after the host is gone, and as it does on the bytes of the words executed. -/
  ended : ∀ fault, c.target.phase = .ended fault → c.host.phase = .closed ∧
    fault = none ∧ fault = (m.serve clock {} (c.target.executed.flatMap Word.toBytes)).fault ∧
    c.target.machine = (m.serve clock {} (c.target.executed.flatMap Word.toBytes)).machine

/-- Everything about a standing but where the two ends are. -/
theorem Standing.faithful {taken more : List Word} (h : Standing m clock done taken rest c)
    (htaken : taken = done ∨ taken = done ++ more.take 1)
    (hclosed : c.host.phase = .closed → taken = done)
    (hended : ∀ fault, c.target.phase = .ended fault → c.host.phase = .closed ∧ fault = none) :
    Faithful m clock (done ++ more) c := by
  have hcount : c.host.results.length = done.length := by
    rw [h.results, List.length_map, Machine.length_files]
  obtain ⟨hmachine, -, hfault⟩ := m.serve_words clock c.target.executed
  have hmachine' : c.target.machine = m.executeAll clock c.target.executed := by rw [h.machine, h.executed]
  refine ⟨?_, ?_, hmachine', ?_, ?_, ?_⟩
  · rw [hcount, ← map_files, h.results]
  · rw [h.executed]
    rcases htaken with rfl | rfl
    · exact List.prefix_append ..
    · exact (List.prefix_append_right_inj done).mpr (List.take_prefix 1 more)
  · rw [h.executed, hcount]
    rcases htaken with rfl | rfl
    · omega
    · rw [List.length_append, List.length_take]
      omega
  · intro hhost
    rw [h.executed, hcount, hclosed hhost]
  · intro fault hphase
    obtain ⟨hhost, rfl⟩ := hended fault hphase
    exact ⟨hhost, rfl, hfault.symm, hmachine'.trans hmachine.symm⟩

theorem Stage.faithful (h : Stage m clock words c) : Faithful m clock words c := by
  cases h with
  | between h =>
    refine h.standing.faithful (.inl rfl) (fun _ => rfl) fun fault hended => ?_
    rcases h.target with htarget | htarget <;> simp [htarget] at hended
  | asking h =>
    refine h.standing.faithful (.inl rfl) (fun _ => rfl) fun fault hended => ?_
    obtain ⟨got, -, htarget | ⟨htarget, -⟩⟩ := h.target <;> simp [htarget] at hended
  | answering h =>
    refine h.standing.faithful (.inr rfl) (fun hclosed => ?_) fun fault hended => ?_
    · obtain ⟨pieces, -, -, hhost | ⟨hhost, -⟩⟩ := h.host <;> simp [hhost] at hclosed
    · rcases h.target with htarget | ⟨htarget, -⟩ <;> simp [htarget] at hended
  | ended h =>
    refine h.standing.faithful (.inl rfl) (fun _ => rfl) fun fault hended => ⟨h.host, ?_⟩
    exact (Target.Phase.ended.inj (h.target.symm.trans hended)).symm

/-! ### Runs -/

theorem stage_of_runs (h : Runs room (start m clock words) c) : Stage m clock words c := by
  induction h with
  | refl => exact stage_start m clock words
  | tail _ hstep ih => exact (ih.step hstep).1

/-- As long as the host is there, it can get all its answers. -/
theorem Stage.exists_runs (h : Stage m clock words c) (hopen : c.host.phase ≠ .closed) (room : Nat) :
    ∃ c', Runs room c c' ∧ c'.host.results.length = words.length := by
  -- by the work that is left: a step without closing leaves less
  induction hwork : c.work using Nat.strong_induction_on generalizing c with
  | _ n ih =>
    rcases h.exists_step room with ⟨c', hstep, hclosed⟩ | ⟨-, hall⟩ | hended
    · obtain ⟨hstage, hless⟩ := h.step hstep
      obtain ⟨c'', hruns, hall⟩ := ih c'.work (hwork ▸ hless) hstage (mt hclosed hopen) rfl
      exact ⟨c'', .head hstep hruns, hall⟩
    · exact ⟨c, .refl, hall⟩
    · exact absurd (h.faithful.ended none hended).1 hopen

/-- A run of so many steps has so much work behind it. -/
theorem work_add_le {run : Nat → Pipe} {n : Nat} (hstart : run 0 = start m clock words)
    (hsteps : ∀ k < n, Step room (run k) (run (k + 1))) :
    Stage m clock words (run n) ∧ (run n).work + n ≤ 2000 * words.length + 2 := by
  induction n with
  | zero =>
    rw [hstart]
    exact ⟨stage_start m clock words, le_rfl⟩
  | succ n ih =>
    obtain ⟨hstage, hwork⟩ := ih fun k hk => hsteps k (Nat.lt_succ_of_lt hk)
    obtain ⟨hnext, hless⟩ := hstage.step (hsteps n (Nat.lt_succ_self n))
    exact ⟨hnext, by omega⟩

/-- **Words go through a pipe one after the other, and each gets the registers it leaves.**

However the bytes are cut, whichever end is quicker and whatever the clock reads at each word: every answer is the
register file after the words up to its own, and each word is executed once and in order. No run is endless, none
gets stuck before serving has ended well, and no answer waits for the host to close. A simulator gives the same
answers. -/
theorem exchanges_over_pipe (room : Nat) (m : Machine) (clock : Clock) (words : List Word) :
    (∀ c, Runs room (start m clock words) c →
      Faithful m clock words c ∧
      (c.target.phase = .ended none ∨ ∃ c', Step room c c') ∧
      (c.host.phase = .closed ∨ c.host.results.length = words.length ∨
        ∃ c', Step room c c' ∧ c'.host.phase ≠ .closed)) ∧
    (∀ (n : Nat) (run : Nat → Pipe), run 0 = start m clock words →
      (∀ k < n, Step room (run k) (run (k + 1))) → n ≤ 2000 * words.length + 2) ∧
    ∀ (sim : Simulator) (reads : Nat), sim.Resting → sim.machine = m → sim.clock = clock → 0 < reads →
      (Simulator.port.exchanges reads sim words).1 = answers m clock words words.length ∧
        (Simulator.port.exchanges reads sim words).2.machine = m.executeAll clock words := by
  refine ⟨fun c hruns => ?_, fun n run hstart hsteps => ?_, ?_⟩
  · have hstage := stage_of_runs hruns
    refine ⟨hstage.faithful, ?_⟩
    rcases hstage.exists_step room with ⟨c', hstep, hclosed⟩ | ⟨hidle, hall⟩ | hended
    · exact ⟨.inr ⟨c', hstep⟩, or_iff_not_imp_left.mpr fun hopen => .inr ⟨c', hstep, mt hclosed hopen⟩⟩
    · exact ⟨.inr ⟨_, .close hidle⟩, .inr (.inl hall)⟩
    · exact ⟨.inl hended, .inl (hstage.faithful.ended none hended).1⟩
  · have := (work_add_le hstart hsteps).2
    omega
  · rintro sim reads hresting rfl rfl hreads
    obtain ⟨hresults, hmachine⟩ := Simulator.exchanges_eq hresting hreads words
    rw [hresults, map_files _ _ words [], List.append_nil]
    exact ⟨rfl, hmachine⟩

/-- A clock that has gone on by ten at every word. -/
def steady : Clock := fun k => BitVec.ofNat 64 (10 * k)

/-- Three words through a pipe that hands everything over directly: the first reads the clock, the second fails, and
the third reads the clock again, at a later time. -/
theorem exchanges_over_pipe_failing :
    (∃ c, Runs 0 (start .new steady [0xC0102573, 0, 0xC01025F3]) c ∧
      Faithful .new steady [0xC0102573, 0, 0xC01025F3] c ∧
      c.host.results = answers .new steady [0xC0102573, 0, 0xC01025F3] 3) ∧
    (∃ c, Step 0 (start .new steady [0xC0102573, 0, 0xC01025F3]) c ∧ 1 ≤ 2000 * 3 + 2) ∧
    Simulator.Resting { machine := .new, clock := steady } ∧
      (Simulator.port.exchanges 1 { machine := .new, clock := steady } [0xC0102573, 0, 0xC01025F3]).1 =
        answers .new steady [0xC0102573, 0, 0xC01025F3] 3 := by
  obtain ⟨hruns, hsteps, hsim⟩ := exchanges_over_pipe 0 .new steady [0xC0102573, 0, 0xC01025F3]
  refine ⟨?_, ?_, ⟨rfl, rfl, rfl⟩, (hsim _ 1 ⟨rfl, rfl, rfl⟩ rfl rfl Nat.one_pos).1⟩
  · have hopen : (start .new steady [0xC0102573, 0, 0xC01025F3]).host.phase ≠ .closed := by rintro ⟨⟩
    obtain ⟨c, hc, hall⟩ := (stage_start .new steady [0xC0102573, 0, 0xC01025F3]).exists_runs hopen 0
    obtain ⟨hfaithful, -⟩ := hruns c hc
    exact ⟨c, hc, hfaithful, hfaithful.results.trans (congrArg _ hall)⟩
  · obtain ⟨c, hask⟩ : ∃ c, Step 0 (start .new steady [0xC0102573, 0, 0xC01025F3]) c := ⟨_, .ask rfl rfl⟩
    refine ⟨c, hask,
      hsteps 1 (fun k => if k = 0 then start .new steady [0xC0102573, 0, 0xC01025F3] else c) rfl fun k hk => ?_⟩
    obtain rfl : k = 0 := Nat.lt_one_iff.mp hk
    exact hask

end RvConsole.Pipe
