import Mathlib.Logic.Relation
import RvConsole.Proofs.Link.Pieces

/-! A host and a machine at the two ends of a pipe.

The host exchanges words one after the other, the machine serves them. Bytes go through the pipe in pieces cut
anywhere, and the two ends take their steps in any order (`Step`). The wire has room for a number of bytes under
way; a pipe without room hands every piece over directly. What a channel has still to deliver, in order, is its
`pending` text: putting a piece on the wire keeps it, and getting a piece takes it off its front. -/
namespace RvConsole

namespace Pipe

/-! ### Channels -/

/-- One direction of a pipe: the bytes that its sender has still to hand over, and those under way. -/
structure Channel where
  left : Text := []
  wire : Text := []

namespace Channel
variable {ch ch' : Channel} {piece : Text} {room : Nat}

/-- What the receiver has not got yet, in order. -/
def pending (ch : Channel) : Text := ch.wire ++ ch.left

/-- The sender has more to hand over. -/
def offer (ch : Channel) (bytes : Text) : Channel := { ch with left := ch.left ++ bytes }

/-- The sender puts a piece on the wire, if there is room for it. -/
inductive Put (room : Nat) : Channel → Channel → Prop where
  | put {piece left wire : Text} : piece ≠ [] → wire.length + piece.length ≤ room →
    Put room ⟨piece ++ left, wire⟩ ⟨left, wire ++ piece⟩

/-- The receiver gets a piece, off the wire or, with nothing under way, from the sender. -/
inductive Get : Channel → Text → Channel → Prop where
  | wire {piece left wire : Text} : piece ≠ [] → Get ⟨left, piece ++ wire⟩ piece ⟨left, wire⟩
  | hand {piece left : Text} : piece ≠ [] → Get ⟨piece ++ left, []⟩ piece ⟨left, []⟩

theorem left_of_pending (h : ch.pending = []) : ch.left = [] := (List.append_eq_nil_iff.mp h).2

theorem pending_offer (h : ch.pending = []) (bytes : Text) : (ch.offer bytes).pending = bytes := by
  obtain ⟨hwire, hleft⟩ := List.append_eq_nil_iff.mp h
  rw [pending, offer, hwire, hleft, List.nil_append, List.nil_append]

theorem Put.pending_eq (h : ch.Put room ch') : ch'.pending = ch.pending := by
  cases h
  exact List.append_assoc ..

theorem Put.left_lt (h : ch.Put room ch') : ch'.left.length < ch.left.length := by
  cases h with
  | put hne =>
    have := List.length_pos_iff.mpr hne
    simp only [List.length_append]
    omega

theorem Put.pending_ne (h : ch.Put room ch') : ch.pending ≠ [] := by
  intro hnil
  have := h.left_lt
  rw [left_of_pending hnil] at this
  exact absurd this (Nat.not_lt_zero _)

theorem Get.ne_nil (h : ch.Get piece ch') : piece ≠ [] := by
  cases h <;> assumption

theorem Get.pending_eq (h : ch.Get piece ch') : ch.pending = piece ++ ch'.pending := by
  cases h with
  | wire => exact List.append_assoc ..
  | hand => rfl

theorem Get.pending_ne (h : ch.Get piece ch') : ch.pending ≠ [] := by
  rw [h.pending_eq]
  exact List.append_ne_nil_of_left_ne_nil h.ne_nil _

theorem Get.left_le (h : ch.Get piece ch') : ch'.left.length ≤ ch.left.length := by
  cases h with
  | wire => exact le_rfl
  | hand => exact List.length_append ▸ Nat.le_add_left ..

theorem Get.left_nil (h : ch.Get piece ch') (hleft : ch.left = []) : ch'.left = [] := by
  have := h.left_le
  rw [hleft] at this
  exact List.length_eq_zero_iff.mp (Nat.le_zero.mp this)

/-- Whatever is pending, a receiver that asks for some bytes can get some. -/
theorem exists_get (h : ch.pending ≠ []) {size : Nat} (hsize : 0 < size) :
    ∃ piece ch', ch.Get piece ch' ∧ piece.length ≤ size := by
  obtain ⟨left, wire⟩ := ch
  match wire, left with
  | byte :: wire, left => exact ⟨[byte], ⟨left, wire⟩, .wire (List.cons_ne_nil byte []), hsize⟩
  | [], byte :: left => exact ⟨[byte], ⟨left, []⟩, .hand (List.cons_ne_nil byte []), hsize⟩
  | [], [] => exact absurd rfl h

/-- What is left to do for the bytes of a channel, where each byte that arrives costs so much. -/
def work (cost : Nat) (ch : Channel) : Nat := cost * ch.pending.length + ch.left.length

theorem work_offer (h : ch.pending = []) (bytes : Text) (cost : Nat) :
    (ch.offer bytes).work cost = (cost + 1) * bytes.length := by
  have hleft : (ch.offer bytes).left = bytes := by
    rw [offer, left_of_pending h, List.nil_append]
  rw [work, pending_offer h, hleft, Nat.add_mul, Nat.one_mul]

theorem Put.work_lt (h : ch.Put room ch') (cost : Nat) : ch'.work cost < ch.work cost := by
  have := h.left_lt
  simp only [work, h.pending_eq]
  omega

theorem Get.work_le (h : ch.Get piece ch') (cost : Nat) : ch'.work cost + cost ≤ ch.work cost := by
  have hleft := h.left_le
  have hpiece : cost * 1 ≤ cost * piece.length := Nat.mul_le_mul_left _ (List.length_pos_iff.mpr h.ne_nil)
  simp only [work, h.pending_eq, List.length_append, Nat.mul_add]
  omega

end Channel

/-! ### The two ends -/

/-- Where the host is: between two exchanges, handing a word over, taking its answer piece by piece, or gone. -/
inductive Host.Phase where
  | idle
  | sending (w : Word)
  | receiving (w : Word) (pieces : List Text)
  | closed

/-- A host: the words still to exchange, and what the exchanges so far gave. -/
structure Host where
  todo : List Word
  results : List (Except LinkError RegisterFile) := []
  phase : Host.Phase := .idle

/-- The host after some pieces of an answer. Once they are long enough the exchange is over, and its result
is what `exchange` makes of the pieces. -/
def Host.got (host : Host) (w : Word) (pieces : List Text) : Host :=
  if pieces.flatten.length < RegisterFile.byteCount then { host with phase := .receiving w pieces }
  else
    { host with
      phase := .idle
      results := host.results ++ [(Rehearsal.port.exchange pieces.length { entries := pieces } w).1] }

/-- Where the machine's end is: after some bytes of a word, handing an answer over, or back from serving. -/
inductive Target.Phase where
  | reading (got : Text)
  | writing
  | ended (fault : Option Fault)

/-- A machine that serves, what its clock will read at the words to come, and the words it took so far. -/
structure Target where
  machine : Machine
  clock : Clock
  executed : List Word := []
  phase : Target.Phase := .reading []

/-- The machine's end after some bytes, and its answer. A word is served once it is whole. -/
def Target.got (target : Target) (bytes : Text) : Target × Text :=
  if bytes.length < 4 then ({ target with phase := .reading bytes }, [])
  else
    let words := Word.listOfBytes bytes
    let served := target.machine.serve target.clock {} bytes
    (⟨served.machine, target.clock.after words.length, target.executed ++ words, .writing⟩, served.output.written)

end Pipe

/-- A pipe with its two ends. -/
structure Pipe where
  host : Pipe.Host
  request : Pipe.Channel := {}
  reply : Pipe.Channel := {}
  target : Pipe.Target

namespace Pipe

/-- Words to exchange with a machine, while its clock goes on. -/
def start (m : Machine) (clock : Clock) (words : List Word) : Pipe :=
  ⟨⟨words, [], .idle⟩, {}, {}, ⟨m, clock, [], .reading []⟩⟩

/-- One step of either end. -/
inductive Step (room : Nat) (c : Pipe) : Pipe → Prop where
  /-- The host begins to write a word. -/
  | ask {w : Word} {rest : List Word} : c.host.phase = .idle → c.host.todo = w :: rest →
    Step room c { c with
      host := { c.host with todo := rest, phase := .sending w }
      request := c.request.offer w.toBytes }
  | putRequest {request : Channel} : c.request.Put room request → Step room c { c with request }
  /-- The machine's end reads a piece, at most what the word lacks. -/
  | getRequest {got piece : Text} {request : Channel} : c.target.phase = .reading got →
    c.request.Get piece request → piece.length ≤ 4 - got.length →
    Step room c { c with
      request
      reply := c.reply.offer (c.target.got (got ++ piece)).2
      target := (c.target.got (got ++ piece)).1 }
  /-- The host's write returns when all is handed over. -/
  | asked {w : Word} : c.host.phase = .sending w → c.request.left = [] →
    Step room c { c with host := { c.host with phase := .receiving w [] } }
  | putReply {reply : Channel} : c.reply.Put room reply → Step room c { c with reply }
  /-- The host reads a piece, at most what the register file lacks. -/
  | getReply {w : Word} {pieces : List Text} {piece : Text} {reply : Channel} :
    c.host.phase = .receiving w pieces → c.reply.Get piece reply →
    piece.length ≤ RegisterFile.byteCount - pieces.flatten.length →
    Step room c { c with host := c.host.got w (pieces ++ [piece]), reply }
  /-- The machine's write returns when all is handed over. -/
  | answered : c.target.phase = .writing → c.reply.left = [] →
    Step room c { c with target := { c.target with phase := .reading [] } }
  /-- The host closes between two exchanges. -/
  | close : c.host.phase = .idle → Step room c { c with host := { c.host with phase := .closed } }
  /-- The machine's end meets the end of the stream, and serving ends as on the bytes it got. -/
  | finish {got : Text} : c.host.phase = .closed → c.target.phase = .reading got →
    c.request.pending = [] →
    Step room c { c with
      target := { c.target with phase := .ended (c.target.machine.serve c.target.clock {} got).fault } }
  /-- The machine's end cannot hand its answer over any more. -/
  | refuse : c.host.phase = .closed → c.target.phase = .writing → c.reply.left ≠ [] →
    Step room c { c with target := { c.target with phase := .ended (some .closed) } }

/-- Any number of steps, in any order. -/
def Runs (room : Nat) : Pipe → Pipe → Prop := Relation.ReflTransGen (Step room)

end Pipe

end RvConsole
