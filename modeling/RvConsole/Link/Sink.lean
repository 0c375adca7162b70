import RvConsole.Text.Basic

/-! Where output goes: a writer that may have only so much room.

A write that does not fit keeps the part that fits and fails. -/
namespace RvConsole

/-- What was written, and how many bytes still fit; none for any number. -/
structure Sink where
  written : Text := []
  room : Option Nat := none
  deriving DecidableEq, Repr

namespace Sink

/-- Writes bytes; false if they did not all fit. -/
def write (s : Sink) (data : Text) : Sink × Bool :=
  match s.room with
  | none => ({ s with written := s.written ++ data }, true)
  | some room =>
    if data.length ≤ room then
      ({ written := s.written ++ data, room := some (room - data.length) }, true)
    else ({ written := s.written ++ data.take room, room := some 0 }, false)

/-- Bytes that fit go out whole. -/
theorem write_of_fits {s : Sink} {data : Text} (h : ∀ room, s.room = some room → data.length ≤ room) :
    s.write data = (⟨s.written ++ data, s.room.map (· - data.length)⟩, true) := by
  obtain ⟨written, _ | room⟩ := s
  · rfl
  · exact if_pos (h room rfl)

/-- Of bytes that do not fit, the first ones use up the room. -/
theorem write_of_lt {room : Nat} {data : Text} (h : room < data.length) (written : Text) :
    write ⟨written, some room⟩ data = (⟨written ++ data.take room, some 0⟩, false) :=
  if_neg (Nat.not_le_of_lt h)

/-- Writes parts in order until one does not fit. -/
def writeAll (s : Sink) : List Text → Sink × Bool
  | [] => (s, true)
  | part :: rest =>
    match s.write part with
    | (s, true) => s.writeAll rest
    | (s, false) => (s, false)

/-- Writes bytes, whether they fit or not. -/
def put (s : Sink) (data : Text) : Sink := (s.write data).1

end Sink

end RvConsole
