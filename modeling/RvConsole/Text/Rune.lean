import RvConsole.Text.Basic

/-! Runes: the characters of a byte string.

A text is cut into runes from the front. A well-formed UTF-8 sequence is one rune; a byte that
starts none is a rune of its own and reads as the replacement character. Every rune keeps the bytes
it was read from, so the runes of a text put back together are the text. -/
namespace RvConsole

/-- A character of a text: its code point and the bytes it was read from. -/
structure Rune where
  code : Nat
  bytes : Text
  deriving DecidableEq, Repr

namespace Rune

/-- The code point that stands for bytes that are not UTF-8. -/
def replacement : Nat := 0xFFFD

/-- A byte that belongs inside a sequence, never at its start. -/
def isTail (b : UInt8) : Bool := 0x80 ≤ b && b ≤ 0xBF

/-- What the second byte may be after the first: the ends of a range. -/
def secondRange (b : UInt8) : UInt8 × UInt8 :=
  if b = 0xE0 then (0xA0, 0xBF)
  else if b = 0xED then (0x80, 0x9F)
  else if b = 0xF0 then (0x90, 0xBF)
  else if b = 0xF4 then (0x80, 0x8F)
  else (0x80, 0xBF)

def inSecond (b c : UInt8) : Bool := (secondRange b).1 ≤ c && c ≤ (secondRange b).2

/-- How many bytes a sequence that starts with `b` has; zero when none does. -/
def sequenceLength (b : UInt8) : Nat :=
  if b < 0x80 then 1
  else if b < 0xC2 then 0
  else if b < 0xE0 then 2
  else if b < 0xF0 then 3
  else if b < 0xF5 then 4
  else 0

/-- The bits a byte inside a sequence adds. -/
def tailBits (b : UInt8) : Nat := b.toNat % 64

/-- The rune at the front of a text that is a byte and the rest. -/
def first (b : UInt8) (rest : Text) : Rune :=
  match sequenceLength b, rest with
  | 1, _ => ⟨b.toNat, [b]⟩
  | 2, c :: _ =>
    if isTail c then ⟨(b.toNat % 32) * 64 + tailBits c, [b, c]⟩ else ⟨replacement, [b]⟩
  | 3, c :: d :: _ =>
    if inSecond b c && isTail d then
      ⟨((b.toNat % 16) * 64 + tailBits c) * 64 + tailBits d, [b, c, d]⟩
    else ⟨replacement, [b]⟩
  | 4, c :: d :: e :: _ =>
    if inSecond b c && isTail d && isTail e then
      ⟨(((b.toNat % 8) * 64 + tailBits c) * 64 + tailBits d) * 64 + tailBits e, [b, c, d, e]⟩
    else ⟨replacement, [b]⟩
  | _, _ => ⟨replacement, [b]⟩

/-- Whether the rune is a byte that is not UTF-8, rather than the replacement character itself. -/
def isStray (r : Rune) : Bool := r.code == replacement && r.bytes.length == 1

/-- Whether more bytes could still complete the sequence that a text starts with. -/
def isUnfinished : Text → Bool
  | [] => true
  | b :: rest =>
    match sequenceLength b, rest with
    | 2, [] => true
    | 3, [] => true
    | 3, [c] => inSecond b c
    | 4, [] => true
    | 4, [c] => inSecond b c
    | 4, [c, d] => inSecond b c && isTail d
    | _, _ => false

/-- The UTF-8 bytes of a code point; those of the replacement character for a number that is
none. -/
def encode (code : Nat) : Text :=
  if code < 0x80 then [code.toUInt8]
  else if code < 0x800 then [(0xC0 + code / 64).toUInt8, (0x80 + code % 64).toUInt8]
  else if 0xD800 ≤ code ∧ code < 0xE000 ∨ 0x10FFFF < code then [0xEF, 0xBF, 0xBD]
  else if code < 0x10000 then
    [(0xE0 + code / 4096).toUInt8, (0x80 + code / 64 % 64).toUInt8, (0x80 + code % 64).toUInt8]
  else
    [(0xF0 + code / 262144).toUInt8, (0x80 + code / 4096 % 64).toUInt8,
      (0x80 + code / 64 % 64).toUInt8, (0x80 + code % 64).toUInt8]

end Rune

namespace Text

/-- The runes of a text of which the first `skip` bytes are already read. -/
def runesFrom : (skip : Nat) → Text → List Rune
  | _, [] => []
  | skip + 1, _ :: rest => runesFrom skip rest
  | 0, b :: rest =>
    let r := Rune.first b rest
    r :: runesFrom (r.bytes.length - 1) rest

def runes (t : Text) : List Rune := runesFrom 0 t

def ofRunes (rs : List Rune) : Text := rs.flatMap Rune.bytes

def ofCodes (codes : List Nat) : Text := codes.flatMap Rune.encode

def runeCount (t : Text) : Nat := t.runes.length

end Text

end RvConsole
