import RvConsole.Text.Numeral
import RvConsole.Text.Rune

/-! How a language writes whole numbers.

Digits stand in groups counted from the right: the first of three, the later ones of three or, in
the Indian systems, of two. A style says what stands between groups, what marks a negative number
and which ten code points are the digits. -/
namespace RvConsole

/-- A language's way to write whole numbers. -/
structure NumberStyle where
  /-- What stands between two groups. -/
  separator : Text := ","
  /-- What stands before a negative number. -/
  minus : Text := "-"
  /-- The code point of the digit zero. -/
  zero : Nat := 0x30
  /-- How many digits a group after the first has. -/
  laterGroup : Nat := 3
  deriving DecidableEq, Repr

namespace NumberStyle

/-- Whether a group is full after `n` digits from the right. -/
def isBoundary (style : NumberStyle) (n : Nat) : Bool :=
  n == 3 || (n > 3 && (n - 3) % style.laterGroup == 0)

/-- The digits, least significant first, of which the first has `place` digits to its right. -/
def groupFrom (style : NumberStyle) (place : Nat) : List Nat → Text
  | [] => []
  | d :: rest =>
    groupFrom style (place + 1) rest ++
      (if style.isBoundary (place + 1) && !rest.isEmpty then style.separator else []) ++
      Rune.encode (style.zero + d)

/-- The decimal digits of a number, most significant first. -/
def digits (n : Nat) : List Nat := (Nat.toDigits 10 n).map fun c => c.toNat - 48

def natural (style : NumberStyle) (n : Nat) : Text := style.groupFrom 0 (digits n).reverse

def number (style : NumberStyle) : Int → Text
  | .ofNat n => style.natural n
  | .negSucc n => style.minus ++ style.natural (n + 1)

end NumberStyle

end RvConsole
