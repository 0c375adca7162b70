import RvConsole.Editor.Key
import RvConsole.Isa.Assemble

/-! The line that is being edited, and how its mnemonic is completed. -/
namespace RvConsole

/-- A line being edited and where in it the cursor stands, in bytes. -/
structure Edit where
  line : Text
  position : Nat
  deriving DecidableEq, Repr

def completionKey : Nat := 9

/-- The line once a key has completed the mnemonic before the cursor: nothing but the start of
exactly one mnemonic may stand there. -/
def complete? (edit : Edit) (key : Nat) : Option Edit :=
  let front := edit.line.take edit.position
  if key ≠ completionKey ∨ front.any (fun b => b = Text.byte ' ' ∨ b = Text.byte '\t') then none
  else
    match Mnemonic.names.filter fun name => Text.startsWith name front with
    | [name] => some ⟨name ++ " " ++ edit.line.drop edit.position, name.length + 1⟩
    | _ => none

/-- A line under edit. -/
structure Editor where
  /-- The line, as code points. -/
  line : List Nat := []
  position : Nat := 0
  /-- The line of the history that is shown, counted from the newest. -/
  shown : Option Nat := none
  /-- The line that was being entered before the history was shown. -/
  pending : List Nat := []
  isPasting : Bool := false
  deriving DecidableEq, Repr

namespace Editor

/-- The longest line that can be typed. -/
def maxLength : Nat := 4096

def text (e : Editor) : Text := Text.ofCodes e.line

/-- Another line, with the cursor at its end. -/
def load (e : Editor) (line : List Nat) : Editor := { e with line, position := line.length }

/-- Takes away so many characters before the cursor. -/
def erase (e : Editor) (n : Nat) : Editor :=
  let start := e.position - n
  { e with line := e.line.take start ++ e.line.drop e.position, position := start }

def insert (e : Editor) (code : Nat) : Editor :=
  { e with
    line := e.line.take e.position ++ code :: e.line.drop e.position
    position := e.position + 1 }

def blank : Nat := 32

/-- How far back the word before the cursor starts, with the blanks behind it. A single blank at the
start of the line counts as part of its first word. -/
def wordBefore (e : Editor) : Nat :=
  let back := (e.line.take e.position).reverse
  let blanks := (back.takeWhile (· = blank)).length
  let letters := ((back.drop blanks).takeWhile (· ≠ blank)).length
  if back.length = blanks + letters + 1 then back.length else blanks + letters

/-- How far on the next word starts. -/
def wordAfter (e : Editor) : Nat :=
  let front := e.line.drop e.position
  let letters := (front.takeWhile (· ≠ blank)).length
  letters + ((front.drop letters).takeWhile (· = blank)).length

/-- Whether a key's code is a character to be put in. -/
def isPrintable (code : Nat) : Bool := 32 ≤ code && !(0xD800 ≤ code && code ≤ 0xDBFF)

def codes (line : Text) : List Nat := line.runes.map Rune.code

/-- Completes the line with a key or puts the key's character in. -/
def type (e : Editor) (code : Nat) : Editor :=
  let front := Text.ofCodes (e.line.take e.position)
  match complete? ⟨e.text, front.length⟩ code with
  | some edit =>
    { e with line := codes edit.line, position := Text.runeCount (edit.line.take edit.position) }
  | none => if isPrintable code && e.line.length ≠ maxLength then e.insert code else e

def older (e : Editor) (history : List Text) : Editor :=
  let index := match e.shown with
    | some n => n + 1
    | none => 0
  match history[index]? with
  | none => e
  | some entry =>
    let pending := if e.shown.isNone then e.line else e.pending
    { e with shown := some index, pending }.load (codes entry)

/-- Shows a newer line of the history, and the line being entered after the newest. -/
def newer (e : Editor) (history : List Text) : Editor :=
  match e.shown with
  | none => e
  | some 0 => { e with shown := none }.load e.pending
  | some (n + 1) =>
    match history[n]? with
    | none => e
    | some entry => { e with shown := some n }.load (codes entry)

def enters (key : Key) : Bool := key = .rune Key.enter || key = .rune Key.lineFeed

/-- What a key stands for when it is part of a paste. -/
def pasteCode : Key → Nat
  | .rune code => code
  | _ => Rune.replacement

/-- The line after a key that does not enter it; the history comes newest first. -/
def press (e : Editor) (history : List Text) (key : Key) : Editor :=
  if e.isPasting then e.insert (pasteCode key)
  else
    match key with
    | .rune code =>
      if code = Key.backspace then e.erase 1
      else if code = Key.endOfInput then
        if e.position < e.line.length then { e with position := e.position + 1 }.erase 1 else e
      else if code = Key.deleteFront then e.erase e.position
      else e.type code
    | .left => { e with position := e.position - 1 }
    | .right => { e with position := min (e.position + 1) e.line.length }
    | .wordLeft => { e with position := e.position - e.wordBefore }
    | .wordRight => { e with position := e.position + e.wordAfter }
    | .home => { e with position := 0 }
    | .stop => { e with position := e.line.length }
    | .up => e.older history
    | .down => e.newer history
    | .deleteWord => e.erase e.wordBefore
    | .deleteRest => { e with line := e.line.take e.position }
    | .redraw => e
    | .pasteStart => e
    | .pasteStop => e
    | .unknown => e

end Editor

end RvConsole
