import RvConsole.Expression.Evaluate
import RvConsole.Locale.Message
import RvConsole.Text.Blank
import RvConsole.Text.Integer

/-! Equates, and expanding a line before it is assembled.

Equates are names for texts, each given once. In a line, first every expression `$(...)` is
replaced by its value. Then a line that starts with `.equ` gives a name a text, and comes to nothing;
in any other line the names of equates are replaced by their texts, everywhere behind the mnemonic. -/
namespace RvConsole

/-- The equates, in the order they were given. -/
abbrev Equates := List (Text × Text)

namespace Equates

def get? (equates : Equates) (name : Text) : Option Text := equates.lookup name

/-- Gives a name its text; none if the name already has one. -/
def define? (equates : Equates) (name value : Text) : Option Equates :=
  match equates.get? name with
  | some _ => none
  | none => some (equates ++ [(name, value)])

/-- The equates whose text is an integer, with their values. -/
def integers (equates : Equates) : List (Text × Int) :=
  equates.filterMap fun (name, value) =>
    match Text.integer value with
    | .ok n => some (name, n)
    | .error _ => none

end Equates

/-! ### Expressions -/

/-- Why a line does not expand. -/
inductive ExpandError where
  | expression (error : Expression.Error)
  /-- The value of an expression is no integer, or not one of 64 bits. -/
  | notInteger (source : Text)
  | equateSyntax
  | equateDuplicate
  deriving DecidableEq, Repr

def ExpandError.message (style : NumberStyle) : ExpandError → Text
  | expression error => error.message
  | notInteger source =>
    Message.render style ⟨"expression $(%v) is not an integer", [.text source]⟩
  | equateSyntax => ".equ syntax"
  | equateDuplicate => ".equ duplicated"

/-- What gives the text of an expression its value. -/
abbrev Evaluator := Text → Except ExpandError Int

/-- The evaluator of a language, over the integers among the equates. -/
def Equates.evaluate (equates : Equates) (language : Expression.Language) : Evaluator := fun source =>
  match language equates.integers (Expression.assignment source) with
  | .error e => .error (.expression e)
  | .ok globals =>
    match globals Expression.resultName with
    | some n =>
      if -0x8000000000000000 ≤ n ∧ n < 0x8000000000000000 then .ok n else .error (.notInteger source)
    | none => .error (.notInteger source)

namespace Expand

def dollar : UInt8 := Text.byte '$'

/-- The expression that a piece of text behind a dollar starts with, and what follows it. It reaches
from a bracket at the front to the last closing one. -/
def site? : Text → Option (Text × Text)
  | [] => none
  | b :: rest =>
    if b = Text.byte '(' then
      let isOther (c : UInt8) : Bool := c ≠ Text.byte ')'
      match rest.reverse.dropWhile isOther with
      | [] => none
      | _ :: source => some (source.reverse, (rest.reverse.takeWhile isOther).reverse)
    else none

/-- A piece of text behind a dollar with its expression replaced; without one it keeps its
dollar. -/
def piece (evaluate : Evaluator) (t : Text) : Except ExpandError Text :=
  match site? t with
  | some (source, after) => (evaluate source).map fun n => Text.decimal n ++ after
  | none => .ok (dollar :: t)

/-- The pieces of text behind dollars, in order, up to the first whose expression fails. -/
def pieces (evaluate : Evaluator) : List Text → Except ExpandError Text
  | [] => .ok []
  | t :: rest => do
    let front ← piece evaluate t
    return front ++ (← pieces evaluate rest)

def expressions (evaluate : Evaluator) (line : Text) : Except ExpandError Text :=
  match Text.split dollar line with
  | [] => .ok []
  | front :: rest => (pieces evaluate rest).map (front ++ ·)

/-- Whether a byte may be part of a name. -/
def isWordByte (b : UInt8) : Bool :=
  (48 ≤ b && b ≤ 57) || (65 ≤ b && b ≤ 90) || (97 ≤ b && b ≤ 122) || b == Text.byte '_'

/-- Puts a byte in front of runs, into the first of them if it is of the same kind. -/
def runStep (b : UInt8) : List Text → List Text
  | [] => [[b]]
  | run :: rest =>
    if run.head?.map isWordByte = some (isWordByte b) then (b :: run) :: rest
    else [b] :: run :: rest

/-- The longest runs of bytes that are all part of names, or all not. -/
def runs (t : Text) : List Text := t.foldr runStep []

/-- Whether a run is a name: it does not start with a digit. -/
def isName (run : Text) : Bool :=
  match run with
  | [] => false
  | b :: _ => isWordByte b && !Text.isDigit b

/-- The text with the names of equates replaced, all at once. -/
def substitute (equates : Equates) (t : Text) : Text :=
  (runs t).flatMap fun run =>
    if isName run then (equates.get? run).getD run else run

def directive : Text := ".equ"

/-- A line without expressions: the equates after it, and what it comes to. -/
def plain (equates : Equates) (line : Text) : Except ExpandError Text × Equates :=
  match line.fields with
  | [] => (.ok [], equates)
  | first :: rest =>
    if first = directive then
      match rest with
      | [name, value] =>
        match equates.define? name value with
        | some equates => (.ok [], equates)
        | none => (.error .equateDuplicate, equates)
      | _ => (.error .equateSyntax, equates)
    else
      let (mnemonic, operands) := line.trim.splitBlank
      (.ok (mnemonic ++ substitute equates operands), equates)

end Expand

/-- What a line comes to, and the equates after it. -/
def expand (evaluate : Evaluator) (equates : Equates) (line : Text) :
    Except ExpandError Text × Equates :=
  match Expand.expressions evaluate line with
  | .error e => (.error e, equates)
  | .ok line => Expand.plain equates line

end RvConsole
