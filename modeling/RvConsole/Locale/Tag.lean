import RvConsole.Locale.Subtag
import RvConsole.Text.Numeral

/-! Language tags.

A tag is a row of subtags between hyphens or underscores, in any letter case: a language of two or
three letters, then at most one script, one region, any variants and extensions. A tag that is not
of that shape is malformed; of a tag that is, the first subtag that is not registered is
reported. -/
namespace RvConsole

/-- What is wrong with a language tag. -/
inductive TagError where
  | malformed
  | unknown (subtag : Text)
  deriving DecidableEq, Repr

def TagError.message : TagError → Text
  | .malformed => "language: tag is not well-formed"
  | .unknown subtag => "language: subtag \"" ++ subtag ++ "\" is well-formed but unknown"

/-- A language tag. -/
structure Tag where
  language : Text
  script : Option Text := none
  region : Option Text := none
  deriving DecidableEq, Repr

namespace Tag

def isUpper (b : UInt8) : Bool := Text.byte 'A' ≤ b && b ≤ Text.byte 'Z'
def isLower (b : UInt8) : Bool := Text.byte 'a' ≤ b && b ≤ Text.byte 'z'
def isLetter (b : UInt8) : Bool := isUpper b || isLower b
def isAlphanumeric (b : UInt8) : Bool := isLetter b || Text.isDigit b
def toLower (b : UInt8) : UInt8 := if isUpper b then b + 32 else b
def toUpper (b : UInt8) : UInt8 := if isLower b then b - 32 else b

/-- Whether a subtag has an admissible length and only letters and digits. -/
def isSubtag (t : Text) : Bool := 1 ≤ t.length && t.length ≤ 8 && t.all isAlphanumeric

/-- The faults met so far: a malformed tag outweighs an unknown subtag, and the first of those
outweighs the later ones. -/
def worse : Option TagError → TagError → Option TagError
  | none, e => some e
  | some .malformed, _ => some .malformed
  | some (.unknown _), .malformed => some .malformed
  | some (.unknown t), .unknown _ => some (.unknown t)

/-- The faults met so far, with one more where there is one. -/
def noted (faults : Option TagError) : Option TagError → Option TagError
  | none => faults
  | some e => worse faults e

/-- The fault of a subtag as a language. -/
def languageFault (t : Text) : Option TagError :=
  if !t.all isLetter then some .malformed
  else if Subtag.languages.contains (t.map toLower) then none
  else some (.unknown (t.map toLower))

/-- A script's case: one capital, then small letters. -/
def capitalise : Text → Text
  | [] => []
  | b :: rest => toUpper b :: rest.map toLower

/-- Extended languages after the language: three letters each. -/
def takeExtended (faults : Option TagError) : List Text → Option TagError × List Text
  | [] => (faults, [])
  | t :: rest =>
    if t.length == 3 && (t.head?.map isLetter).getD false then
      takeExtended (noted faults (languageFault t)) rest
    else (faults, t :: rest)

def takeScript (faults : Option TagError) :
    List Text → Option TagError × Option Text × List Text
  | [] => (faults, none, [])
  | t :: rest =>
    if t.length == 4 && (t.head?.map isLetter).getD false then
      let script := capitalise t
      if !t.all isLetter then (worse faults .malformed, none, rest)
      else if Subtag.scripts.contains script then (faults, some script, rest)
      else (worse faults (.unknown script), none, rest)
    else (faults, none, t :: rest)

def takeRegion (faults : Option TagError) :
    List Text → Option TagError × Option Text × List Text
  | [] => (faults, none, [])
  | t :: rest =>
    if t.length == 2 || t.length == 3 then
      let region := t.map toUpper
      if Subtag.regions.contains region then (faults, some region, rest)
      else if t.all isLetter || t.all Text.isDigit then (worse faults (.unknown region), none, rest)
      else (worse faults .malformed, none, rest)
    else (faults, none, t :: rest)

def takeVariants (faults : Option TagError) : List Text → Option TagError × List Text
  | [] => (faults, [])
  | t :: rest =>
    if t.length ≥ 4 then
      let variant := t.map toLower
      if Subtag.variants.contains variant then takeVariants faults rest
      else takeVariants (worse faults (.unknown variant)) rest
    else (faults, t :: rest)

/-- What follows the variants: nothing, or extensions that start with a single character. -/
def extensionFault : List Text → Option TagError
  | [] => none
  | [_] => some .malformed
  | t :: _ => if t.length == 1 then none else some .malformed

/-- Reads a language tag. -/
def parse (t : Text) : Except TagError Tag :=
  let pieces := Text.split (Text.byte '-')
    (t.map fun b => if b = Text.byte '_' then Text.byte '-' else b)
  let faults := if pieces.all isSubtag then none else some TagError.malformed
  match pieces.filter isSubtag with
  | [] => .error .malformed
  | language :: rest =>
    if language.length ≤ 1 || language.length ≥ 4 then .error .malformed
    else
      let faults := noted faults (languageFault language)
      let (faults, rest) := takeExtended faults rest
      let (faults, script, rest) := takeScript faults rest
      let (faults, region, rest) := takeRegion faults rest
      let (faults, rest) := takeVariants faults rest
      match noted faults (extensionFault rest) with
      | some fault => .error fault
      | none => .ok ⟨language.map toLower, script, region⟩

end Tag

end RvConsole
