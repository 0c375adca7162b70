import RvConsole.Expression.Nearest
import RvConsole.Expression.Parser
import RvConsole.Text.Letter

/-! What the names of a program stand for.

A name is bound by the first assignment to it, for the whole program, and no assignment binds it a
second time. Faults of the statements come first, in order, and names that stand for nothing after
them. -/
namespace RvConsole.Expression

/-- Why a program's names make no sense. -/
inductive ResolveFault where
  | undefined (name : Text) (hint : Option Text)
  | reassigned (name : Text) (first : Position)
  | cannotAssign (what : Text)
  | cannotUpdate (what : Text)
  | notInLoop (word : Keyword)
  | notInFunction
  | noSets
  | positionalAfterNamed
  | repeatedKeyword (name : Text)
  | requiredAfterOptional
  | repeatedParameter (name : Text)
  deriving DecidableEq, Repr

def ResolveFault.message : ResolveFault → Text
  | undefined name none => "undefined: " ++ name
  | undefined name (some hint) => "undefined: " ++ name ++ " (did you mean " ++ hint ++ "?)"
  | reassigned name first => "cannot reassign global " ++ name ++ " declared at " ++ first.text
  | cannotAssign what => "can't assign to " ++ what
  | cannotUpdate what => "can't use " ++ what ++ " expression in augmented assignment"
  | notInLoop word => word.text ++ " not in a loop"
  | notInFunction => "return statement not within a function"
  | noSets => "this Starlark dialect does not support sets"
  | positionalAfterNamed => "positional argument may not follow named"
  | repeatedKeyword name => "keyword argument " ++ name.quote ++ " is repeated"
  | requiredAfterOptional => "required parameter may not follow optional"
  | repeatedParameter name => "duplicate parameter: " ++ name

/-- A fault of the names and its place. -/
structure ResolveError where
  place : Position
  fault : ResolveFault
  deriving DecidableEq, Repr

def ResolveError.message (e : ResolveError) : Text := e.place.text ++ ": " ++ e.fault.message

/-- What a program does with names, in order. -/
inductive Mention where
  | use (place : Position) (name : Text)
  | bind (place : Position) (name : Text)
  | fault (error : ResolveError)
  deriving DecidableEq, Repr

/-- The faults in the names of a call's arguments. -/
def argumentFaults (places : List Position) (names : List (Option (Text × Position))) :
    (seen : List Text) → List (List Mention)
  | seen =>
    match places, names with
    | place :: places, name :: names =>
      match name with
      | none =>
        (if seen = [] then [] else [.fault ⟨place, .positionalAfterNamed⟩]) ::
          argumentFaults places names seen
      | some (text, namePlace) =>
        (if seen.contains text then [.fault ⟨namePlace, .repeatedKeyword text⟩] else []) ::
          argumentFaults places names (text :: seen)
    | _, _ => []

/-- The faults in the parameters of a function, behind those already seen. -/
def parameterFaults : (seen : List Parameter) → List Parameter → List Mention
  | _, [] => []
  | seen, param :: rest =>
    let place := param.default.getD param.place
    (if param.default.isNone ∧ seen.any (·.default.isSome) then
        [.fault ⟨place, .requiredAfterOptional⟩]
      else []) ++
      (if seen.any (·.name = param.name) then [.fault ⟨place, .repeatedParameter param.name⟩]
        else []) ++
      parameterFaults (param :: seen) rest

/-- Whether a mention is the use of a parameter. -/
def Mention.isUseOf (params : List Parameter) : Mention → Bool
  | use _ name => params.any (·.name = name)
  | _ => false

mutual

/-- The mentions in an expression. Inside of a function its parameters are no mentions. -/
def Expr.mentions : Expr → List Mention
  | .name place text => [.use place text]
  | .literal _ _ => []
  | .list _ items => mentionsOfAll items
  | .tuple _ items => mentionsOfAll items
  | .dict _ entries => mentionsOfAll entries
  | .paren _ inner => inner.mentions
  | .unary _ _ operand => operand.mentions
  | .binary _ left right => left.mentions ++ right.mentions
  | .cond condition yes no => condition.mentions ++ yes.mentions ++ no.mentions
  | .index container key => container.mentions ++ key.mentions
  | .slice container bounds => container.mentions ++ mentionsOfBounds bounds
  | .field container _ => container.mentions
  | .call function args names =>
    function.mentions ++
      mentionsOfArgs args (argumentFaults (args.map Expr.start) names [])
  | .lambda _ params defaults body =>
    mentionsOfAll defaults ++ parameterFaults [] params ++
      body.mentions.filter fun m => !m.isUseOf params

def mentionsOfAll : List Expr → List Mention
  | [] => []
  | e :: rest => e.mentions ++ mentionsOfAll rest

def mentionsOfBounds : List (Option Expr) → List Mention
  | [] => []
  | bound :: rest => mentionsOfBound bound ++ mentionsOfBounds rest

def mentionsOfBound : Option Expr → List Mention
  | none => []
  | some e => e.mentions

/-- The mentions in arguments, each behind the faults of its name. -/
def mentionsOfArgs : List Expr → (faults : List (List Mention)) → List Mention
  | [], _ => []
  | e :: rest, faults => faults.headD [] ++ e.mentions ++ mentionsOfArgs rest faults.tail

end

mutual

/-- The mentions in the target of an assignment or, if `isUpdate`, of an update. -/
def Expr.targetMentions (isUpdate : Bool) : Expr → List Mention
  | .name place text => [.bind place text]
  | .index container key => container.mentions ++ key.mentions
  | .field container _ => container.mentions
  | .tuple place items =>
    (if isUpdate then [.fault ⟨place, .cannotUpdate "tuple"⟩] else []) ++
      targetMentionsOfAll isUpdate items
  | .list place items =>
    (if isUpdate then [.fault ⟨place, .cannotUpdate "list"⟩] else []) ++
      targetMentionsOfAll isUpdate items
  | .paren _ inner => inner.targetMentions isUpdate
  | .literal place _ => [.fault ⟨place, .cannotAssign "literal"⟩]
  | .dict place _ => [.fault ⟨place, .cannotAssign "dictexpr"⟩]
  | .unary place _ _ => [.fault ⟨place, .cannotAssign "unaryexpr"⟩]
  | .binary _ left _ => [.fault ⟨left.start, .cannotAssign "binaryexpr"⟩]
  | .cond _ yes _ => [.fault ⟨yes.start, .cannotAssign "condexpr"⟩]
  | .slice container _ => [.fault ⟨container.start, .cannotAssign "sliceexpr"⟩]
  | .call function _ _ => [.fault ⟨function.start, .cannotAssign "callexpr"⟩]
  | .lambda place _ _ _ => [.fault ⟨place, .cannotAssign "lambdaexpr"⟩]

def targetMentionsOfAll (isUpdate : Bool) : List Expr → List Mention
  | [] => []
  | e :: rest => e.targetMentions isUpdate ++ targetMentionsOfAll isUpdate rest

end

/-- The mentions in a statement. -/
def Statement.mentions : Statement → List Mention
  | .expr e => e.mentions
  | .assign target value => value.mentions ++ target.targetMentions false
  | .update _ target value => value.mentions ++ target.targetMentions true
  | .pass => []
  | .jump place word => [.fault ⟨place, .notInLoop word⟩]
  | .result place value =>
    .fault ⟨place, .notInFunction⟩ :: ((value.map Expr.mentions).getD [])

/-- The names that a program binds, each with the place of its first binding, or the first fault. -/
def bindings : (bound : List (Text × Position)) → List Mention →
    Except ResolveError (List (Text × Position))
  | bound, [] => .ok bound
  | bound, .use _ _ :: rest => bindings bound rest
  | _, .fault e :: _ => .error e
  | bound, .bind place name :: rest =>
    match bound.lookup name with
    | some first => .error ⟨place, .reassigned name first⟩
    | none => bindings (bound ++ [(name, place)]) rest

/-- The names that are there without a definition. -/
def universalNames : List Text := List.map Text.ofString [
  "None", "True", "False", "abs", "all", "any", "bool", "bytes", "chr", "dict", "dir",
  "enumerate", "fail", "float", "getattr", "hasattr", "hash", "int", "len", "list", "max", "min",
  "ord", "print", "range", "repr", "reversed", "set", "sorted", "str", "tuple", "type", "zip"]

/-- The order of texts by their bytes. -/
def textLe : Text → Text → Bool
  | [], _ => true
  | _ :: _, [] => false
  | a :: s, b :: t => a < b || (a = b && textLe s t)

/-- The first use of a name that stands for nothing. -/
def firstUndefined (given bound : List Text) : List Mention → Option ResolveError
  | [] => none
  | .use place name :: rest =>
    if bound.contains name ∨ given.contains name then firstUndefined given bound rest
    else if name = "set" then some ⟨place, .noSets⟩
    else if universalNames.contains name then firstUndefined given bound rest
    else some ⟨place, .undefined name (nearest name (bound.mergeSort textLe))⟩
  | _ :: rest => firstUndefined given bound rest

/-- The names a program binds, when all its names stand for something; `given` are the names of the
surroundings. -/
def resolve (given : List Text) (program : List Statement) : Except ResolveError (List Text) := do
  let mentions := program.flatMap Statement.mentions
  let bound := (← bindings [] mentions).map (·.1)
  match firstUndefined given bound mentions with
  | some e => .error e
  | none => .ok bound

end RvConsole.Expression
