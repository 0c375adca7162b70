import RvConsole.Expression.Lexer
import RvConsole.Expression.Tree

/-! The grammar of expressions.

The tokens are read from the front with one token of lookahead. A message that names the token it
met points behind that token, and a message that wants an operand points to its start. -/
namespace RvConsole.Expression

/-- Why a source is not in the grammar. -/
inductive GrammarFault where
  | lex (fault : LexFault)
  | expected (got : Token) (want : Text)
  | notAssociative (first second : Operator)
  | noElse
  | trailingComma
  | notIdentifier
  | keywordForm
  deriving DecidableEq, Repr

def GrammarFault.message : GrammarFault → Text
  | lex fault => fault.message
  | expected got want => "got " ++ got.describe ++ ", want " ++ want
  | notAssociative first second =>
    first.text ++ " does not associate with " ++ second.text ++ " (use parens)"
  | noElse => "conditional expression without else clause"
  | trailingComma => "unparenthesized tuple with trailing comma"
  | notIdentifier => "not an identifier"
  | keywordForm => "keyword argument must have form name=expr"

structure GrammarError where
  place : Position
  fault : GrammarFault
  deriving DecidableEq, Repr

def GrammarError.message (e : GrammarError) : Text := e.place.text ++ ": " ++ e.fault.message

/-- The token looked at, those behind it, and the fault behind them all. -/
structure Tokens where
  current : Lexeme
  rest : List Lexeme
  fault : Option Misplaced

abbrev Reader (α : Type) := StateT Tokens (Except GrammarError) α

namespace Reader

def fail {α : Type} (place : Position) (fault : GrammarFault) : Reader α :=
  fun _ => .error ⟨place, fault⟩

def look : Reader Token := return (← get).current.token

/-- Goes on to the next token and tells where the one left behind starts. -/
def advance : Reader Position := fun s =>
  match s.rest with
  | next :: rest => .ok (s.current.start, { s with current := next, rest })
  | [] =>
    match s.fault with
    | some e => .error ⟨e.position, .lex e.fault⟩
    | none => .ok (s.current.start, s)

/-- Fails because of the token looked at; the place is behind it. -/
def unexpected {α : Type} (want : Text) : Reader α := do
  let s ← get
  fail s.current.stop (.expected s.current.token want)

/-- Fails because the token looked at starts no operand. -/
def noOperand {α : Type} : Reader α := do
  let s ← get
  fail s.current.start (.expected s.current.token "primary expression")

/-- Goes past a token that has to be there. -/
def consume (token : Token) : Reader Position := do
  if (← look) = token then advance else unexpected token.describe

def identifier : Reader Text := do
  let s ← get
  match s.current.token with
  | .name text => let _ ← advance; return text
  | _ => fail s.current.stop .notIdentifier

/-- The operator looked at. The keyword `not` after an operand has to be followed by `in`, and the
two count as one token from then on. -/
def operator? : Reader (Option Operator) := do
  if (← look) = .keyword .not then
    let _ ← advance
    if (← look) ≠ .keyword .inWord then unexpected "in"
    modify fun s => { s with current := { s.current with token := .notIn } }
  return Operator.ofToken? (← look)

/-- Whether no expression follows in a list of them. -/
def endsList : Token → Bool
  | .endOfFile => true
  | .newline => true
  | .assign => true
  | .semicolon => true
  | .closing _ => true
  | _ => false

/-- Whether no parameter follows in a list of them. -/
def endsParameters : Token → Bool
  | .endOfFile => true
  | .colon => true
  | .closing .round => true
  | _ => false

mutual

/-- A function, an operation or a choice between two. -/
def test : (fuel : Nat) → Reader Expr
  | 0 => noOperand
  | fuel + 1 => do
    if (← look) = .keyword .lambdaWord then
      let place ← advance
      let (params, defaults) ← parameters fuel [] []
      let _ ← consume .colon
      return .lambda place params defaults (← test fuel)
    else
      let yes ← operation fuel 0
      if (← look) = .keyword .ifWord then
        let place ← advance
        let condition ← operation fuel 0
        if (← look) ≠ .keyword .elseWord then fail place .noElse
        let _ ← advance
        return .cond condition yes (← test fuel)
      else return yes

/-- The parameters of a function up to its colon, after those already read. -/
def parameters : (fuel : Nat) → List Parameter → List Expr →
    Reader (List Parameter × List Expr)
  | 0, _, _ => noOperand
  | fuel + 1, params, defaults => do
    if endsParameters (← look) then return (params, defaults)
    else
      if params ≠ [] then let _ ← consume .comma
      if (← look) = .closing .round then return (params, defaults)
      else
        let place := (← get).current.start
        let name ← identifier
        if (← look) = .assign then
          let sign ← advance
          parameters fuel (params ++ [⟨name, place, some sign⟩]) (defaults ++ [← test fuel])
        else parameters fuel (params ++ [⟨name, place, none⟩]) defaults

/-- An operation whose operators bind at a level or tighter. -/
def operation : (fuel level : Nat) → Reader Expr
  | 0, _ => noOperand
  | fuel + 1, level => do
    if level ≤ Operator.notLevel ∧ (← look) = .keyword .not then
      let place ← advance
      operations fuel level none (.unary place .not (← operation fuel Operator.notLevel))
    else operations fuel level none (← suffixed fuel)

/-- The operators and operands behind a first operand; `last` is the operator before. -/
def operations : (fuel level : Nat) → (last : Option Operator) → Expr → Reader Expr
  | 0, _, _, x => return x
  | fuel + 1, level, last, x => do
    match ← operator? with
    | none => return x
    | some op =>
      if op.level < level then return x
      else
        match last with
        | some first =>
          if first.level = Operator.compareLevel ∧ op.level = Operator.compareLevel then
            fail (← get).current.stop (.notAssociative first op)
        | none => pure ()
        let _ ← advance
        operations fuel level (some op) (.binary op x (← operation fuel (op.level + 1)))

/-- An operand with what is written behind it. -/
def suffixed : (fuel : Nat) → Reader Expr
  | 0 => noOperand
  | fuel + 1 => do suffixes fuel (← operand fuel)

/-- Fields, subscripts and calls behind an operand. -/
def suffixes : (fuel : Nat) → Expr → Reader Expr
  | 0, x => return x
  | fuel + 1, x => do
    match ← look with
    | .dot =>
      let _ ← advance
      suffixes fuel (.field x (← identifier))
    | .opening .square =>
      let _ ← advance
      suffixes fuel (← subscript fuel x)
    | .opening .round =>
      let _ ← advance
      let (args, names) ← arguments fuel [] []
      suffixes fuel (.call x args names)
    | _ => return x

/-- An index or a slice, up to its closing bracket. -/
def subscript : (fuel : Nat) → Expr → Reader Expr
  | 0, _ => noOperand
  | fuel + 1, x => do
    let low ← if (← look) = .colon then pure none else some <$> expression fuel false
    if (← look) = .closing .square then
      match low with
      | some key => let _ ← advance; return .index x key
      | none => pure ()
    let high ← bound fuel (fun t => t = .colon ∨ t = .closing .square)
    let step ← bound fuel (fun t => t = .closing .square)
    let _ ← consume (.closing .square)
    return .slice x [low, high, step]

/-- A bound of a slice behind a colon, which may leave it out. -/
def bound : (fuel : Nat) → (Token → Bool) → Reader (Option Expr)
  | 0, _ => noOperand
  | fuel + 1, isLeftOut => do
    if (← look) = .colon then
      let _ ← advance
      if isLeftOut (← look) then return none else some <$> test fuel
    else return none

/-- The arguments of a call, up to its closing bracket, after those already read. -/
def arguments : (fuel : Nat) → List Expr → List (Option (Text × Position)) →
    Reader (List Expr × List (Option (Text × Position)))
  | 0, _, _ => noOperand
  | fuel + 1, args, names => do
    if (← look) = .closing .round ∨ (← look) = .endOfFile then
      let _ ← consume (.closing .round)
      return (args, names)
    else
      if args ≠ [] then let _ ← consume .comma
      if (← look) = .closing .round then
        let _ ← advance
        return (args, names)
      else
        let x ← test fuel
        if (← look) = .assign then
          match x with
          | .name place text =>
            let _ ← advance
            arguments fuel (args ++ [← test fuel]) (names ++ [some (text, place)])
          | _ => fail (← get).current.stop .keywordForm
        else arguments fuel (args ++ [x]) (names ++ [none])

/-- An operand on its own. -/
def operand : (fuel : Nat) → Reader Expr
  | 0 => noOperand
  | fuel + 1 => do
    match ← look with
    | .name text => return .name (← advance) text
    | .literal value => return .literal (← advance) value
    | .arith .sub => return .unary (← advance) .minus (← suffixed fuel)
    | .arith .add => return .unary (← advance) .plus (← suffixed fuel)
    | .tilde => return .unary (← advance) .invert (← suffixed fuel)
    | .opening .round =>
      let place ← advance
      if (← look) = .closing .round then
        let _ ← advance
        return .tuple place []
      else
        let inner ← expression fuel true
        let _ ← consume (.closing .round)
        return .paren place inner
    | .opening .square =>
      let place ← advance
      if (← look) = .closing .square then
        let _ ← advance
        return .list place []
      else
        let first ← test fuel
        let items ← items fuel true [first]
        let _ ← consume (.closing .square)
        return .list place items
    | .opening .curly =>
      let place ← advance
      if (← look) = .closing .curly then
        let _ ← advance
        return .dict place []
      else
        let entries ← entries fuel []
        let _ ← consume (.closing .curly)
        return .dict place entries
    | _ => noOperand

/-- An expression or, with commas, a tuple of them. -/
def expression : (fuel : Nat) → (inBrackets : Bool) → Reader Expr
  | 0, _ => noOperand
  | fuel + 1, inBrackets => do
    let x ← test fuel
    if (← look) = .comma then return .tuple x.start (← items fuel inBrackets [x]) else return x

/-- The expressions behind commas, after those already read. Only in brackets may a comma end
them. -/
def items : (fuel : Nat) → (inBrackets : Bool) → List Expr → Reader (List Expr)
  | 0, _, _ => noOperand
  | fuel + 1, inBrackets, read => do
    if (← look) = .comma then
      let place ← advance
      if endsList (← look) then
        if !inBrackets then fail place .trailingComma
        return read
      else items fuel inBrackets (read ++ [← test fuel])
    else return read

/-- The entries of a dictionary, after those already read. -/
def entries : (fuel : Nat) → List Expr → Reader (List Expr)
  | 0, _ => noOperand
  | fuel + 1, read => do
    let key ← test fuel
    let _ ← consume .colon
    let value ← test fuel
    let read := read ++ [key, value]
    if (← look) = .comma then
      let _ ← advance
      if (← look) = .closing .curly then return read else entries fuel read
    else return read

end

def statement (fuel : Nat) : Reader Statement := do
  match ← look with
  | .keyword .returnWord =>
    let place ← advance
    let next ← look
    if next = .endOfFile ∨ next = .newline ∨ next = .semicolon then return .result place none
    else return .result place (some (← expression fuel false))
  | .keyword .passWord => let _ ← advance; return .pass
  | .keyword .breakWord => return .jump (← advance) .breakWord
  | .keyword .continueWord => return .jump (← advance) .continueWord
  | _ =>
    let x ← expression fuel false
    match ← look with
    | .assign =>
      let _ ← advance
      return .assign x (← expression fuel false)
    | .update op =>
      let _ ← advance
      return .update op x (← expression fuel false)
    | _ => return .expr x

/-- The statements of a program, after those already read. -/
def statements : (fuel : Nat) → List Statement → Reader (List Statement)
  | 0, _ => noOperand
  | fuel + 1, read => do
    match ← look with
    | .endOfFile => return read
    | .newline => let _ ← advance; statements fuel read
    | _ =>
      let read := read ++ [← statement fuel]
      if (← look) = .semicolon then
        let _ ← advance
        statements fuel read
      else
        if (← look) ≠ .endOfFile then let _ ← consume .newline
        statements fuel read

end Reader

def parse (source : Text) : Except GrammarError (List Statement) :=
  match lex source with
  | ([], none) => .ok []
  | ([], some e) => .error ⟨e.position, .lex e.fault⟩
  | (current :: rest, fault) => do
    let (read, _) ← Reader.statements (12 * rest.length + 40) [] ⟨current, rest, fault⟩
    return read

end RvConsole.Expression
