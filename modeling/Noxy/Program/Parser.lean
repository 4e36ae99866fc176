import Noxy.Program.Stmt
import Noxy.Token.Lexer

/-!
# Reading programs

A program is read from its tokens by recursive descent.
-/

namespace Noxy.Parser

abbrev Reader :=
  StateT (List Token) (Except Failure)

def peek : Reader Token := do
  match (← get) with
  | token :: _ => return token
  | [] => return ⟨.eof, Position.start.inFile standardInput⟩

def advance : Reader Token := do
  let token ← peek
  unless token.kind = .eof do
    modify List.tail
  return token

def fail (cause : GrammarCause) : Reader α := do
  let token ← peek
  throw (.error (.grammar cause token.location))

def missing (required : Required) : Reader α :=
  fail (.missing required)

def atSymbol (symbol : Symbol) : Reader Bool := do
  return (← peek).kind = .symbol symbol

def atKeyword (word : Keyword) : Reader Bool := do
  return (← peek).kind = .keyword word

def acceptSymbol (symbol : Symbol) : Reader Bool := do
  let found ← atSymbol symbol
  if found then
    discard advance
  return found

def acceptKeyword (word : Keyword) : Reader Bool := do
  let found ← atKeyword word
  if found then
    discard advance
  return found

def expectSymbol (symbol : Symbol) (required : Required) : Reader Unit := do
  unless (← acceptSymbol symbol) do
    missing required

def expectKeyword (word : Keyword) (required : Required) : Reader Unit := do
  unless (← acceptKeyword word) do
    missing required

def expectName (required : Required) : Reader String := do
  match (← peek).kind with
  | .identifier name =>
    discard advance
    return name
  | _ => missing required

def atEnd : Reader Bool := do
  return (← peek).kind = .eof

def skipNewlines : Reader Unit :=
  modify fun tokens => tokens.dropWhile fun token => token.kind = .newline

def exhausted : Reader α :=
  throw .exhausted

/-- How many readers may still be open inside one; `none` is a stack without an end. -/
abbrev Room :=
  Option Nat

def enter : Room → Reader Room
  | none => return none
  | some 0 => throw (.fault .recursion)
  | some (room + 1) => return some room

/-! ### Types -/

def structType : Nat → Option String → String → Reader Ty
  | 0, _, _ => exhausted
  | depth + 1, home, name => do
    if (← acceptSymbol .dot) then
      let next ← expectName .structNameAfterDot
      structType depth (some name) next
    else
      return .struct name home

def arraySuffixes : Nat → Ty → Reader Ty
  | 0, _ => exhausted
  | depth + 1, element => do
    if (← acceptSymbol .openBracket) then
      if (← acceptSymbol .closeBracket) then
        arraySuffixes depth (.array element none)
      else
        match (← peek).kind with
        | .int size =>
          discard advance
          expectSymbol .closeBracket .closingBracket
          arraySuffixes depth (.array element (some size))
        | _ => missing .arraySize
    else
      return element

def primitive? : Keyword → Option Ty
  | .intType => some .int
  | .floatType => some .float
  | .stringType => some .string
  | .strType => some .string
  | .boolType => some .bool
  | .bytesType => some .bytes
  | .voidType => some .void
  | _ => none

def type : Nat → (room : Room := none) → Reader Ty
  | 0, _ => exhausted
  | depth + 1, room => do
    let room ← enter room
    let token ← peek
    match token.kind with
    | .keyword .refWord =>
      discard advance
      let inner ← type depth room
      return .ref inner
    | .keyword .mapWord =>
      discard advance
      expectSymbol .openBracket .bracketAfterMap
      let key ← type depth room
      expectSymbol .comma .commaAfterKeyType
      let value ← type depth room
      expectSymbol .closeBracket .closingBracket
      arraySuffixes depth (.map key value)
    | .keyword word =>
      match primitive? word with
      | some primitive =>
        discard advance
        arraySuffixes depth primitive
      | none => fail (.notType token.kind.text)
    | .identifier name =>
      discard advance
      let struct ← structType depth none name
      arraySuffixes depth struct
    | _ => fail (.notType token.kind.text)

/-! ### Expressions -/

inductive Level where
  | disjunction
  | conjunction
  | comparison
  | sum
  | product
  deriving DecidableEq, Repr

def Level.operator? : Level → Symbol → Option BinaryOperator
  | disjunction, .or => some .or
  | conjunction, .and => some .and
  | comparison, .greater => some .greater
  | comparison, .less => some .less
  | comparison, .greaterEqual => some .greaterEqual
  | comparison, .lessEqual => some .lessEqual
  | comparison, .equal => some .equal
  | comparison, .different => some .different
  | sum, .plus => some .add
  | sum, .minus => some .subtract
  | product, .star => some .multiply
  | product, .slash => some .divide
  | product, .percent => some .modulo
  | _, _ => none

def acceptOperator (level : Level) : Reader (Option (BinaryOperator × Location)) := do
  let token ← peek
  match token.kind with
  | .symbol symbol =>
    match level.operator? symbol with
    | some operator =>
      discard advance
      return some (operator, token.location)
    | none => return none
  | _ => return none

def fieldName? : TokenKind → Option String
  | .identifier name => some name
  | .keyword .selectWord => some Keyword.selectWord.text
  | .keyword .intType => some Keyword.intType.text
  | .keyword .floatType => some Keyword.floatType.text
  | .keyword .stringType => some Keyword.stringType.text
  | .keyword .boolType => some Keyword.boolType.text
  | .keyword .bytesType => some Keyword.bytesType.text
  | _ => none

mutual

def expression : Nat → (room : Room := none) → Reader Expr
  | 0, _ => exhausted
  | depth + 1, room => do
    let room ← enter room
    chain depth .disjunction room

def chain : Nat → Level → (room : Room := none) → Reader Expr
  | 0, _, _ => exhausted
  | depth + 1, level, room => do
    let room ← enter room
    let first ← operand depth level room
    chainRest depth level first room

def chainRest : Nat → Level → Expr → (room : Room := none) → Reader Expr
  | 0, _, _, _ => exhausted
  | depth + 1, level, left, room => do
    match (← acceptOperator level) with
    | none => return left
    | some (operator, location) =>
      let right ← operand depth level room
      chainRest depth level (.binary left operator right location) room

def operand : Nat → Level → (room : Room := none) → Reader Expr
  | 0, _, _ => exhausted
  | depth + 1, .disjunction, room => chain depth .conjunction room
  | depth + 1, .conjunction, room => inverted depth room
  | depth + 1, .comparison, room => chain depth .sum room
  | depth + 1, .sum, room => chain depth .product room
  | depth + 1, .product, room => signed depth room

def inverted : Nat → (room : Room := none) → Reader Expr
  | 0, _ => exhausted
  | depth + 1, room => do
    let room ← enter room
    let token ← peek
    if token.kind = .symbol .not then
      discard advance
      let operand ← inverted depth room
      return .unary .invert operand token.location
    else
      chain depth .comparison room

def signed : Nat → (room : Room := none) → Reader Expr
  | 0, _ => exhausted
  | depth + 1, room => do
    let room ← enter room
    let token ← peek
    if token.kind = .symbol .minus then
      discard advance
      let operand ← signed depth room
      return .unary .negate operand token.location
    else
      suffixed depth room

def suffixed : Nat → (room : Room := none) → Reader Expr
  | 0, _ => exhausted
  | depth + 1, room => do
    let room ← enter room
    let first ← primary depth room
    suffixes depth first room

def suffixes : Nat → Expr → (room : Room := none) → Reader Expr
  | 0, _, _ => exhausted
  | depth + 1, object, room => do
    let token ← peek
    match token.kind with
    | .symbol .dot =>
      discard advance
      let field ← peek
      match fieldName? field.kind with
      | some name =>
        discard advance
        suffixes depth (.field object name field.location) room
      | none => missing .fieldName
    | .symbol .openBracket =>
      discard advance
      let index ← expression depth room
      expectSymbol .closeBracket .closingBracket
      suffixes depth (.index object index token.location) room
    | .symbol .openParen =>
      discard advance
      let arguments ← arguments depth room
      expectSymbol .closeParen .closingParen
      suffixes depth (.call object arguments token.location) room
    | _ => return object

def arguments : Nat → (room : Room := none) → Reader (List Expr)
  | 0, _ => exhausted
  | depth + 1, room => do
    if (← atSymbol .closeParen) then
      return []
    else
      let first ← expression depth room
      let rest ← moreArguments depth room
      return first :: rest

def moreArguments : Nat → (room : Room := none) → Reader (List Expr)
  | 0, _ => exhausted
  | depth + 1, room => do
    if (← acceptSymbol .comma) then
      skipNewlines
      let next ← expression depth room
      let rest ← moreArguments depth room
      return next :: rest
    else
      return []

def moreElements : Nat → (room : Room := none) → Reader (List Expr)
  | 0, _ => exhausted
  | depth + 1, room => do
    if (← acceptSymbol .comma) then
      skipNewlines
      if (← atSymbol .closeBracket) then
        return []
      else
        let next ← expression depth room
        let rest ← moreElements depth room
        return next :: rest
    else
      return []

def entries : Nat → (room : Room := none) → Reader (List (Expr × Expr))
  | 0, _ => exhausted
  | depth + 1, room => do
    skipNewlines
    let key ← expression depth room
    expectSymbol .colon .colonAfterKey
    skipNewlines
    let value ← expression depth room
    if (← acceptSymbol .comma) then
      let rest ← entries depth room
      return (key, value) :: rest
    else
      return [(key, value)]

def templateParts : Nat → List Piece → (room : Room := none) → Reader (List TemplatePart)
  | 0, _, _ => exhausted
  | _ + 1, [], _ => return []
  | depth + 1, .text content :: pieces, room => do
    let rest ← templateParts depth pieces room
    return .text content :: rest
  | depth + 1, .interpolation source format :: pieces, room => do
    let tokens ← liftM (tokenize source)
    let (inner, _) ← liftM ((expression depth room).run tokens)
    let rest ← templateParts depth pieces room
    return .interpolation inner format :: rest

def primary : Nat → (room : Room := none) → Reader Expr
  | 0, _ => exhausted
  | depth + 1, room => do
    let room ← enter room
    let token ← peek
    match token.kind with
    | .int value =>
      discard advance
      return .int value token.location
    | .float value =>
      discard advance
      return .float value token.location
    | .string value =>
      discard advance
      return .string value token.location
    | .bytes value =>
      discard advance
      return .bytes value token.location
    | .keyword .trueWord =>
      discard advance
      return .bool true token.location
    | .keyword .falseWord =>
      discard advance
      return .bool false token.location
    | .keyword .nullWord =>
      discard advance
      return .null token.location
    | .template pieces =>
      discard advance
      let parts ← templateParts depth pieces room
      return .template parts token.location
    | .keyword .zerosWord =>
      discard advance
      expectSymbol .openParen .parenAfterZeros
      let size ← expression depth room
      expectSymbol .closeParen .closingParen
      return .zeros size token.location
    | .keyword .refWord =>
      discard advance
      let value ← suffixed depth room
      return .ref value token.location
    | .symbol .openBracket =>
      discard advance
      skipNewlines
      if (← atSymbol .closeBracket) then
        discard advance
        return .array [] token.location
      else
        let first ← expression depth room
        let rest ← moreElements depth room
        skipNewlines
        expectSymbol .closeBracket .closingBracket
        return .array (first :: rest) token.location
    | .symbol .openBrace =>
      discard advance
      skipNewlines
      if (← atSymbol .closeBrace) then
        discard advance
        return .map [] token.location
      else
        let entries ← entries depth room
        skipNewlines
        expectSymbol .closeBrace .closingBrace
        return .map entries token.location
    | .symbol .openParen =>
      discard advance
      let inner ← expression depth room
      expectSymbol .closeParen .closingParen
      return .group inner token.location
    | .identifier name =>
      discard advance
      return .identifier name token.location
    | .keyword .selectWord =>
      discard advance
      return .identifier Keyword.selectWord.text token.location
    | kind => fail (.notExpression kind.text)

end

/-! ### Statements -/

def declared (depth : Nat) (required : Required) (room : Room := none) : Reader Declared := do
  let name ← expectName required
  expectSymbol .colon .colon
  let type ← type depth room
  return ⟨name, type⟩

def moreParams : Nat → (room : Room := none) → Reader (List Declared)
  | 0, _ => exhausted
  | depth + 1, room => do
    if (← acceptSymbol .comma) then
      let next ← declared depth .parameterName room
      let rest ← moreParams depth room
      return next :: rest
    else
      return []

def params (depth : Nat) (room : Room := none) : Reader (List Declared) := do
  if (← atSymbol .closeParen) then
    return []
  else
    let first ← declared depth .parameterName room
    let rest ← moreParams depth room
    return first :: rest

def structFields : Nat → (room : Room := none) → Reader (List Declared)
  | 0, _ => exhausted
  | depth + 1, room => do
    skipNewlines
    let token ← peek
    match token.kind with
    | .keyword .endWord => return []
    | .eof => return []
    | .identifier _ =>
      let field ← declared depth .fieldName room
      discard (acceptSymbol .comma)
      let rest ← structFields depth room
      return field :: rest
    | kind => fail (.notStructField kind.text)

def morePath : Nat → Reader (List String)
  | 0 => exhausted
  | depth + 1 => do
    if (← acceptSymbol .dot) then
      let next ← expectName .moduleName
      let rest ← morePath depth
      return next :: rest
    else
      return []

def moreNames : Nat → Reader (List String)
  | 0 => exhausted
  | depth + 1 => do
    if (← acceptSymbol .comma) then
      let next ← expectName .symbolName
      let rest ← moreNames depth
      return next :: rest
    else
      return []

def selection (depth : Nat) : Reader Selection := do
  if (← acceptKeyword .selectWord) then
    if (← acceptSymbol .star) then
      return .all
    else
      let first ← expectName .symbolName
      let rest ← moreNames depth
      return .names (first :: rest)
  else
    return .whole

def functionName : Reader String := do
  if (← acceptKeyword .selectWord) then
    return Keyword.selectWord.text
  else
    expectName .functionName

mutual

def statement : Nat → (room : Room := none) → Reader Stmt
  | 0, _ => exhausted
  | depth + 1, room => do
    let room ← enter room
    let token ← peek
    let location := token.location
    match token.kind with
    | .keyword .letWord =>
      discard advance
      let ⟨name, type⟩ ← declared depth .variableName room
      if (← acceptSymbol .assign) then
        let initializer ← expression depth room
        return .letVar name type (some initializer) location
      else
        return .letVar name type none location
    | .keyword .globalWord =>
      discard advance
      let ⟨name, type⟩ ← declared depth .variableName room
      expectSymbol .assign .equals
      let initializer ← expression depth room
      return .globalVar name type initializer location
    | .keyword .funcWord =>
      discard advance
      let name ← functionName
      expectSymbol .openParen .openingParen
      let params ← params depth room
      expectSymbol .closeParen .closingParen
      let returns ← if (← acceptSymbol .arrow) then type depth room else pure .void
      let body ← block depth false room
      expectKeyword .endWord .endWord
      return .function name params returns body location
    | .keyword .structWord =>
      discard advance
      let name ← expectName .structName
      let fields ← structFields depth room
      expectKeyword .endWord .endWord
      return .struct name fields location
    | .keyword .ifWord =>
      discard advance
      let condition ← expression depth room
      expectKeyword .thenWord .thenWord
      let thenBody ← block depth true room
      let elseBody ← if (← acceptKeyword .elseWord) then block depth false room else pure []
      expectKeyword .endWord .endWord
      return .branch condition thenBody elseBody location
    | .keyword .whileWord =>
      discard advance
      let condition ← expression depth room
      expectKeyword .doWord .doWord
      let body ← block depth false room
      expectKeyword .endWord .endWord
      return .loop condition body location
    | .keyword .returnWord =>
      discard advance
      match (← peek).kind with
      | .newline => return .returning none location
      | .keyword .endWord => return .returning none location
      | .eof => return .returning none location
      | _ =>
        let value ← expression depth room
        return .returning (some value) location
    | .keyword .breakWord =>
      discard advance
      return .breaking location
    | .keyword .useWord =>
      discard advance
      let first ← expectName .moduleName
      let rest ← morePath depth
      let newName ←
        if (← acceptKeyword .asWord) then
          some <$> expectName .aliasName
        else
          pure none
      let selection ← selection depth
      return .use (first :: rest) selection newName location
    | _ =>
      let target ← expression depth room
      if (← acceptSymbol .assign) then
        let value ← expression depth room
        return .assign target value location
      else
        return .expression target location

def block : Nat → Bool → (room : Room := none) → Reader (List Stmt)
  | 0, _, _ => exhausted
  | depth + 1, untilElse, room => do
    skipNewlines
    match (← peek).kind with
    | .keyword .endWord => return []
    | .eof => return []
    | kind =>
      if untilElse && kind = .keyword .elseWord then
        return []
      else
        let first ← statement depth room
        let rest ← block depth untilElse room
        return first :: rest

end

def program : Nat → (room : Room := none) → Reader Program
  | 0, _ => exhausted
  | depth + 1, room => do
    skipNewlines
    if (← atEnd) then
      return []
    else
      let first ← statement depth room
      let rest ← program depth room
      return first :: rest

/-! ### Whole texts -/

def size (token : Token) : Nat :=
  match token.kind with
  | .template pieces =>
    pieces.foldr (fun piece total => match piece with
      | .text _ => total + 1
      | .interpolation source _ => total + 2 + source.length) 1
  | _ => 1

def depthFor (tokens : List Token) : Nat :=
  24 * tokens.foldr (fun token total => size token + total) 1

def run (reader : Nat → Reader α) (tokens : List Token) : Except Failure α := do
  let (result, _) ← (reader (depthFor tokens)).run tokens
  return result

end Noxy.Parser

namespace Noxy

def Program.ofTokens (tokens : List Token) (room : Parser.Room := none) : Except Failure Program :=
  Parser.run (Parser.program · room) tokens

def Program.parse (source : String) (file : String := standardInput) (room : Parser.Room := none) :
    Except Failure Program := do
  Program.ofTokens (← tokenize source file) room

def Expr.parse (source : String) : Except Failure Expr := do
  Parser.run (Parser.expression ·) (← tokenize source)

def Ty.parse (source : String) : Except Failure Ty := do
  Parser.run (Parser.type ·) (← tokenize source)

end Noxy
