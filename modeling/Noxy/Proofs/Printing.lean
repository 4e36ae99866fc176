import Noxy.Proofs.Places

/-!
# Printing programs

A program is printed as the tokens of a text that has one statement, one struct field or one end of
a block on each line.
-/

namespace Noxy

/-! ### Names -/

def nameToken (name : String) : TokenKind :=
  match Keyword.ofText? name with
  | some word => .keyword word
  | none => .identifier name

def isNameOr (allowed : List Keyword) (name : String) : Bool :=
  match Keyword.ofText? name with
  | some word => allowed.contains word
  | none => true

def isName (name : String) : Bool :=
  isNameOr [] name

def fieldWords : List Keyword :=
  [.selectWord, .intType, .floatType, .stringType, .boolType, .bytesType]

/-! ### Types -/

namespace Ty

def tokens : Ty → List TokenKind
  | int => [.keyword .intType]
  | float => [.keyword .floatType]
  | string => [.keyword .stringType]
  | bool => [.keyword .boolType]
  | bytes => [.keyword .bytesType]
  | void => [.keyword .voidType]
  | array element none => element.tokens ++ [.symbol .openBracket, .symbol .closeBracket]
  | array element (some size) =>
    element.tokens ++ [.symbol .openBracket, .int size, .symbol .closeBracket]
  | map key value =>
    .keyword .mapWord :: .symbol .openBracket ::
      (key.tokens ++ .symbol .comma :: (value.tokens ++ [.symbol .closeBracket]))
  | struct name none => [nameToken name]
  | struct name (some home) => [nameToken home, .symbol .dot, nameToken name]
  | ref inner => .keyword .refWord :: inner.tokens
  | imported _ _ => []
  | any => []

def isPrintable : Ty → Bool
  | array element _ => element.isPrintable && !element.isRef
  | map key value => key.isPrintable && value.isPrintable
  | struct name home => isName name && home.all isName
  | ref inner => inner.isPrintable
  | imported _ _ => false
  | any => false
  | _ => true

end Ty

/-! ### Expressions -/

def BinaryOperator.symbol : BinaryOperator → Symbol
  | add => .plus
  | subtract => .minus
  | multiply => .star
  | divide => .slash
  | modulo => .percent
  | greater => .greater
  | less => .less
  | greaterEqual => .greaterEqual
  | lessEqual => .lessEqual
  | equal => .equal
  | different => .different
  | and => .and
  | or => .or

def BinaryOperator.level : BinaryOperator → Parser.Level
  | add => .sum
  | subtract => .sum
  | multiply => .product
  | divide => .product
  | modulo => .product
  | greater => .comparison
  | less => .comparison
  | greaterEqual => .comparison
  | lessEqual => .comparison
  | equal => .comparison
  | different => .comparison
  | and => .conjunction
  | or => .disjunction

def UnaryOperator.symbol : UnaryOperator → Symbol
  | negate => .minus
  | invert => .not

def Parser.Level.rank : Parser.Level → Nat
  | disjunction => 0
  | conjunction => 1
  | comparison => 3
  | sum => 4
  | product => 5

def UnaryOperator.rank : UnaryOperator → Nat
  | invert => 2
  | negate => 6

namespace Expr

def rank : Expr → Nat
  | binary _ operator _ _ => operator.level.rank
  | unary operator _ _ => operator.rank
  | ref _ _ => 7
  | _ => 8

end Expr

mutual

def Expr.tokens : Expr → List TokenKind
  | .int value _ => [.int value]
  | .float value _ => [.float value]
  | .string value _ => [.string value]
  | .bytes value _ => [.bytes value]
  | .bool true _ => [.keyword .trueWord]
  | .bool false _ => [.keyword .falseWord]
  | .null _ => [.keyword .nullWord]
  | .identifier name _ => [nameToken name]
  | .binary left operator right _ => left.tokens ++ .symbol operator.symbol :: right.tokens
  | .unary operator operand _ => .symbol operator.symbol :: operand.tokens
  | .call callee arguments _ =>
    callee.tokens ++ .symbol .openParen ::
      (Expr.listTokens arguments ++ [.symbol .closeParen])
  | .index object position _ =>
    object.tokens ++ .symbol .openBracket :: (position.tokens ++ [.symbol .closeBracket])
  | .field object name _ => object.tokens ++ [.symbol .dot, nameToken name]
  | .array elements _ =>
    .symbol .openBracket :: (Expr.listTokens elements ++ [.symbol .closeBracket])
  | .map entries _ => .symbol .openBrace :: (Expr.entryTokens entries ++ [.symbol .closeBrace])
  | .ref value _ => .keyword .refWord :: value.tokens
  | .template _ _ => []
  | .zeros size _ =>
    .keyword .zerosWord :: .symbol .openParen :: (size.tokens ++ [.symbol .closeParen])
  | .group inner _ => .symbol .openParen :: (inner.tokens ++ [.symbol .closeParen])

def Expr.listTokens : List Expr → List TokenKind
  | [] => []
  | expr :: rest => expr.tokens ++ Expr.moreTokens rest

def Expr.moreTokens : List Expr → List TokenKind
  | [] => []
  | expr :: rest => .symbol .comma :: (expr.tokens ++ Expr.moreTokens rest)

def Expr.entryTokens : List (Expr × Expr) → List TokenKind
  | [] => []
  | (key, value) :: rest =>
    key.tokens ++ .symbol .colon :: (value.tokens ++ Expr.moreEntryTokens rest)

def Expr.moreEntryTokens : List (Expr × Expr) → List TokenKind
  | [] => []
  | (key, value) :: rest =>
    .symbol .comma ::
      (key.tokens ++ .symbol .colon :: (value.tokens ++ Expr.moreEntryTokens rest))

end

mutual

/-- Whether an expression is written as its tokens: each operand has a rank that is allowed in its
place, chains lean to the left, and templates do not occur. -/
def Expr.isPrintable : Expr → Bool
  | .identifier name _ => isNameOr [.selectWord] name
  | .binary left operator right _ =>
    left.isPrintable && right.isPrintable && operator.level.rank ≤ left.rank &&
      operator.level.rank < right.rank
  | .unary operator operand _ => operand.isPrintable && operator.rank ≤ operand.rank
  | .call callee arguments _ => callee.isPrintable && callee.rank = 8 && Expr.arePrintable arguments
  | .index object position _ => object.isPrintable && object.rank = 8 && position.isPrintable
  | .field object name _ => object.isPrintable && object.rank = 8 && isNameOr fieldWords name
  | .array elements _ => Expr.arePrintable elements
  | .map entries _ => Expr.entriesPrintable entries
  | .ref value _ => value.isPrintable && 7 ≤ value.rank
  | .template _ _ => false
  | .zeros size _ => size.isPrintable
  | .group inner _ => inner.isPrintable
  | _ => true

def Expr.arePrintable : List Expr → Bool
  | [] => true
  | expr :: rest => expr.isPrintable && Expr.arePrintable rest

def Expr.entriesPrintable : List (Expr × Expr) → Bool
  | [] => true
  | (key, value) :: rest => key.isPrintable && value.isPrintable && Expr.entriesPrintable rest

end

/-! ### Statements -/

def Declared.tokens (declared : Declared) : List TokenKind :=
  nameToken declared.name :: .symbol .colon :: declared.type.tokens

def Declared.isPrintable (declared : Declared) : Bool :=
  isName declared.name && declared.type.isPrintable

def Declared.moreTokens : List Declared → List TokenKind
  | [] => []
  | declared :: rest => .symbol .comma :: (declared.tokens ++ Declared.moreTokens rest)

def Declared.listTokens : List Declared → List TokenKind
  | [] => []
  | declared :: rest => declared.tokens ++ Declared.moreTokens rest

def Declared.lineTokens : List Declared → List TokenKind
  | [] => []
  | declared :: rest => declared.tokens ++ .newline :: Declared.lineTokens rest

def moreNameTokens (separator : Symbol) : List String → List TokenKind
  | [] => []
  | name :: rest => .symbol separator :: nameToken name :: moreNameTokens separator rest

def nameTokens (separator : Symbol) : List String → List TokenKind
  | [] => []
  | name :: rest => nameToken name :: moreNameTokens separator rest

def Selection.tokens : Selection → List TokenKind
  | whole => []
  | all => [.keyword .selectWord, .symbol .star]
  | .names selected => .keyword .selectWord :: nameTokens .comma selected

def Selection.isPrintable : Selection → Bool
  | .names selected => !selected.isEmpty && selected.all isName
  | _ => true

def renamingTokens : Option String → List TokenKind
  | none => []
  | some name => [.keyword .asWord, nameToken name]

mutual

def Stmt.tokens : Stmt → List TokenKind
  | .letVar name type none _ => .keyword .letWord :: Declared.tokens ⟨name, type⟩
  | .letVar name type (some initializer) _ =>
    .keyword .letWord ::
      (Declared.tokens ⟨name, type⟩ ++ .symbol .assign :: initializer.tokens)
  | .globalVar name type initializer _ =>
    .keyword .globalWord ::
      (Declared.tokens ⟨name, type⟩ ++ .symbol .assign :: initializer.tokens)
  | .assign target value _ => target.tokens ++ .symbol .assign :: value.tokens
  | .expression value _ => value.tokens
  | .branch condition thenBody [] _ =>
    .keyword .ifWord ::
      (condition.tokens ++ .keyword .thenWord :: .newline ::
        (Stmt.lineTokens thenBody ++ [.keyword .endWord]))
  | .branch condition thenBody (first :: others) _ =>
    .keyword .ifWord ::
      (condition.tokens ++ .keyword .thenWord :: .newline ::
        (Stmt.lineTokens thenBody ++ .keyword .elseWord :: .newline ::
          (Stmt.lineTokens (first :: others) ++ [.keyword .endWord])))
  | .loop condition body _ =>
    .keyword .whileWord ::
      (condition.tokens ++ .keyword .doWord :: .newline ::
        (Stmt.lineTokens body ++ [.keyword .endWord]))
  | .returning none _ => [.keyword .returnWord]
  | .returning (some value) _ => .keyword .returnWord :: value.tokens
  | .breaking _ => [.keyword .breakWord]
  | .function name params returns body _ =>
    .keyword .funcWord :: nameToken name :: .symbol .openParen ::
      (Declared.listTokens params ++ .symbol .closeParen :: .symbol .arrow ::
        (returns.tokens ++ .newline :: (Stmt.lineTokens body ++ [.keyword .endWord])))
  | .struct name fields _ =>
    .keyword .structWord :: nameToken name :: .newline ::
      (Declared.lineTokens fields ++ [.keyword .endWord])
  | .use path selection newName _ =>
    .keyword .useWord ::
      (nameTokens .dot path ++ (renamingTokens newName ++ selection.tokens))

def Stmt.lineTokens : List Stmt → List TokenKind
  | [] => []
  | stmt :: rest => stmt.tokens ++ .newline :: Stmt.lineTokens rest

end

mutual

def Stmt.isPrintable : Stmt → Bool
  | .letVar name type none _ => Declared.isPrintable ⟨name, type⟩
  | .letVar name type (some initializer) _ =>
    Declared.isPrintable ⟨name, type⟩ && initializer.isPrintable
  | .globalVar name type initializer _ =>
    Declared.isPrintable ⟨name, type⟩ && initializer.isPrintable
  | .assign target value _ => target.isPrintable && value.isPrintable
  | .expression value _ => value.isPrintable
  | .branch condition thenBody elseBody _ =>
    condition.isPrintable && Stmt.arePrintable thenBody && Stmt.arePrintable elseBody
  | .loop condition body _ => condition.isPrintable && Stmt.arePrintable body
  | .returning value _ => value.all Expr.isPrintable
  | .breaking _ => true
  | .function name params returns body _ =>
    isNameOr [.selectWord] name && params.all Declared.isPrintable && returns.isPrintable &&
      Stmt.arePrintable body
  | .struct name fields _ => isName name && fields.all Declared.isPrintable
  | .use path selection newName _ =>
    !path.isEmpty && path.all isName && selection.isPrintable && newName.all isName

def Stmt.arePrintable : List Stmt → Bool
  | [] => true
  | stmt :: rest => stmt.isPrintable && Stmt.arePrintable rest

end

/-- The tokens of a program, one statement a line. -/
def Program.tokens (program : Program) : List TokenKind :=
  Stmt.lineTokens program

/-- Programs that can be written down. -/
def Program.isPrintable (program : Program) : Bool :=
  Stmt.arePrintable program

/-! ### Places -/

def Location.nowhere : Location :=
  ⟨0, 0, ""⟩

abbrev Expr.unlocated : Expr → Expr :=
  Expr.moved fun _ => .nowhere

abbrev Expr.listUnlocated : List Expr → List Expr :=
  Expr.listMoved fun _ => .nowhere

abbrev Expr.entriesUnlocated : List (Expr × Expr) → List (Expr × Expr) :=
  Expr.entriesMoved fun _ => .nowhere

abbrev Stmt.unlocated : Stmt → Stmt :=
  Stmt.moved fun _ => .nowhere

abbrev Stmt.listUnlocated : List Stmt → List Stmt :=
  Stmt.listMoved fun _ => .nowhere

/-- A program without its places. -/
def Program.unlocated (program : Program) : Program :=
  Stmt.listUnlocated program

end Noxy
