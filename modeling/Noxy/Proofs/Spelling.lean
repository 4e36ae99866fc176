import Noxy.Proofs.Printing

/-!
# How expressions are written

The ways to write an expression as tokens.  Its operands are grouped as the precedence of operators
demands, and the ends of lines may stand between brackets.
-/

namespace Noxy

def TokenKind.atom? : TokenKind → Option (Location → Expr)
  | int value => some (.int value)
  | float value => some (.float value)
  | string value => some (.string value)
  | bytes value => some (.bytes value)
  | keyword .trueWord => some (.bool true)
  | keyword .falseWord => some (.bool false)
  | keyword .nullWord => some .null
  | keyword .selectWord => some (.identifier Keyword.selectWord.text)
  | identifier name => some (.identifier name)
  | _ => none

theorem Parser.Level.eq_of_operator? {operator : BinaryOperator}
    (isOperator : level.operator? symbol = some operator) :
    operator.level = level ∧ operator.symbol = symbol := by
  cases level <;> cases symbol <;> cases isOperator <;> exact ⟨rfl, rfl⟩

def lineEnds (count : Nat) : List TokenKind :=
  List.replicate count .newline

/-- What may stand behind the last element of an array. -/
inductive Trails : List TokenKind → Prop where
  | nothing : Trails []
  | comma : Trails (.symbol .comma :: lineEnds count)

mutual

/-- Tokens spell an expression, grouped by precedence. -/
inductive Spells : Expr → List TokenKind → Prop where
  | atom {make : Location → Expr} (isAtom : kind.atom? = some make) : Spells (make location) [kind]
  | template (spelled : SpellsParts parts pieces) :
      Spells (.template parts location) [.template pieces]
  | binary (isLeft : Spells left kinds) (isRight : Spells right kinds')
      (fits : operator.level.rank ≤ left.rank) (tighter : operator.level.rank < right.rank) :
      Spells (.binary left operator right location) (kinds ++ .symbol operator.symbol :: kinds')
  | unary (spelled : Spells operand kinds) (fits : operator.rank ≤ operand.rank) :
      Spells (.unary operator operand location) (.symbol operator.symbol :: kinds)
  | ref (spelled : Spells value kinds) (fits : 7 ≤ value.rank) :
      Spells (.ref value location) (.keyword .refWord :: kinds)
  | field (spelled : Spells object kinds) (isTop : object.rank = 8)
      (isName : Parser.fieldName? kind = some name) :
      Spells (.field object name location) (kinds ++ [.symbol .dot, kind])
  | index (spelled : Spells object kinds) (isTop : object.rank = 8)
      (isPosition : Spells position kinds') :
      Spells (.index object position location)
        (kinds ++ .symbol .openBracket :: (kinds' ++ [.symbol .closeBracket]))
  | call (spelled : Spells callee kinds) (isTop : callee.rank = 8)
      (areGiven : SpellsList arguments kinds') :
      Spells (.call callee arguments location)
        (kinds ++ .symbol .openParen :: (kinds' ++ [.symbol .closeParen]))
  | emptyArray : Spells (.array [] location)
      (.symbol .openBracket :: (lineEnds count ++ [.symbol .closeBracket]))
  | array (isFirst : Spells first kinds) (areOthers : SpellsMore others kinds')
      (trails : Trails trail) : Spells (.array (first :: others) location)
      (.symbol .openBracket :: (lineEnds count ++
        (kinds ++ (kinds' ++ (trail ++ (lineEnds count' ++ [.symbol .closeBracket]))))))
  | emptyMap : Spells (.map [] location)
      (.symbol .openBrace :: (lineEnds count ++ [.symbol .closeBrace]))
  | map (spelled : SpellsEntries entries kinds) : Spells (.map entries location)
      (.symbol .openBrace ::
        (lineEnds count ++ (kinds ++ (lineEnds count' ++ [.symbol .closeBrace]))))
  | zeros (spelled : Spells size kinds) : Spells (.zeros size location)
      (.keyword .zerosWord :: .symbol .openParen :: (kinds ++ [.symbol .closeParen]))
  | group (spelled : Spells content kinds) :
      Spells (.group content location) (.symbol .openParen :: (kinds ++ [.symbol .closeParen]))

/-- Expressions with commas between them. -/
inductive SpellsList : List Expr → List TokenKind → Prop where
  | nil : SpellsList [] []
  | cons (isFirst : Spells expr kinds) (areOthers : SpellsMore exprs kinds') :
      SpellsList (expr :: exprs) (kinds ++ kinds')

/-- Expressions with a comma before each of them. -/
inductive SpellsMore : List Expr → List TokenKind → Prop where
  | nil : SpellsMore [] []
  | cons (isFirst : Spells expr kinds) (areOthers : SpellsMore exprs kinds') :
      SpellsMore (expr :: exprs) (.symbol .comma :: (lineEnds count ++ (kinds ++ kinds')))

inductive SpellsEntries : List (Expr × Expr) → List TokenKind → Prop where
  | last (isKey : Spells key kinds) (isValue : Spells value kinds') :
      SpellsEntries [(key, value)]
        (lineEnds count ++ (kinds ++ .symbol .colon :: (lineEnds count' ++ kinds')))
  | more (isKey : Spells key kinds) (isValue : Spells value kinds')
      (areOthers : SpellsEntries entries others) :
      SpellsEntries ((key, value) :: entries)
        (lineEnds count ++
          (kinds ++ .symbol .colon :: (lineEnds count' ++ (kinds' ++ .symbol .comma :: others))))

/-- The parts of a template, of which each interpolation starts with a written expression. -/
inductive SpellsParts : List TemplatePart → List Piece → Prop where
  | nil : SpellsParts [] []
  | text (areOthers : SpellsParts parts pieces) :
      SpellsParts (.text content :: parts) (.text content :: pieces)
  | interpolation (tokenized : tokenize source = .ok (used ++ rest))
      (spelled : Spells value (used.map Token.kind)) (areOthers : SpellsParts parts pieces) :
      SpellsParts (.interpolation value format :: parts) (.interpolation source format :: pieces)

end

end Noxy
