import Noxy.Proofs.ReadingType
import Noxy.Proofs.Spelling

/-!
# Reading printed expressions

A printable expression is read from its tokens at every level up to its rank.
-/

namespace Noxy

variable {kinds : List TokenKind} {operator : BinaryOperator}

/-! ### Tokens that extend an expression -/

def Symbol.binary? : Symbol → Option BinaryOperator
  | plus => some .add
  | minus => some .subtract
  | star => some .multiply
  | slash => some .divide
  | percent => some .modulo
  | greater => some .greater
  | less => some .less
  | greaterEqual => some .greaterEqual
  | lessEqual => some .lessEqual
  | equal => some .equal
  | different => some .different
  | and => some .and
  | or => some .or
  | _ => none

def TokenKind.extends (rank : Nat) : TokenKind → Bool
  | symbol .dot => true
  | symbol .openBracket => true
  | symbol .openParen => true
  | symbol sign => sign.binary?.any fun operator => rank ≤ operator.level.rank
  | _ => false

def TokenKind.startsExpr : TokenKind → Bool
  | int _ => true
  | float _ => true
  | string _ => true
  | bytes _ => true
  | identifier _ => true
  | keyword .trueWord => true
  | keyword .falseWord => true
  | keyword .nullWord => true
  | keyword .zerosWord => true
  | keyword .refWord => true
  | keyword .selectWord => true
  | symbol .minus => true
  | symbol .not => true
  | symbol .openParen => true
  | symbol .openBracket => true
  | symbol .openBrace => true
  | _ => false

theorem BinaryOperator.extends_symbol :
    TokenKind.extends rank (.symbol operator.symbol) = decide (rank ≤ operator.level.rank) := by
  cases operator <;> rfl

theorem TokenKind.extends_of_le {kind : TokenKind} (tighter : rank ≤ rank')
    (stops : kind.extends rank = false) : kind.extends rank' = false := by
  cases kind with
  | symbol sign => cases sign <;> simp_all [TokenKind.extends, Symbol.binary?] <;> omega
  | _ => rfl

theorem Parser.Level.operator?_symbol :
    operator.level.operator? operator.symbol = some operator := by
  cases operator <;> rfl

theorem Parser.Level.operator?_eq_none {level : Parser.Level}
    (stops : TokenKind.extends level.rank (.symbol sign) = false) :
    level.operator? sign = none := by
  cases level <;> cases sign <;> first | rfl | cases stops

namespace Parser

open Filter

/-! ### Operators -/

theorem acceptOperator_cons (isOperator : token.kind = .symbol operator.symbol) :
    acceptOperator operator.level (token :: tokens) =
      .ok (some (operator, token.location), tokens) := by
  have notEnd : token.kind ≠ .eof := fun isEnd => nomatch isOperator.symm.trans isEnd
  have peeked : peek (token :: tokens) = .ok (token, token :: tokens) := rfl
  rw [acceptOperator, bind_of_ok peeked, isOperator]
  simp only [Level.operator?_symbol]
  exact bind_of_ok (advance_cons notEnd)

theorem acceptOperator_of_stops (stops : (frontKind tokens).extends level.rank = false) :
    acceptOperator level tokens = .ok (none, tokens) := by
  rcases peek_eq tokens with ⟨token, isKind, peeked⟩
  rw [← isKind] at stops
  rw [acceptOperator, bind_of_ok peeked]
  cases kind : token.kind with
  | symbol =>
    rw [kind] at stops
    simp only [Level.operator?_eq_none stops]
    rfl
  | _ => rfl

/-! ### Readers by rank -/

def readerAt : Nat → Nat → Reader Expr
  | 0, depth => chain depth .disjunction
  | 1, depth => chain depth .conjunction
  | 2, depth => inverted depth
  | 3, depth => chain depth .comparison
  | 4, depth => chain depth .sum
  | 5, depth => chain depth .product
  | 6, depth => signed depth
  | _, depth => suffixed depth

theorem readerAt_rank : readerAt level.rank depth = chain depth level := by
  cases level <;> rfl

theorem operand_succ : operand (depth + 1) level = readerAt (level.rank + 1) depth := by
  cases level <;> simp only [operand, readerAt, Level.rank]

def IsReadAt (rank : Nat) (expr : Expr) : Prop :=
  Reads (readerAt rank) expr.tokens (·.extends rank = false) expr.unlocated

def LeadsToChain (level : Level) (expr : Expr) : Prop :=
  ∀ ⦃rest : List Token⦄ ⦃outcome : Except Failure (Expr × List Token)⦄,
    (frontKind rest).extends (level.rank + 1) = false →
    (∀ᶠ depth in atTop, chainRest depth level expr.unlocated none rest = outcome) →
    ∀ᶠ depth in atTop, chain depth level none (placed expr.tokens ++ rest) = outcome

def LeadsToSuffixes (expr : Expr) : Prop :=
  ∀ ⦃rest : List Token⦄ ⦃outcome : Except Failure (Expr × List Token)⦄,
    (∀ᶠ depth in atTop, suffixes depth expr.unlocated none rest = outcome) →
    ∀ᶠ depth in atTop, suffixed depth none (placed expr.tokens ++ rest) = outcome

attribute [local simp] bind_apply map_apply pure_apply ok_bind peek_cons advance_cons
  acceptSymbol_eq expectSymbol_cons atSymbol_eq acceptOperator_cons Expr.tokens Expr.listTokens
  Expr.moreTokens Expr.entryTokens Expr.moreEntryTokens Expr.moved Expr.listMoved
  Expr.entriesMoved

variable {expr : Expr}

/-! ### Chains -/

theorem IsReadAt.operand (isRead : IsReadAt (level.rank + 1) expr) :
    Reads (Parser.operand · level) expr.tokens (·.extends (level.rank + 1) = false)
      expr.unlocated := by
  intro rest stops
  refine eventually_succ ?_
  filter_upwards [isRead rest stops] with depth read
  rw [operand_succ, read]

theorem IsReadAt.leadsToChain (isRead : IsReadAt (level.rank + 1) expr) :
    LeadsToChain level expr := by
  intro rest _ stops goesOn
  refine eventually_succ ?_
  filter_upwards [isRead.operand rest stops, goesOn] with depth read next
  simp [chain, read, next]

theorem LeadsToChain.binary (leads : LeadsToChain operator.level left)
    (isRead : IsReadAt (operator.level.rank + 1) right) :
    LeadsToChain operator.level (.binary left operator right location) := by
  intro rest _ stops goesOn
  simp only [Expr.tokens, placed_append, placed_cons, List.append_assoc, List.cons_append]
  refine leads (by simp [BinaryOperator.extends_symbol]) (eventually_succ ?_)
  filter_upwards [isRead.operand rest stops, goesOn] with depth read next
  simpa [chainRest, read] using next

theorem LeadsToChain.isReadAt (leads : LeadsToChain level expr) : IsReadAt level.rank expr := by
  intro _ stops
  simp only [readerAt_rank]
  refine leads (TokenKind.extends_of_le (Nat.le_succ _) stops)
    (eventually_succ (.of_forall fun _ => ?_))
  simp [chainRest, acceptOperator_of_stops stops]

/-! ### Unary operators -/

theorem readerAt_unary (operator : UnaryOperator) :
    readerAt operator.rank (depth + 1) = (do
      let token ← peek
      if token.kind = .symbol operator.symbol then
        discard advance
        let operand ← readerAt operator.rank depth
        return .unary operator operand token.location
      else
        readerAt (operator.rank + 1) depth) := by
  cases operator with
  | negate =>
    change signed (depth + 1) = _
    unfold signed
    rfl
  | invert =>
    change inverted (depth + 1) = _
    unfold inverted
    rfl

theorem isReadAt_unary {operator : UnaryOperator} (isRead : IsReadAt operator.rank expr) :
    IsReadAt operator.rank (.unary operator expr location) := by
  intro rest stops
  refine eventually_succ ?_
  filter_upwards [isRead rest stops] with depth read
  simp [readerAt_unary, read]

theorem IsReadAt.under {operator : UnaryOperator} (starts : expr.tokens = kind :: kinds)
    (absent : kind ≠ .symbol operator.symbol) (isRead : IsReadAt (operator.rank + 1) expr) :
    IsReadAt operator.rank expr := by
  intro rest stops
  refine eventually_succ ?_
  filter_upwards [isRead rest (TokenKind.extends_of_le (Nat.le_succ _) stops)] with depth read
  simp only [starts, placed_cons, List.cons_append] at read ⊢
  simp [readerAt_unary, absent, read]

/-! ### Suffixes -/

theorem suffixes_of_stops (stops : (frontKind rest).extends rank = false) :
    suffixes (depth + 1) object none rest = .ok (object, rest) := by
  obtain ⟨token, isKind, peeked⟩ := peek_eq rest
  rw [← isKind] at stops
  rw [suffixes, bind_of_ok peeked]
  generalize token.kind = kind at stops
  cases kind with
  | symbol sign => cases sign <;> first | rfl | cases stops
  | _ => rfl

theorem leadsToSuffixes_primary
    (isPrimary : Reads (primary ·) expr.tokens (fun _ => True) expr.unlocated) :
    LeadsToSuffixes expr := by
  intro rest _ goesOn
  refine eventually_succ ?_
  filter_upwards [isPrimary rest trivial, goesOn] with depth read next
  simp [suffixed, read, next]

theorem LeadsToSuffixes.isReadAt (leads : LeadsToSuffixes expr) : IsReadAt 7 expr := by
  intro _ stops
  exact leads (eventually_succ (.of_forall fun _ => suffixes_of_stops stops))

theorem fieldName?_nameToken (legal : isNameOr fieldWords name = true) :
    fieldName? (nameToken name) = some name := by
  rcases nameToken_cases legal with isIdentifier | ⟨_, isAllowed, isWord, rfl⟩
  · rw [isIdentifier, fieldName?]
  · rw [isWord]
    simp only [fieldWords, List.mem_cons, List.not_mem_nil, or_false] at isAllowed
    rcases isAllowed with rfl | rfl | rfl | rfl | rfl | rfl <;> rfl

theorem LeadsToSuffixes.field (legal : isNameOr fieldWords name = true)
    (leads : LeadsToSuffixes expr) : LeadsToSuffixes (.field expr name location) := by
  intro _ _ goesOn
  simp only [Expr.tokens, placed_append, List.append_assoc]
  refine leads (eventually_succ ?_)
  filter_upwards [goesOn] with depth next
  simpa [suffixes, fieldName?_nameToken legal, nameToken_ne_eof] using next

/-! ### All ranks of an expression -/

def StartsWell (expr : Expr) : Prop :=
  ∃ kind kinds, expr.tokens = kind :: kinds ∧ kind.startsExpr = true ∧
    ∀ operator : UnaryOperator, operator.rank < expr.rank → kind ≠ .symbol operator.symbol

theorem StartsWell.ne (starts : StartsWell expr) (other : TokenKind)
    (notStart : other.startsExpr = false) : frontKind (placed expr.tokens ++ rest) ≠ other := by
  obtain ⟨_, _, isTokens, isStart, _⟩ := starts
  rw [isTokens]
  rintro rfl
  exact Bool.false_ne_true (notStart.symm.trans isStart)

structure IsExprRead (expr : Expr) : Prop where
  starts : StartsWell expr
  atRank : ∀ rank ≤ 7, rank ≤ expr.rank → IsReadAt rank expr
  chains : ∀ level : Level, level.rank ≤ expr.rank → LeadsToChain level expr
  suffixes : expr.rank = 8 → LeadsToSuffixes expr

theorem IsExprRead.expression (isRead : IsExprRead expr) :
    Reads (Parser.expression ·) expr.tokens (·.extends 0 = false) expr.unlocated := by
  intro rest stops
  refine eventually_succ ?_
  filter_upwards [isRead.atRank 0 (Nat.zero_le _) (Nat.zero_le _) rest stops] with depth read
  rwa [Parser.expression]

theorem rank_cases (small : rank < 7) :
    (∃ level : Level, level.rank = rank) ∨ ∃ operator : UnaryOperator, operator.rank = rank := by
  match rank, small with
  | 0, _ => exact .inl ⟨.disjunction, rfl⟩
  | 1, _ => exact .inl ⟨.conjunction, rfl⟩
  | 2, _ => exact .inr ⟨.invert, rfl⟩
  | 3, _ => exact .inl ⟨.comparison, rfl⟩
  | 4, _ => exact .inl ⟨.sum, rfl⟩
  | 5, _ => exact .inl ⟨.product, rfl⟩
  | 6, _ => exact .inr ⟨.negate, rfl⟩

theorem IsReadAt.loosen (starts : StartsWell expr) (small : rank < 7) (looser : rank < expr.rank)
    (isRead : IsReadAt (rank + 1) expr) : IsReadAt rank expr := by
  rcases rank_cases small with ⟨_, rfl⟩ | ⟨operator, rfl⟩
  · exact isRead.leadsToChain.isReadAt
  · rcases starts with ⟨_, _, isTokens, _, noOperator⟩
    exact isRead.under isTokens (noOperator operator looser)

theorem isExprRead_of (starts : StartsWell expr) (isTop : top = min expr.rank 7)
    (own : IsReadAt top expr)
    (chains : ∀ level : Level, level.rank = expr.rank → LeadsToChain level expr)
    (suffixes : expr.rank = 8 → LeadsToSuffixes expr) : IsExprRead expr := by
  -- going down from the top, by the distance to it
  have below (distance rank : Nat) (isBelow : rank + distance = top) : IsReadAt rank expr := by
    induction distance generalizing rank with
    | zero =>
      rw [Nat.add_zero] at isBelow
      exact isBelow ▸ own
    | succ _ ih => exact (ih (rank + 1) (by omega)).loosen starts (by omega) (by omega)
  have atRank : ∀ rank ≤ 7, rank ≤ expr.rank → IsReadAt rank expr := fun rank small looser =>
    below (top - rank) rank (by omega)
  refine ⟨starts, atRank, fun level looser => ?_, suffixes⟩
  have small : level.rank < 7 := by cases level <;> decide
  rcases Nat.lt_or_eq_of_le looser with less | same
  · exact (atRank (level.rank + 1) (by omega) less).leadsToChain
  · exact chains level same

theorem LeadsToSuffixes.isExprRead
    (starts : StartsWell expr) (isTop : expr.rank = 8) (leads : LeadsToSuffixes expr) :
    IsExprRead expr := by
  refine isExprRead_of starts (by rw [isTop]; rfl) leads.isReadAt
    (fun level isRank => ?_) fun _ => leads
  rw [isTop] at isRank
  cases level <;> cases isRank

theorem StartsWell.extended (starts : StartsWell expr) (isTop : expr.rank = 8)
    (isLonger : longer.tokens = expr.tokens ++ kinds) : StartsWell longer := by
  rcases starts with ⟨kind, others, isTokens, isStart, noOperator⟩
  refine ⟨kind, others ++ kinds, ?_, isStart, fun operator _ => ?_⟩
  · rw [isLonger, isTokens, List.cons_append]
  · refine noOperator operator ?_
    rw [isTop]
    cases operator <;> decide

/-! ### Lists of expressions -/

def EndsList (kind : TokenKind) : Prop :=
  kind.extends 0 = false ∧ kind ≠ .symbol .comma

theorem EndsList.stops (ends : EndsList (frontKind rest)) (exprs : List Expr) :
    (frontKind (placed (Expr.moreTokens exprs) ++ rest)).extends 0 = false := by
  cases exprs with
  | nil => exact ends.1
  | cons => rfl

theorem reads_moreArguments (areRead : ∀ expr ∈ exprs, IsExprRead expr) :
    Reads (moreArguments ·) (Expr.moreTokens exprs) EndsList (Expr.listUnlocated exprs) := by
  intro _ ends
  induction exprs with
  | nil =>
    refine eventually_succ (.of_forall fun _ => ?_)
    simp [moreArguments, ends.2]
  | cons _ exprs ih =>
    obtain ⟨isRead, others⟩ := List.forall_mem_cons.mp areRead
    refine eventually_succ ?_
    filter_upwards [isRead.expression _ (ends.stops exprs), ih others] with depth read more
    simp [moreArguments, skipNewlines_of_ne (isRead.starts.ne .newline rfl), read, more]

theorem reads_moreElements (areRead : ∀ expr ∈ exprs, IsExprRead expr) :
    Reads (moreElements ·) (Expr.moreTokens exprs) EndsList (Expr.listUnlocated exprs) := by
  intro _ ends
  induction exprs with
  | nil =>
    refine eventually_succ (.of_forall fun _ => ?_)
    simp [moreElements, ends.2]
  | cons _ exprs ih =>
    obtain ⟨isRead, others⟩ := List.forall_mem_cons.mp areRead
    refine eventually_succ ?_
    filter_upwards [isRead.expression _ (ends.stops exprs), ih others] with depth read more
    simp [moreElements, skipNewlines_of_ne (isRead.starts.ne .newline rfl),
      isRead.starts.ne (.symbol .closeBracket) rfl, read, more]

theorem reads_arguments (areRead : ∀ expr ∈ exprs, IsExprRead expr) :
    Reads (arguments ·) (Expr.listTokens exprs) (· = .symbol .closeParen)
      (Expr.listUnlocated exprs) := by
  intro rest isClose
  cases exprs with
  | nil =>
    refine eventually_succ (.of_forall fun _ => ?_)
    simp [arguments, isClose]
  | cons _ exprs =>
    obtain ⟨isRead, others⟩ := List.forall_mem_cons.mp areRead
    have ends : EndsList (frontKind rest) := isClose ▸ ⟨rfl, nofun⟩
    refine eventually_succ ?_
    filter_upwards [isRead.expression _ (ends.stops exprs), reads_moreArguments others rest ends]
      with depth read more
    simp [arguments, isRead.starts.ne (.symbol .closeParen) rfl, read, more]

theorem LeadsToSuffixes.index (isRead : IsExprRead position) (leads : LeadsToSuffixes expr) :
    LeadsToSuffixes (.index expr position location) := by
  intro rest _ goesOn
  simp only [Expr.tokens, placed_append, placed_cons, List.append_assoc, List.cons_append]
  refine leads (eventually_succ ?_)
  filter_upwards [isRead.expression (⟨.symbol .closeBracket, .nowhere⟩ :: rest) rfl, goesOn]
    with depth read next
  simpa [suffixes, read] using next

theorem LeadsToSuffixes.call {arguments : List Expr}
    (areRead : ∀ argument ∈ arguments, IsExprRead argument) (leads : LeadsToSuffixes expr) :
    LeadsToSuffixes (.call expr arguments location) := by
  intro rest _ goesOn
  simp only [Expr.tokens, placed_append, placed_cons, List.append_assoc, List.cons_append]
  refine leads (eventually_succ ?_)
  filter_upwards [reads_arguments areRead (⟨.symbol .closeParen, .nowhere⟩ :: rest) rfl, goesOn]
    with depth read next
  simpa [suffixes, read] using next

theorem reads_entries {entries : List (Expr × Expr)}
    (areRead : ∀ other ∈ entry :: entries, IsExprRead other.1 ∧ IsExprRead other.2) :
    Reads (Parser.entries ·) (Expr.entryTokens (entry :: entries)) EndsList
      (Expr.entriesUnlocated (entry :: entries)) := by
  intro rest ends
  obtain ⟨key, value⟩ := entry
  induction entries generalizing key value with
  | nil =>
    obtain ⟨⟨keyRead, valueRead⟩, _⟩ := List.forall_mem_cons.mp areRead
    refine eventually_succ ?_
    filter_upwards [keyRead.expression (⟨.symbol .colon, .nowhere⟩ :: (placed value.tokens ++ rest))
      rfl, valueRead.expression rest ends.1] with depth isKey isValue
    simp [Parser.entries, skipNewlines_of_ne (keyRead.starts.ne .newline rfl),
      skipNewlines_of_ne (valueRead.starts.ne .newline rfl), isKey, isValue, ends.2]
  | cons next entries ih =>
    obtain ⟨nextKey, nextValue⟩ := next
    obtain ⟨⟨keyRead, valueRead⟩, others⟩ := List.forall_mem_cons.mp areRead
    refine eventually_succ ?_
    filter_upwards [keyRead.expression (⟨.symbol .colon, .nowhere⟩ :: (placed value.tokens ++
        (placed (Expr.moreEntryTokens ((nextKey, nextValue) :: entries)) ++ rest))) rfl,
      valueRead.expression (placed (Expr.moreEntryTokens ((nextKey, nextValue) :: entries)) ++ rest)
        rfl, ih nextKey nextValue others] with depth isKey isValue more
    simp_all [Parser.entries, skipNewlines_of_ne (keyRead.starts.ne .newline rfl),
      skipNewlines_of_ne (valueRead.starts.ne .newline rfl)]

/-! ### Primary expressions -/

theorem isExprRead_enclosed (isTokens : expr.tokens = kind :: kinds) (isTop : expr.rank = 8)
    (isStart : kind.startsExpr = true) (noOperator : kind ≠ .symbol .minus ∧ kind ≠ .symbol .not)
    (reads : Reads (primary ·) expr.tokens (fun _ => True) expr.unlocated) : IsExprRead expr := by
  have starts : StartsWell expr := by
    refine ⟨kind, kinds, isTokens, isStart, fun operator _ => ?_⟩
    cases operator with
    | negate => exact noOperator.1
    | invert => exact noOperator.2
  exact (leadsToSuffixes_primary reads).isExprRead starts isTop

attribute [local simp] primary

theorem isExprRead_atom (isAtom : kind.atom? = some make) (isTokens : expr.tokens = [kind])
    (isTop : expr.rank = 8) (isMade : expr.unlocated = make .nowhere) : IsExprRead expr := by
  have read (rest : List Token) (depth : Nat) :
      primary (depth + 1) none (placed expr.tokens ++ rest) = .ok (expr.unlocated, rest) := by
    rw [isTokens, isMade]
    unfold TokenKind.atom? at isAtom
    split at isAtom
    all_goals first | cases isAtom; simp | cases isAtom
  have notSign : kind.startsExpr = true ∧ ∀ symbol, kind ≠ .symbol symbol := by
    unfold TokenKind.atom? at isAtom
    split at isAtom
    all_goals first | exact ⟨rfl, nofun⟩ | cases isAtom
  exact isExprRead_enclosed isTokens isTop notSign.1 ⟨notSign.2 _, notSign.2 _⟩
    fun rest _ => eventually_succ (.of_forall (read rest))

theorem isExprRead_identifier (legal : isNameOr [.selectWord] name = true) :
    IsExprRead (.identifier name location) := by
  have isTokens : (Expr.identifier name location).tokens = [nameToken name] := by rw [Expr.tokens]
  rcases nameToken_cases legal with isIdentifier | ⟨_, isAllowed, isWord, rfl⟩
  · rw [isIdentifier] at isTokens
    exact isExprRead_atom rfl isTokens rfl rfl
  · rw [isWord] at isTokens
    cases List.mem_singleton.mp isAllowed
    exact isExprRead_atom rfl isTokens rfl rfl

theorem isExprRead_parenthesized (isRead : IsExprRead expr) :
    IsExprRead (.group expr location) ∧ IsExprRead (.zeros expr location) := by
  constructor <;>
  · refine isExprRead_enclosed rfl rfl rfl ⟨nofun, nofun⟩ fun rest _ => eventually_succ ?_
    filter_upwards [isRead.expression (⟨.symbol .closeParen, .nowhere⟩ :: rest) rfl] with depth read
    simp [read]

theorem isExprRead_array (areRead : ∀ element ∈ elements, IsExprRead element) :
    IsExprRead (.array elements location) := by
  refine isExprRead_enclosed rfl rfl rfl ⟨nofun, nofun⟩ fun rest _ => eventually_succ ?_
  cases elements with
  | nil => exact .of_forall fun depth => by simp [skipNewlines_of_ne]
  | cons _ elements =>
    obtain ⟨isRead, others⟩ := List.forall_mem_cons.mp areRead
    have ends : EndsList (frontKind (⟨.symbol .closeBracket, .nowhere⟩ :: rest)) := ⟨rfl, nofun⟩
    filter_upwards [isRead.expression _ (ends.stops elements), reads_moreElements others _ ends]
      with depth read more
    simp [skipNewlines_of_ne, isRead.starts.ne .newline rfl,
      isRead.starts.ne (.symbol .closeBracket) rfl, read, more]

theorem isExprRead_map {entries : List (Expr × Expr)}
    (areRead : ∀ entry ∈ entries, IsExprRead entry.1 ∧ IsExprRead entry.2) :
    IsExprRead (.map entries location) := by
  refine isExprRead_enclosed rfl rfl rfl ⟨nofun, nofun⟩ fun rest _ => eventually_succ ?_
  cases entries with
  | nil => exact .of_forall fun depth => by simp [skipNewlines_of_ne]
  | cons entry =>
    have starts := (areRead entry List.mem_cons_self).1.starts
    have ends : EndsList (frontKind (⟨.symbol .closeBrace, .nowhere⟩ :: rest)) := ⟨rfl, nofun⟩
    filter_upwards [reads_entries areRead _ ends] with depth read
    obtain ⟨_, _⟩ := entry
    simp_all [skipNewlines_of_ne, starts.ne .newline rfl, starts.ne (.symbol .closeBrace) rfl]

/-! ### Operators and suffixes -/

theorem isReadAt_ref (isRead : IsReadAt 7 expr) : IsReadAt 7 (.ref expr location) := by
  intro rest stops
  refine eventually_succ (eventually_succ ?_)
  filter_upwards [isRead rest stops] with depth read
  simp_all [readerAt, suffixed, suffixes_of_stops stops]

theorem isExprRead_ref (isRead : IsExprRead expr) (tight : 7 ≤ expr.rank) :
    IsExprRead (.ref expr location) := by
  have starts : StartsWell (.ref expr location) :=
    ⟨.keyword .refWord, expr.tokens, rfl, rfl, fun _ _ => nofun⟩
  refine isExprRead_of starts rfl (isReadAt_ref (isRead.atRank 7 (Nat.le_refl 7) tight))
    (fun level isRank => ?_) nofun
  cases level <;> cases isRank

theorem isExprRead_unary {operator : UnaryOperator} (isRead : IsExprRead expr)
    (fits : operator.rank ≤ expr.rank) : IsExprRead (.unary operator expr location) := by
  have starts : StartsWell (.unary operator expr location) := by
    refine ⟨.symbol operator.symbol, expr.tokens, rfl, ?_, ?_⟩
    · cases operator <;> rfl
    · intro other looser
      cases operator <;> cases other <;> first | exact absurd looser (Nat.lt_irrefl _) | nofun
  have small : operator.rank < 7 := by cases operator <;> decide
  have own : IsReadAt operator.rank (.unary operator expr location) :=
    isReadAt_unary (isRead.atRank _ (Nat.le_of_lt small) fits)
  refine isExprRead_of starts (Nat.min_eq_left (Nat.le_of_lt small)).symm own ?_ ?_
  · intro level isRank
    cases operator <;> cases level <;> cases isRank
  · intro isTop
    cases operator <;> cases isTop

theorem isExprRead_binary (leftRead : IsExprRead left) (rightRead : IsExprRead right)
    (leftFits : operator.level.rank ≤ left.rank) (rightFits : operator.level.rank < right.rank) :
    IsExprRead (.binary left operator right location) := by
  have starts : StartsWell (.binary left operator right location) := by
    rcases leftRead.starts with ⟨kind, kinds, isTokens, isStart, noOperator⟩
    refine ⟨kind, kinds ++ .symbol operator.symbol :: right.tokens, ?_, isStart, ?_⟩
    · change left.tokens ++ _ = _
      rw [isTokens, List.cons_append]
    · exact fun other looser => noOperator other (Nat.lt_of_lt_of_le looser leftFits)
  have small : operator.level.rank < 7 := by cases operator <;> decide
  have leads : LeadsToChain operator.level (.binary left operator right location) :=
    (leftRead.chains _ leftFits).binary (rightRead.atRank _ small rightFits)
  refine isExprRead_of starts (Nat.min_eq_left (Nat.le_of_lt small)).symm
    leads.isReadAt (fun level isRank => ?_) fun isTop => ?_
  · have sameLevel : level = operator.level := by
      change level.rank = operator.level.rank at isRank
      generalize operator.level = other at isRank
      cases level <;> cases other <;> first | rfl | cases isRank
    exact sameLevel ▸ leads
  · change operator.level.rank = 8 at isTop
    omega

theorem isExprRead_suffixed (isRead : IsExprRead expr) (isTop : expr.rank = 8)
    (isLonger : longer.tokens = expr.tokens ++ kinds) (staysTop : longer.rank = 8)
    (grows : LeadsToSuffixes expr → LeadsToSuffixes longer) : IsExprRead longer :=
  (grows (isRead.suffixes isTop)).isExprRead (isRead.starts.extended isTop isLonger) staysTop

/-! ### All expressions -/

mutual

theorem isExprRead (expr : Expr) (isPrintable : expr.isPrintable = true) : IsExprRead expr := by
  cases expr
  all_goals simp only [Expr.isPrintable, Bool.and_eq_true, decide_eq_true_eq] at isPrintable
  case int | float | string | bytes | null => exact isExprRead_atom rfl rfl rfl rfl
  case bool value _ => cases value <;> exact isExprRead_atom rfl rfl rfl rfl
  case template => cases isPrintable
  case identifier => exact isExprRead_identifier isPrintable
  case binary left operator right _ =>
    obtain ⟨⟨⟨leftPrintable, rightPrintable⟩, leftFits⟩, rightFits⟩ := isPrintable
    exact isExprRead_binary (isExprRead left leftPrintable) (isExprRead right rightPrintable)
      leftFits rightFits
  case unary operator operand _ =>
    exact isExprRead_unary (isExprRead operand isPrintable.1) isPrintable.2
  case call callee arguments _ =>
    obtain ⟨⟨calleePrintable, isTop⟩, arePrintable⟩ := isPrintable
    exact isExprRead_suffixed (isExprRead callee calleePrintable) isTop rfl rfl
      (.call (areExprsRead arguments arePrintable))
  case index object position _ =>
    obtain ⟨⟨objectPrintable, isTop⟩, positionPrintable⟩ := isPrintable
    exact isExprRead_suffixed (isExprRead object objectPrintable) isTop rfl rfl
      (.index (isExprRead position positionPrintable))
  case field object _ _ =>
    obtain ⟨⟨objectPrintable, isTop⟩, legal⟩ := isPrintable
    exact isExprRead_suffixed (isExprRead object objectPrintable) isTop rfl rfl (.field legal)
  case array elements _ => exact isExprRead_array (areExprsRead elements isPrintable)
  case map entries _ => exact isExprRead_map (areEntriesRead entries isPrintable)
  case ref value _ => exact isExprRead_ref (isExprRead value isPrintable.1) isPrintable.2
  case zeros size _ => exact (isExprRead_parenthesized (isExprRead size isPrintable)).2
  case group grouped _ => exact (isExprRead_parenthesized (isExprRead grouped isPrintable)).1

theorem areExprsRead : (exprs : List Expr) → Expr.arePrintable exprs = true →
    ∀ expr ∈ exprs, IsExprRead expr
  | [], _ => nofun
  | first :: exprs, arePrintable => by
    simp only [Expr.arePrintable, Bool.and_eq_true] at arePrintable
    exact List.forall_mem_cons.mpr
      ⟨isExprRead first arePrintable.1, areExprsRead exprs arePrintable.2⟩

theorem areEntriesRead : (entries : List (Expr × Expr)) → Expr.entriesPrintable entries = true →
    ∀ entry ∈ entries, IsExprRead entry.1 ∧ IsExprRead entry.2
  | [], _ => nofun
  | (key, value) :: entries, arePrintable => by
    simp only [Expr.entriesPrintable, Bool.and_eq_true] at arePrintable
    exact List.forall_mem_cons.mpr
      ⟨⟨isExprRead key arePrintable.1.1, isExprRead value arePrintable.1.2⟩,
        areEntriesRead entries arePrintable.2⟩

end

end Parser

end Noxy
