import Noxy.Proofs.ReadingExpr

/-!
# Reading printed statements

A printable statement is read from its tokens if the end of its line follows.
-/

namespace Noxy.Parser

open Filter

variable {entries : List Declared}

attribute [local simp] bind_apply map_apply pure_apply ok_bind peek_cons advance_cons
  acceptSymbol_eq acceptKeyword_eq atSymbol_eq expectSymbol_cons expectKeyword_cons expectName_cons
  Declared.moreTokens Declared.listTokens Declared.lineTokens Stmt.tokens Stmt.lineTokens
  Stmt.moved Stmt.listMoved Selection.tokens nameTokens moreNameTokens renamingTokens

/-! ### Names and types -/

theorem reads_declared (isPrintable : entry.isPrintable = true) (rest : List Token)
    (ends : EndsType (frontKind rest)) :
    ∀ᶠ depth in atTop, ∀ required,
      declared depth required none (placed entry.tokens ++ rest) = .ok (entry, rest) := by
  simp only [Declared.isPrintable, Bool.and_eq_true] at isPrintable
  filter_upwards [(isTypeRead_of_isPrintable isPrintable.2).2 rest ends] with depth read required
  simp [declared, Declared.tokens, nameToken_of_isName isPrintable.1, read]

theorem frontKind_declared {entry : Declared} (isPrintable : entry.isPrintable = true)
    (rest : List Token) : frontKind (placed entry.tokens ++ rest) = .identifier entry.name := by
  simp only [Declared.isPrintable, Bool.and_eq_true] at isPrintable
  exact nameToken_of_isName isPrintable.1

section

variable (arePrintable : ∀ entry ∈ entries, entry.isPrintable = true)
include arePrintable

theorem reads_moreParams :
    Reads (moreParams ·) (Declared.moreTokens entries) (· = .symbol .closeParen) entries := by
  intro rest isClose
  induction entries with
  | nil => exact eventually_succ (.of_forall fun depth => by simp [moreParams, isClose])
  | cons _ entries ih =>
    obtain ⟨isPrintable, others⟩ := List.forall_mem_cons.mp arePrintable
    have ends : EndsType (frontKind (placed (Declared.moreTokens entries) ++ rest)) := by
      cases entries <;> simp [EndsType, isClose]
    refine eventually_succ ?_
    filter_upwards [reads_declared isPrintable _ ends, ih others] with depth read more
    simp [moreParams, read, more]

theorem reads_params :
    Reads (params ·) (Declared.listTokens entries) (· = .symbol .closeParen) entries := by
  intro rest isClose
  cases entries with
  | nil => exact .of_forall fun depth => by simp [params, isClose]
  | cons _ entries =>
    obtain ⟨isPrintable, others⟩ := List.forall_mem_cons.mp arePrintable
    have ends : EndsType (frontKind (placed (Declared.moreTokens entries) ++ rest)) := by
      cases entries <;> simp [EndsType, isClose]
    filter_upwards [reads_declared isPrintable _ ends, reads_moreParams others rest isClose]
      with depth read more
    simp [params, frontKind_declared isPrintable _, read, more]

theorem reads_structFields :
    Reads (structFields ·) (.newline :: Declared.lineTokens entries) (· = .keyword .endWord)
      entries := by
  intro rest isEnd
  induction entries with
  | nil =>
    obtain ⟨_, isKind, peeked⟩ := peek_eq rest
    refine eventually_succ (.of_forall fun _ => ?_)
    simp [structFields, skipNewlines_cons, isEnd, peeked, isKind]
  | cons entry entries ih =>
    obtain ⟨isPrintable, others⟩ := List.forall_mem_cons.mp arePrintable
    let after := placed (.newline :: Declared.lineTokens entries) ++ rest
    have isFront := frontKind_declared isPrintable after
    obtain ⟨_, _, _⟩ := peek_eq (placed entry.tokens ++ after)
    have noComma : (discard (acceptSymbol .comma) : Reader Unit) after = .ok ((), after) :=
      discard_of_ok (acceptSymbol_of_ne nofun)
    refine eventually_succ ?_
    filter_upwards [reads_declared isPrintable after ⟨nofun, nofun⟩, ih others]
      with depth read more
    simp_all [structFields, skipNewlines_cons, after]

end

/-! ### Imports -/

theorem reads_moreNames (isStep : ∀ depth, reader (depth + 1) = do
      if (← acceptSymbol separator) then
        let next ← expectName required
        let rest ← reader depth
        return next :: rest
      else
        return []) (areNames : ∀ name ∈ names, isName name = true) :
    Reads reader (moreNameTokens separator names) (· ≠ .symbol separator) names := by
  intro _ ends
  induction names with
  | nil => exact eventually_succ (.of_forall fun depth => by simp [isStep, ends])
  | cons _ _ ih =>
    obtain ⟨isName, others⟩ := List.forall_mem_cons.mp areNames
    refine eventually_succ ?_
    filter_upwards [ih others] with depth more
    simp [isStep, nameToken_of_isName isName, more]

theorem reads_selection (isPrintable : selected.isPrintable = true) :
    Reads selection selected.tokens (· = .newline) selected := by
  intro rest isLineEnd
  cases selected with
  | whole => exact .of_forall fun depth => by simp [selection, isLineEnd]
  | all => exact .of_forall fun depth => by simp [selection]
  | names selected =>
    cases selected with
    | nil => cases isPrintable
    | cons _ names =>
      simp only [Selection.isPrintable, List.all_cons, Bool.and_eq_true,
        List.all_eq_true] at isPrintable
      have more : Reads moreNames (moreNameTokens .comma names) (· ≠ .symbol .comma) names :=
        reads_moreNames (fun _ => by rw [moreNames]) isPrintable.2.2
      filter_upwards [more rest (by simp [isLineEnd])] with depth more
      simp [selection, nameToken_of_isName isPrintable.2.1, more]

theorem functionName_cons (legal : isNameOr [.selectWord] name = true) :
    functionName (⟨nameToken name, .nowhere⟩ :: rest) = .ok (name, rest) := by
  rcases nameToken_cases legal with isIdentifier | ⟨_, isAllowed, isWord, rfl⟩
  · simp [functionName, isIdentifier]
  · cases List.mem_singleton.mp isAllowed
    simp [functionName, isWord]

/-! ### Statements -/

def startsStmt : TokenKind → Bool
  | .newline => false
  | .eof => false
  | .keyword .endWord => false
  | .keyword .elseWord => false
  | _ => true

structure IsStmtRead (stmt : Stmt) : Prop where
  starts : ∃ kind kinds, stmt.tokens = kind :: kinds ∧ startsStmt kind = true
  reads : Reads (statement ·) stmt.tokens (· = .newline) stmt.unlocated

theorem IsStmtRead.begins (isRead : IsStmtRead stmt) :
    ∃ kind kinds, stmt.tokens = kind :: kinds ∧
      ∀ other, startsStmt other = false → kind ≠ other := by
  obtain ⟨kind, kinds, isTokens, isStart⟩ := isRead.starts
  refine ⟨kind, kinds, isTokens, ?_⟩
  rintro _ notStart rfl
  exact Bool.false_ne_true (notStart.symm.trans isStart)

theorem reads_before {expr : Expr} (isPrintable : expr.isPrintable = true) (rest : List Token)
    (stops : (frontKind rest).extends 0 = false) :
    ∀ᶠ depth in atTop, expression depth none (placed expr.tokens ++ rest) =
      .ok (expr.unlocated, rest) :=
  (isExprRead expr isPrintable).expression rest stops

theorem startsStmt_of_startsExpr (isStart : kind.startsExpr = true) : startsStmt kind = true := by
  unfold startsStmt
  split
  case h_5 => rfl
  all_goals cases isStart

theorem statement_of_startsExpr (starts : StartsWell expr) :
    statement (depth + 1) none (placed expr.tokens ++ rest) = (do
      let target ← expression depth
      if (← acceptSymbol .assign) then
        let value ← expression depth
        return .assign target value .nowhere
      else
        return .expression target .nowhere : Reader Stmt) (placed expr.tokens ++ rest) := by
  obtain ⟨kind, _, isTokens, isStart, _⟩ := starts
  rw [isTokens, statement]
  cases kind with
  | keyword word => cases word <;> first | rfl | cases isStart
  | _ => rfl

theorem isStmtRead_expression (isPrintable : value.isPrintable = true) :
    IsStmtRead (.expression value location) := by
  have starts := (isExprRead value isPrintable).starts
  refine ⟨?_, fun rest isLineEnd => eventually_succ ?_⟩
  · obtain ⟨kind, kinds, isTokens, isStart, _⟩ := starts
    exact ⟨kind, kinds, by rw [Stmt.tokens, isTokens], startsStmt_of_startsExpr isStart⟩
  · filter_upwards [reads_before isPrintable rest (by rw [isLineEnd]; rfl)] with depth read
    simp_all [statement_of_startsExpr starts]

theorem isStmtRead_assign (targetPrintable : target.isPrintable = true)
    (valuePrintable : value.isPrintable = true) : IsStmtRead (.assign target value location) := by
  have starts := (isExprRead target targetPrintable).starts
  refine ⟨?_, fun rest isLineEnd => eventually_succ ?_⟩
  · obtain ⟨kind, _, isTokens, isStart, _⟩ := starts
    exact ⟨kind, _, by rw [Stmt.tokens, isTokens, List.cons_append],
      startsStmt_of_startsExpr isStart⟩
  · filter_upwards [reads_before valuePrintable rest (by rw [isLineEnd]; rfl), reads_before
      targetPrintable (⟨.symbol .assign, .nowhere⟩ :: (placed value.tokens ++ rest)) rfl]
      with depth isValue isTarget
    simp [statement_of_startsExpr starts, isTarget, isValue]

attribute [local simp] statement

theorem isStmtRead_letVar {type : Ty} (isPrintable : Declared.isPrintable ⟨name, type⟩ = true)
    (valuePrintable : initializer.all Expr.isPrintable = true) :
    IsStmtRead (.letVar name type initializer location) := by
  cases initializer with
  | none =>
    refine ⟨⟨_, _, rfl, rfl⟩, fun rest isLineEnd => eventually_succ ?_⟩
    filter_upwards [reads_declared isPrintable rest (by rw [isLineEnd]; exact ⟨nofun, nofun⟩)]
      with depth read
    simp_all
  | some value =>
    refine ⟨⟨_, _, rfl, rfl⟩, fun rest isLineEnd => eventually_succ ?_⟩
    filter_upwards [reads_before valuePrintable rest (by rw [isLineEnd]; rfl),
      reads_declared isPrintable
      (⟨.symbol .assign, .nowhere⟩ :: (placed value.tokens ++ rest)) ⟨nofun, nofun⟩]
      with depth isValue read
    simp [read, isValue]

theorem isStmtRead_globalVar {type : Ty} (isPrintable : Declared.isPrintable ⟨name, type⟩ = true)
    (valuePrintable : value.isPrintable = true) :
    IsStmtRead (.globalVar name type value location) := by
  refine ⟨⟨_, _, rfl, rfl⟩, fun rest isLineEnd => eventually_succ ?_⟩
  filter_upwards [reads_before valuePrintable rest (by rw [isLineEnd]; rfl),
    reads_declared isPrintable
    (⟨.symbol .assign, .nowhere⟩ :: (placed value.tokens ++ rest)) ⟨nofun, nofun⟩]
    with depth isValue read
  simp [read, isValue]

theorem isStmtRead_returning (isPrintable : value.all Expr.isPrintable = true) :
    IsStmtRead (.returning value location) := by
  cases value with
  | none =>
    refine ⟨⟨_, _, rfl, rfl⟩, fun rest _ => eventually_succ ?_⟩
    obtain ⟨_, _, _⟩ := peek_eq rest
    exact .of_forall fun _ => by simp_all
  | some value =>
    refine ⟨⟨_, _, rfl, rfl⟩, fun rest isLineEnd => eventually_succ ?_⟩
    obtain ⟨_, _, _⟩ := peek_eq (placed value.tokens ++ rest)
    have other (kind : TokenKind) (notStart : kind.startsExpr = false) :
        frontKind (placed value.tokens ++ rest) ≠ kind :=
      (isExprRead value isPrintable).starts.ne kind notStart
    filter_upwards [reads_before isPrintable rest (by rw [isLineEnd]; rfl)] with depth read
    simp_all [other .newline rfl, other .eof rfl, other (.keyword .endWord) rfl]

theorem isStmtRead_breaking : IsStmtRead (.breaking location) :=
  ⟨⟨_, _, rfl, rfl⟩, fun _ _ =>
    eventually_succ (.of_forall fun _ => by simp)⟩

theorem isStmtRead_struct (legal : isName name = true)
    (arePrintable : ∀ field ∈ fields, field.isPrintable = true) :
    IsStmtRead (.struct name fields location) := by
  refine ⟨⟨_, _, rfl, rfl⟩, fun rest _ => eventually_succ ?_⟩
  filter_upwards [reads_structFields arePrintable (⟨.keyword .endWord, .nowhere⟩ :: rest) rfl]
    with depth read
  simp_all [nameToken_of_isName legal]

theorem isStmtRead_use (nonempty : path ≠ []) (areNames : ∀ name ∈ path, isName name = true)
    (isPrintable : selected.isPrintable = true) (isRenamed : newName.all isName = true) :
    IsStmtRead (.use path selected newName location) := by
  refine ⟨⟨_, _, rfl, rfl⟩, fun rest isLineEnd => eventually_succ ?_⟩
  cases path with
  | nil => exact absurd rfl nonempty
  | cons _ path =>
    obtain ⟨isFirst, others⟩ := List.forall_mem_cons.mp areNames
    have pathRead : Reads morePath (moreNameTokens .dot path) (· ≠ .symbol .dot) path :=
      reads_moreNames (fun _ => by rw [morePath]) others
    let after := placed (renamingTokens newName ++ selected.tokens) ++ rest
    have noDot : frontKind after ≠ .symbol .dot := by
      cases newName <;> cases selected <;> simp [after, isLineEnd]
    have noRenaming : frontKind (placed selected.tokens ++ rest) ≠ .keyword .asWord := by
      cases selected <;> simp [isLineEnd]
    filter_upwards [pathRead after noDot, reads_selection isPrintable rest isLineEnd]
      with depth isPath isSelection
    cases newName with
    | none => simp_all [nameToken_of_isName isFirst, after]
    | some => simp_all [nameToken_of_isName, after]

/-! ### Blocks -/

def EndsBlock (untilElse : Bool) (kind : TokenKind) : Prop :=
  kind = .keyword .endWord ∨ untilElse = true ∧ kind = .keyword .elseWord

theorem reads_block (untilElse : Bool) (areRead : ∀ stmt ∈ body, IsStmtRead stmt) :
    Reads (block · untilElse) (.newline :: Stmt.lineTokens body) (EndsBlock untilElse)
      (Stmt.listUnlocated body) := by
  intro rest ends
  induction body with
  | nil =>
    obtain ⟨_, isKind, peeked⟩ := peek_eq rest
    refine eventually_succ (.of_forall fun _ => ?_)
    rcases ends with isEnd | ⟨rfl, isElse⟩
    · simp [block, skipNewlines_cons, isEnd, peeked, isKind]
    · simp [block, skipNewlines_cons, isElse, peeked, isKind]
  | cons _ body ih =>
    obtain ⟨isRead, others⟩ := List.forall_mem_cons.mp areRead
    obtain ⟨_, _, isTokens, other⟩ := isRead.begins
    refine eventually_succ ?_
    filter_upwards [isRead.reads (placed (.newline :: Stmt.lineTokens body) ++ rest) rfl, ih others]
      with depth read more
    simp only [isTokens] at read
    simp_all [block, skipNewlines_cons, other .newline rfl, other .eof rfl,
      other (.keyword .endWord) rfl, other (.keyword .elseWord) rfl]

theorem isStmtRead_loop (isPrintable : condition.isPrintable = true)
    (areRead : ∀ stmt ∈ body, IsStmtRead stmt) : IsStmtRead (.loop condition body location) := by
  refine ⟨⟨_, _, rfl, rfl⟩, fun rest _ => eventually_succ ?_⟩
  let after := placed (.newline :: Stmt.lineTokens body) ++ ⟨.keyword .endWord, .nowhere⟩ :: rest
  filter_upwards [reads_block false areRead (⟨.keyword .endWord, .nowhere⟩ :: rest) (.inl rfl),
    reads_before isPrintable (⟨.keyword .doWord, .nowhere⟩ :: after) rfl] with depth isBody read
  simp_all [after]

theorem isStmtRead_branch (isPrintable : condition.isPrintable = true)
    (thenRead : ∀ stmt ∈ thenBody, IsStmtRead stmt)
    (elseRead : ∀ stmt ∈ elseBody, IsStmtRead stmt) :
    IsStmtRead (.branch condition thenBody elseBody location) := by
  let last (rest : List Token) : List Token := ⟨.keyword .endWord, .nowhere⟩ :: rest
  let after (rest : List Token) : List Token :=
    placed (.newline :: Stmt.lineTokens thenBody) ++ rest
  cases elseBody with
  | nil =>
    refine ⟨⟨_, _, rfl, rfl⟩, fun rest _ => eventually_succ ?_⟩
    filter_upwards [reads_block true thenRead (last rest) (.inl rfl),
      reads_before isPrintable (⟨.keyword .thenWord, .nowhere⟩ :: after (last rest)) rfl]
      with depth isBody read
    simp_all [last, after]
  | cons first others =>
    refine ⟨⟨_, _, rfl, rfl⟩, fun rest _ => eventually_succ ?_⟩
    let other := ⟨.keyword .elseWord, .nowhere⟩ ::
      (placed (.newline :: Stmt.lineTokens (first :: others)) ++ last rest)
    filter_upwards [reads_block false elseRead (last rest) (.inl rfl),
      reads_block true thenRead other (.inr ⟨rfl, rfl⟩),
      reads_before isPrintable (⟨.keyword .thenWord, .nowhere⟩ :: after other) rfl]
      with depth isOther isBody read
    simp_all [last, after, other]

theorem isStmtRead_function (legal : isNameOr [.selectWord] name = true)
    (arePrintable : ∀ entry ∈ entries, entry.isPrintable = true)
    (isPrintable : returns.isPrintable = true) (areRead : ∀ stmt ∈ body, IsStmtRead stmt) :
    IsStmtRead (.function name entries returns body location) := by
  refine ⟨⟨_, _, rfl, rfl⟩, fun rest _ => eventually_succ ?_⟩
  let after := placed (.newline :: Stmt.lineTokens body) ++ ⟨.keyword .endWord, .nowhere⟩ :: rest
  let result := placed (.symbol .closeParen :: .symbol .arrow :: returns.tokens) ++ after
  filter_upwards [reads_block false areRead (⟨.keyword .endWord, .nowhere⟩ :: rest) (.inl rfl),
    (isTypeRead_of_isPrintable isPrintable).2 after ⟨nofun, nofun⟩,
    reads_params arePrintable result rfl] with depth isBody isType areParams
  simp_all [functionName_cons, after, result]

/-! ### All statements -/

mutual

theorem isStmtRead (stmt : Stmt) (isPrintable : stmt.isPrintable = true) : IsStmtRead stmt := by
  cases stmt
  case letVar initializer _ =>
    cases initializer <;> simp only [Stmt.isPrintable, Bool.and_eq_true] at isPrintable
    · exact isStmtRead_letVar isPrintable rfl
    · exact isStmtRead_letVar isPrintable.1 isPrintable.2
  all_goals simp only [Stmt.isPrintable, Bool.and_eq_true, List.all_eq_true] at isPrintable
  case globalVar => exact isStmtRead_globalVar isPrintable.1 isPrintable.2
  case assign => exact isStmtRead_assign isPrintable.1 isPrintable.2
  case expression => exact isStmtRead_expression isPrintable
  case branch thenBody elseBody _ =>
    exact isStmtRead_branch isPrintable.1.1 (areStmtsRead thenBody isPrintable.1.2)
      (areStmtsRead elseBody isPrintable.2)
  case loop body _ => exact isStmtRead_loop isPrintable.1 (areStmtsRead body isPrintable.2)
  case returning => exact isStmtRead_returning isPrintable
  case breaking => exact isStmtRead_breaking
  case function body _ =>
    obtain ⟨⟨⟨legal, arePrintable⟩, returnsPrintable⟩, bodyPrintable⟩ := isPrintable
    exact isStmtRead_function legal arePrintable returnsPrintable (areStmtsRead body bodyPrintable)
  case struct => exact isStmtRead_struct isPrintable.1 isPrintable.2
  case use =>
    obtain ⟨⟨⟨nonempty, areNames⟩, isPrintable⟩, isRenamed⟩ := isPrintable
    refine isStmtRead_use ?_ areNames isPrintable isRenamed
    rintro rfl
    cases nonempty

theorem areStmtsRead : (stmts : List Stmt) → Stmt.arePrintable stmts = true →
    ∀ stmt ∈ stmts, IsStmtRead stmt
  | [], _ => nofun
  | stmt :: stmts, arePrintable => by
    simp only [Stmt.arePrintable, Bool.and_eq_true] at arePrintable
    exact List.forall_mem_cons.mpr
      ⟨isStmtRead stmt arePrintable.1, areStmtsRead stmts arePrintable.2⟩

end

end Noxy.Parser
