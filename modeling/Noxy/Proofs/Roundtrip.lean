import Noxy.Proofs.ReadingStmt
import Noxy.Proofs.Sufficiency

/-!
# Printing and reading back

The tokens of a printable program are read as that program, wherever its parts stood before.
-/

namespace Noxy

/-! ### The spelling of types -/

def TokenKind.spelling : TokenKind → String
  | keyword .refWord => "ref "
  | symbol .comma => ", "
  | kind => kind.text

theorem Ty.text_eq_spelling {type : Ty} (isPrintable : type.isPrintable = true) :
    type.text = String.join (type.tokens.map TokenKind.spelling) := by
  induction type with
  | array _ size ih =>
    simp only [Ty.isPrintable, Bool.and_eq_true] at isPrintable
    cases size <;>
      simp [text, tokens, ih isPrintable.1, TokenKind.spelling, TokenKind.text, Symbol.text,
        String.append_assoc]
  | map _ _ keyIh valueIh =>
    simp only [Ty.isPrintable, Bool.and_eq_true] at isPrintable
    have opening : "map[" = "map" ++ "[" := rfl
    simp only [text, keyIh isPrintable.1, valueIh isPrintable.2, tokens, TokenKind.spelling,
      TokenKind.text, Keyword.text, Symbol.text, List.map_cons, List.map_append, List.map_nil,
      String.join_cons, String.join_append, String.join_nil, String.append_assoc,
      String.append_empty]
    rw [opening, String.append_assoc]
  | struct _ home =>
    simp only [Ty.isPrintable, Bool.and_eq_true] at isPrintable
    cases home with
    | none =>
      simp [text, tokens, nameToken_of_isName isPrintable.1, TokenKind.spelling,
        TokenKind.text]
    | some home =>
      have homeLegal : isName home = true := isPrintable.2
      simp [text, tokens, nameToken_of_isName isPrintable.1, nameToken_of_isName homeLegal,
        TokenKind.spelling, TokenKind.text, Symbol.text, String.append_assoc]
  | ref _ ih =>
    rw [Ty.isPrintable] at isPrintable
    simp [text, tokens, ih isPrintable, TokenKind.spelling]
  | _ => first | rfl | cases isPrintable

/-! ### Tokens without templates -/

section Templates

theorem template_ne_nameToken : TokenKind.template pieces ≠ nameToken name := by
  unfold nameToken
  split <;> exact TokenKind.noConfusion

attribute [local simp] template_ne_nameToken

theorem Ty.template_notMem (type : Ty) : .template pieces ∉ type.tokens := by
  induction type using Ty.tokens.induct <;> simp_all [tokens]

theorem Expr.template_notMem :
    (∀ expr : Expr, .template pieces ∉ expr.tokens) ∧
    (∀ entries, .template pieces ∉ entryTokens entries) ∧
    (∀ entries, .template pieces ∉ moreEntryTokens entries) ∧
    (∀ exprs, .template pieces ∉ listTokens exprs) ∧
    ∀ exprs, .template pieces ∉ moreTokens exprs := by
  apply Expr.tokens.mutual_induct <;>
    simp_all [tokens, entryTokens, moreEntryTokens, listTokens, moreTokens]

theorem Declared.template_notMem (entries : List Declared) :
    .template pieces ∉ moreTokens entries ∧ .template pieces ∉ listTokens entries ∧
      .template pieces ∉ lineTokens entries := by
  induction entries <;>
    simp_all [moreTokens, listTokens, lineTokens, Declared.tokens, Ty.template_notMem]

theorem template_notMem_names :
    .template pieces ∉ moreNameTokens separator names ∧
      .template pieces ∉ nameTokens separator names := by
  induction names <;> simp_all [moreNameTokens, nameTokens]

theorem Stmt.template_notMem :
    (∀ stmt : Stmt, .template pieces ∉ stmt.tokens) ∧
    ∀ stmts, .template pieces ∉ lineTokens stmts := by
  apply Stmt.tokens.mutual_induct
  case case14 =>
    intro _ selection newName _
    cases newName <;> cases selection <;>
      simp [tokens, renamingTokens, Selection.tokens, template_notMem_names]
  all_goals
    intros
    simp_all [tokens, lineTokens, Declared.tokens, Ty.template_notMem, Expr.template_notMem.1,
      Declared.template_notMem]

end Templates

namespace Parser

open Filter

/-! ### Whole texts -/

attribute [local simp] bind_apply map_apply pure_apply ok_bind peek_cons atEnd_eq Stmt.lineTokens
  Stmt.listMoved

theorem reads_program {program : Program} (areRead : ∀ stmt ∈ program, IsStmtRead stmt)
    (isBefore : before = [] ∨ before = [.newline]) :
    Reads (Parser.program ·) (before ++ Stmt.lineTokens program) (· = .eof)
      (Stmt.listUnlocated program) := by
  intro rest isEnd
  induction program generalizing before with
  | nil =>
    refine eventually_succ (.of_forall fun _ => ?_)
    rcases isBefore with rfl | rfl <;>
      simp [Parser.program, skipNewlines_of_ne, skipNewlines_cons, isEnd]
  | cons _ program ih =>
    obtain ⟨isRead, others⟩ := List.forall_mem_cons.mp areRead
    obtain ⟨_, _, isTokens, other⟩ := isRead.begins
    refine eventually_succ ?_
    filter_upwards [isRead.reads (placed (.newline :: Stmt.lineTokens program) ++ rest) rfl,
      ih others (.inr rfl)] with depth read more
    simp only [isTokens] at read
    rcases isBefore with rfl | rfl <;> simp_all [Parser.program, skipNewlines_of_ne,
      skipNewlines_cons, other .newline rfl, other .eof rfl]

end Parser

theorem not_holds_printed {program : Program}
    (arePrinted : tokens.map Token.kind = program.tokens ++ [.eof])
    (isStream : Parser.Stream tokens stream) : ¬Parser.Holds stream source := by
  induction isStream generalizing source with
  | inner _ holds _ ih => exact absurd holds ih
  | outer =>
    rintro ⟨token, member, _, _, isTemplate, _⟩
    have isPrinted : token.kind ∈ tokens.map Token.kind := List.mem_map_of_mem member
    rw [arePrinted, isTemplate] at isPrinted
    simp [Program.tokens, Stmt.template_notMem.2] at isPrinted

/-- A printed program is read back as it was, up to places; and its types are printed as they are
spelled. -/
theorem parse_printed (program : Program) (isPrintable : program.isPrintable = true)
    (tokens : List Token) (arePrinted : tokens.map Token.kind = program.tokens ++ [.eof]) :
    (∃ parsed, Program.ofTokens tokens = .ok parsed ∧ parsed.unlocated = program.unlocated) ∧
      ∀ type : Ty, type.isPrintable = true →
        String.join (type.tokens.map TokenKind.spelling) = type.text := by
  refine ⟨?_, fun type typePrintable => (Ty.text_eq_spelling typePrintable).symm⟩
  let stage : Parser.Stage := ⟨tokens, fun _ => .nowhere, fun isStream holds =>
    absurd holds (not_holds_printed arePrinted isStream), False⟩
  have isMoved : stage.moved tokens = Parser.placed program.tokens ++ [⟨.eof, .nowhere⟩] := by
    have placed := congrArg Parser.placed arePrinted
    rwa [Parser.placed_append, Parser.placed, List.map_map] at placed
  have isEnded : Parser.IsEnded tokens := by
    have isLast : TokenKind.eof ∈ tokens.map Token.kind := by simp [arePrinted]
    exact List.mem_map.mp isLast
  -- far enough down, the tokens without their places are read as the program without its places
  have reads := Parser.reads_program (Parser.areStmtsRead program isPrintable) (.inl rfl)
    [⟨.eof, .nowhere⟩] rfl
  obtain ⟨depth, read, deep⟩ :=
    (reads.and (Filter.eventually_ge_atTop (Parser.depthFor tokens))).exists
  rw [List.nil_append] at read
  have settles := Parser.settles_depthFor stage none deep .unlimited
  have ahead : Parser.Ahead stage tokens := .all isEnded
  cases parsed : Parser.program (Parser.depthFor tokens) none tokens with
  | error cause =>
    obtain ⟨_, ⟨cause', failed, _⟩ | ⟨⟨⟩, _⟩⟩ := settles.raised_of_error ahead parsed
    rw [isMoved] at failed
    cases read.symm.trans failed
  | ok result =>
    have again := (settles.read_of_ok ahead parsed).2.resolve_right (·.1)
    rw [isMoved] at again
    have same := congrArg Prod.fst (Except.ok.inj (again.symm.trans read))
    refine ⟨result.1, congrArg (Except.map Prod.fst) parsed, ?_⟩
    exact same

def Program.printed (program : Program) : List Token :=
  (program.tokens ++ [TokenKind.eof]).map fun kind => ⟨kind, .nowhere⟩

def Program.search : Program :=
  let name (text : String) : Expr := .identifier text .nowhere
  let binary (left : Expr) (operator : BinaryOperator) (right : Expr) : Expr :=
    .binary left operator right .nowhere
  let number (value : Nat) : Expr := .int value .nowhere
  [ .use ["lib", "io"] (.names ["read"]) (some "io") .nowhere,
    .struct "Row"
      [⟨"cells", .array (.array .int (some 3)) none⟩, ⟨"next", .ref (.struct "Row" (some "io"))⟩]
      .nowhere,
    .globalVar "seen" (.map .string .bool) (.map [] .nowhere) .nowhere,
    .function "select" [⟨"row", .ref (.struct "Row" none)⟩, ⟨"limit", .int⟩] .void
      [ .letVar "at" .int none .nowhere,
        .loop
          (binary
            (.unary .invert (binary (name "at") .lessEqual (.unary .negate (name "limit") .nowhere))
              .nowhere)
            .and
            (.bool true .nowhere))
          [ .assign (.index (.field (name "row") "int" .nowhere) (name "at") .nowhere)
              (binary
                (binary (name "at") .subtract (number 1))
                .subtract
                (binary
                  (.group (binary (number 2) .add (.zeros (number 3) .nowhere)) .nowhere)
                  .multiply
                  (number 4)))
              .nowhere,
            .branch (binary (name "at") .equal (.null .nowhere)) [.breaking .nowhere]
              [.returning (some (.array [name "at", .map [(number 1, number 2)] .nowhere] .nowhere))
                .nowhere]
              .nowhere ]
          .nowhere,
        .branch (name "at") [] [] .nowhere,
        .returning none .nowhere ]
      .nowhere,
    .expression
      (.call (name "select") [.ref (.field (name "a") "b" .nowhere) .nowhere, number 0] .nowhere)
      .nowhere ]

theorem parse_printed_search :
    Program.search.isPrintable = true ∧
      ∃ parsed, Program.ofTokens Program.search.printed = .ok parsed ∧
        parsed.unlocated = Program.search.unlocated := by
  have isPrintable : Program.search.isPrintable = true := by decide +kernel
  have arePrinted : Program.search.printed.map Token.kind = Program.search.tokens ++ [.eof] := by
    simp [Program.printed, Function.comp_def]
  exact ⟨isPrintable, (parse_printed Program.search isPrintable _ arePrinted).1⟩

end Noxy
