import Noxy.Proofs.Sufficiency

/-!
# What the parser accepts

An accepted expression is written by the tokens that are taken for it.  On every list of tokens with
an end, the parser stops with a program or with an error of its own, or it overflows its stack.
-/

namespace Noxy

namespace Parser

/-- The tokens that are taken for an expression are a way to write it, none is left out, and its
operands are grouped by the precedence of operators. -/
theorem expression_spelled {tokens rest : List Token} {expr : Expr} {depth : Nat}
    (isEnded : IsEnded tokens) (deep : depthFor tokens ≤ depth)
    (read : expression depth none tokens = .ok (expr, rest)) :
    ∃ used, tokens = used ++ rest ∧ Spells expr (used.map Token.kind) := by
  have isEnough : 24 * weight tokens + 15 ≤ depth := by
    rw [depthFor_eq] at deep
    omega
  have settles : Settles (.unfiled tokens) (Stage.unfiled tokens).expr (expression depth)
      (expression depth) tokens (Written 0 tokens) :=
    (enough (Nat.le_refl depth) .unlimited).expression tokens isEnough
  obtain ⟨⟨used, isUsed, _, spelled, _⟩, _⟩ := settles.read_of_ok (.all isEnded) read
  exact ⟨used, isUsed, spelled⟩

/-- `-[1,\n].length`, with the end of a line and a comma that the tree does not show. -/
def lengthTokens : List Token :=
  ([.symbol .minus, .symbol .openBracket, .int 1, .symbol .comma, .newline, .symbol .closeBracket,
    .symbol .dot, .identifier "length", .eof] : List TokenKind).map (⟨·, .nowhere⟩)

theorem expression_spelled_lengthTokens : ∃ used, lengthTokens = used ++ [⟨.eof, .nowhere⟩] ∧
    Spells (.unary .negate (.field (.array [.int 1 .nowhere] .nowhere) "length" .nowhere) .nowhere)
      (used.map Token.kind) :=
  expression_spelled ⟨⟨.eof, .nowhere⟩, by decide, rfl⟩ (Nat.le_refl _) rfl

theorem le_foldr_add {measure : α → Nat} {item : α} {items : List α} (member : item ∈ items) :
    measure item + base ≤ items.foldr (fun item total => measure item + total) base := by
  induction items with
  | nil => cases member
  | cons first rest ih =>
    rw [List.foldr_cons]
    rcases List.mem_cons.mp member with rfl | isLater
    · have atLeast : base ≤ rest.foldr (fun item total => measure item + total) base := by
        clear ih member
        induction rest with
        | nil => exact Nat.le_refl _
        | cons _ _ ih => exact Nat.le_trans ih (Nat.le_add_left _ _)
      exact Nat.add_le_add_left atLeast _
    · exact Nat.le_trans (ih isLater) (Nat.le_add_left _ _)

/-- A text inside a template is shorter than the text that the template stands in. -/
theorem length_lt_of_holds (tokenized : tokenize text file = .ok tokens)
    (holds : Holds tokens source) : source.length < text.length := by
  obtain ⟨token, member, pieces, format, isTemplate, isPiece⟩ := holds
  have small := depthFor_le tokenized
  have within : size token + 0 ≤ weight tokens := le_foldr_add member
  have inside : pieceSize (.interpolation source format) + 1 ≤ templateSize pieces :=
    le_foldr_add isPiece
  rw [pieceSize] at inside
  rw [size_eq_kindSize, isTemplate, kindSize] at within
  rw [depthFor_eq] at small
  omega

/-- A bounded stack changes nothing, unless it overflows. -/
theorem program_within (isEnded : IsEnded tokens) (room : Nat) :
    program (depthFor tokens) (some room) tokens = program (depthFor tokens) none tokens ∨
      room < depthFor tokens ∧
        program (depthFor tokens) (some room) tokens = .error (.fault .recursion) := by
  have unmoved (tokens : List Token) : tokens.map (Token.moved id) = tokens :=
    List.map_id'' (fun _ => rfl) tokens
  let stage (tight : Prop) : Stage := ⟨tokens, id, fun _ _ _ => unmoved _, tight⟩
  have roomy : Roomy (stage (room < depthFor tokens)) (depthFor tokens) (some room) := by
    refine (Nat.lt_or_ge room (depthFor tokens)).imp_right fun large frames isRoom => ?_
    cases isRoom
    exact large
  have there := settles_depthFor (stage (room < depthFor tokens)) _ (Nat.le_refl _) roomy
  cases read : program (depthFor tokens) none tokens with
  | error =>
    have repeats := (there.raised_of_error (.all isEnded) read).2
    rw [Stage.moved, unmoved] at repeats
    obtain ⟨_, failed, same⟩ | overflows := repeats
    · exact .inl (failed.trans (congrArg _ (same rfl)))
    · exact .inr overflows
  | ok =>
    -- what the stack without an end gives is moved by nothing, so it is what the other one gives
    have here := settles_depthFor (stage False) none (Nat.le_refl (depthFor tokens)) .unlimited
    have same := (here.read_of_ok (.all isEnded) read).2.resolve_right (·.1)
    have given := (there.read_of_ok (.all isEnded) read).2
    rw [Stage.moved, unmoved] at same given
    rw [← read, same]
    exact given

/-- The parser stops with a program or an error of its own, and on a bounded stack it stops in the
same way or overflows; it does not overflow where there is room for the depth of the tokens.  A
statement takes at least one token and leaves the end, and a text inside a template is shorter than
the one around it. -/
theorem parsing_stops (tokens : List Token) (isEnded : IsEnded tokens) :
    ((∃ program, Program.ofTokens tokens = .ok program) ∨
      ∃ cause, Program.ofTokens tokens = .error cause ∧ Raised tokens cause) ∧
    (∀ room, Program.ofTokens tokens (some room) = Program.ofTokens tokens ∨
      room < depthFor tokens ∧
        Program.ofTokens tokens (some room) = .error (.fault .recursion)) ∧
    (∀ depth stmt rest, 24 * weight tokens + 16 ≤ depth →
      statement depth none tokens = .ok (stmt, rest) →
      ∃ used, tokens = used ++ rest ∧ used ≠ [] ∧ ∀ token ∈ used, token.kind ≠ .eof) ∧
    ∀ text file source, tokenize text file = .ok tokens → Holds tokens source →
      source.length < text.length := by
  refine ⟨?_, fun room => ?_, fun depth stmt rest isEnough read => ?_,
    fun text file source => length_lt_of_holds⟩
  · cases read : program (depthFor tokens) none tokens with
    | ok result => exact .inl ⟨result.1, congrArg (Except.map Prod.fst) read⟩
    | error cause =>
      have raised := ((settles_depthFor (.unfiled tokens) none (Nat.le_refl _)
        .unlimited).raised_of_error (.all isEnded) read).1
      exact .inr ⟨cause, congrArg (Except.map Prod.fst) read, raised⟩
  · exact (program_within isEnded room).imp (congrArg (Except.map Prod.fst))
      fun overflows => ⟨overflows.1, (congrArg (Except.map Prod.fst) overflows.2).trans rfl⟩
  · have settles : Settles (.unfiled tokens) (Stmt.moved _) (statement depth)
        (statement (0 + depth)) tokens
        fun stmt _ left => weight left < weight tokens ∧ stmt.isWritable = true :=
      (settles_written .unlimited).1 tokens isEnough
    obtain ⟨⟨used, isUsed, taken, shorter, _⟩, _⟩ := settles.read_of_ok (.all isEnded) read
    refine ⟨used, isUsed, ?_, fun token member => (taken token member).1⟩
    rintro rfl
    rw [isUsed] at shorter
    exact Nat.lt_irrefl _ shorter

/-- An expression that stands alone is a statement, too. -/
theorem parsing_stops_lengthTokens :
    (∀ room, Program.ofTokens lengthTokens (some room) = Program.ofTokens lengthTokens ∨
      room < depthFor lengthTokens ∧
        Program.ofTokens lengthTokens (some room) = .error (.fault .recursion)) ∧
    ∃ used, lengthTokens = used ++ [⟨.eof, .nowhere⟩] ∧ used ≠ [] ∧
      ∀ token ∈ used, token.kind ≠ .eof := by
  obtain ⟨_, bounded, consumes, _⟩ :=
    parsing_stops lengthTokens ⟨⟨.eof, .nowhere⟩, by decide, rfl⟩
  exact ⟨bounded, consumes _ _ _ (Nat.le_refl _) rfl⟩

/-- Two parentheses are too many for a stack of fifteen readers. -/
theorem parentheses_overflow :
    Program.ofTokens [⟨.symbol .openParen, .nowhere⟩, ⟨.symbol .openParen, .nowhere⟩,
      ⟨.eof, .nowhere⟩] (some 15) = .error (.fault .recursion) :=
  rfl

end Parser

end Noxy
