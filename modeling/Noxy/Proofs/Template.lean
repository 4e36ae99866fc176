import Mathlib
import Noxy.Proofs.Discipline
import Noxy.Proofs.Lexing
import Noxy.Proofs.ReadingExpr
import Noxy.Proofs.Sufficiency

/-!
# Template strings

A template string is written as a text with holes.
-/

namespace Noxy

structure Hole where
  source : String
  value : Expr
  after : String

/-- A text with expressions in braces, each with the text behind it. -/
structure Template where
  start : String
  holes : List Hole

def openBraces? (nested : Nat) : List Char → Option Nat
  | [] => some nested
  | c :: rest =>
    if c = '}' then
      match nested with
      | 0 => none
      | outer + 1 => openBraces? outer rest
    else
      openBraces? (if c = '{' then nested + 1 else nested) rest

def isHoleText (source : List Char) : Bool :=
  !source.contains ':' && Text.trim source = source && openBraces? 0 source = some 0

def Hole.IsLegal (hole : Hole) : Prop :=
  isHoleText hole.source.toList = true ∧ Expr.parse hole.source = .ok hole.value

namespace Lexer

def needsTemplateEscape (c : Char) : Bool :=
  needsEscape c || c = '{' || c = '}'

end Lexer

def Hole.chars (hole : Hole) : List Char :=
  '{' :: (hole.source.toList ++
    '}' :: Lexer.escaped Lexer.needsTemplateEscape hole.after.toList)

/-- The template as it is written. -/
def Template.text (template : Template) : String :=
  String.ofList ('f' :: '"' ::
    (Lexer.escaped Lexer.needsTemplateEscape template.start.toList ++
      (template.holes.flatMap Hole.chars ++ ['"'])))

def Piece.ofText (text : String) : List Piece :=
  if text.isEmpty then [] else [.text text]

def Hole.pieces (hole : Hole) : List Piece :=
  .interpolation hole.source none :: Piece.ofText hole.after

def Template.pieces (template : Template) : List Piece :=
  Piece.ofText template.start ++ template.holes.flatMap Hole.pieces

namespace Lexer

/-! ### One token -/

theorem not_letter_of_needsTemplateEscape (needs : needsTemplateEscape c = true) :
    c ≠ 'n' ∧ c ≠ 't' ∧ c ≠ 'r' := by
  refine ⟨?_, ?_, ?_⟩ <;> (rintro rfl; cases needs)

theorem templateBody_escaped (file : String) (pieces : List Piece) (text rest done : List Char)
    (position : Position) :
    ∃ after, templateBody file pieces (.text done) position
        (escaped needsTemplateEscape text ++ rest) =
      templateBody file pieces (.text (text.reverse ++ done)) after rest := by
  induction text generalizing done position with
  | nil => exact ⟨position, rfl⟩
  | cons c text ih =>
    rw [escaped_cons, List.append_assoc, List.reverse_cons, List.append_assoc,
      List.singleton_append]
    by_cases needs : needsTemplateEscape c = true
    · obtain ⟨after, reads⟩ := ih (c :: done) ((position.next '\\').next (escapeLetter c))
      refine ⟨after, ?_⟩
      rw [if_pos needs]
      change templateBody file pieces (.text (unescape (escapeLetter c) :: done)) _
        (escaped needsTemplateEscape text ++ rest) = _
      rw [unescape_escapeLetter (not_letter_of_needsTemplateEscape needs), reads]
    · obtain ⟨after, reads⟩ := ih (c :: done) (position.next c)
      refine ⟨after, ?_⟩
      rw [if_neg needs]
      simp only [needsTemplateEscape, needsEscape, Bool.or_eq_true, decide_eq_true_eq,
        not_or] at needs
      obtain ⟨⟨⟨⟨⟨⟨noBackslash, noQuote⟩, noNewline⟩, -⟩, -⟩, noOpening⟩, -⟩ := needs
      rw [List.singleton_append, templateBody.eq_def]
      simp only [if_neg noQuote, if_neg noBackslash, if_neg noOpening, if_neg noNewline]
      exact reads

theorem templateBody_hole (file : String) (pieces : List Piece) (source rest done : List Char)
    (nested : Nat) (position : Position) (balanced : openBraces? nested source = some 0) :
    ∃ after, templateBody file pieces (.interpolation nested done) position
      (source ++ '}' :: rest) =
      templateBody file (interpolationPiece (done.reverse ++ source) :: pieces) (.text []) after
        rest := by
  fun_induction openBraces? nested source generalizing done position with
  | case1 =>
    cases balanced
    exact ⟨position.next '}', by rw [List.append_nil]; rfl⟩
  | case2 => cases balanced
  | case3 _ _ ih =>
    obtain ⟨after, reads⟩ := ih ('}' :: done) (position.next '}') balanced
    refine ⟨after, ?_⟩
    rw [List.reverse_cons, List.append_assoc] at reads
    exact reads
  | case4 _ c _ noClosing ih =>
    obtain ⟨after, reads⟩ := ih (c :: done) (position.next c) balanced
    refine ⟨after, ?_⟩
    rw [List.reverse_cons, List.append_assoc] at reads
    rw [List.cons_append, templateBody.eq_def]
    simp only [if_neg noClosing]
    exact reads

theorem interpolationPiece_of_isHoleText (isText : isHoleText source = true) :
    interpolationPiece source = .interpolation (String.ofList source) none := by
  simp only [isHoleText, Bool.and_eq_true, Bool.not_eq_true', decide_eq_true_eq] at isText
  obtain ⟨⟨noColon, isTrimmed⟩, -⟩ := isText
  have noneIsColon : ∀ c ∈ source, decide (c ≠ ':') = true := by
    intro _ member
    rw [decide_eq_true_eq]
    rintro rfl
    simp [member] at noColon
  have taken : (source ++ []).takeWhile (· ≠ ':') = source :=
    takeWhile_append_of_all noneIsColon nofun
  have dropped : (source ++ []).dropWhile (· ≠ ':') = [] :=
    dropWhile_append_of_all noneIsColon nofun
  rw [List.append_nil] at taken dropped
  simp only [interpolationPiece, taken, dropped, isTrimmed]

theorem reverse_addText :
    (addText pieces done).reverse =
      pieces.reverse ++ Piece.ofText (String.ofList done.reverse) := by
  cases done with
  | nil => simp [addText, Piece.ofText]
  | cons => simp [addText, Piece.ofText]

theorem templateBody_holes (holes : List Hole) (pieces : List Piece) (rest done : List Char)
    (position : Position) (areTexts : ∀ hole ∈ holes, isHoleText hole.source.toList = true) :
    ∃ after, templateBody file pieces (.text done) position
        (holes.flatMap Hole.chars ++ '"' :: rest) =
      .ok ⟨some (.template ((addText pieces done).reverse ++ holes.flatMap Hole.pieces)), after,
        rest⟩ := by
  induction holes generalizing pieces done position with
  | nil =>
    refine ⟨position.next '"', ?_⟩
    rw [List.flatMap_nil, List.flatMap_nil, List.append_nil, List.nil_append,
      templateBody.eq_def]
    rfl
  | cons hole holes ih =>
    obtain ⟨isText, areOthers⟩ := List.forall_mem_cons.mp areTexts
    have balanced : openBraces? 0 hole.source.toList = some 0 := by
      simp only [isHoleText, Bool.and_eq_true, decide_eq_true_eq] at isText
      exact isText.2
    -- the expression up to its brace, then the text after it, then the other holes
    obtain ⟨closed, readsHole⟩ := templateBody_hole file (addText pieces done)
      hole.source.toList (escaped needsTemplateEscape hole.after.toList ++
        (holes.flatMap Hole.chars ++ '"' :: rest)) [] 0 (position.next '{') balanced
    obtain ⟨reached, readsText⟩ := templateBody_escaped file
      (interpolationPiece hole.source.toList :: addText pieces done) hole.after.toList
      (holes.flatMap Hole.chars ++ '"' :: rest) [] closed
    obtain ⟨after, reads⟩ := ih (interpolationPiece hole.source.toList :: addText pieces done)
      (hole.after.toList.reverse ++ []) reached areOthers
    refine ⟨after, ?_⟩
    rw [List.reverse_nil, List.nil_append] at readsHole
    have opened : templateBody file pieces (.text done) position
        ((hole :: holes).flatMap Hole.chars ++ '"' :: rest) =
          templateBody file (addText pieces done) (.interpolation 0 []) (position.next '{')
            (hole.source.toList ++ '}' :: (escaped needsTemplateEscape hole.after.toList ++
              (holes.flatMap Hole.chars ++ '"' :: rest))) := by
      rw [List.flatMap_cons, Hole.chars]
      simp only [List.cons_append, List.append_assoc]
      rw [templateBody.eq_def]
      rfl
    rw [opened, readsHole, readsText, reads, reverse_addText,
      interpolationPiece_of_isHoleText isText, List.append_nil, List.reverse_reverse,
      String.ofList_toList, String.ofList_toList]
    simp [Hole.pieces]

theorem lexes_template (template : Template)
    (areTexts : ∀ hole ∈ template.holes, isHoleText hole.source.toList = true) :
    Lexes template.text.toList (some (.template template.pieces)) [] := by
  refine ⟨'f', _, by rw [Template.text, String.toList_ofList], fun file position => ?_⟩
  obtain ⟨opened, readsStart⟩ := templateBody_escaped file [] template.start.toList
    (template.holes.flatMap Hole.chars ++ ['"']) [] ((position.next 'f').next '"')
  obtain ⟨after, reads⟩ := templateBody_holes template.holes []
    [] (template.start.toList.reverse ++ []) opened areTexts
  refine ⟨after, ?_⟩
  rw [lexeme_of_startsName rfl]
  change templateBody file [] (.text []) ((position.next 'f').next '"') _ = _
  rw [readsStart, reads, reverse_addText, List.append_nil, List.reverse_reverse,
    String.ofList_toList]
  rfl

end Lexer

def TemplatePart.ofText (text : String) : List TemplatePart :=
  if text.isEmpty then [] else [.text text]

def Hole.parts (hole : Hole) : List TemplatePart :=
  .interpolation hole.value none :: TemplatePart.ofText hole.after

def Template.parts (template : Template) : List TemplatePart :=
  TemplatePart.ofText template.start ++ template.holes.flatMap Hole.parts

namespace Parser

/-! ### One expression -/

inductive PieceReads : Piece → TemplatePart → Prop
  | text (content : String) : PieceReads (.text content) (.text content)
  | interpolation {source : String} {value : Expr} (format : Option String)
      (parses : Expr.parse source = .ok value) :
      PieceReads (.interpolation source format) (.interpolation value format)

theorem bind_eq_ok {next : α → Reader β} : (first >>= next) tokens = .ok result ↔
      ∃ value rest, first tokens = .ok (value, rest) ∧ next value rest = .ok result := by
  change Except.bind (first tokens) _ = _ ↔ _
  cases first tokens with
  | error => exact ⟨nofun, nofun⟩
  | ok read =>
    refine ⟨fun ended => ⟨read.1, read.2, rfl, ended⟩, ?_⟩
    rintro ⟨_, _, same, ended⟩
    cases same
    exact ended

theorem liftM_eq_ok {step : Except Failure α} :
    (liftM step : Reader α) tokens = .ok result ↔ step = .ok result.1 ∧ result.2 = tokens := by
  cases step with
  | error => exact ⟨nofun, nofun⟩
  | ok =>
    constructor
    · intro same
      cases same
      exact ⟨rfl, rfl⟩
    · rintro ⟨same, rfl⟩
      cases same
      rfl

theorem parse_eq_ok (deep : 24 * (source.length + 2) ≤ depth) : Expr.parse source = .ok value ↔
      ∃ tokens rest, tokenize source = .ok tokens ∧
        expression depth none tokens = .ok (value, rest) := by
  unfold Expr.parse
  cases tokenized : tokenize source with
  | error => exact ⟨nofun, nofun⟩
  | ok tokens =>
    have isDeep := Nat.le_trans (depthFor_le tokenized) deep
    change Except.map Prod.fst (expression (depthFor tokens) none tokens) = _ ↔ _
    constructor
    · intro parses
      cases read : expression (depthFor tokens) none tokens with
      | error =>
        rw [read] at parses
        cases parses
      | ok result =>
        rw [read] at parses
        cases parses
        exact ⟨tokens, result.2, rfl, (expression_iff_of_tokenize tokenized isDeep).mpr read⟩
    · rintro ⟨_, _, same, read⟩
      cases same
      rw [(expression_iff_of_tokenize tokenized isDeep).mp read]
      rfl

/-- The texts of interpolations are accepted as `Expr.parse` accepts them, whatever they end with.
-/
theorem templateParts_eq_ok (deep : 24 * (templateSize pieces + 1) ≤ depth) :
    templateParts depth pieces none tokens = .ok (parts, left) ↔
      List.Forall₂ PieceReads pieces parts ∧ left = tokens := by
  induction pieces generalizing depth parts left with
  | nil =>
    obtain ⟨depth, rfl⟩ : ∃ depth', depth = depth' + 1 := ⟨depth - 1, by omega⟩
    rw [List.forall₂_nil_left_iff]
    constructor
    · intro same
      cases same
      exact ⟨rfl, rfl⟩
    · rintro ⟨rfl, rfl⟩
      rfl
  | cons piece _ ih =>
    rw [templateSize_cons] at deep
    obtain ⟨depth, rfl⟩ : ∃ depth', depth = depth' + 1 := ⟨depth - 1, by omega⟩
    cases piece with
    | text content =>
      rw [pieceSize] at deep
      rw [templateParts, bind_eq_ok]
      constructor
      · rintro ⟨_, _, isRest, ended⟩
        cases ended
        obtain ⟨areRead, isLeft⟩ := (ih (by omega)).mp isRest
        exact ⟨.cons (.text content) areRead, isLeft⟩
      · rintro ⟨_ | ⟨⟨⟩, areRead⟩, rfl⟩
        exact ⟨_, _, (ih (by omega)).mpr ⟨areRead, rfl⟩, rfl⟩
    | interpolation source format =>
      rw [pieceSize] at deep
      have isDeep : 24 * (source.length + 2) ≤ depth := by omega
      simp only [templateParts, bind_eq_ok, liftM_eq_ok]
      constructor
      · rintro ⟨inner, _, ⟨tokenized, rfl⟩, ⟨_, rest⟩, _, ⟨read, rfl⟩, _, _, areOthers, ended⟩
        cases ended
        obtain ⟨areRead, isLeft⟩ := (ih (by omega)).mp areOthers
        have parses := (parse_eq_ok isDeep).mpr ⟨inner, rest, tokenized, read⟩
        exact ⟨.cons (.interpolation format parses) areRead, isLeft⟩
      · rintro ⟨_ | ⟨isRead, areRead⟩, rfl⟩
        cases isRead with
        | interpolation _ parses =>
          obtain ⟨inner, rest, tokenized, read⟩ := (parse_eq_ok isDeep).mp parses
          exact ⟨inner, _, ⟨tokenized, rfl⟩, (_, rest), _, ⟨read, rfl⟩, _, _,
            (ih (by omega)).mpr ⟨areRead, rfl⟩, rfl⟩

attribute [local simp] bind_apply map_apply pure_apply ok_bind peek_cons advance_cons atEnd_eq
  acceptSymbol_eq skipNewlines_of_ne

theorem chain_of_operand (read : operand (depth + 1) level none tokens = .ok (expr, rest))
    (isEnd : frontKind rest = .eof) : chain (depth + 2) level none tokens = .ok (expr, rest) := by
  have noOperator : acceptOperator level rest = .ok (none, rest) :=
    acceptOperator_of_stops (by rw [isEnd]; rfl)
  simp [chain, chainRest, read, noOperator]

theorem ofTokens_template (isTemplate : token.kind = .template pieces) (isEnd : last.kind = .eof)
    (areRead : List.Forall₂ PieceReads pieces parts) :
    Program.ofTokens [token, last] =
      .ok [.expression (.template parts token.location) token.location] := by
  obtain ⟨depth, enough, deep⟩ : ∃ depth, 24 * (templateSize pieces + 1) ≤ depth ∧
      depthFor [token, last] = depth + 17 := by
    refine ⟨24 * (templateSize pieces + 1) + 7, by omega, ?_⟩
    simp only [depthFor, List.foldr_cons, List.foldr_nil, size_eq_kindSize, isTemplate, isEnd,
      kindSize]
    omega
  -- the template is read at every level of expressions, from the innermost to the outermost
  let Gives (reader : Reader Expr) : Prop :=
    reader [token, last] = .ok (.template parts token.location, [last])
  have signedRead : Gives (signed (depth + 3)) := by
    simp [Gives, signed, suffixed, suffixes, primary, isTemplate, isEnd,
      (templateParts_eq_ok enough).mpr ⟨areRead, rfl⟩]
  have product : Gives (chain (depth + 5) .product) := chain_of_operand (by rwa [operand]) isEnd
  have sum : Gives (chain (depth + 7) .sum) := chain_of_operand (by rwa [operand]) isEnd
  have comparison : Gives (chain (depth + 9) .comparison) :=
    chain_of_operand (by rwa [operand]) isEnd
  have invertedRead : Gives (inverted (depth + 10)) := by
    simpa [Gives, inverted, isTemplate] using comparison
  have conjunction : Gives (chain (depth + 12) .conjunction) :=
    chain_of_operand (by rwa [operand]) isEnd
  have read : Gives (expression (depth + 15)) := by
    rw [expression]
    exact chain_of_operand (by rwa [operand]) isEnd
  have statementRead : statement (depth + 16) none [token, last] =
      .ok (.expression (.template parts token.location) token.location, [last]) := by
    rw [statement, bind_of_ok (enter_none _), bind_apply, peek_cons, ok_bind, isTemplate]
    simp [read.trans rfl, isEnd]
  have endRead : program (depth + 16) none [last] = .ok ([], [last]) := by simp [program, isEnd]
  change Except.bind (program _ none _) _ = _
  rw [deep, program]
  simp [statementRead, endRead, isTemplate]
  rfl

end Parser

theorem reads_ofText (text : String) :
    List.Forall₂ Parser.PieceReads (Piece.ofText text) (TemplatePart.ofText text) := by
  unfold Piece.ofText TemplatePart.ofText
  split
  · exact .nil
  · exact .cons (.text text) .nil

theorem reads_holes {holes : List Hole} (areLegal : ∀ hole ∈ holes, hole.IsLegal) :
    List.Forall₂ Parser.PieceReads (holes.flatMap Hole.pieces) (holes.flatMap Hole.parts) := by
  induction holes with
  | nil => exact .nil
  | cons hole _ ih =>
    obtain ⟨isLegal, areOthers⟩ := List.forall_mem_cons.mp areLegal
    rw [List.flatMap_cons, List.flatMap_cons]
    refine List.rel_append ?_ (ih areOthers)
    exact .cons (.interpolation none isLegal.2) (reads_ofText hole.after)

/-! ### The meaning -/

open Exec (Approximates Yields Grows)

/-- The text, with the values of the expressions in their places. -/
def concatenated (fuel : Nat) (start : String) : List Hole → Exec String
  | [] => return start
  | hole :: holes => do
    let value ← eval fuel hole.value
    let shown ← Exec.view fun heap => heap.display value
    let rest ← concatenated fuel hole.after holes
    return start ++ shown ++ rest

def joinedParts (fuel : Nat) (parts : List TemplatePart) : Exec String := do
  let texts ← evalParts fuel parts
  return String.join texts

theorem joinedParts_text :
    joinedParts (fuel + 1) (.text content :: parts) = do
      let rest ← joinedParts fuel parts
      return content ++ rest := by
  simp [joinedParts, evalParts]

theorem joinedParts_interpolation :
    joinedParts (fuel + 1) (.interpolation value none :: parts) = do
      let value ← eval fuel value
      let shown ← Exec.view fun heap => heap.display value
      let rest ← joinedParts fuel parts
      return shown ++ rest := by
  simp [joinedParts, evalParts, Heap.formatted, Heap.formattedBy]

theorem grows_joinedParts : Grows fun fuel => joinedParts fuel parts :=
  fun fuel => .before (fueled (.evalParts parts) fuel) _

theorem joinedParts_zero : joinedParts 0 parts = Exec.exhausted := by
  unfold joinedParts evalParts
  rfl

theorem joinedParts_ofText (text : String) (parts : List TemplatePart) :
    Approximates (joinedParts fuel (TemplatePart.ofText text ++ parts)) (do
      let rest ← joinedParts fuel parts
      return text ++ rest) := by
  unfold TemplatePart.ofText
  split
  · next isEmpty =>
      rw [String.isEmpty_iff.mp isEmpty]
      simpa using .refl _
  · cases fuel with
    | zero =>
      rw [joinedParts_zero]
      exact .exhausted
    | succ fuel =>
      rw [List.singleton_append, joinedParts_text]
      exact .before (grows_joinedParts fuel) _

theorem ofText_joinedParts (text : String) (parts : List TemplatePart) :
    Approximates (do
      let rest ← joinedParts fuel parts
      return text ++ rest) (joinedParts (fuel + 1) (TemplatePart.ofText text ++ parts)) := by
  unfold TemplatePart.ofText
  split
  · next isEmpty =>
      rw [String.isEmpty_iff.mp isEmpty]
      simpa using grows_joinedParts fuel
  · rw [List.singleton_append, joinedParts_text]
    exact .refl _

theorem grows_concatenated (start : String) : Grows fun fuel => concatenated fuel start holes := by
  intro fuel
  induction holes generalizing start with
  | nil => exact .refl _
  | cons hole _ ih =>
    exact .bind (fueled (.eval hole.value) fuel) fun _ =>
      .after _ fun _ => .before (ih hole.after) _

theorem joinedParts_concatenated (fuel : Nat) (start : String) (holes : List Hole) :
    Approximates (joinedParts fuel (TemplatePart.ofText start ++ holes.flatMap Hole.parts))
      (concatenated fuel start holes) := by
  induction holes generalizing start fuel with
  | nil =>
    refine (joinedParts_ofText start []).trans ?_
    cases fuel with
    | zero =>
      rw [joinedParts_zero]
      exact .exhausted
    | succ =>
      simp only [joinedParts, evalParts, concatenated, pure_bind, String.join_nil,
        String.append_empty]
      exact .refl _
  | cons hole holes ih =>
    refine (joinedParts_ofText start _).trans ?_
    cases fuel with
    | zero =>
      rw [joinedParts_zero]
      exact .exhausted
    | succ fuel =>
      rw [List.flatMap_cons, Hole.parts, List.cons_append, joinedParts_interpolation]
      simp only [bind_assoc, pure_bind, ← String.append_assoc]
      refine .bind (fueled (.eval hole.value) fuel) fun _ => .after _ fun _ => ?_
      exact .before ((ih fuel hole.after).trans (grows_concatenated hole.after fuel)) _

theorem concatenated_joinedParts (start : String) (holes : List Hole) :
    ∃ larger, Approximates (concatenated fuel start holes)
      (joinedParts larger (TemplatePart.ofText start ++ holes.flatMap Hole.parts)) := by
  induction holes generalizing start with
  | nil =>
    refine ⟨2, Approximates.trans ?_ (ofText_joinedParts start [])⟩
    simp only [joinedParts, evalParts, concatenated, pure_bind, String.join_nil,
      String.append_empty]
    exact .refl _
  | cons hole _ ih =>
    obtain ⟨larger, approximates⟩ := ih hole.after
    refine ⟨max fuel larger + 2, Approximates.trans ?_ (ofText_joinedParts start _)⟩
    rw [List.flatMap_cons, Hole.parts, List.cons_append, joinedParts_interpolation]
    simp only [bind_assoc, pure_bind, ← String.append_assoc]
    have growing := (fueled (.eval hole.value)).approximates (Nat.le_max_left fuel larger)
    refine .bind growing fun _ => .after _ fun _ => .before ?_ _
    exact approximates.trans ((grows_joinedParts).approximates (Nat.le_max_right fuel larger))

theorem yields_template (template : Template) (location : Location) (machine : Machine)
    (result : EStateM.Result Signal Machine Value) :
    Yields (fun fuel => eval fuel (.template template.parts location)) machine result ↔
      Yields (fun fuel => do
        let text ← concatenated fuel template.start template.holes
        return .string text) machine result := by
  have evalJoined (fuel : Nat) : eval (fuel + 1) (.template template.parts location) = do
      let text ← joinedParts fuel template.parts
      return .string text := by
    simp [eval, joinedParts]
  constructor
  · refine fun yields => yields.of_approximates fun fuel => ⟨fuel, ?_⟩
    cases fuel with
    | zero =>
      unfold eval
      exact .exhausted
    | succ fuel =>
      have joined := joinedParts_concatenated fuel template.start template.holes
      rw [evalJoined]
      exact .before (joined.trans (grows_concatenated _ fuel)) _
  · refine fun yields => yields.of_approximates fun fuel => ?_
    obtain ⟨larger, approximates⟩ := concatenated_joinedParts template.start template.holes
    refine ⟨larger + 1, ?_⟩
    rw [evalJoined]
    exact .before approximates _

/--
A template string is one token and one expression, and means the concatenation of its texts with
those of the values in its holes.
-/
theorem template_concatenates (template : Template)
    (areLegal : ∀ hole ∈ template.holes, hole.IsLegal) (file : String) :
    ∃ location last,
      tokenize template.text file = .ok [⟨.template template.pieces, location⟩, ⟨.eof, last⟩] ∧
      Program.parse template.text file =
        .ok [.expression (.template template.parts location) location] ∧
      ∀ machine result,
        Yields (fun fuel => eval fuel (.template template.parts location)) machine result ↔
          Yields (fun fuel => do
            let text ← concatenated fuel template.start template.holes
            return .string text) machine result := by
  have lexes := Lexer.lexes_template template fun hole member => (areLegal hole member).1
  obtain ⟨tokens, tokenized, areKinds⟩ := lexes.scans .nil file Position.start
  have areRead : List.Forall₂ Parser.PieceReads template.pieces template.parts :=
    List.rel_append (reads_ofText template.start) (reads_holes areLegal)
  obtain ⟨token, others, rfl, isTemplate, areOthers⟩ := List.map_eq_cons_iff.mp areKinds
  obtain ⟨last, none, rfl, isEnd, areNone⟩ := List.map_eq_cons_iff.mp areOthers
  cases List.map_eq_nil_iff.mp areNone
  refine ⟨token.location, last.location, ?_, ?_, ?_⟩
  · rw [← isTemplate, ← isEnd]
    exact tokenized
  · have parsed := Parser.ofTokens_template isTemplate isEnd areRead
    change Except.bind (tokenize template.text file) _ = _
    rw [show tokenize template.text file = .ok [token, last] from tokenized]
    exact parsed
  · exact yields_template template token.location

def Template.nested : Template :=
  let here : Location := Position.start.inFile standardInput
  let name : Expr := .identifier "x" here
  { start := "\x7b"
    holes :=
      [ ⟨"x", name, "\n"⟩,
        ⟨"f\"\x7bx\x7d!\"", .template [.interpolation name none, .text "!"] here, ""⟩ ] }

theorem template_concatenates_nested :
    (∀ hole ∈ Template.nested.holes, hole.IsLegal) ∧
      ∃ location last,
        tokenize Template.nested.text "nested.nx" =
          .ok [⟨.template Template.nested.pieces, location⟩, ⟨.eof, last⟩] ∧
        Program.parse Template.nested.text "nested.nx" =
          .ok [.expression (.template Template.nested.parts location) location] ∧
        ∀ machine result,
          Yields (fun fuel => eval fuel (.template Template.nested.parts location)) machine result ↔
            Yields (fun fuel => do
              let text ← concatenated fuel Template.nested.start Template.nested.holes
              return .string text) machine result := by
  have areLegal : ∀ hole ∈ Template.nested.holes, hole.IsLegal := by
    refine List.forall_mem_cons.mpr ⟨⟨by decide +kernel, by cbv⟩, ?_⟩
    exact List.forall_mem_singleton.mpr ⟨by decide +kernel, by cbv⟩
  exact ⟨areLegal, template_concatenates Template.nested areLegal "nested.nx"⟩

/-! ### Texts of interpolations -/

theorem eq_of_ends (same : used ++ rest = earlier ++ left)
    (noEnd : ∀ token ∈ used, token.kind ≠ .eof) (ends : Parser.frontKind rest = .eof)
    (noEnd' : ∀ token ∈ earlier, token.kind ≠ .eof) (ends' : Parser.frontKind left = .eof) :
    used = earlier := by
  have upTo {run left : List Token} (noEnd : ∀ token ∈ run, token.kind ≠ .eof)
      (ends : Parser.frontKind left = .eof) :
      (run ++ left).takeWhile (fun token => token.kind ≠ .eof) = run :=
    Lexer.takeWhile_append_of_all (by simpa using noEnd)
      (by cases left <;> simp_all [Parser.frontKind])
  rw [← upTo noEnd ends, same, upTo noEnd' ends']

/--
In an accepted text, the text of every interpolation begins with an expression, and so do those of
the interpolations in it.  A template is accepted if and only if its interpolations are texts that
begin with expressions, and what comes after the expressions is dropped.
-/
theorem interpolations_begin_with_expressions {source file : String} {program : List Stmt}
    {tokens : List Token} (parsed : Program.parse source file = .ok program)
    (tokenized : tokenize source file = .ok tokens) :
    (∀ text, Parser.Holds tokens text → Parser.BeginsExpression text) ∧
    ∀ pieces parts depth others left, 24 * (Parser.templateSize pieces + 1) ≤ depth →
      (Parser.templateParts depth pieces none others = .ok (parts, left) ↔
        List.Forall₂ Parser.PieceReads pieces parts ∧ left = others) := by
  refine ⟨?_, fun _ _ _ _ _ deep => Parser.templateParts_eq_ok deep⟩
  rintro text ⟨token, member, pieces, format, holds⟩
  obtain ⟨used, rest, tokenized', taken, ends, _⟩ := Program.taken_of_parse parsed
  obtain ⟨earlier, last, rfl, noEnd, isEnd⟩ := Lexer.scan_ends tokenized
  have same := Except.ok.inj (tokenized'.symm.trans tokenized)
  obtain rfl := eq_of_ends same (fun token member => (taken token member).1) ends noEnd isEnd
  rcases List.mem_append.mp member with isUsed | isLast
  · exact (taken token isUsed).2 pieces holds.1 text format holds.2
  · rw [List.mem_singleton.mp isLast, isEnd] at holds
    cases holds.1

/-- A text inside a template may end with anything, also where the template is inside another. -/
theorem interpolations_begin_with_expressions_leftover :
    Parser.BeginsExpression "f\"\x7b1\x7d\" 2" ∧
      Parser.templateParts 168 [.interpolation "1 2" none] none [] =
        .ok ([.interpolation (.int 1 (Position.start.inFile standardInput)) none], []) := by
  have parsed : ∃ program, Program.parse "f\"\x7bf\"\x7b1\x7d\" 2\x7d\"" = .ok program :=
    ⟨_, by cbv⟩
  obtain ⟨program, isProgram⟩ := parsed
  have tokenized : tokenize "f\"\x7bf\"\x7b1\x7d\" 2\x7d\"" =
      .ok [⟨.template [.interpolation "f\"\x7b1\x7d\" 2" none], ⟨1, 1, standardInput⟩⟩,
        ⟨.eof, ⟨1, 14, standardInput⟩⟩] := by cbv
  obtain ⟨begin, reads⟩ := interpolations_begin_with_expressions isProgram tokenized
  have parses : Expr.parse "1 2" = .ok (.int 1 (Position.start.inFile standardInput)) := by cbv
  exact ⟨begin _ ⟨_, List.mem_cons_self, _, _, rfl, List.mem_cons_self⟩,
    (reads _ _ _ _ _ (by decide)).mpr ⟨.cons (.interpolation none parses) .nil, rfl⟩⟩

/-- The text is accepted, though the expression in its interpolation ends before the interpolation.
-/
theorem leftover_is_accepted :
    (∃ program, Program.parse "f\"\x7b1 2\x7d\"" = .ok program) ∧ ∃ used rest value,
      tokenize "1 2" = .ok (used ++ rest) ∧
      Parser.expression (Parser.depthFor (used ++ rest)) none (used ++ rest) =
        .ok (value, rest) ∧
      Parser.frontKind rest = .int 2 :=
  ⟨⟨_, by cbv⟩, [⟨.int 1, ⟨1, 1, standardInput⟩⟩],
    [⟨.int 2, ⟨1, 3, standardInput⟩⟩, ⟨.eof, ⟨1, 4, standardInput⟩⟩],
    .int 1 ⟨1, 1, standardInput⟩, by cbv, by cbv, rfl⟩

end Noxy
