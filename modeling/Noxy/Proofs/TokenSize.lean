import Noxy.Program.Parser

/-!
# The size of the tokens of a text

A text of some length has tokens of a total size that is no larger, but for the token at its end.
-/

namespace Noxy

variable {read : Lexeme}

namespace Parser

def pieceSize : Piece → Nat
  | .text _ => 1
  | .interpolation source _ => 2 + source.length

def templateSize (pieces : List Piece) : Nat :=
  pieces.foldr (fun piece total => pieceSize piece + total) 1

def kindSize : TokenKind → Nat
  | .template pieces => templateSize pieces
  | _ => 1

def isPlain : TokenKind → Bool
  | .eof | .template _ => false
  | _ => true

@[simp]
theorem templateSize_nil : templateSize [] = 1 :=
  rfl

@[simp]
theorem templateSize_cons (piece : Piece) (pieces : List Piece) :
    templateSize (piece :: pieces) = pieceSize piece + templateSize pieces :=
  rfl

theorem templateSize_append (pieces others : List Piece) :
    templateSize (pieces ++ others) + 1 = templateSize pieces + templateSize others := by
  induction pieces with
  | nil => simp only [List.nil_append, templateSize_nil, Nat.add_comm]
  | cons =>
    simp only [List.cons_append, templateSize_cons]
    omega

theorem templateSize_reverse : templateSize pieces.reverse = templateSize pieces := by
  induction pieces with
  | nil => rfl
  | cons piece pieces =>
    have parts := templateSize_append pieces.reverse [piece]
    simp only [List.reverse_cons, templateSize_cons, templateSize_nil] at parts ⊢
    omega

theorem size_eq_kindSize (token : Token) : size token = kindSize token.kind := by
  unfold size kindSize
  cases token.kind with
  | template pieces =>
    change pieces.foldr _ 1 = templateSize pieces
    induction pieces with
    | nil => rfl
    | cons piece _ ih =>
      cases piece with
      | text => simp only [List.foldr_cons, ih, templateSize_cons, pieceSize, Nat.add_comm]
      | interpolation =>
        simp only [List.foldr_cons, ih, templateSize_cons, pieceSize]
        omega
  | _ => rfl

end Parser

namespace Lexer

open Noxy.Parser (pieceSize templateSize kindSize isPlain)

/-! ### Templates -/

def TemplateMode.size : TemplateMode → Nat
  | .text done => done.length
  | .interpolation _ done => done.length + 1

theorem templateSize_addText (pieces : List Piece) (done : List Char) :
    templateSize (addText pieces done) ≤ templateSize pieces + done.length := by
  cases done with
  | nil => exact Nat.le_refl _
  | cons =>
    simp only [addText, List.isEmpty_cons, Bool.false_eq_true, ↓reduceIte,
      Parser.templateSize_cons, pieceSize, List.length_cons]
    omega

theorem length_trim_le (text : List Char) : (Text.trim text).length ≤ text.length := by
  unfold Text.trim Text.trimRight Text.trimLeft
  calc ((text.dropWhile Text.isBlank).reverse.dropWhile Text.isBlank).reverse.length
      = ((text.dropWhile Text.isBlank).reverse.dropWhile Text.isBlank).length :=
        List.length_reverse
    _ ≤ (text.dropWhile Text.isBlank).reverse.length := (List.dropWhile_suffix _).length_le
    _ = (text.dropWhile Text.isBlank).length := List.length_reverse
    _ ≤ text.length := (List.dropWhile_suffix _).length_le

theorem pieceSize_interpolationPiece (content : List Char) :
    pieceSize (interpolationPiece content) ≤ content.length + 2 := by
  have trimmed := length_trim_le (content.takeWhile (· ≠ ':'))
  have taken := (List.takeWhile_sublist (fun c => decide (c ≠ ':')) (l := content)).length_le
  unfold interpolationPiece
  split <;> simp only [pieceSize, String.length_ofList] <;> omega

def TemplateWithin (read : Lexeme) (bound : Nat) : Prop :=
  ∃ pieces, read.kind = some (.template pieces) ∧
    templateSize pieces + read.rest.length + 1 ≤ bound

theorem TemplateWithin.mono (within : TemplateWithin read bound) (isLarger : bound ≤ larger) :
    TemplateWithin read larger := by
  obtain ⟨pieces, isTemplate, small⟩ := within
  exact ⟨pieces, isTemplate, Nat.le_trans small isLarger⟩

theorem templateBody_within (reads : templateBody file pieces mode position chars = .ok read) :
    TemplateWithin read (templateSize pieces + mode.size + chars.length) := by
  fun_induction templateBody file pieces mode position chars with
  | case1 => cases reads
  | case2 _ _ _ done ih =>
    have closed := pieceSize_interpolationPiece done.reverse
    rw [List.length_reverse] at closed
    refine (ih reads).mono ?_
    simp only [Parser.templateSize_cons, TemplateMode.size, List.length_nil, List.length_cons]
    omega
  | case3 | case4 | case7 | case10 =>
    rename_i ih
    refine (ih reads).mono ?_
    simp only [TemplateMode.size, List.length_cons]
    omega
  | case5 pieces _ _ done =>
    cases reads
    have added := templateSize_addText pieces done
    refine ⟨_, rfl, ?_⟩
    simp only [Parser.templateSize_reverse, TemplateMode.size, List.length_cons]
    omega
  | case6 => cases reads
  | case8 pieces _ _ done _ _ ih =>
    have added := templateSize_addText pieces done
    refine (ih reads).mono ?_
    simp only [TemplateMode.size, List.length_cons, List.length_nil]
    omega
  | case9 => cases reads

/-! ### All lexemes -/

def SizeWithin (read : Lexeme) (bound : Nat) : Prop :=
  ∀ kind ∈ read.kind, kind ≠ .eof ∧ kindSize kind + read.rest.length ≤ bound

theorem sizeWithin_of_kind (shorter : read.rest.length ≤ bound)
    (arePlain : ∀ kind ∈ read.kind, isPlain kind = true) : SizeWithin read (bound + 1) := by
  intro kind isKind
  have plain := arePlain kind isKind
  cases kind with
  | eof | template => cases plain
  | _ => exact ⟨nofun, by change 1 + _ ≤ _; omega⟩

theorem isPlain_nameKind : isPlain (nameKind name) = true := by
  simp only [nameKind]
  split <;> rfl

theorem nameLexeme_size (reads : nameLexeme file position first rest = .ok read)
    (shorter : read.rest.length ≤ rest.length) : SizeWithin read (rest.length + 1) := by
  unfold nameLexeme at reads
  split at reads
  · obtain ⟨_, isTemplate, within⟩ := templateBody_within reads
    intro kind isKind
    cases isTemplate.symm.trans isKind
    simp only [Parser.templateSize_nil, TemplateMode.size, List.length_nil] at within
    simp only [kindSize, List.length_cons]
    exact ⟨nofun, by omega⟩
  · obtain ⟨_, _, isBytes⟩ := bytesBody_takes reads
    exact sizeWithin_of_kind shorter fun _ isKind => by cases isBytes.symm.trans isKind; rfl
  · obtain ⟨_, _, isBytes⟩ := bytesBody_takes reads
    exact sizeWithin_of_kind shorter fun _ isKind => by cases isBytes.symm.trans isKind; rfl
  · cases reads
    exact sizeWithin_of_kind shorter fun _ isKind => by cases isKind; exact isPlain_nameKind

theorem numberLexeme_size (reads : numberLexeme position first rest = .ok read)
    (shorter : read.rest.length ≤ rest.length) : SizeWithin read (rest.length + 1) := by
  unfold numberLexeme at reads
  dsimp only at reads
  split at reads <;> split at reads
  case h_1 | h_1 =>
    cases reads
    exact sizeWithin_of_kind shorter fun _ isKind => by cases isKind; rfl
  all_goals cases reads

theorem lexeme_size (reads : lexeme file position first rest = .ok read) :
    SizeWithin read (rest.length + 1) := by
  have shorter := lexeme_rest reads
  unfold lexeme at reads
  split at reads
  · cases reads
    exact fun _ isKind => nomatch isKind
  split at reads
  · cases reads
    exact sizeWithin_of_kind shorter fun _ isKind => by cases isKind; rfl
  split at reads
  · cases reads
    exact fun _ isKind => nomatch isKind
  split at reads
  · exact numberLexeme_size reads shorter
  split at reads
  · obtain ⟨_, _, isString⟩ := stringBody_takes reads
    exact sizeWithin_of_kind shorter fun _ isKind => by cases isString.symm.trans isKind; rfl
  split at reads
  · exact nameLexeme_size reads shorter
  · unfold symbolLexeme at reads
    split at reads
    · cases reads
      exact sizeWithin_of_kind shorter fun _ isKind => by cases isKind; rfl
    · cases reads

/-! ### Whole texts -/

theorem scan_size (scans : scan file position chars = .ok tokens) :
    tokens.foldr (fun token total => Parser.size token + total) 1 ≤ chars.length + 2 := by
  refine scan_induction (fun _ => Nat.le_refl _) ?_ scans
  intro _ _ _ read _ reads small
  cases isKind : read.kind with
  | none =>
    have shorter := lexeme_rest reads
    simp only [Lexeme.tokens, isKind, Option.map_none, Option.toList_none, List.nil_append,
      List.length_cons]
    omega
  | some kind =>
    obtain ⟨_, _⟩ := lexeme_size reads kind isKind
    simp only [Lexeme.tokens, isKind, Option.map_some, Option.toList_some, List.cons_append,
      List.nil_append, List.foldr_cons, Parser.size_eq_kindSize, List.length_cons] at small ⊢
    omega

theorem scan_ends (scans : scan file position chars = .ok tokens) :
    ∃ earlier last, tokens = earlier ++ [last] ∧ (∀ token ∈ earlier, token.kind ≠ .eof) ∧
      last.kind = .eof := by
  refine scan_induction (fun _ => ⟨[], _, rfl, nofun, rfl⟩) ?_ scans
  rintro position _ _ read _ reads ⟨earlier, last, rfl, noEnd, isEnd⟩
  refine ⟨read.tokens (position.inFile file) ++ earlier, last, (List.append_assoc ..).symm,
    ?_, isEnd⟩
  have notEnd := fun kind isKind => (lexeme_size reads kind isKind).1
  simpa [Lexeme.tokens, or_imp, forall_and] using ⟨notEnd, noEnd⟩

end Lexer

theorem depthFor_le (tokenized : tokenize source file = .ok tokens) :
    Parser.depthFor tokens ≤ 24 * (source.length + 2) := by
  have small := Lexer.scan_size tokenized
  rw [String.length_toList] at small
  exact Nat.mul_le_mul_left 24 small

end Noxy
