import Noxy.Proofs.Lexing

/-!
# Writing tokens and reading them back

Tokens are written one after another with gaps between them.
-/

namespace Noxy

variable {kind : TokenKind}

namespace TokenKind

def written : TokenKind → List Char
  | .int value => Nat.toDigits 10 value
  | .string value => '"' :: (Lexer.escaped Lexer.needsEscape value.toList ++ ['"'])
  | .identifier name => name.toList
  | .keyword word => word.text.toList
  | .symbol sign => sign.text.toList
  | .newline => ['\n']
  | .float _ | .bytes _ | .template _ | .eof => []

def isPlain : TokenKind → Bool
  | .int value => (Nat.toDigits 10 value).length ≤ Number.maxIntegerDigits
  | .identifier name => Lexer.isNameText name.toList && (Keyword.ofText? name).isNone
  | .string _ | .keyword _ | .symbol _ | .newline => true
  | .float _ | .bytes _ | .template _ | .eof => false

theorem lexes_written (isPlain : kind.isPlain = true)
    (apart : kind ≠ .newline → Lexer.StandsApart rest) :
    Lexer.Lexes (kind.written ++ rest) (some kind) rest := by
  cases kind with
  | int => exact Lexer.lexes_int (of_decide_eq_true isPlain) (apart nofun)
  | string value =>
    have lexes := Lexer.lexes_string value rest
    simpa [written] using lexes
  | identifier =>
    simp only [TokenKind.isPlain, Bool.and_eq_true, Option.isNone_iff_eq_none] at isPlain
    exact Lexer.lexes_identifier isPlain.1 isPlain.2 (apart nofun)
  | keyword word => exact Lexer.lexes_keyword word (apart nofun)
  | symbol sign => exact Lexer.lexes_symbol sign (apart nofun)
  | newline => exact ⟨'\n', rest, rfl, fun _ _ => ⟨_, rfl⟩⟩
  | float | bytes | template | eof => cases isPlain

end TokenKind

/-- What stands between two tokens. -/
structure Gap where
  separators : List Char
  comment : Option (List Char)

namespace Gap

def text (gap : Gap) : List Char :=
  gap.separators ++
    match gap.comment with
    | none => []
    | some comment => '/' :: '/' :: comment

def endsLine : Option TokenKind → Bool
  | none | some .newline => true
  | some _ => false

/-- Whether the gap may stand between these tokens, where `none` stands for the ends of the text.
Comments stand only at the end of a line.  Separators may be missing at the start of a line, and at
its end if there is no comment. -/
def fits (before : Option TokenKind) (gap : Gap) (after : Option TokenKind) : Bool :=
  gap.separators.all Lexer.isSeparator &&
    (match gap.comment with
      | none => true
      | some comment => !comment.contains '\n' && endsLine after) &&
    (!gap.separators.isEmpty || endsLine before || (endsLine after && gap.comment.isNone))

theorem fits_iff {gap : Gap} :
    gap.fits before after = true ↔
      (∀ c ∈ gap.separators, Lexer.isSeparator c = true) ∧
        (∀ comment ∈ gap.comment, '\n' ∉ comment ∧ endsLine after = true) ∧
        (gap.separators ≠ [] ∨ endsLine before = true ∨
          endsLine after = true ∧ gap.comment = none) := by
  obtain ⟨_, comment⟩ := gap
  cases comment <;> simp [fits, and_assoc, or_assoc]

end Gap

/-- Tokens written with gaps before and behind them. -/
def layout (gap : Gap) : List (TokenKind × Gap) → List Char
  | [] => gap.text
  | (kind, next) :: items => gap.text ++ (kind.written ++ layout next items)

/-- Gaps keep tokens apart that would run together. -/
def isSpaced (before : Option TokenKind) (gap : Gap) : List (TokenKind × Gap) → Bool
  | [] => gap.fits before none
  | (kind, next) :: items => gap.fits before (some kind) && isSpaced (some kind) next items

variable {gap : Gap} {items : List (TokenKind × Gap)}

theorem isSpaced_cons :
    isSpaced before gap ((kind, next) :: items) = true ↔
      gap.fits before (some kind) = true ∧ isSpaced (some kind) next items = true := by
  rw [isSpaced, Bool.and_eq_true]

theorem Gap.scans_text (fits : gap.fits before after = true)
    (starts : ∀ c ∈ rest.head?, Lexer.isSeparator c = false)
    (endsLine : endsLine after = true → ∀ c ∈ rest.head?, c = '\n')
    (scans : Lexer.Scans rest kinds) :
    Lexer.Scans (gap.text ++ rest) kinds := by
  obtain ⟨separators, comment⟩ := gap
  obtain ⟨areSeparators, commentFits, -⟩ := Gap.fits_iff.mp fits
  have skipSeparators : ∀ {chars : List Char},
      (∀ c ∈ chars.head?, Lexer.isSeparator c = false) → Lexer.Scans chars kinds →
      Lexer.Scans (separators ++ chars) kinds := by
    intro _ ends scans
    by_cases none : separators = []
    · rw [none]
      exact scans
    · exact (Lexer.lexes_blanks none areSeparators ends).scans scans
  cases comment with
  | none =>
    rw [Gap.text, List.append_nil]
    exact skipSeparators starts scans
  | some comment =>
    obtain ⟨oneLine, atEnd⟩ := commentFits comment rfl
    have lexes := Lexer.lexes_comment oneLine (endsLine atEnd)
    rw [Gap.text, List.append_assoc]
    refine skipSeparators ?_ (lexes.scans scans)
    intro _ isHead
    cases isHead
    rfl

theorem Gap.standsApart_text (inLine : kind ≠ .newline) (fits : gap.fits (some kind) after = true)
    (endsLine : endsLine after = true → ∀ c ∈ rest.head?, c = '\n') :
    Lexer.StandsApart (gap.text ++ rest) := by
  obtain ⟨separators, _⟩ := gap
  obtain ⟨areSeparators, -, distance⟩ := Gap.fits_iff.mp fits
  cases separators with
  | cons =>
    intro _ isHead
    cases isHead
    exact Or.inl (areSeparators _ List.mem_cons_self)
  | nil =>
    rcases distance with some | atStart | ⟨atEnd, noComment⟩
    · exact absurd rfl some
    · cases kind <;> first | exact absurd rfl inLine | cases atStart
    · cases noComment
      exact fun c isHead => Or.inr (endsLine atEnd c isHead)

theorem head_written_of_endsLine (endsLine : Gap.endsLine (some kind) = true) :
    ∀ c ∈ (kind.written ++ rest).head?, c = '\n' := by
  cases kind with
  | newline =>
    intro _ isHead
    cases isHead
    rfl
  | _ => cases endsLine

theorem standsApart_layout
    (inLine : kind ≠ .newline) (spaced : isSpaced (some kind) gap items = true) :
    Lexer.StandsApart (layout gap items) := by
  cases items with
  | nil =>
    rw [layout, ← List.append_nil gap.text]
    exact Gap.standsApart_text inLine spaced fun _ => nofun
  | cons =>
    exact Gap.standsApart_text inLine (isSpaced_cons.mp spaced).1 head_written_of_endsLine

theorem scans_layout (arePlain : ∀ item ∈ items, item.1.isPlain = true)
    (spaced : isSpaced before gap items = true) :
    Lexer.Scans (layout gap items) (items.map Prod.fst ++ [.eof]) := by
  induction items generalizing before gap with
  | nil =>
    rw [layout, ← List.append_nil gap.text]
    exact Gap.scans_text spaced nofun (fun _ => nofun) Lexer.Scans.nil
  | cons item _ ih =>
    obtain ⟨_, _⟩ := item
    obtain ⟨fits, spacedRest⟩ := isSpaced_cons.mp spaced
    have scansRest :=
      ih (fun item member => arePlain item (List.mem_cons_of_mem _ member)) spacedRest
    have lexes := TokenKind.lexes_written (arePlain _ List.mem_cons_self)
      fun inLine => standsApart_layout inLine spacedRest
    exact Gap.scans_text fits lexes.head_not_separator head_written_of_endsLine
      (lexes.scans scansRest)

/-- Reading a written text gives back the tokens it was written from, followed by the end of the
text. -/
theorem tokenize_layout (gap : Gap) (items : List (TokenKind × Gap)) (file : String)
    (arePlain : ∀ item ∈ items, item.1.isPlain = true) (spaced : isSpaced none gap items = true) :
    ∃ tokens, tokenize (String.ofList (layout gap items)) file = .ok tokens ∧
      tokens.map Token.kind = items.map Prod.fst ++ [.eof] := by
  rw [tokenize, String.toList_ofList]
  exact scans_layout arePlain spaced file Position.start

def dividedTokens : List (TokenKind × Gap) :=
  [(.identifier "f", ⟨[' '], none⟩), (.string "tab\t \"quoted\" \\", ⟨['\t'], none⟩),
    (.symbol .slash, ⟨[' ', '\r'], none⟩), (.symbol .slash, ⟨[' '], none⟩),
    (.symbol .minus, ⟨[' '], none⟩), (.symbol .greater, ⟨[' '], none⟩),
    (.int 4300, ⟨[' '], some "/ \" unclosed".toList⟩), (.newline, ⟨[], none⟩),
    (.keyword .letWord, ⟨[' '], none⟩), (.identifier "lets", ⟨['\r'], some []⟩)]

theorem tokenize_layout_divided :
    ((∀ item ∈ dividedTokens, item.1.isPlain = true) ∧
      isSpaced none ⟨[], none⟩ dividedTokens = true) ∧
    ∃ tokens, tokenize (String.ofList (layout ⟨[], none⟩ dividedTokens)) standardInput =
      .ok tokens ∧
      tokens.map Token.kind = dividedTokens.map Prod.fst ++ [.eof] := by
  have arePlain : ∀ item ∈ dividedTokens, item.1.isPlain = true := by decide +kernel
  have spaced : isSpaced none ⟨[], none⟩ dividedTokens = true := by decide +kernel
  exact ⟨⟨arePlain, spaced⟩, tokenize_layout _ _ _ arePlain spaced⟩

end Noxy
