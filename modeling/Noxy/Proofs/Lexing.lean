import Noxy.Proofs.Characters
import Noxy.Proofs.Decimal
import Noxy.Token.Lexer

/-!
# Reading lexemes

`Lexes` says that a text starts with a lexeme wherever it stands, and `Scans` that a whole text has
tokens of given kinds.
-/

namespace Noxy.Lexer

variable {rest : List Char}

def Lexes (chars : List Char) (kind : Option TokenKind) (rest : List Char) : Prop :=
  ∃ first tail, chars = first :: tail ∧
    ∀ file position, ∃ after, lexeme file position first tail = .ok ⟨kind, after, rest⟩

def Scans (chars : List Char) (kinds : List TokenKind) : Prop :=
  ∀ file position, ∃ tokens, scan file position chars = .ok tokens ∧ tokens.map Token.kind = kinds

theorem Scans.nil : Scans [] [.eof] := by
  intro _ _
  exact ⟨_, by rw [scan], rfl⟩

theorem Lexes.scans (lexes : Lexes chars kind rest) (scans : Scans rest kinds) :
    Scans chars (kind.toList ++ kinds) := by
  obtain ⟨_, _, rfl, reads⟩ := lexes
  intro file position
  obtain ⟨after, read⟩ := reads file position
  obtain ⟨tokens, scanned, rfl⟩ := scans file after
  exact ⟨_, scan_cons read scanned, by cases kind <;> rfl⟩

theorem Lexes.head_not_separator (lexes : Lexes chars (some kind) rest) :
    ∀ c ∈ chars.head?, isSeparator c = false := by
  obtain ⟨_, _, rfl, reads⟩ := lexes
  intro _ isHead
  cases isHead
  obtain ⟨_, read⟩ := reads "" Position.start
  by_contra separates
  rw [lexeme, if_pos (by simpa using separates)] at read
  cases read

/-! ### What may follow a token -/

def StandsApart (rest : List Char) : Prop :=
  ∀ c ∈ rest.head?, isSeparator c = true ∨ c = '\n'

theorem isSeparator_iff : isSeparator c = true ↔ c = ' ' ∨ c = '\t' ∨ c = '\r' := by
  simp [isSeparator, or_assoc]

theorem StandsApart.head_eq (apart : StandsApart (c :: rest)) :
    c = ' ' ∨ c = '\t' ∨ c = '\r' ∨ c = '\n' := by
  have isApart := apart c rfl
  simpa only [isSeparator_iff, or_assoc] using isApart

variable {belongs : Char → Bool}

theorem StandsApart.head_not (apart : StandsApart rest)
    (excludes : ∀ c, c = ' ' ∨ c = '\t' ∨ c = '\r' ∨ c = '\n' → belongs c = false) :
    ∀ c ∈ rest.head?, belongs c = false := by
  intro _ isHead
  cases rest with
  | nil => cases isHead
  | cons =>
    cases isHead
    exact excludes _ apart.head_eq

theorem takeWhile_append_of_all {belongs : α → Bool} {run rest : List α}
    (all : ∀ c ∈ run, belongs c = true) (ends : ∀ c ∈ rest.head?, belongs c = false) :
    (run ++ rest).takeWhile belongs = run := by
  rw [List.takeWhile_append_of_pos all]
  cases rest with
  | nil => simp
  | cons c => simp [ends c rfl]

theorem dropWhile_append_of_all (all : ∀ c ∈ run, belongs c = true)
    (ends : ∀ c ∈ rest.head?, belongs c = false) : (run ++ rest).dropWhile belongs = rest := by
  rw [List.dropWhile_append_of_pos all]
  cases rest with
  | nil => simp
  | cons c => simp [ends c rfl]

/-! ### Blanks, comments and line ends -/

theorem lexes_blanks (some : blanks ≠ []) (areBlanks : ∀ c ∈ blanks, isSeparator c = true)
    (ends : ∀ c ∈ rest.head?, isSeparator c = false) : Lexes (blanks ++ rest) none rest := by
  cases blanks with
  | nil => exact absurd rfl some
  | cons first blanks =>
    have restAreBlanks : ∀ c ∈ blanks, isSeparator c = true :=
      fun c member => areBlanks c (List.mem_cons_of_mem _ member)
    refine ⟨first, blanks ++ rest, rfl, fun _ _ => ?_⟩
    rw [lexeme, if_pos (areBlanks first List.mem_cons_self), runOf,
      dropWhile_append_of_all restAreBlanks ends]
    exact ⟨_, rfl⟩

theorem lexes_comment (oneLine : '\n' ∉ comment) (ends : ∀ c ∈ rest.head?, c = '\n') :
    Lexes ('/' :: '/' :: (comment ++ rest)) none rest := by
  have inLine : ∀ c ∈ '/' :: comment, decide (c ≠ '\n') = true := by
    intro c member
    have different : c ≠ '\n' := by
      rintro rfl
      cases member with
      | tail _ member => exact oneLine member
    exact decide_eq_true different
  have stops : ∀ c ∈ rest.head?, decide (c ≠ '\n') = false := by
    intro c isHead
    simp [ends c isHead]
  refine ⟨'/', '/' :: (comment ++ rest), rfl, fun _ _ => ?_⟩
  rw [lexeme, if_neg (by decide), if_neg (by decide), if_pos ⟨rfl, rfl⟩, runOf, ← List.cons_append,
    dropWhile_append_of_all inLine stops]
  exact ⟨_, rfl⟩

/-! ### Integers -/

theorem isDigit_of_isDigit (digit : c.isDigit = true) : Text.isDigit c = true := by
  have bounds := Number.toNat_of_isDigit digit
  have small : c.val < 0x80 := UInt32.lt_iff_toNat_lt.mpr (show c.toNat < 128 by omega)
  rw [Text.isDigit, if_pos small, digit]

theorem isDigit_of_apart (c : Char) (apart : c = ' ' ∨ c = '\t' ∨ c = '\r' ∨ c = '\n') :
    Text.isDigit c = false := by
  rcases apart with rfl | rfl | rfl | rfl <;> rfl

theorem places_of_apart (apart : StandsApart rest) : places rest = [] := by
  unfold places
  split
  · cases apart '.' rfl with
    | inl separates => cases separates
    | inr isNewline => cases isNewline
  · rfl

theorem lexes_int (short : (Nat.toDigits 10 value).length ≤ Number.maxIntegerDigits)
    (apart : StandsApart rest) :
    Lexes (Nat.toDigits 10 value ++ rest) (some (.int value)) rest := by
  have areDigits : ∀ c ∈ Nat.toDigits 10 value, c.isDigit = true :=
    fun _ member => Nat.isDigit_of_mem_toDigits (by decide) (by decide) member
  have reads := Number.readInt_toDigits short
  have some := Nat.toDigits_ne_nil (n := value) (b := 10)
  generalize Nat.toDigits 10 value = digits at areDigits reads some
  cases digits with
  | nil => exact absurd rfl some
  | cons first digits =>
    have firstDigit := areDigits first List.mem_cons_self
    have notSeparator : ¬ isSeparator first = true := by
      intro separates
      rcases isSeparator_iff.mp separates with rfl | rfl | rfl <;> cases firstDigit
    have all : ∀ c ∈ digits, Text.isDigit c = true :=
      fun c member => isDigit_of_isDigit (areDigits c (List.mem_cons_of_mem _ member))
    have ends := apart.head_not isDigit_of_apart
    refine ⟨first, digits ++ rest, rfl, fun _ _ => ?_⟩
    rw [lexeme, if_neg notSeparator, if_neg (by rintro rfl; cases firstDigit),
      if_neg (by rintro ⟨rfl, -⟩; cases firstDigit), if_pos (isDigit_of_isDigit firstDigit)]
    simp only [numberLexeme, takeWhile_append_of_all all ends, dropWhile_append_of_all all ends,
      places_of_apart apart, intValue, reads]
    exact ⟨_, rfl⟩

/-! ### Names -/

def isNameText : List Char → Bool
  | [] => false
  | first :: rest => (Text.isLetter first || first = '_') && rest.all isNameChar

theorem isNameChar_of_apart (c : Char) (apart : c = ' ' ∨ c = '\t' ∨ c = '\r' ∨ c = '\n') :
    isNameChar c = false := by
  rcases apart with rfl | rfl | rfl | rfl <;> rfl

theorem lexeme_of_startsName (starts : (Text.isLetter first || first = '_') = true) (file : String)
    (position : Position) (rest : List Char) :
    lexeme file position first rest = nameLexeme file position first rest := by
  have notDigit : ¬ Text.isDigit first = true := by
    rw [Bool.or_eq_true, decide_eq_true_eq] at starts
    rcases starts with isLetter | rfl
    · rw [Text.isDigit_of_isLetter isLetter]
      exact Bool.false_ne_true
    · decide
  have differs : ∀ c, (Text.isLetter c || c = '_') = false → first ≠ c := by
    rintro _ isNone rfl
    cases starts.symm.trans isNone
  have notSeparator : ¬ isSeparator first = true := by
    simp [isSeparator, differs ' ' rfl, differs '\t' rfl, differs '\r' rfl]
  rw [lexeme, if_neg notSeparator, if_neg (differs '\n' rfl),
    if_neg (fun slash => differs '/' rfl slash.1), if_neg notDigit, if_neg (differs '"' rfl),
    if_pos starts]

theorem lexes_name (isName : isNameText name = true) (apart : StandsApart rest) :
    Lexes (name ++ rest) (some (nameKind name)) rest := by
  cases name with
  | nil => cases isName
  | cons first name =>
    rw [isNameText, Bool.and_eq_true, List.all_eq_true] at isName
    obtain ⟨starts, all⟩ := isName
    have ends := apart.head_not isNameChar_of_apart
    refine ⟨first, name ++ rest, rfl, fun file position => ?_⟩
    have noQuote : ∀ c body, name ++ rest = c :: body → c ≠ '"' ∧ c ≠ '\'' := by
      intro c body isCons
      cases name with
      | nil =>
        have isRest : rest = c :: body := isCons
        subst isRest
        rcases apart.head_eq with rfl | rfl | rfl | rfl <;> decide
      | cons =>
        cases isCons
        constructor <;> (rintro rfl; cases all _ List.mem_cons_self)
    have isRun : nameLexeme file position first (name ++ rest) =
        .ok (runOf isNameChar (fun run => some (nameKind run)) position first (name ++ rest)) := by
      unfold nameLexeme
      split
      · next isCons => exact absurd rfl (noQuote _ _ isCons).1
      · next isCons => exact absurd rfl (noQuote _ _ isCons).1
      · next isCons => exact absurd rfl (noQuote _ _ isCons).2
      · rfl
    rw [lexeme_of_startsName starts, isRun, runOf, takeWhile_append_of_all all ends,
      dropWhile_append_of_all all ends]
    exact ⟨_, rfl⟩

theorem isNameText_keyword (word : Keyword) : isNameText word.text.toList = true := by
  cases word <;> decide +kernel

theorem ofText?_text : Keyword.ofText? word.text = some word := by
  cases word <;> decide +kernel

theorem lexes_keyword (word : Keyword) (apart : StandsApart rest) :
    Lexes (word.text.toList ++ rest) (some (.keyword word)) rest := by
  have lexes := lexes_name (isNameText_keyword word) apart
  rwa [nameKind, String.ofList_toList, ofText?_text] at lexes

theorem lexes_identifier (isName : isNameText name.toList = true)
    (noKeyword : Keyword.ofText? name = none) (apart : StandsApart rest) :
    Lexes (name.toList ++ rest) (some (.identifier name)) rest := by
  have lexes := lexes_name isName apart
  rwa [nameKind, String.ofList_toList, noKeyword] at lexes

/-! ### Symbols -/

theorem read?_text (sign : Symbol) (apart : StandsApart rest) :
    Symbol.read? (sign.text.toList ++ rest) = some (sign, rest) := by
  cases rest with
  | nil => cases sign <;> rfl
  | cons => rcases apart.head_eq with rfl | rfl | rfl | rfl <;> cases sign <;> rfl

theorem lexeme_symbol (sign : Symbol) (apart : StandsApart rest) :
    ∃ first tail, sign.text.toList ++ rest = first :: tail ∧
      ∀ file position, lexeme file position first tail = symbolLexeme file position first tail := by
  cases sign with
  | slash =>
    have noComment : ¬ ('/' = '/' ∧ rest.head? = some '/') := by
      rintro ⟨-, isSlash⟩
      cases apart '/' isSlash with
      | inl separates => cases separates
      | inr isNewline => cases isNewline
    refine ⟨'/', rest, rfl, fun _ _ => ?_⟩
    rw [lexeme, if_neg (by decide), if_neg (by decide), if_neg noComment]
    rfl
  | _ => exact ⟨_, _, rfl, fun _ _ => rfl⟩

theorem lexes_symbol (sign : Symbol) (apart : StandsApart rest) :
    Lexes (sign.text.toList ++ rest) (some (.symbol sign)) rest := by
  obtain ⟨first, tail, isCons, isSymbol⟩ := lexeme_symbol sign apart
  have reads := read?_text sign apart
  rw [isCons] at reads
  refine ⟨first, tail, isCons, fun _ _ => ?_⟩
  rw [isSymbol, symbolLexeme, reads]
  exact ⟨_, rfl⟩

/-! ### Strings -/

def escapeLetter : Char → Char
  | '\n' => 'n'
  | '\t' => 't'
  | '\r' => 'r'
  | c => c

def needsEscape (c : Char) : Bool :=
  c = '\\' || c = '"' || c = '\n' || c = '\t' || c = '\r'

def escaped (special : Char → Bool) (text : List Char) : List Char :=
  text.flatMap fun c => if special c then ['\\', escapeLetter c] else [c]

theorem escaped_cons (special : Char → Bool) (c : Char) (text : List Char) :
    escaped special (c :: text) =
      (if special c then ['\\', escapeLetter c] else [c]) ++ escaped special text :=
  List.flatMap_cons

theorem unescape_escapeLetter (noLetter : c ≠ 'n' ∧ c ≠ 't' ∧ c ≠ 'r') :
    unescape (escapeLetter c) = c := by
  unfold escapeLetter
  split
  · rfl
  · rfl
  · rfl
  · unfold unescape
    split
    · exact absurd rfl noLetter.1
    · exact absurd rfl noLetter.2.1
    · exact absurd rfl noLetter.2.2
    · rfl

theorem not_letter_of_needsEscape (needs : needsEscape c = true) : c ≠ 'n' ∧ c ≠ 't' ∧ c ≠ 'r' := by
  refine ⟨?_, ?_, ?_⟩ <;> (rintro rfl; cases needs)

theorem stringBody_escaped (text rest : List Char) (done : List Char) (position : Position) :
    ∃ after, stringBody file done position (escaped needsEscape text ++ '"' :: rest) =
      .ok ⟨some (.string (String.ofList (done.reverse ++ text))), after, rest⟩ := by
  induction text generalizing done position with
  | nil => exact ⟨_, by rw [List.append_nil]; rfl⟩
  | cons c text ih =>
    rw [escaped_cons]
    by_cases needs : needsEscape c = true
    · obtain ⟨after, reads⟩ := ih (c :: done) ((position.next '\\').next (escapeLetter c))
      rw [if_pos needs]
      refine ⟨after, ?_⟩
      change stringBody file (unescape (escapeLetter c) :: done) _
        (escaped needsEscape text ++ '"' :: rest) = _
      rw [unescape_escapeLetter (not_letter_of_needsEscape needs), reads]
      simp
    · obtain ⟨after, reads⟩ := ih (c :: done) (position.next c)
      rw [if_neg needs]
      simp only [needsEscape, Bool.or_eq_true, decide_eq_true_eq, not_or] at needs
      obtain ⟨⟨⟨⟨noBackslash, noQuote⟩, noNewline⟩, -⟩, -⟩ := needs
      refine ⟨after, ?_⟩
      rw [List.singleton_append, List.cons_append, stringBody, if_neg noNewline, reads]
      · simp
      · exact fun isQuote => noQuote isQuote
      · exact fun _ _ isBackslash _ => noBackslash isBackslash

theorem lexes_string (text : String) (rest : List Char) :
    Lexes ('"' :: (escaped needsEscape text.toList ++ '"' :: rest)) (some (.string text)) rest := by
  refine ⟨'"', _, rfl, fun file position => ?_⟩
  obtain ⟨after, reads⟩ :=
    stringBody_escaped text.toList rest [] (position.next '"')
  rw [List.reverse_nil, List.nil_append, String.ofList_toList] at reads
  exact ⟨after, reads⟩

end Noxy.Lexer
