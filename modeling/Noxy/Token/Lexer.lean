import Noxy.Error
import Noxy.Number.Numeral
import Noxy.Text.Blank
import Noxy.Text.Letter
import Noxy.Token

/-!
# Splitting a text into tokens

`tokenize` reads a text from left to right.
-/

namespace Noxy.Lexer

/-- What one step of reading consumed: the token, if it was one, with the rest of the text and the
position of the rest. -/
structure Lexeme where
  kind : Option TokenKind
  position : Position
  rest : List Char

def unescape : Char → Char
  | 'n' => '\n'
  | 't' => '\t'
  | 'r' => '\r'
  | c => c

def stringBody (file : String) (done : List Char) (position : Position) :
    List Char → Except Failure Lexeme
  | [] => .error (.error (.lexical .unclosedString (position.inFile file)))
  | '"' :: rest => .ok ⟨some (.string (String.ofList done.reverse)), position.next '"', rest⟩
  | '\\' :: escape :: rest =>
    stringBody file (unescape escape :: done) ((position.next '\\').next escape) rest
  | c :: rest =>
    if c = '\n' then
      .error (.error (.lexical .unclosedString (position.inFile file)))
    else
      stringBody file (c :: done) (position.next c) rest

inductive TemplateMode where
  | text (done : List Char)
  | interpolation (nested : Nat) (done : List Char)

def addText (pieces : List Piece) (done : List Char) : List Piece :=
  if done.isEmpty then pieces else .text (String.ofList done.reverse) :: pieces

def interpolationPiece (content : List Char) : Piece :=
  let source := String.ofList (Text.trim (content.takeWhile (· ≠ ':')))
  match content.dropWhile (· ≠ ':') with
  | [] => .interpolation source none
  | _ :: format => .interpolation source (some (String.ofList format))

def templateBody (file : String) (pieces : List Piece) (mode : TemplateMode)
    (position : Position) : List Char → Except Failure Lexeme
  | [] =>
    let cause := match mode with
      | .text _ => LexicalCause.unclosedTemplate
      | .interpolation _ _ => LexicalCause.unclosedInterpolation
    .error (.error (.lexical cause (position.inFile file)))
  | c :: rest =>
    match mode with
    | .interpolation nested done =>
      if c = '}' then
        match nested with
        | 0 =>
          templateBody file (interpolationPiece done.reverse :: pieces) (.text [])
            (position.next c) rest
        | outer + 1 =>
          templateBody file pieces (.interpolation outer (c :: done)) (position.next c) rest
      else
        let nested := if c = '{' then nested + 1 else nested
        templateBody file pieces (.interpolation nested (c :: done)) (position.next c) rest
    | .text done =>
      if c = '"' then
        .ok ⟨some (.template (addText pieces done).reverse), position.next c, rest⟩
      else if c = '\\' then
        match rest with
        | [] => .error (.error (.lexical .unclosedTemplate ((position.next c).inFile file)))
        | escape :: rest =>
          templateBody file pieces (.text (unescape escape :: done))
            ((position.next c).next escape) rest
      else if c = '{' then
        templateBody file (addText pieces done) (.interpolation 0 []) (position.next c) rest
      else if c = '\n' then
        .error (.error (.lexical .unclosedTemplate (position.inFile file)))
      else
        templateBody file pieces (.text (c :: done)) (position.next c) rest

def byteOfChar (c : Char) : Except Failure UInt8 :=
  if c.toNat < 256 then
    .ok c.toNat.toUInt8
  else
    .error (.fault (.value "byte must be in range(0, 256)"))

def byteOfDigits? (digits : List Char) : Option UInt8 :=
  match Number.readInt 16 digits with
  | .ok value => if 0 ≤ value ∧ value < 256 then some value.toNat.toUInt8 else none
  | .error _ => none

/-- Reads the body of a bytes literal up to its closing quote; `done` holds the bytes read so far,
last first.  The second digit of a hexadecimal escape stands for itself as well: it is read again
after the escape, and counted again in positions. -/
def bytesBody (file : String) (quote : Char) (done : List UInt8) (position : Position) :
    List Char → Except Failure Lexeme
  | [] => .error (.error (.lexical .unclosedBytes (position.inFile file)))
  | c :: rest =>
    if c = quote then
      .ok ⟨some (.bytes done.reverse), position.next c, rest⟩
    else if c = '\\' then
      let position := position.next c
      match rest with
      | [] => .error (.fault (.kind "ord() expected string of length 1, but NoneType found"))
      | 'x' :: [] =>
        .error (.error (.lexical (.invalidByteEscape "") ((position.next 'x').inFile file)))
      | 'x' :: high :: [] =>
        let position := (position.next 'x').next high
        match byteOfDigits? [high] with
        | some byte => bytesBody file quote (byte :: done) position []
        | none =>
          .error (.error
            (.lexical (.invalidByteEscape high.toString) (position.inFile file)))
      | 'x' :: high :: low :: rest =>
        let position := ((position.next 'x').next high).next low
        match byteOfDigits? [high, low] with
        | some byte => bytesBody file quote (byte :: done) position (low :: rest)
        | none =>
          .error (.error
            (.lexical (.invalidByteEscape (String.ofList [high, low]))
              (position.inFile file)))
      | escape :: rest =>
        match byteOfChar (unescape escape) with
        | .ok byte => bytesBody file quote (byte :: done) (position.next escape) rest
        | .error cause => .error cause
    else if c = '\n' then
      .error (.error (.lexical .unclosedBytes (position.inFile file)))
    else
      match byteOfChar c with
      | .ok byte => bytesBody file quote (byte :: done) (position.next c) rest
      | .error cause => .error cause

def isSeparator (c : Char) : Bool :=
  c = ' ' || c = '\t' || c = '\r'

def isNameChar (c : Char) : Bool :=
  Text.isWordChar c || c = '_'

def runOf (belongs : Char → Bool) (kind : List Char → Option TokenKind) (position : Position)
    (first : Char) (rest : List Char) : Lexeme :=
  let run := first :: rest.takeWhile belongs
  ⟨kind run, position.after run, rest.dropWhile belongs⟩

def intValue (digits : List Char) : Except Failure Nat :=
  match Number.readInt 10 digits with
  | .ok value => .ok value.toNat
  | .error .malformed =>
    .error (.fault (.value ("invalid literal for int() with base 10: " ++
      Text.quoted (String.ofList digits))))
  | .error (.tooLong count) =>
    .error (.fault (.value ("Exceeds the limit (4300 digits) for integer string conversion: " ++
      s!"value has {count} digits; use sys.set_int_max_str_digits() to increase the limit")))

def floatValue (digits : List Char) : Except Failure Float :=
  match Number.readFloat? digits with
  | some value => .ok value
  | none =>
    .error (.fault (.value ("could not convert string to float: " ++
      Text.quoted (String.ofList digits))))

def places : List Char → List Char
  | '.' :: rest => rest.takeWhile Text.isDigit
  | _ => []

def numberLexeme (position : Position) (first : Char) (rest : List Char) : Except Failure Lexeme :=
  let whole := first :: rest.takeWhile Text.isDigit
  let afterWhole := rest.dropWhile Text.isDigit
  match places afterWhole with
  | [] =>
    match intValue whole with
    | .ok value => .ok ⟨some (.int value), position.after whole, afterWhole⟩
    | .error cause => .error cause
  | place :: more =>
    let digits := whole ++ '.' :: place :: more
    match floatValue digits with
    | .ok value =>
      .ok ⟨some (.float value), position.after digits, afterWhole.drop (more.length + 2)⟩
    | .error cause => .error cause

def nameKind (name : List Char) : TokenKind :=
  let name := String.ofList name
  match Keyword.ofText? name with
  | some word => .keyword word
  | none => .identifier name

def nameLexeme (file : String) (position : Position) (first : Char) (rest : List Char) :
    Except Failure Lexeme :=
  match first, rest with
  | 'f', '"' :: body =>
    -- The name `f` is read, taken back and read again.
    templateBody file [] (.text []) (((position.next 'f').back.next 'f').next '"') body
  | 'b', '"' :: body => bytesBody file '"' [] ((position.next 'b').next '"') body
  | 'b', '\'' :: body => bytesBody file '\'' [] ((position.next 'b').next '\'') body
  | _, _ => .ok (runOf isNameChar (fun run => some (nameKind run)) position first rest)

def symbolLexeme (file : String) (position : Position) (first : Char) (rest : List Char) :
    Except Failure Lexeme :=
  match Symbol.read? (first :: rest) with
  | some (sign, rest) => .ok ⟨some (.symbol sign), position.after sign.text.toList, rest⟩
  | none => .error (.error (.lexical (.unexpectedChar first) (position.inFile file)))

def lexeme (file : String) (position : Position) (first : Char) (rest : List Char) :
    Except Failure Lexeme :=
  if isSeparator first then
    .ok (runOf isSeparator (fun _ => none) position first rest)
  else if first = '\n' then
    .ok ⟨some .newline, position.next first, rest⟩
  else if first = '/' ∧ rest.head? = some '/' then
    .ok (runOf (· ≠ '\n') (fun _ => none) position first rest)
  else if Text.isDigit first then
    numberLexeme position first rest
  else if first = '"' then
    stringBody file [] (position.next first) rest
  else if Text.isLetter first || first = '_' then
    nameLexeme file position first rest
  else
    symbolLexeme file position first rest

/-! ### What a lexeme takes -/

/-- A text with the second digit of each hexadecimal escape twice. -/
def doubled : List Char → List Char
  | '\\' :: 'x' :: high :: low :: rest => '\\' :: 'x' :: high :: low :: doubled (low :: rest)
  | '\\' :: escape :: rest => '\\' :: escape :: doubled rest
  | c :: rest => c :: doubled rest
  | [] => []

/-- What positions count when a text is taken. -/
def counted : Option TokenKind → List Char → List Char
  | some (.bytes _) => doubled
  | _ => id

/-- What was read is the front of a text, and its position is the one after what is counted. -/
def Takes (count : List Char → List Char) (position : Position) (chars : List Char)
    (read : Lexeme) : Prop :=
  ∃ first run, chars = first :: (run ++ read.rest) ∧
    read.position = position.after (count (first :: run))

section

variable {file : String} {position : Position} {first : Char} {chars rest : List Char}
  {read : Lexeme} {count : List Char → List Char}

theorem Takes.last {kind : Option TokenKind} (counts : count [first] = [first]) :
    Takes count position (first :: rest) ⟨kind, position.next first, rest⟩ :=
  ⟨first, [], rfl, by rw [counts]; rfl⟩

theorem Takes.next (takes : Takes count (position.next first) rest read)
    (counts : ∀ c run, count (first :: c :: run) = first :: count (c :: run)) :
    Takes count position (first :: rest) read := by
  obtain ⟨c, run, rfl, same⟩ := takes
  exact ⟨first, c :: run, rfl, by rw [same, counts]; rfl⟩

attribute [local grind .] Takes.last Takes.next

theorem stringBody_takes {done : List Char}
    (reads : stringBody file done position chars = .ok read) :
    Takes id position chars read ∧ ∃ text, read.kind = some (.string text) := by
  fun_induction stringBody file done position chars <;> grind

theorem templateBody_takes {pieces : List Piece} {mode : TemplateMode}
    (reads : templateBody file pieces mode position chars = .ok read) :
    Takes id position chars read ∧ ∃ pieces, read.kind = some (.template pieces) := by
  fun_induction templateBody file pieces mode position chars <;> grind

theorem doubled_of_ne (notEscape : first ≠ '\\') :
    doubled (first :: rest) = first :: doubled rest := by
  simp [doubled, notEscape]

theorem bytesBody_takes {quote : Char} {done : List UInt8}
    (reads : bytesBody file quote done position chars = .ok read) :
    Takes doubled position chars read ∧ ∃ content, read.kind = some (.bytes content) := by
  fun_induction bytesBody file quote done position chars
  case case2 =>
    cases reads
    exact ⟨.last (by simp [doubled]), _, rfl⟩
  case case5 => simp [bytesBody] at reads
  case case7 ih =>
    obtain ⟨⟨_, run, same, isAfter⟩, isBytes⟩ := ih reads
    cases same
    exact ⟨⟨_, _, rfl, by rw [isAfter, doubled]; rfl⟩, isBytes⟩
  case case9 notPair _ _ _ _ ih =>
    obtain ⟨⟨c, run, rfl, isAfter⟩, isBytes⟩ := ih reads
    refine ⟨⟨_, _ :: c :: run, rfl, ?_⟩, isBytes⟩
    rw [isAfter, doubled]
    · rfl
    · rintro high low more rfl ⟨⟩
      exact notPair _ _ (more ++ read.rest) rfl rfl
  case case12 ih =>
    obtain ⟨takes, isBytes⟩ := ih reads
    exact ⟨takes.next fun _ _ => doubled_of_ne ‹_›, isBytes⟩
  all_goals cases reads

theorem runOf_takes {belongs : Char → Bool} {kind : List Char → Option TokenKind} :
    Takes id position (first :: rest) (runOf belongs kind position first rest) :=
  ⟨first, rest.takeWhile belongs, congrArg _ List.takeWhile_append_dropWhile.symm, rfl⟩

theorem prefix_of_places {place : Char} {more : List Char} (found : places chars = place :: more) :
    '.' :: place :: more <+: chars ∧ ∀ c ∈ place :: more, Text.isDigit c = true := by
  unfold places at found
  split at found
  · rw [← found]
    exact ⟨List.cons_prefix_cons.mpr ⟨rfl, List.takeWhile_prefix _⟩,
      List.all_eq_true.mp List.all_takeWhile⟩
  · cases found

theorem numberLexeme_takes (reads : numberLexeme position first rest = .ok read) :
    Takes (counted read.kind) position (first :: rest) read := by
  have whole : rest = rest.takeWhile Text.isDigit ++ rest.dropWhile Text.isDigit :=
    List.takeWhile_append_dropWhile.symm
  unfold numberLexeme at reads
  dsimp only at reads
  split at reads <;> split at reads <;> cases reads
  · exact ⟨first, _, congrArg _ whole, rfl⟩
  · next place more found _ _ _ =>
    obtain ⟨⟨after, isAfter⟩, _⟩ := prefix_of_places found
    refine ⟨first, rest.takeWhile Text.isDigit ++ '.' :: place :: more, ?_, rfl⟩
    rw [← isAfter] at whole ⊢
    simpa using whole

theorem text_of_read? {sign : Symbol} (found : Symbol.read? chars = some (sign, rest)) :
    ∃ first run, sign.text.toList = first :: run ∧ chars = first :: (run ++ rest) := by
  unfold Symbol.read? at found
  split at found <;> cases found <;> exact ⟨_, _, rfl, rfl⟩

theorem lexeme_takes (reads : lexeme file position first rest = .ok read) :
    Takes (counted read.kind) position (first :: rest) read := by
  unfold lexeme at reads
  split at reads
  · cases reads; exact runOf_takes
  split at reads
  · cases reads; exact .last rfl
  split at reads
  · cases reads; exact runOf_takes
  split at reads
  · exact numberLexeme_takes reads
  split at reads
  · obtain ⟨takes, _, isString⟩ := stringBody_takes reads
    rw [isString]
    exact takes.next fun _ _ => rfl
  split at reads
  · unfold nameLexeme at reads
    split at reads
    · obtain ⟨takes, _, isTemplate⟩ := templateBody_takes reads
      rw [isTemplate]
      exact .next (takes.next fun _ _ => rfl) fun _ _ => rfl
    · obtain ⟨takes, _, isBytes⟩ := bytesBody_takes reads
      rw [isBytes]
      exact .next (takes.next fun _ _ => doubled_of_ne (by decide))
        fun _ _ => doubled_of_ne (by decide)
    · obtain ⟨takes, _, isBytes⟩ := bytesBody_takes reads
      rw [isBytes]
      exact .next (takes.next fun _ _ => doubled_of_ne (by decide))
        fun _ _ => doubled_of_ne (by decide)
    · cases reads
      have plain : counted (some (nameKind (first :: rest.takeWhile isNameChar))) = id := by
        unfold nameKind
        dsimp only
        split <;> rfl
      exact plain ▸ runOf_takes
  · unfold symbolLexeme at reads
    split at reads <;> cases reads
    next found =>
    obtain ⟨_, run, isText, isRun⟩ := text_of_read? found
    exact ⟨_, run, isRun, congrArg position.after isText⟩

theorem lexeme_rest (reads : lexeme file position first rest = .ok read) :
    read.rest.length ≤ rest.length := by
  obtain ⟨_, run, isRun, _⟩ := lexeme_takes reads
  cases isRun
  simp

end

def scan (file : String) (position : Position) : List Char → Except Failure (List Token)
  | [] => .ok [⟨.eof, position.inFile file⟩]
  | first :: rest =>
    match reads : lexeme file position first rest with
    | .error cause => .error cause
    | .ok read =>
      have := lexeme_rest reads
      match scan file read.position read.rest with
      | .error cause => .error cause
      | .ok tokens =>
        match read.kind with
        | none => .ok tokens
        | some kind => .ok (⟨kind, position.inFile file⟩ :: tokens)
termination_by chars => chars.length

def Lexeme.tokens (read : Lexeme) (location : Location) : List Token :=
  (read.kind.map (⟨·, location⟩)).toList

section

variable {file : String} {position : Position} {chars : List Char} {tokens : List Token}

theorem scan_cons {first : Char} {rest : List Char} {read : Lexeme}
    (reads : lexeme file position first rest = .ok read)
    (scanned : scan file read.position read.rest = .ok tokens) :
    scan file position (first :: rest) = .ok (read.tokens (position.inFile file) ++ tokens) := by
  rw [scan]
  split
  · next failed => cases reads.symm.trans failed
  · next found =>
      cases reads.symm.trans found
      simp only [scanned, Lexeme.tokens]
      cases read.kind <;> rfl

/-- What holds at the end, and before a lexeme if it holds after it, holds of every scan. -/
@[elab_as_elim]
theorem scan_induction {motive : Position → List Char → List Token → Prop}
    (ended : ∀ position, motive position [] [⟨.eof, position.inFile file⟩])
    (next : ∀ {position first rest read tokens}, lexeme file position first rest = .ok read →
      motive read.position read.rest tokens →
      motive position (first :: rest) (read.tokens (position.inFile file) ++ tokens))
    (scans : scan file position chars = .ok tokens) : motive position chars tokens := by
  fun_induction scan file position chars generalizing tokens with
  | case1 => cases scans; exact ended _
  | case2 | case3 => cases scans
  | case4 _ _ _ _ reads _ _ scanned isBlank ih =>
    cases scans
    simpa [Lexeme.tokens, isBlank] using next reads (ih scanned)
  | case5 _ _ _ _ reads _ _ scanned _ isKind ih =>
    cases scans
    simpa [Lexeme.tokens, isKind] using next reads (ih scanned)

end

end Noxy.Lexer

namespace Noxy

def tokenize (source : String) (file : String := standardInput) : Except Failure (List Token) :=
  Lexer.scan file Position.start source.toList

end Noxy
