import Noxy.Number.Numeral
import Noxy.Number.Word

/-!
# SQL statements

The statements that the database understands: making a table, inserting a row, deleting all rows,
reading a table or a list of literals, and transactions.
-/

namespace Noxy.Sql

inductive Cell where
  | null
  | int (value : Int)
  | real (value : Float)
  | text (value : String)
  | blob (value : List UInt8)

inductive Affinity where
  | integer
  | real
  | text
  | numeric
  | untouched
  deriving DecidableEq, Repr

structure Column where
  name : String
  affinity : Affinity
  isKey : Bool

inductive Term where
  | literal (cell : Cell)
  | parameter (number : Nat)

inductive Statement where
  | createTable (name : String) (unlessThere : Bool) (columns : List Column)
  | insert (table : String) (columns : List String) (values : List Term)
  | deleteAll (table : String)
  | selectAll (table : String)
  | select (columns : List (Term × String))
  | begin
  | commit
  | rollback
  | nothing

inductive SyntaxError where
  | near (text : String)
  | incomplete
  | unrecognized (text : String)
  | several

def SyntaxError.message : SyntaxError → String
  | near text => s!"near \"{text}\": syntax error"
  | incomplete => "incomplete input"
  | unrecognized text => s!"unrecognized token: \"{text}\""
  | several => "You can only execute one statement at a time."

inductive Word where
  | name (text : String)
  | quotedName (text : String)
  | number (text : String)
  | text (content : String)
  | blob (bytes : List UInt8)
  | mark (c : Char)

structure Lexeme where
  word : Word
  source : String

def isNameChar (c : Char) : Bool :=
  c.isAlphanum || c = '_' || c = '$' || 127 < c.toNat

def readQuoted (quote : Char) : List Char → Option (List Char × List Char)
  | [] => none
  | c :: rest =>
    if c = quote then
      match rest with
      | next :: more =>
        if next = quote then
          (readQuoted quote more).map fun (content, rest) => (quote :: content, rest)
        else
          some ([], rest)
      | [] => some ([], [])
    else
      (readQuoted quote rest).map fun (content, rest) => (c :: content, rest)

def readHex? : List Char → Option (List UInt8)
  | [] => some []
  | high :: low :: rest => do
    let high ← Number.digitValue? 16 high
    let low ← Number.digitValue? 16 low
    let bytes ← readHex? rest
    return UInt8.ofNat (high * 16 + low) :: bytes
  | [_] => none

def numberText (text : List Char) : List Char :=
  let whole := text.takeWhile Char.isDigit
  let rest := text.dropWhile Char.isDigit
  let (fraction, rest) := match rest with
    | '.' :: more => ('.' :: more.takeWhile Char.isDigit, more.dropWhile Char.isDigit)
    | _ => ([], rest)
  let exponent := match rest with
    | e :: sign :: digit :: more =>
      if (e = 'e' || e = 'E') && (sign = '+' || sign = '-') && digit.isDigit then
        e :: sign :: digit :: more.takeWhile Char.isDigit
      else if (e = 'e' || e = 'E') && sign.isDigit then
        e :: sign :: (digit :: more).takeWhile Char.isDigit
      else
        []
    | [e, digit] => if (e = 'e' || e = 'E') && digit.isDigit then [e, digit] else []
    | _ => []
  whole ++ fraction ++ exponent

def readWord (text : List Char) : Except SyntaxError (Word × List Char) :=
  match text with
  | [] => .error .incomplete
  | '\'' :: rest =>
    match readQuoted '\'' rest with
    | some (content, rest) => .ok (.text (String.ofList content), rest)
    | none => .error (.unrecognized (String.ofList text))
  | '"' :: rest =>
    match readQuoted '"' rest with
    | some (content, rest) => .ok (.quotedName (String.ofList content), rest)
    | none => .error (.unrecognized (String.ofList text))
  | c :: rest =>
    match c, rest with
    | 'x', '\'' :: more | 'X', '\'' :: more =>
      match readQuoted '\'' more with
      | some (content, rest) =>
        match readHex? content with
        | some bytes => .ok (.blob bytes, rest)
        | none => .error (.unrecognized (String.ofList (text.take (text.length - rest.length))))
      | none => .error (.unrecognized (String.ofList text))
    | c, rest =>
      if c.isDigit || (c = '.' && (rest.head?.map Char.isDigit).getD false) then
        let number := numberText text
        .ok (.number (String.ofList number), text.drop number.length)
      else if isNameChar c then
        .ok (.name (String.ofList (text.takeWhile isNameChar)), text.dropWhile isNameChar)
      else
        .ok (.mark c, rest)

def readWords : Nat → List Char → Except SyntaxError (List Lexeme)
  | 0, _ => .ok []
  | bound + 1, text =>
    let text := text.dropWhile Char.isWhitespace
    if text.isEmpty then
      .ok []
    else do
      let (word, rest) ← readWord text
      let source := String.ofList (text.take (text.length - rest.length))
      let words ← readWords bound rest
      return ⟨word, source⟩ :: words

def unexpected : List Lexeme → SyntaxError
  | [] => .incomplete
  | word :: _ => .near word.source

def keyword (name : String) : List Lexeme → Except SyntaxError (List Lexeme)
  | ⟨.name text, source⟩ :: rest => if text.toUpper = name then .ok rest else .error (.near source)
  | words => .error (unexpected words)

def keywords (names : List String) (words : List Lexeme) : Except SyntaxError (List Lexeme) :=
  names.foldlM (fun words name => keyword name words) words

def mark (c : Char) : List Lexeme → Except SyntaxError (List Lexeme)
  | ⟨.mark other, source⟩ :: rest => if other = c then .ok rest else .error (.near source)
  | words => .error (unexpected words)

def name : List Lexeme → Except SyntaxError (String × List Lexeme)
  | ⟨.name text, _⟩ :: rest => .ok (text, rest)
  | ⟨.quotedName text, _⟩ :: rest => .ok (text, rest)
  | words => .error (unexpected words)

def numberCell (negative : Bool) (text : String) : Cell :=
  if text.toList.all Char.isDigit then
    let value : Int := text.toNat?.getD 0
    let value := if negative then -value else value
    if Number.fitsWord value then .int value
    else .real ((Number.ofInt? value).getD 0)
  else
    let value := (Number.readFloat? text.toList).getD 0
    .real (if negative then -value else value)

def term (count : Nat) : List Lexeme → Except SyntaxError (Term × String × List Lexeme)
  | ⟨.mark '?', source⟩ :: rest => .ok (.parameter count, source, rest)
  | ⟨.mark '-', sign⟩ :: ⟨.number text, source⟩ :: rest =>
    .ok (.literal (numberCell true text), sign ++ source, rest)
  | ⟨.number text, source⟩ :: rest => .ok (.literal (numberCell false text), source, rest)
  | ⟨.text content, source⟩ :: rest => .ok (.literal (.text content), source, rest)
  | ⟨.blob bytes, source⟩ :: rest => .ok (.literal (.blob bytes), source, rest)
  | ⟨.name text, source⟩ :: rest =>
    if text.toUpper = "NULL" then .ok (.literal .null, source, rest) else .error (.near source)
  | words => .error (unexpected words)

def Term.parameters : Term → Nat
  | .parameter _ => 1
  | .literal _ => 0

def Affinity.ofType (type : String) : Affinity :=
  match type.toUpper with
  | "INTEGER" => .integer
  | "INT" => .integer
  | "TEXT" => .text
  | "REAL" => .real
  | "BLOB" => .untouched
  | "" => .untouched
  | _ => .numeric

def columns : Nat → List Lexeme → Except SyntaxError (List Column × List Lexeme)
  | 0, words => .error (unexpected words)
  | bound + 1, words => do
    let (title, words) ← name words
    let (type, words) := match words with
      | ⟨.name type, _⟩ :: rest => (type, rest)
      | words => ("", words)
    let (isKey, words) := match keywords ["PRIMARY", "KEY"] words with
      | .ok rest => (true, rest)
      | .error _ => (false, words)
    let column : Column := ⟨title, .ofType type, isKey && type.toUpper = "INTEGER"⟩
    match mark ',' words with
    | .ok rest =>
      let (more, rest) ← columns bound rest
      return (column :: more, rest)
    | .error _ =>
      let rest ← mark ')' words
      return ([column], rest)

def names : Nat → List Lexeme → Except SyntaxError (List String × List Lexeme)
  | 0, words => .error (unexpected words)
  | bound + 1, words => do
    let (first, words) ← name words
    match mark ',' words with
    | .ok rest =>
      let (more, rest) ← names bound rest
      return (first :: more, rest)
    | .error _ =>
      let rest ← mark ')' words
      return ([first], rest)

def terms : Nat → Nat → List Lexeme → Except SyntaxError (List Term × List Lexeme)
  | 0, _, words => .error (unexpected words)
  | bound + 1, count, words => do
    let (first, _, words) ← term count words
    match mark ',' words with
    | .ok rest =>
      let (more, rest) ← terms bound (count + first.parameters) rest
      return (first :: more, rest)
    | .error _ =>
      let rest ← mark ')' words
      return ([first], rest)

def selections : Nat → Nat → List Lexeme →
    Except SyntaxError (List (Term × String) × List Lexeme)
  | 0, _, words => .error (unexpected words)
  | bound + 1, count, words => do
    let (first, source, words) ← term count words
    let (title, words) ← match keyword "AS" words with
      | .ok rest => name rest
      | .error _ => pure (source, words)
    match mark ',' words with
    | .ok rest =>
      let (more, rest) ← selections bound (count + first.parameters) rest
      return ((first, title) :: more, rest)
    | .error _ => return ([(first, title)], words)

def statement (bound : Nat) (first : Lexeme) (words : List Lexeme) :
    Except SyntaxError (Statement × List Lexeme) := do
  let start := match first.word with
    | .name text => text.toUpper
    | _ => ""
  match start with
  | "CREATE" =>
    let words ← keyword "TABLE" words
    let (unlessThere, words) := match keywords ["IF", "NOT", "EXISTS"] words with
      | .ok rest => (true, rest)
      | .error _ => (false, words)
    let (table, words) ← name words
    let words ← mark '(' words
    let (columns, words) ← columns bound words
    return (.createTable table unlessThere columns, words)
  | "INSERT" =>
    let words ← keyword "INTO" words
    let (table, words) ← name words
    let (titles, words) ← match mark '(' words with
      | .ok rest => names bound rest
      | .error _ => pure ([], words)
    let words ← keyword "VALUES" words
    let words ← mark '(' words
    let (values, words) ← terms bound 0 words
    return (.insert table titles values, words)
  | "DELETE" =>
    let words ← keyword "FROM" words
    let (table, words) ← name words
    return (.deleteAll table, words)
  | "SELECT" =>
    match mark '*' words with
    | .ok words =>
      let words ← keyword "FROM" words
      let (table, words) ← name words
      return (.selectAll table, words)
    | .error _ =>
      let (selected, words) ← selections bound 0 words
      return (.select selected, words)
  | "BEGIN" => return (.begin, words)
  | "COMMIT" => return (.commit, words)
  | "ROLLBACK" => return (.rollback, words)
  | _ => throw (.near first.source)

def Statement.parse (text : String) : Except SyntaxError Statement := do
  let bound := text.length + 1
  let words ← readWords bound text.toList
  match words with
  | [] => return .nothing
  | first :: words =>
    let (statement, rest) ← statement bound first words
    match rest with
    | [] => return statement
    | ⟨.mark ';', _⟩ :: [] => return statement
    | ⟨.mark ';', _⟩ :: _ => throw .several
    | word :: _ => throw (.near word.source)

end Noxy.Sql
