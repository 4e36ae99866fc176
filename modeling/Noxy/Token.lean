import Noxy.Location
import Noxy.Number.Digits
import Noxy.Text.Quoted

/-!
# Tokens

The words of the language: literals, names, keywords, symbols and line ends, each with its place.
-/

namespace Noxy

inductive Keyword where
  | letWord
  | globalWord
  | funcWord
  | structWord
  | ifWord
  | thenWord
  | elseWord
  | endWord
  | whileWord
  | doWord
  | returnWord
  | breakWord
  | intType
  | floatType
  | stringType
  | strType
  | boolType
  | bytesType
  | voidType
  | refWord
  | mapWord
  | trueWord
  | falseWord
  | nullWord
  | useWord
  | selectWord
  | asWord
  | zerosWord
  deriving DecidableEq, Repr

namespace Keyword

def all : List Keyword :=
  [letWord, globalWord, funcWord, structWord, ifWord, thenWord, elseWord, endWord, whileWord,
    doWord, returnWord, breakWord, intType, floatType, stringType, strType, boolType, bytesType,
    voidType, refWord, mapWord, trueWord, falseWord, nullWord, useWord, selectWord, asWord,
    zerosWord]

def text : Keyword → String
  | letWord => "let"
  | globalWord => "global"
  | funcWord => "func"
  | structWord => "struct"
  | ifWord => "if"
  | thenWord => "then"
  | elseWord => "else"
  | endWord => "end"
  | whileWord => "while"
  | doWord => "do"
  | returnWord => "return"
  | breakWord => "break"
  | intType => "int"
  | floatType => "float"
  | stringType => "string"
  | strType => "str"
  | boolType => "bool"
  | bytesType => "bytes"
  | voidType => "void"
  | refWord => "ref"
  | mapWord => "map"
  | trueWord => "true"
  | falseWord => "false"
  | nullWord => "null"
  | useWord => "use"
  | selectWord => "select"
  | asWord => "as"
  | zerosWord => "zeros"

def label : Keyword → String
  | letWord => "LET"
  | globalWord => "GLOBAL"
  | funcWord => "FUNC"
  | structWord => "STRUCT"
  | ifWord => "IF"
  | thenWord => "THEN"
  | elseWord => "ELSE"
  | endWord => "END"
  | whileWord => "WHILE"
  | doWord => "DO"
  | returnWord => "RETURN"
  | breakWord => "BREAK"
  | intType => "TYPE_INT"
  | floatType => "TYPE_FLOAT"
  | stringType => "TYPE_STRING"
  | strType => "TYPE_STR"
  | boolType => "TYPE_BOOL"
  | bytesType => "TYPE_BYTES"
  | voidType => "TYPE_VOID"
  | refWord => "REF"
  | mapWord => "MAP"
  | trueWord => "TRUE"
  | falseWord => "FALSE"
  | nullWord => "NULL"
  | useWord => "USE"
  | selectWord => "SELECT"
  | asWord => "AS"
  | zerosWord => "ZEROS"

def ofText? (spelling : String) : Option Keyword :=
  all.find? fun word => word.text = spelling

end Keyword

inductive Symbol where
  | plus
  | minus
  | star
  | slash
  | percent
  | greater
  | less
  | greaterEqual
  | lessEqual
  | equal
  | different
  | and
  | or
  | not
  | assign
  | arrow
  | openParen
  | closeParen
  | openBracket
  | closeBracket
  | openBrace
  | closeBrace
  | comma
  | colon
  | dot
  deriving DecidableEq, Repr

namespace Symbol

def text : Symbol → String
  | plus => "+"
  | minus => "-"
  | star => "*"
  | slash => "/"
  | percent => "%"
  | greater => ">"
  | less => "<"
  | greaterEqual => ">="
  | lessEqual => "<="
  | equal => "=="
  | different => "!="
  | and => "&"
  | or => "|"
  | not => "!"
  | assign => "="
  | arrow => "->"
  | openParen => "("
  | closeParen => ")"
  | openBracket => "["
  | closeBracket => "]"
  | openBrace => "\x7b"
  | closeBrace => "\x7d"
  | comma => ","
  | colon => ":"
  | dot => "."

def label : Symbol → String
  | plus => "PLUS"
  | minus => "MINUS"
  | star => "STAR"
  | slash => "SLASH"
  | percent => "PERCENT"
  | greater => "GT"
  | less => "LT"
  | greaterEqual => "GTE"
  | lessEqual => "LTE"
  | equal => "EQ"
  | different => "NEQ"
  | and => "AND"
  | or => "OR"
  | not => "NOT"
  | assign => "ASSIGN"
  | arrow => "ARROW"
  | openParen => "LPAREN"
  | closeParen => "RPAREN"
  | openBracket => "LBRACKET"
  | closeBracket => "RBRACKET"
  | openBrace => "LBRACE"
  | closeBrace => "RBRACE"
  | comma => "COMMA"
  | colon => "COLON"
  | dot => "DOT"

def read? : List Char → Option (Symbol × List Char)
  | '-' :: '>' :: rest => some (arrow, rest)
  | '>' :: '=' :: rest => some (greaterEqual, rest)
  | '<' :: '=' :: rest => some (lessEqual, rest)
  | '=' :: '=' :: rest => some (equal, rest)
  | '!' :: '=' :: rest => some (different, rest)
  | '+' :: rest => some (plus, rest)
  | '-' :: rest => some (minus, rest)
  | '*' :: rest => some (star, rest)
  | '/' :: rest => some (slash, rest)
  | '%' :: rest => some (percent, rest)
  | '>' :: rest => some (greater, rest)
  | '<' :: rest => some (less, rest)
  | '=' :: rest => some (assign, rest)
  | '&' :: rest => some (and, rest)
  | '|' :: rest => some (or, rest)
  | '!' :: rest => some (not, rest)
  | '(' :: rest => some (openParen, rest)
  | ')' :: rest => some (closeParen, rest)
  | '[' :: rest => some (openBracket, rest)
  | ']' :: rest => some (closeBracket, rest)
  | '{' :: rest => some (openBrace, rest)
  | '}' :: rest => some (closeBrace, rest)
  | ',' :: rest => some (comma, rest)
  | ':' :: rest => some (colon, rest)
  | '.' :: rest => some (dot, rest)
  | _ => none

end Symbol

/-- A piece of a template string: plain text, or the text of an expression with an optional
format. -/
inductive Piece where
  | text (content : String)
  | interpolation (source : String) (format : Option String)
  deriving DecidableEq, Repr

inductive TokenKind where
  | int (value : Nat)
  | float (value : Float)
  | string (value : String)
  | bytes (value : List UInt8)
  | template (pieces : List Piece)
  | identifier (name : String)
  | keyword (word : Keyword)
  | symbol (symbol : Symbol)
  | newline
  | eof
  deriving DecidableEq, Repr

structure Token where
  kind : TokenKind
  location : Location
  deriving DecidableEq, Repr

def Piece.listing : Piece → String
  | text content => "('text', " ++ Text.quoted content ++ ")"
  | interpolation source format =>
    let shownFormat := match format with
      | some spec => Text.quoted spec
      | none => "None"
    "('expr', " ++ Text.quoted source ++ ", " ++ shownFormat ++ ")"

namespace TokenKind

def label : TokenKind → String
  | int _ => "INT"
  | float _ => "FLOAT"
  | string _ => "STRING"
  | bytes _ => "BYTES"
  | template _ => "FSTRING"
  | identifier _ => "IDENTIFIER"
  | keyword word => word.label
  | symbol sign => sign.label
  | newline => "NEWLINE"
  | eof => "EOF"

def text : TokenKind → String
  | int value => toString value
  | float value => Number.shortestText value
  | string value => value
  | bytes value => Text.quotedBytes value
  | template pieces => "[" ++ ", ".intercalate (pieces.map Piece.listing) ++ "]"
  | identifier name => name
  | keyword word => word.text
  | symbol sign => sign.text
  | newline => "\n"
  | eof => "None"

def listing : TokenKind → String
  | string value => Text.quoted value
  | identifier name => Text.quoted name
  | keyword word => Text.quoted word.text
  | symbol sign => Text.quoted sign.text
  | newline => Text.quoted "\n"
  | kind => kind.text

end TokenKind

def Token.listing (token : Token) : String :=
  "Token(" ++ token.kind.label ++ ", " ++ token.kind.listing ++ ", " ++ token.location.text ++ ")"

end Noxy
