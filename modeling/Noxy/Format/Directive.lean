import Noxy.Format.Number

/-!
# Directives in templates

A template is text in which a percent sign opens a directive, `%[(key)][marks][width][.precision]
[size]letter`; two percent signs stand for one.
-/

namespace Noxy.Format

/-- A count in a directive: absent, zero since nothing stands where it belongs, written in digits,
taken from the value that fills the template, or larger than any count. -/
inductive Amount where
  | absent
  | omitted
  | written (count : Nat)
  | taken
  | tooLarge
  deriving DecidableEq

inductive PartKey where
  | absent
  | named (key : List Char)
  | unclosed
  deriving DecidableEq

/-- A directive as it stands in a template; `letter` is its last character and its place in the
template, and `none` if the template ends before it.  `isSized` says that a size letter stands
before that. -/
structure Directive where
  key : PartKey
  marks : List Char
  width : Amount
  precision : Amount
  isSized : Bool
  letter : Option (Char × Nat)

def Directive.endsInCount (directive : Directive) : Bool :=
  !directive.isSized && match directive.precision, directive.width with
    | .written _, _ => true
    | .absent, .written _ => true
    | _, _ => false

inductive Segment where
  | char (c : Char)
  | directive (directive : Directive)

def splitAtClosing : Nat → List Char → Option (List Char × List Char)
  | _, [] => none
  | 0, ')' :: rest => some ([], rest)
  | depth, c :: rest =>
    let depth := if c = '(' then depth + 1 else if c = ')' then depth - 1 else depth
    (splitAtClosing depth rest).map fun (key, rest) => (c :: key, rest)

def readAmount (limit : Nat) : List Char → Amount × List Char
  | '*' :: rest => (.taken, rest)
  | text =>
    let digits := text.takeWhile Char.isDigit
    let rest := text.dropWhile Char.isDigit
    if digits.isEmpty then (.absent, text)
    else
      let count := digits.foldl (fun total c => total * 10 + (c.toNat - '0'.toNat)) 0
      (if limit < count then .tooLarge else .written count, rest)

def maxPrecision : Nat :=
  0x7FFFFFFF

def readPrecision : List Char → Amount × List Char
  | '.' :: rest =>
    match readAmount maxPrecision rest with
    | (.absent, rest) => (.omitted, rest)
    | result => result
  | text => (.absent, text)

def skipSize : List Char → List Char
  | 'h' :: rest => rest
  | 'l' :: rest => rest
  | 'L' :: rest => rest
  | text => text

def readAfterKey (length : Nat) (key : PartKey) (text : List Char) : Directive × List Char :=
  let isMark (c : Char) : Bool := "-+ #0".toList.contains c
  let marks := text.takeWhile isMark
  let (width, text) := readAmount maxCount (text.dropWhile isMark)
  let (precision, text) := readPrecision text
  let afterSize := skipSize text
  let isSized := afterSize.length < text.length
  match afterSize with
  | c :: rest =>
    (⟨key, marks, width, precision, isSized, some (c, length - (rest.length + 1))⟩, rest)
  | [] => (⟨key, marks, width, precision, isSized, none⟩, [])

def readDirective (length : Nat) : List Char → Directive × List Char
  | '(' :: text =>
    match splitAtClosing 0 text with
    | some (key, rest) => readAfterKey length (.named key) rest
    | none => (⟨.unclosed, [], .absent, .absent, false, none⟩, [])
  | text => readAfterKey length .absent text

def segmentsFrom (length : Nat) : Nat → List Char → List Segment
  | _, [] => []
  | skipped + 1, _ :: text => segmentsFrom length skipped text
  | 0, '%' :: '%' :: text => .char '%' :: segmentsFrom length 0 text
  | 0, '%' :: text =>
    let (directive, rest) := readDirective length text
    .directive directive :: segmentsFrom length (text.length - rest.length) text
  | 0, c :: text => .char c :: segmentsFrom length 0 text

def segments (template : List Char) : List Segment :=
  segmentsFrom template.length 0 template

structure Request where
  marks : List Char
  width : Option Nat
  precision : Option Nat
  letter : Char

namespace Request

def has (request : Request) (mark : Char) : Bool :=
  request.marks.contains mark

def isInteger (request : Request) : Bool :=
  "diuoxX".toList.contains request.letter

def isFloat (request : Request) : Bool :=
  "eEfFgG".toList.contains request.letter

def integerText (request : Request) (n : Int) : List Char :=
  let (base, mark) : Nat × List Char := match request.letter with
    | 'o' => (8, ['0', 'o'])
    | 'x' => (16, ['0', 'x'])
    | 'X' => (16, ['0', 'X'])
    | _ => (10, [])
  let digits := Nat.toDigits base n.natAbs
  let digits := if request.letter = 'X' then digits.map Char.toUpper else digits
  let padding := Number.zeros (request.precision.getD 0 - digits.length)
  (if n < 0 then ['-'] else []) ++ (if request.has '#' then mark else []) ++ padding ++ digits

def floatText (request : Request) (x : Float) : List Char :=
  let text (negative : Bool) (shown : List Char) : List Char :=
    let shown := if request.letter.isUpper then shown.map Char.toUpper else shown
    if negative then '-' :: shown else shown
  match Number.parts x with
  | .nan => text false "nan".toList
  | .infinite negative => text negative "inf".toList
  | .finite negative mantissa exponent =>
    let shown := magnitudeText (Number.magnitude mantissa exponent) (some request.letter.toLower)
      request.precision (request.has '#')
    text negative (shown.getD [])

def layout (request : Request) (text : List Char) : List Char :=
  let isNumber := request.isInteger || request.isFloat
  let text :=
    if isNumber || request.letter = 'c' then text
    else (request.precision.map fun count => text.take count).getD text
  let (sign, text) : List Char × List Char :=
    match isNumber, text with
    | true, '-' :: rest => (['-'], rest)
    | true, text => (if request.has '+' then ['+'] else if request.has ' ' then [' '] else [], text)
    | false, text => ([], text)
  let (mark, text) :=
    if request.has '#' && "xXo".toList.contains request.letter then (text.take 2, text.drop 2)
    else ([], text)
  let shown := sign ++ mark ++ text
  let padding := request.width.getD 0 - shown.length
  if request.has '-' then shown ++ List.replicate padding ' '
  else if isNumber && request.has '0' then sign ++ mark ++ Number.zeros padding ++ text
  else List.replicate padding ' ' ++ shown

end Request

end Noxy.Format
