import Noxy.Text.Blank
import Noxy.Text.Digit
import Noxy.Number.Binary64

/-!
# Reading numerals

Integers and doubles are read from text with white space around them, an optional sign, decimal
digits of any script, and single underscores between digits.
-/

namespace Noxy.Number

open Noxy.Text

def maxIntegerDigits : Nat :=
  4300

def isWritable (n : Int) : Bool :=
  n.natAbs < Nat.pow 10 maxIntegerDigits

def plainChar (c : Char) : Char :=
  if c.val < 0x80 then c
  else
    match decimalValue? c with
    | some value => Char.ofNat (0x30 + value)
    | none => if isBlank c then ' ' else '?'

def isPlainBlank (c : Char) : Bool :=
  c == ' ' || (0x09 ≤ c.toNat && c.toNat ≤ 0x0D)

def plainNumeral (text : List Char) : List Char :=
  let plain := (text.map plainChar).dropWhile isPlainBlank
  (plain.reverse.dropWhile isPlainBlank).reverse

def splitSign : List Char → Bool × List Char
  | '-' :: rest => (true, rest)
  | '+' :: rest => (false, rest)
  | text => (false, text)

def digitValue? (base : Nat) (c : Char) : Option Nat :=
  let value :=
    if c.isDigit then some (c.toNat - 0x30)
    else if 'a' ≤ c ∧ c ≤ 'f' then some (c.toNat - 0x57)
    else if 'A' ≤ c ∧ c ≤ 'F' then some (c.toNat - 0x37)
    else none
  value.filter (· < base)

def digitValues? (base : Nat) (afterDigit : Bool) : List Char → Option (List Nat)
  | [] => if afterDigit then some [] else none
  | '_' :: rest => if afterDigit then digitValues? base false rest else none
  | c :: rest => do
    let value ← digitValue? base c
    let values ← digitValues? base true rest
    return value :: values

def ofDigitValues (base : Nat) (values : List Nat) : Nat :=
  values.foldl (fun total value => total * base + value) 0

inductive NumeralError where
  | malformed
  | tooLong (digits : Nat)

def readInt (base : Nat) (text : List Char) : Except NumeralError Int :=
  let (negative, body) := splitSign (plainNumeral text)
  match digitValues? base false body with
  | none => .error .malformed
  | some values =>
    if base = 10 ∧ maxIntegerDigits < values.length then .error (.tooLong values.length)
    else
      let value : Int := ofDigitValues base values
      .ok (if negative then -value else value)

def dropUnderscores? (previous : Char) : List Char → Option (List Char)
  | [] => if previous = '_' then none else some []
  | '_' :: rest => if previous.isDigit then dropUnderscores? '_' rest else none
  | c :: rest =>
    if previous = '_' ∧ ¬ c.isDigit then none else (dropUnderscores? c rest).map (c :: ·)

def readExponent? : List Char → Option Int
  | [] => some 0
  | mark :: rest =>
    if mark = 'e' ∨ mark = 'E' then
      let (negative, digits) := splitSign rest
      if digits.isEmpty ∨ ¬ digits.all Char.isDigit then none
      else
        let value : Int := ofDigitValues 10 (digits.map fun c => c.toNat - 0x30)
        some (if negative then -value else value)
    else none

def ofDecimal (negative : Bool) (coefficient : Nat) (exponent : Int) : Float :=
  let magnitude : Int := (toString coefficient).length + exponent
  if coefficient = 0 ∨ magnitude < -400 then Ratio.toFloat negative ⟨0, 1⟩
  else if 400 < magnitude then
    Float.ofBits (if negative then 0xFFF0000000000000 else 0x7FF0000000000000)
  else Ratio.toFloat negative (Ratio.scale coefficient 10 exponent)

def readUnsigned? (negative : Bool) (text : List Char) : Option Float := do
  let whole := text.takeWhile Char.isDigit
  let afterWhole := text.dropWhile Char.isDigit
  let (fraction, rest) :=
    match afterWhole with
    | '.' :: tail => (tail.takeWhile Char.isDigit, tail.dropWhile Char.isDigit)
    | _ => ([], afterWhole)
  if whole.isEmpty ∧ fraction.isEmpty then none
  else
    let exponent ← readExponent? rest
    let digits := (whole ++ fraction).map fun c => c.toNat - 0x30
    return ofDecimal negative (ofDigitValues 10 digits) (exponent - fraction.length)

def readFloat? (text : List Char) : Option Float := do
  let body ← dropUnderscores? ' ' (plainNumeral text)
  let (negative, unsigned) := splitSign body
  let word := String.ofList (unsigned.map Char.toLower)
  if word = "inf" ∨ word = "infinity" then
    return Float.ofBits (if negative then 0xFFF0000000000000 else 0x7FF0000000000000)
  else if word = "nan" then return notANumber
  else readUnsigned? negative unsigned

end Noxy.Number
