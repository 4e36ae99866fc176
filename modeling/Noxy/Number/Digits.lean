import Noxy.Number.Binary64

/-!
# Decimal digits of a double

Three ways of choosing the decimal digits of a positive quotient: the fewest that read back as the
same double, a given number of significant digits, and a given number of places after the point.
-/

namespace Noxy.Number

structure Digits where
  digits : List Char
  point : Int

def natDigits (n : Nat) : List Char :=
  (toString n).toList

def dropTrailingZeros (digits : List Char) : List Char :=
  (digits.reverse.dropWhile (· == '0')).reverse

def Digits.ofScaled (coefficient : Nat) (exponent : Int) : Digits :=
  let digits := natDigits coefficient
  ⟨dropTrailingZeros digits, exponent + digits.length⟩

def Digits.zero : Digits :=
  ⟨['0'], 1⟩

def Ratio.decimalExponent (ratio : Ratio) : Int :=
  let guess : Int := (((ratio.num.log2 : Int) - ratio.den.log2) * 30103).fdiv 100000
  let atLeast (k : Int) : Bool :=
    let scaled := ratio.shift 10 (-k)
    scaled.den ≤ scaled.num
  if atLeast (guess + 1) then guess + 1
  else if atLeast guess then guess
  else guess - 1

/-- The candidate of `count` digits among the quotient's two neighbours on that decimal grid that
reads back as the double with these bits; of two such, the nearer, and on a tie the even one. -/
def Ratio.readBack? (ratio : Ratio) (bits : Nat) (exponent : Int) (count : Nat) : Option Digits :=
  let unit := exponent - count + 1
  let scaled := ratio.shift 10 (-unit)
  let low := scaled.num / scaled.den
  let readsBack (candidate : Nat) : Bool := (Ratio.scale candidate 10 unit).toBits == bits
  let nearest := scaled.roundHalfEven
  match readsBack low, readsBack (low + 1) with
  | true, true => some (.ofScaled nearest unit)
  | true, false => some (.ofScaled low unit)
  | false, true => some (.ofScaled (low + 1) unit)
  | false, false => none

def Ratio.shortest (ratio : Ratio) : Digits :=
  if ratio.num = 0 then .zero
  else
    let bits := ratio.toBits
    let exponent := ratio.decimalExponent
    ((List.range 17).findSome? fun count => ratio.readBack? bits exponent (count + 1)).getD .zero

def Ratio.significant (ratio : Ratio) (count : Nat) : Digits :=
  if ratio.num = 0 then .zero
  else
    let unit := ratio.decimalExponent - count + 1
    .ofScaled (ratio.shift 10 (-unit)).roundHalfEven unit

def Ratio.fixed (ratio : Ratio) (places : Nat) : Digits :=
  let coefficient := (ratio.shift 10 places).roundHalfEven
  if coefficient = 0 then .zero else .ofScaled coefficient (-(places : Int))

def zeros (count : Nat) : List Char :=
  List.replicate count '0'

def Digits.positional (value : Digits) (places : Nat) (keepPoint : Bool) : List Char :=
  let whole :=
    if value.point ≤ 0 then ['0']
    else value.digits.take value.point.toNat ++ zeros (value.point.toNat - value.digits.length)
  let fraction :=
    if value.point ≤ 0 then zeros (-value.point).toNat ++ value.digits
    else value.digits.drop value.point.toNat
  let fraction := if value.digits == ['0'] then [] else fraction
  let padded := fraction ++ zeros (places - fraction.length)
  if padded.isEmpty then if keepPoint then whole ++ ['.'] else whole
  else whole ++ '.' :: padded

def exponentText (exponent : Int) : List Char :=
  let digits := natDigits exponent.natAbs
  (if exponent < 0 then '-' else '+') :: zeros (2 - digits.length) ++ digits

def Digits.scientific (value : Digits) (places : Nat) (keepPoint : Bool) : List Char :=
  let mantissa := Digits.positional ⟨value.digits, 1⟩ places keepPoint
  mantissa ++ 'e' :: exponentText (value.point - 1)

def Ratio.shortestText (ratio : Ratio) : List Char :=
  let value := ratio.shortest
  if value.point ≤ -4 ∨ 16 < value.point then value.scientific 0 false
  else value.positional 1 false

def shortestText (x : Float) : String :=
  match parts x with
  | .nan => "nan"
  | .infinite negative => if negative then "-inf" else "inf"
  | .finite negative mantissa exponent =>
    let text := (magnitude mantissa exponent).shortestText
    String.ofList (if negative then '-' :: text else text)

def fixedText (x : Float) (places : Nat) : String :=
  match parts x with
  | .nan => "nan"
  | .infinite negative => if negative then "-inf" else "inf"
  | .finite negative mantissa exponent =>
    let text := ((magnitude mantissa exponent).fixed places).positional places false
    String.ofList (if negative then '-' :: text else text)

end Noxy.Number
