import Noxy.Calendar
import Noxy.Text.Case

/-!
# Writing moments by a pattern

In a pattern a percent sign starts a directive, which may have flags, a width and a modifier: `_`
pads with blanks, `0` with zeros, `-` not at all, `^` writes capital letters and `#` changes the
case.
-/

namespace Noxy.Calendar

inductive Padding where
  | standard
  | blanks
  | zeros
  | unpadded
  deriving DecidableEq, Repr

inductive Modifier where
  | plain
  | era
  | alternative
  deriving DecidableEq, Repr

structure Layout where
  padding : Padding
  upper : Bool
  swapped : Bool
  width : Nat
  modifier : Modifier

def fill (layout : Layout) (text : List Char) : List Char :=
  let c := if layout.padding = .zeros then '0' else ' '
  List.replicate (layout.width - text.length) c ++ text

def writeDigits (layout : Layout) (places : Nat) (number : Int) : List Char :=
  let digits := Nat.toDigits 10 number.natAbs
  let sign := if number < 0 then ['-'] else []
  let missing := places - (sign.length + digits.length)
  match layout.padding with
  | .unpadded => fill layout (sign ++ digits)
  | .blanks =>
    let narrowed := { layout with width := layout.width - missing }
    List.replicate missing ' ' ++ fill narrowed (sign ++ digits)
  | _ => fill layout (sign ++ List.replicate missing '0' ++ digits)

def writeNumber (layout : Layout) (places : Nat) (number : Int) : List Char :=
  writeDigits layout (max places layout.width) number

def writeBlankNumber (layout : Layout) (places : Nat) (number : Int) : List Char :=
  let padding := if layout.padding = .standard then .blanks else layout.padding
  writeNumber { layout with padding := padding } places number

def writeName (layout : Layout) (name : String) : List Char :=
  let upper := layout.upper || layout.swapped
  fill layout (if upper then name.toList.map Char.toUpper else name.toList)

def halfOfDay (moment : Moment) : String :=
  if moment.hour < 12 then "AM" else "PM"

def clockHour (moment : Moment) : Nat :=
  if moment.hour % 12 = 0 then 12 else moment.hour % 12

def weekOfYear (moment : Moment) : Int × Int :=
  let weekday := (moment.weekday + 6) % 7
  let thursday := moment.dayNumber + 3 - weekday
  let (year, rest) := yearAndDay (thursday - 1)
  (year, rest / 7 + 1)

def expansion? : Char → Option String
  | 'c' => some "%a %b %e %H:%M:%S %Y"
  | 'D' => some "%m/%d/%y"
  | 'x' => some "%m/%d/%y"
  | 'F' => some "%Y-%m-%d"
  | 'r' => some "%I:%M:%S %p"
  | 'R' => some "%H:%M"
  | 'T' => some "%H:%M:%S"
  | 'X' => some "%H:%M:%S"
  | _ => none

def writeSimple? (moment : Moment) (layout : Layout) : Char → Option (List Char)
  | '%' => some (fill layout ['%'])
  | 'n' => some (fill layout ['\n'])
  | 't' => some (fill layout ['\t'])
  | 'a' => some (writeName layout ((weekdayNames.getD moment.weekday "").take 3).toString)
  | 'A' => some (writeName layout (weekdayNames.getD moment.weekday ""))
  | 'b' => some (writeName layout ((monthNames.getD (moment.month - 1) "").take 3).toString)
  | 'h' => some (writeName layout ((monthNames.getD (moment.month - 1) "").take 3).toString)
  | 'B' => some (writeName layout (monthNames.getD (moment.month - 1) ""))
  | 'C' => some (writeNumber layout 1 (moment.year / 100 : Nat))
  | 'd' => some (writeNumber layout 2 moment.day)
  | 'e' => some (writeBlankNumber layout 2 moment.day)
  | 'g' => some (writeNumber layout 2 ((weekOfYear moment).1 % 100))
  | 'G' => some (writeNumber layout 1 (weekOfYear moment).1)
  | 'H' => some (writeNumber layout 2 moment.hour)
  | 'I' => some (writeNumber layout 2 (clockHour moment))
  | 'j' => some (writeNumber layout 3 moment.yearday)
  | 'k' => some (writeBlankNumber layout 2 moment.hour)
  | 'l' => some (writeBlankNumber layout 2 (clockHour moment))
  | 'm' => some (writeNumber layout 2 moment.month)
  | 'M' => some (writeNumber layout 2 moment.minute)
  | 'p' =>
    let name := (halfOfDay moment).toList
    some (fill layout (if layout.swapped then name.map Char.toLower else name))
  | 'P' => some (fill layout ((halfOfDay moment).toList.map Char.toLower))
  | 's' => some (writeDigits layout 1 moment.timestamp)
  | 'S' => some (writeNumber layout 2 moment.second)
  | 'u' => some (writeNumber layout 1 ((moment.weekday + 6) % 7 + 1 : Nat))
  | 'U' => some (writeNumber layout 2 ((moment.yearday + 6 - moment.weekday) / 7 : Nat))
  | 'V' => some (writeNumber layout 2 (weekOfYear moment).2)
  | 'w' => some (writeNumber layout 1 moment.weekday)
  | 'W' => some (writeNumber layout 2 ((moment.yearday + 6 - (moment.weekday + 6) % 7) / 7 : Nat))
  | 'y' => some (writeNumber layout 2 (moment.year % 100 : Nat))
  | 'Y' => some (writeNumber layout 1 moment.year)
  | 'z' => some []
  | 'Z' => some (if layout.padding = .unpadded then [] else fill layout [])
  | _ => none

def admits (c : Char) : Modifier → Bool
  | .plain => true
  | .era => c ∉ "%aAbBhdDeFgGHIjklmMSUVwW".toList
  | .alternative => c ∉ "%aAcDFxXY".toList

def readFlags (layout : Layout) : List Char → Layout × List Char
  | '_' :: rest => readFlags { layout with padding := .blanks } rest
  | '0' :: rest => readFlags { layout with padding := .zeros } rest
  | '-' :: rest => readFlags { layout with padding := .unpadded } rest
  | '^' :: rest => readFlags { layout with upper := true } rest
  | '#' :: rest => readFlags { layout with swapped := true } rest
  | rest => (layout, rest)

def readModifier : List Char → Modifier × List Char
  | 'E' :: rest => (.era, rest)
  | 'O' :: rest => (.alternative, rest)
  | rest => (.plain, rest)

def readLayout (limit : Nat) (text : List Char) : Layout × List Char :=
  let (layout, rest) := readFlags ⟨.standard, false, false, 0, .plain⟩ text
  let width := (rest.takeWhile Char.isDigit).foldl
    (fun width c => min limit (width * 10 + (c.toNat - '0'.toNat))) 0
  let (modifier, rest) := readModifier (rest.dropWhile Char.isDigit)
  ({ layout with width := width, modifier := modifier }, rest)

def verbatim (text rest : List Char) : List Char :=
  if rest.head? = some '%' then ['%'] else '%' :: text.take (text.length - rest.length + 1)

def capital (c : Char) : Char :=
  match Text.upperChar c with
  | [upper] => upper
  | _ => c

def writeVerbatim (layout : Layout) (text : List Char) : List Char :=
  let upper := layout.upper ||
    (layout.swapped && (text.getLast? = some 'b' || text.getLast? = some 'h'))
  fill layout (if upper then text.map capital else text)

def writePieces (moment : Moment) (limit : Nat) : Nat → Nat → List Char → List Char
  | _, 0, _ => []
  | _, _, [] => []
  | depth, bound + 1, '%' :: text =>
    let (layout, rest) := readLayout limit text
    match rest with
    | [] => writeVerbatim layout ('%' :: text)
    | c :: more =>
      let standing := writeVerbatim layout (verbatim text rest)
      let written :=
        if admits c layout.modifier then
          match writeSimple? moment layout c, expansion? c, depth with
          | some written, _, _ => written
          | none, some pattern, depth + 1 =>
            let inner := writePieces moment limit depth bound pattern.toList
            fill layout (if layout.upper then inner.map Char.toUpper else inner)
          | none, _, _ => standing
        else
          standing
      written ++ writePieces moment limit depth bound more
  | depth, bound + 1, c :: rest => c :: writePieces moment limit depth bound rest

def withoutZones : List Char → List Char
  | '%' :: 'f' :: rest => "000000".toList ++ withoutZones rest
  | '%' :: 'z' :: rest => withoutZones rest
  | '%' :: 'Z' :: rest => withoutZones rest
  | '%' :: c :: rest => '%' :: c :: withoutZones rest
  | c :: rest => c :: withoutZones rest
  | [] => []

def doubled : Nat → Nat → Nat → Nat
  | 0, size, _ => size
  | steps + 1, size, bound => if bound ≤ size then size else doubled steps (size * 2) bound

def lengthLimit (pattern : List Char) : Nat :=
  doubled pattern.length 1024 (256 * pattern.length)

def write (moment : Moment) (pattern : String) : String :=
  let pattern := withoutZones (pattern.toList.takeWhile fun c => c.toNat ≠ 0)
  let limit := lengthLimit pattern
  let text := writePieces moment limit 1 (pattern.length + 20) pattern
  if text.length < limit then String.ofList text else ""

end Noxy.Calendar
