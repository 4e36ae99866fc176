import Noxy.Calendar
import Noxy.Text.Blank
import Noxy.Text.Digit

/-!
# Reading moments

Moments are read from texts such as `2024-02-29 23:05:00` and days from texts such as `2024-02-29`.
-/

namespace Noxy.Calendar

def readDigit : List Char → Option (Nat × List Char)
  | [] => none
  | c :: rest => (Text.decimalValue? c).map fun digit => (digit, rest)

def readPlain (low high : Nat) : List Char → Option (Nat × List Char)
  | [] => none
  | c :: rest =>
    let digit := c.toNat - '0'.toNat
    if c.isDigit ∧ low ≤ digit ∧ digit ≤ high then some (digit, rest) else none

def readPlainPair (tens low high : Nat) (text : List Char) : Option (Nat × List Char) := do
  let (_, text) ← readPlain tens tens text
  let (ones, text) ← readPlain low high text
  return (tens * 10 + ones, text)

def readPair (low high : Nat) (text : List Char) : Option (Nat × List Char) := do
  let (tens, text) ← readPlain low high text
  let (ones, text) ← readDigit text
  return (tens * 10 + ones, text)

def readYear (text : List Char) : Option (Nat × List Char) := do
  let (a, text) ← readDigit text
  let (b, text) ← readDigit text
  let (c, text) ← readDigit text
  let (d, text) ← readDigit text
  return (a * 1000 + b * 100 + c * 10 + d, text)

def readMonth (text : List Char) : Option (Nat × List Char) :=
  readPlainPair 1 0 2 text <|> readPlainPair 0 1 9 text <|> readPlain 1 9 text

def readDay (text : List Char) : Option (Nat × List Char) :=
  readPlainPair 3 0 1 text <|> readPair 1 2 text <|> readPlainPair 0 1 9 text <|>
    readPlain 1 9 text <|>
    match text with
    | ' ' :: rest => readPlain 1 9 rest
    | _ => none

def readHour (text : List Char) : Option (Nat × List Char) :=
  readPlainPair 2 0 3 text <|> readPair 0 1 text <|> readDigit text

def readMinute (text : List Char) : Option (Nat × List Char) :=
  readPair 0 5 text <|> readDigit text

def readSecond (text : List Char) : Option (Nat × List Char) :=
  readPlainPair 6 0 1 text <|> readPair 0 5 text <|> readDigit text

def readMark (mark : Char) : List Char → Option (List Char)
  | c :: rest => if c = mark then some rest else none
  | [] => none

def readDate (text : List Char) : Option ((Nat × Nat × Nat) × List Char) := do
  let (year, text) ← readYear text
  let text ← readMark '-' text
  let (month, text) ← readMonth text
  let text ← readMark '-' text
  let (day, text) ← readDay text
  return ((year, month, day), text)

def readTime (text : List Char) : Option ((Nat × Nat × Nat) × List Char) := do
  let rest := text.dropWhile Text.isBlank
  guard (rest.length < text.length)
  let (hour, text) ← readHour rest
  let text ← readMark ':' text
  let (minute, text) ← readMinute text
  let text ← readMark ':' text
  let (second, text) ← readSecond text
  return ((hour, minute, second), text)

def checked (date time : Nat × Nat × Nat) : Option Moment :=
  let (year, month, day) := date
  let (hour, minute, second) := time
  match Moment.ofParts year month day hour minute second with
  | .error _ => none
  | .ok moment =>
    match moment.checkTimestamp with
    | .error _ => none
    | .ok () => some moment

def parseMoment (text : String) : Option Moment := do
  let (date, rest) ← readDate text.toList
  let (time, rest) ← readTime rest
  guard rest.isEmpty
  checked date time

def parseDay (text : String) : Option Moment := do
  let (date, rest) ← readDate text.toList
  guard rest.isEmpty
  checked date (0, 0, 0)

end Noxy.Calendar
