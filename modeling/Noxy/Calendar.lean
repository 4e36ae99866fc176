/-!
# Calendar

The proleptic Gregorian calendar from year 1 to year 9999.
-/

namespace Noxy

structure Moment where
  year : Nat
  month : Nat
  day : Nat
  hour : Nat
  minute : Nat
  second : Nat
  deriving DecidableEq, Repr

inductive MomentError where
  | year (year : Int)
  | month
  | day
  | hour
  | minute
  | second
  deriving DecidableEq, Repr

def MomentError.message : MomentError → String
  | year value => s!"year {value} is out of range"
  | month => "month must be in 1..12"
  | day => "day is out of range for month"
  | hour => "hour must be in 0..23"
  | minute => "minute must be in 0..59"
  | second => "second must be in 0..59"

namespace Calendar

def lastYear : Nat :=
  9999

def isLeap (year : Int) : Bool :=
  year % 4 = 0 && (year % 100 ≠ 0 || year % 400 = 0)

def daysInMonth (year : Int) (month : Nat) : Nat :=
  match month with
  | 2 => if isLeap year then 29 else 28
  | 4 | 6 | 9 | 11 => 30
  | _ => 31

def daysBeforeYear (year : Nat) : Nat :=
  let before := year - 1
  before * 365 + before / 4 - before / 100 + before / 400

def daysBeforeMonth (year month : Nat) : Nat :=
  (List.range (month - 1)).foldr (fun earlier days => daysInMonth year (earlier + 1) + days) 0

def dayNumber (year month day : Nat) : Nat :=
  daysBeforeYear year + daysBeforeMonth year month + day

def monthAndDay (year : Nat) : Nat → Nat → Nat → Nat × Nat
  | 0, month, rest => (month, rest + 1)
  | months + 1, month, rest =>
    if rest < daysInMonth year month then (month, rest + 1)
    else monthAndDay year months (month + 1) (rest - daysInMonth year month)

def yearAndDay (days : Nat) : Nat × Nat :=
  let cycles := days / 146097
  let inCycle := days % 146097
  let centuries := min (inCycle / 36524) 3
  let inCentury := inCycle - centuries * 36524
  let fours := inCentury / 1461
  let inFour := inCentury % 1461
  let years := min (inFour / 365) 3
  (cycles * 400 + centuries * 100 + fours * 4 + years + 1, inFour - years * 365)

def epochDay : Nat :=
  719163

def secondsPerDay : Nat :=
  86400

def weekdayNames : List String :=
  ["Sunday", "Monday", "Tuesday", "Wednesday", "Thursday", "Friday", "Saturday"]

def monthNames : List String :=
  ["January", "February", "March", "April", "May", "June", "July", "August", "September",
    "October", "November", "December"]

end Calendar

namespace Moment

def dayNumber (moment : Moment) : Nat :=
  Calendar.dayNumber moment.year moment.month moment.day

def weekday (moment : Moment) : Nat :=
  moment.dayNumber % 7

def yearday (moment : Moment) : Nat :=
  Calendar.daysBeforeMonth moment.year moment.month + moment.day

def timestamp (moment : Moment) : Int :=
  ((moment.dayNumber : Int) - Calendar.epochDay) * Calendar.secondsPerDay +
    (moment.hour * 3600 + moment.minute * 60 + moment.second : Nat)

def ofParts (year month day hour minute second : Int) : Except MomentError Moment :=
  if year < 1 ∨ Calendar.lastYear < year then
    .error (.year year)
  else if month < 1 ∨ 12 < month then
    .error .month
  else if day < 1 ∨ Calendar.daysInMonth year month.toNat < day then
    .error .day
  else if hour < 0 ∨ 23 < hour then
    .error .hour
  else if minute < 0 ∨ 59 < minute then
    .error .minute
  else if second < 0 ∨ 59 < second then
    .error .second
  else
    .ok ⟨year.toNat, month.toNat, day.toNat, hour.toNat, minute.toNat, second.toNat⟩

def yearOutside (dayNumber : Int) : Int :=
  let days := dayNumber - 1
  let cycles := days.fdiv 146097
  (Calendar.yearAndDay (days - cycles * 146097).toNat).1 + cycles * 400

def ofTimestamp (timestamp : Int) : Except MomentError Moment :=
  let number := timestamp.fdiv Calendar.secondsPerDay + Calendar.epochDay
  let seconds := (timestamp.fmod Calendar.secondsPerDay).toNat
  let (year, rest) := Calendar.yearAndDay (number - 1).toNat
  if number < 1 ∨ Calendar.lastYear < year then
    .error (.year (yearOutside number))
  else
    let (month, day) := Calendar.monthAndDay year 11 1 rest
    .ok ⟨year, month, day, seconds / 3600, seconds / 60 % 60, seconds % 60⟩

def checkTimestamp (moment : Moment) : Except MomentError Unit :=
  if moment.dayNumber ≤ 1 then .error (.year 0) else .ok ()

end Moment

end Noxy
