import Noxy.Builtin.Handle
import Noxy.Calendar.Pattern
import Noxy.Calendar.Reader
import Noxy.Number.Word

/-!
# Time

Timestamps count seconds since the start of 1970, and moments appear in programs as struct instances
with a field for each part.
-/

namespace Noxy.Builtin

def momentStruct (moment : Moment) (timestamp : Int) : Exec Value :=
  Exec.struct "DateTime" [("year", .int moment.year), ("month", .int moment.month),
    ("day", .int moment.day), ("hour", .int moment.hour), ("minute", .int moment.minute),
    ("second", .int moment.second), ("weekday", .int moment.weekday),
    ("yearday", .int moment.yearday), ("timestamp", .int timestamp)]

def readClock : Exec Nat := do
  let clock ← Exec.world World.clock
  Exec.changeWorld fun world => { world with clock := world.clock + 1 }
  return clock

def timeNow : Exec Value := do
  return .int ((← readClock) / 1000 : Nat)

def timeNowMs : Exec Value := do
  return .int (← readClock)

def hasYear (timestamp : Int) : Bool :=
  -67768040609740800 ≤ timestamp && timestamp ≤ 67768036191676799

def momentAt (timestamp : Int) : Except MomentError Moment := do
  let moment ← Moment.ofTimestamp timestamp
  moment.checkTimestamp
  return moment

def timeNowDateTime : Exec Value := do
  let seconds : Int := (← readClock) / 1000
  match momentAt seconds with
  | .ok moment => momentStruct moment seconds
  | .error error => Exec.fault (.value error.message)

def splitSeconds (value : Float) : Option (Int × Nat) := do
  let whole ← Number.truncate? value
  let fraction := (value - (Number.ofInt? whole).getD 0) * 1000000
  match Number.parts fraction with
  | .finite negative mantissa exponent =>
    let rounded := (Number.magnitude mantissa exponent).roundHalfEven
    let total := if negative then -(rounded : Int) else rounded
    return (whole + total.fdiv 1000000, (total.fmod 1000000).toNat)
  | _ => none

def secondsOf (value : Value) : Exec (Int × Nat) := do
  match value.numeric? with
  | none =>
    let name ← Exec.look fun heap => heap.className value
    Exec.fault (.kind s!"'{name}' object cannot be interpreted as an integer")
  | some (.int seconds) =>
    if Number.fitsWord seconds then
      return (seconds, 0)
    else
      Exec.fault (.overflow "timestamp out of range for platform time_t")
  | some (.float seconds) =>
    if seconds.isNaN then
      Exec.fault (.value "Invalid value NaN (not a number)")
    else
      match splitSeconds seconds with
      | some (whole, rest) =>
        if Number.fitsWord whole then return (whole, rest)
        else Exec.fault (.overflow "timestamp out of range for platform time_t")
      | none => Exec.fault (.overflow "timestamp out of range for platform time_t")

def timeFromTimestamp (timestamp : Value) : Exec Value := do
  let (seconds, microseconds) ← secondsOf timestamp
  unless hasYear seconds do
    Exec.fault (.system "[Errno 75] Value too large for defined data type")
  match momentAt seconds with
  | .ok moment =>
    let shown := if seconds < 0 ∧ 0 < microseconds then seconds + 1 else seconds
    momentStruct moment shown
  | .error error => Exec.fault (.value error.message)

def momentPart (value : Value) : Exec Int := do
  match value.int? with
  | none =>
    let name ← Exec.look fun heap => heap.className value
    Exec.fault (.kind s!"'{name}' object cannot be interpreted as an integer")
  | some number =>
    if !Number.fitsWord number then
      Exec.fault (.overflow "Python int too large to convert to C long")
    else if number < -0x80000000 then
      Exec.fault (.overflow "signed integer is less than minimum")
    else if 0x80000000 ≤ number then
      Exec.fault (.overflow "signed integer is greater than maximum")
    else
      return number

def momentOfParts (year month day hour minute second : Value) :
    Exec (Except MomentError Moment) := do
  let year ← momentPart year
  let month ← momentPart month
  let day ← momentPart day
  let hour ← momentPart hour
  let minute ← momentPart minute
  let second ← momentPart second
  return Moment.ofParts year month day hour minute second

def momentOf (value : Value) : Exec Moment := do
  let part (name : String) (missing : Int) : Exec Value := do
    match ← Exec.object? value with
    | some (.struct _ fields) => return (Bindings.get? name fields).getD (.int missing)
    | some (.map entries) => return (Map.get? (.string name) entries).getD (.int missing)
    | _ =>
      let className ← Exec.look fun heap => heap.className value
      Exec.fault (.part s!"'{className}' object has no attribute 'get'")
  let year ← part "year" 1970
  let month ← part "month" 1
  let day ← part "day" 1
  let hour ← part "hour" 0
  let minute ← part "minute" 0
  let second ← part "second" 0
  match ← momentOfParts year month day hour minute second with
  | .ok moment => return moment
  | .error error => Exec.fault (.value error.message)

def timeToTimestamp (value : Value) : Exec Value := do
  let moment ← momentOf value
  match moment.checkTimestamp with
  | .ok () => return .int moment.timestamp
  | .error error => Exec.fault (.value error.message)

def timeMakeDateTime (year month day hour minute second : Value) : Exec Value := do
  match ← momentOfParts year month day hour minute second with
  | .error error => Exec.fail (.invalidDate error.message)
  | .ok moment =>
    match moment.checkTimestamp with
    | .error error => Exec.fail (.invalidDate error.message)
    | .ok () => momentStruct moment moment.timestamp

def timeFormat (pattern : String) (value : Value) : Exec Value := do
  let moment ← momentOf value
  return .string (Calendar.write moment pattern)

def timeFormatCustom (value pattern : Value) : Exec Value := do
  let moment ← momentOf value
  match pattern with
  | .string pattern => return .string (Calendar.write moment pattern)
  | pattern =>
    let name ← Exec.look fun heap => heap.className pattern
    Exec.fault (.kind s!"strftime() argument 1 must be str, not {name}")

def timeParse (parse : String → Option Moment) (expected : String) (value : Value) :
    Exec Value := do
  match value with
  | .string text =>
    match parse text with
    | some moment => momentStruct moment moment.timestamp
    | none => Exec.fail (.dateFormat text expected)
  | value =>
    let name ← Exec.look fun heap => heap.className value
    Exec.fault (.kind s!"strptime() argument 1 must be str, not {name}")

def timeAddSeconds (timestamp seconds : Value) : Exec Value := do
  Exec.make (← Exec.view fun heap => heap.add timestamp seconds)

def timeAddDays (timestamp days : Value) : Exec Value := do
  let seconds ← Exec.make (← Exec.view fun heap => heap.multiply days (.int Calendar.secondsPerDay))
  Exec.make (← Exec.view fun heap => heap.add timestamp seconds)

def timeDiff (later earlier : Value) : Exec Value := do
  Exec.make (← Exec.view fun heap => heap.subtract later earlier)

def magnitudeOf : Numeric → Numeric
  | .int value => .int value.natAbs
  | .float value => .float value.abs

def divideBy (number : Numeric) (divisor : Nat) : Numeric × Numeric :=
  match number with
  | .int value => (.int (value.fdiv divisor), .int (value.fmod divisor))
  | .float value =>
    let divisor := divisor.toFloat
    (.float (Number.floorQuotient value divisor), .float (Number.floorRemainder value divisor))

def timeDiffDuration (first second : Value) : Exec Value := do
  let difference ← Exec.view fun heap => heap.subtract first second
  let total := magnitudeOf (difference.numeric?.getD (.int 0))
  let (days, rest) := divideBy total Calendar.secondsPerDay
  let (hours, rest) := divideBy rest 3600
  let (minutes, seconds) := divideBy rest 60
  Exec.struct "Duration" [("days", ← Exec.numeric days), ("hours", ← Exec.numeric hours),
    ("minutes", ← Exec.numeric minutes), ("seconds", ← Exec.numeric seconds),
    ("total_seconds", ← Exec.numeric total)]

def timeCompare (comparison : Comparison) (first second : Value) : Exec Value := do
  return .bool (← Exec.view fun heap => heap.compare comparison first second)

def isMultiple (value : Value) (divisor : Nat) : Exec Bool :=
  Exec.view fun heap => do
    let remainder ← heap.modulo value (.int divisor)
    return Heap.isZero remainder.numeric?

def timeIsLeapYear (year : Value) : Exec Value := do
  if ← isMultiple year 4 then
    if ← isMultiple year 100 then
      return .bool (← isMultiple year 400)
    else
      return .bool true
  else
    return .bool false

def isBetween (low : Int) (value : Value) (upTo : Comparison) (high : Int) : Exec Bool := do
  if ← Exec.view fun heap => heap.compare .lessEqual (.int low) value then
    Exec.view fun heap => heap.compare upTo value (.int high)
  else
    return false

def timeDaysInMonth (year month : Value) : Exec Value := do
  if ← isBetween 1 month .lessEqual 12 then
    let _ ← isBetween 1 year .lessEqual Calendar.lastYear
    match year.int?, month.int? with
    | some year, some month => return .int (Calendar.daysInMonth year month.toNat)
    | none, _ =>
      let name ← Exec.look fun heap => heap.className year
      Exec.fault (.kind s!"'{name}' object cannot be interpreted as an integer")
    | _, none =>
      let name ← Exec.look fun heap => heap.className month
      Exec.fault (.kind s!"'{name}' object cannot be interpreted as an integer")
  else
    let shown ← Exec.view fun heap => heap.plain month
    Exec.fault (.month s!"bad month number {shown}; must be 1-12")

def nameAt (names : List String) (low : Int) (upTo : Comparison) (high : Int) (value : Value) :
    Exec Value := do
  if ← isBetween low value upTo high then
    match value.int? with
    | some position => return .string (names.getD position.toNat "")
    | none =>
      let name ← Exec.look fun heap => heap.className value
      Exec.fault (.kind s!"list indices must be integers or slices, not {name}")
  else
    return .string ""

def weekdayNames : List String :=
  ["Domingo", "Segunda-feira", "Terça-feira", "Quarta-feira", "Quinta-feira", "Sexta-feira",
    "Sábado"]

def monthNames : List String :=
  ["", "Janeiro", "Fevereiro", "Março", "Abril", "Maio", "Junho", "Julho", "Agosto", "Setembro",
    "Outubro", "Novembro", "Dezembro"]

def parseMomentOrDay (text : String) : Option Moment :=
  Calendar.parseMoment text <|> Calendar.parseDay text

def time : List Builtin :=
  let named (name : String) (parameters : List String) (body : List Value → Exec Value) :=
    plain ("time_" ++ name) ("time_" ++ name) parameters body
  [named "now" [] (nullary timeNow),
    named "now_datetime" [] (nullary timeNowDateTime),
    named "now_ms" [] (nullary timeNowMs),
    named "from_timestamp" ["ts"] (unary timeFromTimestamp),
    named "to_timestamp" ["dt"] (unary timeToTimestamp),
    named "make_datetime" ["year", "month", "day", "hour", "minute", "second"] (fun
      | [year, month, day, hour, minute, second] =>
        timeMakeDateTime year month day hour minute second
      | _ => pure .null),
    named "format" ["dt"] (unary (timeFormat "%Y-%m-%d %H:%M:%S")),
    named "format_custom" ["dt", "fmt"] (binary timeFormatCustom),
    named "format_date" ["dt"] (unary (timeFormat "%Y-%m-%d")),
    named "format_time" ["dt"] (unary (timeFormat "%H:%M:%S")),
    named "parse" ["s"] (unary (timeParse parseMomentOrDay "YYYY-MM-DD HH:MM:SS")),
    named "parse_date" ["s"] (unary (timeParse Calendar.parseDay "YYYY-MM-DD")),
    named "add_seconds" ["ts", "secs"] (binary timeAddSeconds),
    named "add_days" ["ts", "days"] (binary timeAddDays),
    named "diff" ["ts1", "ts2"] (binary timeDiff),
    named "diff_duration" ["ts1", "ts2"] (binary timeDiffDuration),
    named "before" ["ts1", "ts2"] (binary (timeCompare .less)),
    named "after" ["ts1", "ts2"] (binary (timeCompare .greater)),
    named "is_leap_year" ["year"] (unary timeIsLeapYear),
    named "days_in_month" ["year", "month"] (binary timeDaysInMonth),
    named "weekday_name" ["weekday"] (unary (nameAt weekdayNames 0 .less 7)),
    named "month_name" ["month"] (unary (nameAt monthNames 1 .lessEqual 12))]

end Noxy.Builtin
