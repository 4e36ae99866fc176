import Noxy.Builtin.Handle

/-!
# Durations

How long a program asks to wait, in milliseconds.
-/

namespace Noxy.Builtin

/-- The length of a duration in milliseconds, or what is wrong with it; `negative` says what is
wrong with one below zero.  A duration has to fit into 63 bits when counted in nanoseconds. -/
def duration (negative : String) (value : Value) : Exec (Except Fault Float) := do
  match value.numeric? with
  | none =>
    let name ← Exec.look fun heap => heap.className value
    return .error (.unsupportedOperands "/" name "float")
  | some number =>
    match number.toFloat with
    | .error fault => return .error fault
    | .ok milliseconds =>
      let nanoseconds := milliseconds / 1000 * 1e9
      if milliseconds.isNaN then
        return .error (.value "Invalid value NaN (not a number)")
      else if nanoseconds < -9223372036854775808 || 9223372036854775808 ≤ nanoseconds then
        return .error (.overflow "timestamp out of range for platform time_t")
      else if milliseconds < 0 then
        return .error (.value negative)
      else
        return .ok milliseconds

end Noxy.Builtin
