/-!
# Faults

A fault is the failure of a primitive operation that the language itself gives no error for: adding
a number to a list, hashing a mutable key, converting a not-a-number.
-/

namespace Noxy

/-- The failure of a primitive operation, by its kind, with the wording shown to the user. -/
inductive Fault where
  | kind (text : String)
  | value (text : String)
  | overflow (text : String)
  | position (text : String)
  | part (text : String)
  | key (text : String)
  | month (text : String)
  | encoding (text : String)
  | missing (text : String)
  | directory (text : String)
  | memory
  | recursion
  | system (text : String)
  deriving DecidableEq, Repr

namespace Fault

def text : Fault → String
  | kind text => text
  | value text => text
  | overflow text => text
  | position text => text
  | part text => text
  | key text => text
  | month text => text
  | encoding text => text
  | missing text => text
  | directory text => text
  | memory => ""
  | recursion => "maximum recursion depth exceeded"
  | system text => text

def unsupportedOperands (operator left right : String) : Fault :=
  .kind s!"unsupported operand type(s) for {operator}: '{left}' and '{right}'"

def unordered (operator left right : String) : Fault :=
  .kind s!"'{operator}' not supported between instances of '{left}' and '{right}'"

def unhashable (className : String) : Fault :=
  .kind s!"unhashable type: '{className}'"

def integerTooLarge : Fault :=
  .overflow "int too large to convert to float"

def countTooLarge : Fault :=
  .overflow "cannot fit 'int' into an index-sized integer"

def repetitionTooLong (kind : String) : Fault :=
  .overflow s!"repeated {kind} too long"

def tooManyDigits : Fault :=
  .value ("Exceeds the limit (4300 digits) for integer string conversion; " ++
    "use sys.set_int_max_str_digits() to increase the limit")

end Fault

end Noxy
