import Noxy.Machine

/-!
# Builtin functions

A builtin function has a name and takes values in order.
-/

namespace Noxy

/-- A builtin function: the name programs call it by, the label and the parameters that faults name
it by, how many of the last parameters may be missing, and what it does.  Without such a number any
number of arguments is taken. -/
structure Builtin where
  name : String
  label : String
  parameters : List String
  optional : Option Nat
  body : List Value → Exec Value

namespace Builtin

def enumerated : List String → String
  | [] => ""
  | [word] => word
  | [first, last] => s!"{first} and {last}"
  | words => ", ".intercalate words.dropLast ++ ", and " ++ words.getLast?.getD ""

def countFault? (label : String) (parameters : List String) (optional count : Nat) :
    Option Fault :=
  let most := parameters.length
  let least := most - optional
  if count < least then
    let missing := (parameters.take least).drop count
    let plural := if missing.length = 1 then "" else "s"
    let names := enumerated (missing.map fun name => "'" ++ name ++ "'")
    some (.kind (s!"{label}() missing {missing.length} required positional argument" ++
      s!"{plural}: {names}"))
  else if most < count then
    let given := if count = 1 then "1 was given" else s!"{count} were given"
    let taken :=
      if least < most then s!"from {least} to {most} positional arguments"
      else if most = 1 then "1 positional argument"
      else s!"{most} positional arguments"
    some (.kind s!"{label}() takes {taken} but {given}")
  else
    none

def call (builtin : Builtin) (arguments : List Value) : Exec Value :=
  match builtin.optional with
  | none => builtin.body arguments
  | some optional =>
    match countFault? builtin.label builtin.parameters optional arguments.length with
    | some fault => Exec.fault fault
    | none => builtin.body arguments

def nullary (body : Exec Value) : List Value → Exec Value :=
  fun _ => body

def unary (body : Value → Exec Value) : List Value → Exec Value
  | [first] => body first
  | _ => pure .null

def binary (body : Value → Value → Exec Value) : List Value → Exec Value
  | [first, second] => body first second
  | _ => pure .null

def ternary (body : Value → Value → Value → Exec Value) : List Value → Exec Value
  | [first, second, third] => body first second third
  | _ => pure .null

def plain (name label : String) (parameters : List String) (body : List Value → Exec Value) :
    Builtin :=
  ⟨name, label, parameters, some 0, body⟩

end Builtin

end Noxy
