import Noxy.Heap.Copy
import Noxy.Heap.Format
import Noxy.Heap.Operator
import Noxy.Scope
import Noxy.World

/-!
# The machine

The state of a running program, and the steps it is made of.
-/

namespace Noxy

inductive Signal where
  | failure (cause : Failure)
  | breaking
  | returning (value : Value)
  | exit (code : Value)

/-- The state of a running program.  Scope 0 is the global one; `current` is the scope in which
names are looked up.  Modules are remembered by the path they were loaded from. -/
structure Machine where
  heap : Heap
  scopes : Scopes
  current : Nat
  modules : List (Path × Value)
  basePath : String
  output : String
  world : World

abbrev Exec :=
  EStateM Signal Machine

def Machine.start (world : World) (basePath : String) : Machine :=
  { heap := .empty
    scopes := .single
    current := 0
    modules := []
    basePath := basePath
    output := ""
    world := world }

namespace Exec

def fail (cause : RuntimeCause) : Exec α :=
  throw (.failure (.error (.runtime cause none)))

def fault (cause : Fault) : Exec α :=
  throw (.failure (.fault cause))

def ofExcept : Except Failure α → Exec α
  | .ok value => pure value
  | .error cause => throw (.failure cause)

def view (read : Heap → Except Failure α) : Exec α := do
  ofExcept (read (← get).heap)

def look (read : Heap → α) : Exec α := do
  return read (← get).heap

def object? (value : Value) : Exec (Option Object) :=
  look fun heap => heap.object? value

def alloc (object : Object) : Exec Value :=
  modifyGet fun machine =>
    let (value, heap) := machine.heap.alloc object
    (value, { machine with heap := heap })

def number (value : Float) : Exec Value :=
  modifyGet fun machine =>
    let (value, heap) := machine.heap.number value
    (value, { machine with heap := heap })

def numeric : Numeric → Exec Value
  | .int value => pure (.int value)
  | .float value => number value

def make : Made → Exec Value
  | .value value => pure value
  | .float value => number value
  | .object object => alloc object

def apply (change : Change) : Exec Unit :=
  modify fun machine => { machine with heap := machine.heap.apply change }

def deepCopy (value : Value) : Exec Value :=
  modifyGet fun machine =>
    let (copy, heap) := machine.heap.deepCopy value
    (copy, { machine with heap := heap })

def write (text : String) : Exec Unit :=
  modify fun machine => { machine with output := machine.output ++ text }

def list (elements : List Value) : Exec Value :=
  alloc (.list elements.toArray)

def struct (name : String) (fields : List (String × Value)) : Exec Value :=
  alloc (.struct name fields)

def world (read : World → α) : Exec α := do
  return read (← get).world

def changeWorld (change : World → World) : Exec Unit :=
  modify fun machine => { machine with world := change machine.world }

end Exec

end Noxy
