import Noxy.Typing.Interface

/-!
# The state of the checker

The checker keeps the types of variables in a stack of scopes, the functions and structs that are
known, the type that the current function returns, and the interfaces of imported modules.
-/

namespace Noxy

/-- The state of the checker.  `inner` holds the scopes inside the outermost one, the innermost
first; `loaded` gives the numbers of the interfaces that were read, by the places of their modules.
-/
structure Checker where
  outermost : List (String × Ty)
  inner : List (List (String × Ty))
  functions : List (String × Function)
  structs : List (String × Struct)
  returns : Option Ty
  interfaces : Array Interface
  loaded : List (Path × Nat)

abbrev Check :=
  EStateM Failure Checker

namespace Checker

def fresh : Checker :=
  ⟨[], [], [], [], none, #[], []⟩

def depth (checker : Checker) : Nat :=
  checker.inner.length + 1

def typeOfName? (checker : Checker) (name : String) : Option Ty :=
  (checker.inner.findSome? (Bindings.get? name)).or (Bindings.get? name checker.outermost)

def function? (checker : Checker) (name : String) : Option Function :=
  Bindings.get? name checker.functions

def struct? (checker : Checker) (name : String) : Option Struct :=
  Bindings.get? name checker.structs

def member? (checker : Checker) (number : Nat) (name : String) : Option Member :=
  checker.interfaces[number]?.bind fun interface => Bindings.get? name interface.members

def defineGlobal (checker : Checker) (name : String) (type : Ty) : Checker :=
  { checker with outermost := Bindings.put name type checker.outermost }

def define (checker : Checker) (name : String) (type : Ty) : Checker :=
  match checker.inner with
  | [] => checker.defineGlobal name type
  | scope :: rest => { checker with inner := Bindings.put name type scope :: rest }

def defineFunction (checker : Checker) (name : String) (function : Function) : Checker :=
  { checker with functions := Bindings.put name function checker.functions }

def defineStruct (checker : Checker) (name : String) (struct : Struct) : Checker :=
  { checker with structs := Bindings.put name struct checker.structs }

def defineMember (checker : Checker) (name : String) : Member → Checker
  | .function function => checker.defineFunction name function
  | .struct struct => checker.defineStruct name struct
  | .global type => checker.define name type

def enter (checker : Checker) : Checker :=
  { checker with inner := [] :: checker.inner }

def leave (checker : Checker) : Checker :=
  { checker with inner := checker.inner.tail }

end Checker

namespace Check

def fail (cause : TypingCause) (location : Location) : Check α :=
  throw (.error (.typing cause location))

def require (holds : Bool) (cause : TypingCause) (location : Location) : Check Unit :=
  if holds then pure () else fail cause location

end Check

end Noxy
