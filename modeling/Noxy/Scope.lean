import Noxy.Bindings
import Noxy.Value

/-!
# Scopes

A scope binds names to variables, functions and structs, and may have an outer scope.
-/

namespace Noxy

structure Variable where
  type : Ty
  value : Value
  isGlobal : Bool

structure Scope where
  outer : Option Nat
  bindings : List (String × Variable)
  functions : List (String × Function)
  structs : List (String × Struct)

instance : Inhabited Scope :=
  ⟨⟨none, [], [], []⟩⟩

structure Scopes where
  scopes : Array Scope

namespace Scopes

def single : Scopes :=
  ⟨#[⟨none, [], [], []⟩]⟩

def child (scopes : Scopes) (outer : Nat) : Nat × Scopes :=
  (scopes.scopes.size, ⟨scopes.scopes.push ⟨some outer, [], [], []⟩⟩)

def shrink (scopes : Scopes) (count : Nat) : Scopes :=
  ⟨scopes.scopes.shrink count⟩

def findFrom (scopes : Scopes) (find : Scope → Option α) : Nat → Nat → Option (Nat × α)
  | 0, _ => none
  | bound + 1, number =>
    match scopes.scopes[number]? with
    | none => none
    | some scope =>
      match find scope with
      | some found => some (number, found)
      | none =>
        match scope.outer with
        | some outer => scopes.findFrom find bound outer
        | none => none

def find (scopes : Scopes) (find : Scope → Option α) (number : Nat) : Option (Nat × α) :=
  scopes.findFrom find scopes.scopes.size number

def binding? (scopes : Scopes) (number : Nat) (name : String) : Option Variable :=
  (scopes.find (fun scope => Bindings.get? name scope.bindings) number).map Prod.snd

def function? (scopes : Scopes) (number : Nat) (name : String) : Option Function :=
  (scopes.find (fun scope => Bindings.get? name scope.functions) number).map Prod.snd

def struct? (scopes : Scopes) (number : Nat) (name : String) : Option Struct :=
  (scopes.find (fun scope => Bindings.get? name scope.structs) number).map Prod.snd

def modify (scopes : Scopes) (number : Nat) (change : Scope → Scope) : Scopes :=
  ⟨scopes.scopes.modify number change⟩

def define (scopes : Scopes) (number : Nat) (name : String) (binding : Variable) : Scopes :=
  scopes.modify number fun scope =>
    { scope with bindings := Bindings.put name binding scope.bindings }

def defineFunction (scopes : Scopes) (number : Nat) (function : Function) : Scopes :=
  scopes.modify number fun scope =>
    { scope with functions := Bindings.put function.name function scope.functions }

def defineStruct (scopes : Scopes) (number : Nat) (struct : Struct) : Scopes :=
  scopes.modify number fun scope =>
    { scope with structs := Bindings.put struct.name struct scope.structs }

def owner? (scopes : Scopes) (number : Nat) (name : String) : Option Nat :=
  (scopes.find (fun scope => Bindings.get? name scope.bindings) number).map Prod.fst

def binds (scopes : Scopes) (number : Nat) (name : String) : Bool :=
  (scopes.owner? number name).isSome

def assignIn (scopes : Scopes) (owner : Nat) (name : String) (value : Value) : Scopes :=
  scopes.modify owner fun scope =>
    { scope with bindings := scope.bindings.map fun (other, binding) =>
        if other = name then (other, { binding with value := value }) else (other, binding) }

end Scopes

end Noxy
