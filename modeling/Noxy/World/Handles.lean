/-!
# Handle tables

Things that programs open are known by handles.
-/

namespace Noxy

structure Handles (α : Type) where
  next : Nat
  entries : List (Nat × α)

namespace Handles

def startingAt (first : Nat) : Handles α :=
  ⟨first, []⟩

def get? (handles : Handles α) (handle : Nat) : Option α :=
  handles.entries.lookup handle

def add (handles : Handles α) (thing : α) : Nat × Handles α :=
  (handles.next, ⟨handles.next + 1, handles.entries ++ [(handles.next, thing)]⟩)

def update (handles : Handles α) (handle : Nat) (thing : α) : Handles α :=
  { handles with entries := handles.entries.map fun entry =>
      if entry.1 = handle then (handle, thing) else entry }

def close (handles : Handles α) (handle : Nat) : Handles α :=
  { handles with entries := handles.entries.filter fun entry => entry.1 ≠ handle }

end Handles

end Noxy
