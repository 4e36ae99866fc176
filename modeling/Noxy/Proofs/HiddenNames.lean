import Noxy.Machine
import Noxy.Proofs.Mentions
import Noxy.Proofs.Scopes

/-!
# Machines without hidden names

`Machine.without` takes hidden names out of the global scope.
-/

namespace Noxy

namespace Bindings

variable {α : Type} {names : String → Bool}

def without (names : String → Bool) (bindings : List (String × α)) : List (String × α) :=
  bindings.filter fun entry => !names entry.1

theorem get?_without (shown : names name = false) :
    get? name (without names bindings) = get? name bindings := by
  induction bindings with
  | nil => rfl
  | cons entry =>
    obtain ⟨bound, _⟩ := entry
    by_cases same : bound = name
    · subst same
      simp [without, get?, shown]
    · cases isHidden : names bound <;> simp_all [without, get?]

theorem without_put : without names (put name value bindings) =
    if names name then without names bindings else put name value (without names bindings) := by
  induction bindings with
  | nil => cases isHidden : names name <;> simp [without, put, isHidden]
  | cons entry =>
    obtain ⟨bound, _⟩ := entry
    by_cases same : bound = name
    · subst same
      cases isHidden : names bound <;> simp [without, put, isHidden]
    · cases isHidden : names bound <;> cases nameHidden : names name <;> simp_all [without, put]

theorem without_map {change : String × α → String × α}
    (keepsNames : ∀ entry, (change entry).1 = entry.1) :
    without names (bindings.map change) = (without names bindings).map change := by
  simp only [without, List.filter_map]
  congr 1
  exact List.filter_congr fun _ _ => by simp [keepsNames]

theorem without_none (bindings : List (String × α)) (noNames : ∀ name, names name = false) :
    without names bindings = bindings :=
  List.filter_eq_self.mpr fun _ _ => by simp [noNames]

end Bindings

variable {hidden : Hidden}

def Scope.without (hidden : Hidden) (scope : Scope) : Scope where
  outer := scope.outer
  bindings := Bindings.without hidden.bindings scope.bindings
  functions := Bindings.without hidden.definitions scope.functions
  structs := Bindings.without hidden.definitions scope.structs

@[simp]
theorem Scope.outer_without (scope : Scope) : (scope.without hidden).outer = scope.outer :=
  rfl

theorem Scope.without_of_imports (imports : hidden.imports = true) (scope : Scope) :
    scope.without hidden = scope := by
  obtain ⟨_, _, _, _⟩ := scope
  have noBindings := fun name => (hidden.noNames imports name).1
  have noDefinitions := fun name => (hidden.noNames imports name).2
  simp only [Scope.without, Bindings.without_none _ noBindings,
    Bindings.without_none _ noDefinitions]

namespace Scopes

def definitions (scopes : Scopes) : Option (List (String × Function) × List (String × Struct)) :=
  scopes.scopes[0]?.map fun scope => (scope.functions, scope.structs)

theorem definitions_modify (keeps : ∀ scope, (change scope).functions = scope.functions ∧
      (change scope).structs = scope.structs) (scopes : Scopes) :
    (scopes.modify number change).definitions = scopes.definitions := by
  rw [definitions, getElem?_modify]
  split
  · rw [Option.map_map]
    simp only [Function.comp_def, keeps]
    rfl
  · rfl

def without (hidden : Hidden) (scopes : Scopes) : Scopes :=
  scopes.modify 0 (Scope.without hidden)

theorem getElem?_without (scopes : Scopes) (number : Nat) :
    (scopes.without hidden).scopes[number]? =
      if 0 = number then (scopes.scopes[number]?).map (Scope.without hidden)
      else scopes.scopes[number]? :=
  getElem?_modify _ _ _ _

@[simp]
theorem size_without (scopes : Scopes) : (scopes.without hidden).scopes.size = scopes.scopes.size :=
  size_modify _ _ _

theorem without_of_imports (imports : hidden.imports = true) (scopes : Scopes) :
    scopes.without hidden = scopes := by
  apply ext_getElem?
  intro _
  rw [getElem?_without]
  split
  · rw [funext (Scope.without_of_imports imports)]
    exact Option.map_id'
  · rfl

theorem find_without {α : Type} {find : Scope → Option α}
    (same : ∀ scope : Scope, find (scope.without hidden) = find scope) (scopes : Scopes)
    (number : Nat) : (scopes.without hidden).find find number = scopes.find find number :=
  find_modify Scope.outer_without 0 same number

theorem without_modify
    (same : ∀ scope : Scope, (change scope).without hidden = change (scope.without hidden))
    (scopes : Scopes) :
    (scopes.modify number change).without hidden =
      (scopes.without hidden).modify number change := by
  apply ext_getElem?
  intro other
  simp only [getElem?_without, getElem?_modify]
  by_cases isRoot : 0 = other <;> by_cases isChanged : number = other <;>
    simp [isRoot, isChanged, same, Function.comp_def]

theorem without_child (scopes : Scopes) (outer : Nat) :
    (scopes.child outer).2.without hidden = ((scopes.without hidden).child outer).2 := by
  apply ext_getElem?
  intro number
  simp only [getElem?_without, getElem?_child, size_without]
  by_cases isNew : number = scopes.scopes.size
  · by_cases isRoot : 0 = number <;> simp [isNew, isRoot, Scope.without, Bindings.without]
  · simp [isNew]

theorem without_shrink (scopes : Scopes) (count : Nat) :
    (scopes.shrink count).without hidden = (scopes.without hidden).shrink count := by
  apply ext_getElem?
  intro number
  simp only [getElem?_without, getElem?_shrink]
  by_cases isRoot : 0 = number <;> by_cases below : number < count <;> simp [isRoot, below]

theorem without_assignIn (scopes : Scopes) (owner : Nat) (name : String) (value : Value) :
    (scopes.assignIn owner name value).without hidden =
      (scopes.without hidden).assignIn owner name value := by
  refine without_modify (fun _ => ?_) _
  simp only [Scope.without]
  rw [Bindings.without_map]
  rintro ⟨_, _⟩
  split <;> rfl

end Scopes

namespace Machine

def without (hidden : Hidden) (machine : Machine) : Machine :=
  { machine with scopes := machine.scopes.without hidden }

@[simp]
theorem current_without (machine : Machine) : (machine.without hidden).current = machine.current :=
  rfl

theorem without_of_imports (imports : hidden.imports = true) (machine : Machine) :
    machine.without hidden = machine := by
  rw [without, Scopes.without_of_imports imports]

variable (machine : Machine) (name : String)

theorem binding?_without (shown : hidden.bindings name = false) :
    (machine.without hidden).scopes.binding? machine.current name =
      machine.scopes.binding? machine.current name := by
  simp only [without, Scopes.binding?]
  rw [Scopes.find_without fun _ => Bindings.get?_without shown]

theorem function?_without (shown : hidden.definitions name = false) (number : Nat) :
    (machine.without hidden).scopes.function? number name =
      machine.scopes.function? number name := by
  simp only [without, Scopes.function?]
  rw [Scopes.find_without fun _ => Bindings.get?_without shown]

theorem struct?_without (shown : hidden.definitions name = false) (number : Nat) :
    (machine.without hidden).scopes.struct? number name = machine.scopes.struct? number name := by
  simp only [without, Scopes.struct?]
  rw [Scopes.find_without fun _ => Bindings.get?_without shown]

end Machine

end Noxy
