import Noxy.Proofs.Frame

/-!
# Chains of scopes

A name is looked up in a scope and then in the scopes around it. What is found first is what is read
and assigned, and a definition is seen from wherever no other one of its name stands in between.
-/

namespace Noxy

open Exec

namespace Scopes

variable {scopes : Scopes} {number owner : Nat} {name : String} {binding : Variable}

/-- What a scope itself binds a name to. -/
def own? (scopes : Scopes) (number : Nat) (name : String) : Option Variable :=
  scopes.scopes[number]?.bind fun scope => Bindings.get? name scope.bindings

/-- A search comes to a scope before it comes to any other that binds the name. -/
def Meets (scopes : Scopes) (number : Nat) (name : String) (met : Nat) : Prop :=
  ∃ before after, scopes.chain number = before ++ met :: after ∧
    ∀ passed ∈ before, scopes.own? passed name = none

/-- The first scope that binds the name, and what it binds it to. -/
def Innermost (scopes : Scopes) (number : Nat) (name : String) (owner : Nat)
    (binding : Variable) : Prop :=
  scopes.Meets number name owner ∧ scopes.own? owner name = some binding

/-! ### Reading -/

theorem find_eq_some_iff :
    scopes.find (fun scope => Bindings.get? name scope.bindings) number = some (owner, binding) ↔
      scopes.Innermost number name owner binding := by
  rw [find_eq, List.findSome?_eq_some_iff]
  constructor
  · rintro ⟨before, met, after, isSplit, isFound, passed⟩
    obtain ⟨_, here, isPair⟩ := Option.map_eq_some_iff.mp isFound
    cases isPair
    exact ⟨⟨before, after, isSplit, fun other member => Option.map_eq_none_iff.mp
      (passed other member)⟩, here⟩
  · rintro ⟨⟨before, after, isSplit, passed⟩, here⟩
    exact ⟨before, owner, after, isSplit, Option.map_eq_some_iff.mpr ⟨binding, here, rfl⟩,
      fun other member => Option.map_eq_none_iff.mpr (passed other member)⟩

theorem binding?_eq (scopes : Scopes) (number : Nat) (name : String) :
    scopes.binding? number name =
      (scopes.chain number).findSome? fun met => scopes.own? met name := by
  rw [binding?, find_eq, List.map_findSome?]
  simp [Function.comp_def, own?]

theorem binds_iff : scopes.binds number name = true ↔
    ∃ met ∈ scopes.chain number, (scopes.own? met name).isSome = true := by
  have sameFound : scopes.binds number name = (scopes.binding? number name).isSome := by
    simp [binds, owner?, binding?]
  rw [sameFound, binding?_eq, List.findSome?_isSome_iff]

/-! ### Assigning -/

theorem own?_modify (changed number : Nat) (change : Scope → Scope) (name : String) :
    (scopes.modify changed change).own? number name =
      if changed = number then
        scopes.scopes[number]?.bind fun scope => Bindings.get? name (change scope).bindings
      else scopes.own? number name := by
  rw [own?, getElem?_modify]
  split
  · rw [Option.bind_map]
    rfl
  · rfl

theorem own?_assignIn (owner : Nat) (name : String) (value : Value) (number : Nat)
    (other : String) :
    (scopes.assignIn owner name value).own? number other =
      if number = owner ∧ other = name then
        (scopes.own? number other).map fun binding => { binding with value := value }
      else scopes.own? number other := by
  rw [assignIn, own?_modify]
  by_cases isOwner : owner = number
  · cases found : scopes.scopes[number]? <;> by_cases isName : other = name <;>
      simp [isOwner, isName, own?, found, Bindings.get?_assigned]
  · simp [isOwner, Ne.symm isOwner]

/-- Where a changed scope is met, and bound to something, that is found. -/
theorem Meets.binding?_eq {changed : Scopes} (meets : scopes.Meets number name owner)
    (sameChain : changed.chain number = scopes.chain number)
    (others : ∀ met, met ≠ owner → changed.own? met name = scopes.own? met name)
    (own : changed.own? owner name = some binding) :
    changed.binding? number name = some binding := by
  obtain ⟨before, after, isSplit, passed⟩ := meets
  rw [Scopes.binding?_eq, sameChain, isSplit, List.findSome?_append, List.findSome?_cons, own]
  cases early : before.findSome? fun met => changed.own? met name with
  | none => rfl
  | some found =>
    obtain ⟨met, member, isFound⟩ := List.exists_of_findSome?_eq_some early
    by_cases isOwner : met = owner
    · rw [isOwner, own] at isFound
      exact isFound.symm
    · rw [others met isOwner, passed met member] at isFound
      cases isFound

theorem Meets.binding?_assignIn (meets : scopes.Meets number name owner)
    (isBound : scopes.own? owner name = some binding) (value : Value) :
    (scopes.assignIn owner name value).binding? number name =
      some { binding with value := value } := by
  refine meets.binding?_eq (chain_modify (fun _ => by rfl) owner number) (fun met isOther => ?_) ?_
  · rw [own?_assignIn, if_neg fun both => isOther both.1]
  · rw [own?_assignIn, if_pos ⟨rfl, rfl⟩, isBound]
    rfl

/-! ### Defining -/

theorem own?_define (definer : Nat) (name : String) (binding : Variable) (number : Nat)
    (other : String) :
    (scopes.define definer name binding).own? number other =
      if number = definer ∧ other = name then scopes.scopes[number]?.map fun _ => binding
      else scopes.own? number other := by
  rw [define, own?_modify]
  by_cases isDefiner : definer = number
  · by_cases isName : other = name
    · cases scopes.scopes[number]? <;> simp [isDefiner, isName]
    · simp [isDefiner, isName, own?, Bindings.get?_put_of_ne (Ne.symm isName)]
  · simp [isDefiner, Ne.symm isDefiner]

theorem binding?_define_of_not_meets (hidden : ¬ (asked = name ∧ scopes.Meets number name definer))
    (binding : Variable) :
    (scopes.define definer name binding).binding? number asked = scopes.binding? number asked := by
  have elsewhere : ∀ {part : List Nat}, ¬ (asked = name ∧ definer ∈ part) →
      part.findSome? (fun met => (scopes.define definer name binding).own? met asked) =
        part.findSome? fun met => scopes.own? met asked := by
    intro part outside
    induction part with
    | nil => rfl
    | cons met part ih =>
      have same : (scopes.define definer name binding).own? met asked = scopes.own? met asked := by
        rw [own?_define, if_neg]
        rintro ⟨rfl, isName⟩
        exact outside ⟨isName, List.mem_cons_self⟩
      rw [List.findSome?_cons, List.findSome?_cons, same,
        ih fun ⟨isName, member⟩ => outside ⟨isName, List.mem_cons_of_mem _ member⟩]
  rw [binding?_eq, binding?_eq, define, chain_modify (fun _ => by rfl), ← define]
  by_cases onChain : asked = name ∧ definer ∈ scopes.chain number
  · obtain ⟨rfl, member⟩ := onChain
    obtain ⟨before, after, isSplit, notBefore⟩ := List.eq_append_cons_of_mem member
    -- Some scope before the definer binds the name, or the search would come to the definer.
    have found : (before.findSome? fun met => scopes.own? met asked).isSome = true := by
      rw [Option.isSome_iff_ne_none]
      intro none
      exact hidden ⟨rfl, before, after, isSplit, List.findSome?_eq_none_iff.mp none⟩
    rw [isSplit, List.findSome?_append, List.findSome?_append,
      elsewhere fun both => notBefore both.2, Option.or_of_isSome found, Option.or_of_isSome found]
  · exact elsewhere onChain

/-- One binding has a new value, and nothing else differs. -/
structure Assigned (scopes changed : Scopes) (owner : Nat) (name : String) (value : Value) :
    Prop where
  declarations : ∀ number : Nat, changed.scopes[number]?.map Scope.declarations =
    scopes.scopes[number]?.map Scope.declarations
  own : changed.own? owner name =
    (scopes.own? owner name).map fun binding => { binding with value := value }
  others : ∀ number other, number ≠ owner ∨ other ≠ name →
    changed.own? number other = scopes.own? number other
  seen : ∀ number, scopes.Meets number name owner →
    (changed.binding? number name).map Variable.value = some value

theorem Innermost.assigned (innermost : scopes.Innermost number name owner binding)
    (value : Value) : scopes.Assigned (scopes.assignIn owner name value) owner name value where
  declarations number := by
    rw [assignIn, getElem?_modify]
    split
    · rw [Option.map_map]
      exact congrArg (Option.map · _) (funext fun scope => declarations_assigned scope name value)
    · rfl
  own := by rw [own?_assignIn, if_pos ⟨rfl, rfl⟩]
  others number other apart := by
    rw [own?_assignIn, if_neg]
    rintro ⟨isOwner, isName⟩
    exact apart.elim (· isOwner) (· isName)
  seen number meets := by
    rw [meets.binding?_assignIn innermost.2]
    rfl

/-- A name is bound anew in one scope, and seen so from where no other scope hides it. -/
structure Defined (scopes changed : Scopes) (definer : Nat) (name : String)
    (binding : Variable) : Prop where
  seen : ∀ number, scopes.Meets number name definer → changed.binding? number name = some binding
  others : ∀ number asked, ¬ (asked = name ∧ scopes.Meets number name definer) →
    changed.binding? number asked = scopes.binding? number asked

theorem defined_define (present : definer < scopes.scopes.size) (name : String)
    (binding : Variable) :
    scopes.Defined (scopes.define definer name binding) definer name binding where
  seen number meets := by
    refine meets.binding?_eq (chain_modify (fun _ => by rfl) definer number)
      (fun met isOther => ?_) ?_
    · rw [own?_define, if_neg fun both => isOther both.1]
    · rw [own?_define, if_pos ⟨rfl, rfl⟩, Array.getElem?_eq_getElem present]
      rfl
  others _ _ hidden := binding?_define_of_not_meets hidden binding

end Scopes

section Variables

variable {machine : Machine} {name : String} {value : Value} {binding : Variable}

theorem binding_of_some (bound : machine.scopes.binding? machine.current name = some binding) :
    Exec.binding name machine = .ok binding machine := by
  rw [Exec.binding, get_bind]
  simp only [bound]
  rfl

theorem assign_of_owner (isOwner : machine.scopes.owner? machine.current name = some owner) :
    Exec.assign name value machine =
      .ok () { machine with scopes := machine.scopes.assignIn owner name value } := by
  rw [Exec.assign, get_bind]
  simp only [isOwner]
  rfl

theorem fails_binding (unbound : machine.scopes.binding? machine.current name = none) :
    Exec.binding name machine =
      .error (.failure (.error (.runtime (.undefinedVariable name) none))) machine := by
  rw [Exec.binding, get_bind]
  simp only [unbound]
  rfl

theorem fails_assign (unbound : machine.scopes.owner? machine.current name = none) :
    Exec.assign name value machine =
      .error (.failure (.error (.runtime (.undefinedVariable name) none))) machine := by
  rw [Exec.assign, get_bind]
  simp only [unbound]
  rfl

end Variables

theorem names_follow_chains (machine : Machine) (name : String) (value : Value) :
    (machine.scopes.binds machine.current name = true ↔
      ∃ met ∈ machine.scopes.chain machine.current,
        (machine.scopes.own? met name).isSome = true) ∧
    (machine.scopes.binds machine.current name = true ↔
      ∃ binding, Exec.binding name machine = .ok binding machine) ∧
    (machine.scopes.binds machine.current name = true ↔
      ∃ final, Exec.assign name value machine = .ok () final) ∧
    (∀ binding final, Exec.binding name machine = .ok binding final →
      ∃ owner, machine.scopes.Innermost machine.current name owner binding) ∧
    (∀ final, Exec.assign name value machine = .ok () final →
      ∃ owner binding changed, machine.scopes.Innermost machine.current name owner binding ∧
        final = { machine with scopes := changed } ∧
        machine.scopes.Assigned changed owner name value) ∧
    (∀ signal final, Exec.assign name value machine = .error signal final → final = machine) ∧
    (∀ definer binding, definer < machine.scopes.scopes.size → ∃ changed,
      Exec.define definer name binding machine = .ok () { machine with scopes := changed } ∧
        machine.scopes.Defined changed definer name binding) := by
  refine ⟨Scopes.binds_iff, ?_⟩
  cases found : machine.scopes.find (fun scope => Bindings.get? name scope.bindings)
      machine.current with
  | none =>
    have noOwner : machine.scopes.owner? machine.current name = none :=
      Option.map_eq_none_iff.mpr found
    have reads := fails_binding (Option.map_eq_none_iff.mpr found)
    have assigns : Exec.assign name value machine = _ := fails_assign noOwner
    refine ⟨?_, ?_, ?_, ?_, ?_, fun _ _ present => ⟨_, rfl, Scopes.defined_define present _ _⟩⟩ <;>
      simp [Scopes.binds, noOwner, reads, assigns]
  | some pair =>
    obtain ⟨owner, binding⟩ := pair
    have innermost := Scopes.find_eq_some_iff.mp found
    have isOwner : machine.scopes.owner? machine.current name = some owner :=
      Option.map_eq_some_iff.mpr ⟨_, found, rfl⟩
    have reads := binding_of_some (Option.map_eq_some_iff.mpr ⟨_, found, rfl⟩)
    have assigns : Exec.assign name value machine = _ := assign_of_owner isOwner
    refine ⟨?_, ?_, ?_, ?_, ?_, fun _ _ present => ⟨_, rfl, Scopes.defined_define present _ _⟩⟩
    · simp [Scopes.binds, isOwner, reads]
    · simp [Scopes.binds, isOwner, assigns]
    · intro _ _ isRead
      cases reads.symm.trans isRead
      exact ⟨owner, innermost⟩
    · intro _ isAssigned
      cases assigns.symm.trans isAssigned
      exact ⟨owner, binding, _, innermost, rfl, innermost.assigned value⟩
    · intro _ _ failed
      cases assigns.symm.trans failed

end Noxy
