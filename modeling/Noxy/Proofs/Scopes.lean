import Noxy.Proofs.Bindings
import Noxy.Scope

/-!
# Laws of scopes

The scopes of a machine form a tree: the global scope is its root, and every other scope stands
inside one with a smaller number.
-/

namespace Noxy

theorem Bindings.get?_assigned (bindings : List (String × Variable)) (name other : String)
    (value : Value) :
    get? other (bindings.map fun (bound, binding) =>
      if bound = name then (bound, { binding with value := value }) else (bound, binding)) =
    (get? other bindings).map fun binding =>
      if other = name then { binding with value := value } else binding := by
  induction bindings with
  | nil => rfl
  | cons entry =>
    obtain ⟨bound, _⟩ := entry
    by_cases isName : bound = name <;> by_cases isOther : bound = other <;> simp_all [get?]

namespace Scopes

variable {scopes : Scopes} {α : Type}

/-- Every scope but the first has an earlier one around it. -/
structure WellFormed (scopes : Scopes) : Prop where
  root : ∃ scope, scopes.scopes[0]? = some scope ∧ scope.outer = none
  nested : ∀ number scope, scopes.scopes[number]? = some scope → number ≠ 0 →
    ∃ outer, scope.outer = some outer ∧ outer < number

theorem wellFormed_single : single.WellFormed where
  root := ⟨_, rfl, rfl⟩
  nested := by
    intro number _ found notRoot
    have outside : single.scopes.size ≤ number := Nat.one_le_iff_ne_zero.mpr notRoot
    rw [Array.getElem?_eq_none outside] at found
    cases found

variable {scope : Scope}

theorem WellFormed.outer_lt (wellFormed : scopes.WellFormed)
    (found : scopes.scopes[number]? = some scope) (inside : scope.outer = some outer) :
    outer < number := by
  by_cases isRoot : number = 0
  · obtain ⟨_, rootFound, noOuter⟩ := wellFormed.root
    subst isRoot
    rw [rootFound, Option.some.injEq] at found
    rw [← found, noOuter] at inside
    cases inside
  · obtain ⟨_, inside', smaller⟩ := wellFormed.nested number scope found isRoot
    rw [inside', Option.some.injEq] at inside
    exact inside ▸ smaller

theorem WellFormed.bind_outer_lt (wellFormed : scopes.WellFormed)
    (inside : scopes.scopes[number]?.bind Scope.outer = some outer) : outer < number := by
  obtain ⟨_, found, isOuter⟩ := Option.bind_eq_some_iff.mp inside
  exact wellFormed.outer_lt found isOuter

/-! ### Looking up -/

/-- The scopes that a search comes to, from the inside out. -/
def chainFrom (scopes : Scopes) : Nat → Nat → List Nat
  | 0, _ => []
  | bound + 1, number =>
    number :: (scopes.scopes[number]?.bind Scope.outer).elim [] (scopes.chainFrom bound)

/-- A scope and those around it, from the inside out. -/
def chain (scopes : Scopes) (number : Nat) : List Nat :=
  scopes.chainFrom scopes.scopes.size number

theorem find_eq (find : Scope → Option α) (number : Nat) :
    scopes.find find number = (scopes.chain number).findSome? fun met =>
      (scopes.scopes[met]?.bind find).map (met, ·) := by
  rw [Scopes.find, chain]
  generalize scopes.scopes.size = bound
  induction bound generalizing number with
  | zero => rfl
  | succ _ ih =>
    rw [findFrom, chainFrom, List.findSome?_cons]
    cases scopes.scopes[number]? with
    | none => rfl
    | some scope =>
      simp only [Option.bind_some]
      cases find scope with
      | some => rfl
      | none =>
        cases scope.outer with
        | none => rfl
        | some outer => exact ih outer

section

variable {shown : Nat → Prop} (outwards : ∀ number outer, shown number →
  scopes.scopes[number]?.bind Scope.outer = some outer → shown outer)
include outwards

theorem chainFrom_congr {later : Scopes}
    (same : ∀ number, shown number →
      later.scopes[number]?.bind Scope.outer = scopes.scopes[number]?.bind Scope.outer)
    (bound : Nat) (isShown : shown number) :
    later.chainFrom bound number = scopes.chainFrom bound number := by
  induction bound generalizing number with
  | zero => rfl
  | succ bound ih =>
    rw [chainFrom, chainFrom, same number isShown]
    cases inside : scopes.scopes[number]?.bind Scope.outer with
    | none => rfl
    | some outer => exact congrArg _ (ih (outwards number outer isShown inside))

theorem shown_of_mem_chain (isShown : shown number) (member : met ∈ scopes.chain number) :
    shown met := by
  rw [chain] at member
  generalize scopes.scopes.size = bound at member
  induction bound generalizing number with
  | zero => cases member
  | succ _ ih =>
    cases inside : scopes.scopes[number]?.bind Scope.outer with
    | none =>
      cases (by simpa [chainFrom, inside] using member : met = number)
      exact isShown
    | some outer =>
      rw [chainFrom, inside] at member
      cases member with
      | head => exact isShown
      | tail _ later => exact ih (outwards number outer isShown inside) later

end

theorem find_congr {later : Scopes} {find : Scope → Option α}
    (sameChain : later.chain number = scopes.chain number)
    (same : ∀ met ∈ scopes.chain number,
      later.scopes[met]?.bind find = scopes.scopes[met]?.bind find) :
    later.find find number = scopes.find find number := by
  rw [find_eq, find_eq, sameChain]
  generalize scopes.chain number = chain at same
  induction chain with
  | nil => rfl
  | cons met chain ih =>
    rw [List.findSome?_cons, List.findSome?_cons, same met List.mem_cons_self,
      ih fun met member => same met (List.mem_cons_of_mem _ member)]

theorem lt_size_of_found (found : scopes.scopes[number]? = some scope) :
    number < scopes.scopes.size :=
  (Array.getElem?_eq_some_iff.mp found).1

theorem chainFrom_bound (wellFormed : scopes.WellFormed) (below : number < bound)
    (below' : number < bound') :
    scopes.chainFrom bound number = scopes.chainFrom bound' number := by
  induction number using Nat.strongRecOn generalizing bound bound' with
  | ind number ih =>
    obtain ⟨bound, rfl⟩ := Nat.exists_eq_succ_of_ne_zero (Nat.ne_zero_of_lt below)
    obtain ⟨bound', rfl⟩ := Nat.exists_eq_succ_of_ne_zero (Nat.ne_zero_of_lt below')
    rw [chainFrom, chainFrom]
    cases inside : scopes.scopes[number]?.bind Scope.outer with
    | none => rfl
    | some outer =>
      have smaller := wellFormed.bind_outer_lt inside
      exact congrArg _ (ih outer smaller (by omega) (by omega))

theorem chain_inside (wellFormed : scopes.WellFormed)
    (found : scopes.scopes[number]? = some scope) (inside : scope.outer = some outer) :
    scopes.chain number = number :: scopes.chain outer := by
  have present := lt_size_of_found found
  have smaller := wellFormed.outer_lt found inside
  obtain ⟨bound, sizeEq⟩ := Nat.exists_eq_succ_of_ne_zero (Nat.ne_zero_of_lt present)
  rw [chain, sizeEq, chainFrom, found, Option.bind_some, inside]
  exact congrArg _ (chainFrom_bound wellFormed (by omega) (by omega))

theorem chain_root (wellFormed : scopes.WellFormed) : scopes.chain 0 = [0] := by
  obtain ⟨_, found, noOuter⟩ := wellFormed.root
  obtain ⟨_, sizeEq⟩ := Nat.exists_eq_succ_of_ne_zero (Nat.ne_zero_of_lt (lt_size_of_found found))
  rw [chain, sizeEq, chainFrom, found, Option.bind_some, noOuter]
  rfl

theorem root_mem_chain (wellFormed : scopes.WellFormed) (present : number < scopes.scopes.size) :
    0 ∈ scopes.chain number := by
  induction number using Nat.strongRecOn with
  | ind number ih =>
    by_cases isRoot : number = 0
    · rw [isRoot, chain_root wellFormed]
      exact List.mem_singleton_self 0
    · have found := Array.getElem?_eq_getElem present
      obtain ⟨outer, inside, smaller⟩ := wellFormed.nested _ _ found isRoot
      rw [chain_inside wellFormed found inside]
      exact List.mem_cons_of_mem _ (ih outer smaller (by omega))

theorem find_here {find : Scope → Option α} (found : scopes.scopes[number]? = some scope)
    (here : find scope = some value) : scopes.find find number = some (number, value) := by
  have inside := lt_size_of_found found
  obtain ⟨_, sizeEq⟩ := Nat.exists_eq_succ_of_ne_zero (Nat.ne_zero_of_lt inside)
  simp only [Scopes.find, sizeEq, findFrom, found, here]

theorem find_outer (wellFormed : scopes.WellFormed) {find : Scope → Option α}
    (found : scopes.scopes[number]? = some scope) (absent : find scope = none)
    (inside : scope.outer = some outer) : scopes.find find number = scopes.find find outer := by
  rw [find_eq, find_eq, chain_inside wellFormed found inside]
  simp [found, absent]

theorem find_root (wellFormed : scopes.WellFormed) {find : Scope → Option α}
    (onlyRoot : ∀ number scope, scopes.scopes[number]? = some scope → number ≠ 0 →
      find scope = none) :
    ∀ {number : Nat}, number < scopes.scopes.size →
      scopes.find find number = scopes.find find 0 := by
  intro number
  induction number using Nat.strongRecOn with
  | ind number ih =>
    intro present
    by_cases isRoot : number = 0
    · rw [isRoot]
    · have found := Array.getElem?_eq_getElem present
      obtain ⟨outer, inside, smaller⟩ := wellFormed.nested _ _ found isRoot
      rw [find_outer wellFormed found (onlyRoot _ _ found isRoot) inside]
      exact ih outer smaller (by omega)

theorem find_nowhere {find : Scope → Option α}
    (absent : ∀ (number : Nat) scope, scopes.scopes[number]? = some scope → find scope = none)
    (number : Nat) : scopes.find find number = none := by
  rw [find_eq, List.findSome?_eq_none_iff]
  intro met _
  rw [Option.map_eq_none_iff, Option.bind_eq_none_iff]
  exact absent met

/-! ### Changing -/

theorem getElem?_modify (scopes : Scopes) (number other : Nat) (change : Scope → Scope) :
    (scopes.modify number change).scopes[other]? =
      if number = other then (scopes.scopes[other]?).map change else scopes.scopes[other]? := by
  simp only [modify, Array.getElem?_modify]

theorem getElem?_modify_of_ne (different : number ≠ other) (scopes : Scopes)
    (change : Scope → Scope) :
    (scopes.modify number change).scopes[other]? = scopes.scopes[other]? := by
  simp [getElem?_modify, different]

@[simp]
theorem size_modify (scopes : Scopes) (number : Nat) (change : Scope → Scope) :
    (scopes.modify number change).scopes.size = scopes.scopes.size := by
  simp [modify]

section

variable {change : Scope → Scope} (keepsOuter : ∀ scope, (change scope).outer = scope.outer)
  (changed : Nat)
include keepsOuter

theorem chain_modify (number : Nat) :
    (scopes.modify changed change).chain number = scopes.chain number := by
  rw [chain, size_modify]
  refine chainFrom_congr (fun _ _ _ _ => trivial) (fun met _ => ?_) _ trivial
  rw [getElem?_modify]
  split
  · simp only [Option.bind_map, Function.comp_def, keepsOuter]
  · rfl

theorem find_modify {find : Scope → Option α} (same : ∀ scope, find (change scope) = find scope)
    (number : Nat) : (scopes.modify changed change).find find number = scopes.find find number := by
  refine find_congr (chain_modify keepsOuter changed number) fun met _ => ?_
  rw [getElem?_modify]
  split
  · simp only [Option.bind_map, Function.comp_def, same]
  · rfl

end

theorem WellFormed.modify (wellFormed : scopes.WellFormed) (number : Nat)
    (keepsOuter : ∀ scope, (change scope).outer = scope.outer) :
    (scopes.modify number change).WellFormed where
  root := by
    obtain ⟨root, found, noOuter⟩ := wellFormed.root
    rw [getElem?_modify, found]
    by_cases isRoot : number = 0
    · exact ⟨change root, by simp [isRoot], by rw [keepsOuter, noOuter]⟩
    · exact ⟨root, by simp [isRoot], noOuter⟩
  nested := by
    intro other scope found notRoot
    rw [getElem?_modify] at found
    split at found
    · obtain ⟨old, oldFound, rfl⟩ := Option.map_eq_some_iff.mp found
      rw [keepsOuter]
      exact wellFormed.nested other old oldFound notRoot
    · exact wellFormed.nested other scope found notRoot

theorem getElem?_child (scopes : Scopes) (outer other : Nat) :
    (scopes.child outer).2.scopes[other]? =
      if other = scopes.scopes.size then some ⟨some outer, [], [], []⟩
      else scopes.scopes[other]? := by
  simp [child, Array.getElem?_push]

theorem WellFormed.child (wellFormed : scopes.WellFormed) (present : outer < scopes.scopes.size) :
    (scopes.child outer).2.WellFormed where
  root := by
    obtain ⟨root, found, noOuter⟩ := wellFormed.root
    have notNew : (0 : Nat) ≠ scopes.scopes.size := by omega
    exact ⟨root, by rw [getElem?_child, if_neg notNew, found], noOuter⟩
  nested := by
    intro other scope found notRoot
    rw [getElem?_child] at found
    split at found
    · rename_i isNew
      obtain rfl := Option.some.inj found
      exact ⟨outer, rfl, by omega⟩
    · exact wellFormed.nested other scope found notRoot

theorem getElem?_shrink (scopes : Scopes) (count other : Nat) :
    (scopes.shrink count).scopes[other]? =
      if other < count then scopes.scopes[other]? else none := by
  simp only [shrink, Array.shrink_eq_take, Array.take_eq_extract]
  rw [Array.getElem?_extract]
  by_cases below : other < count
  · by_cases present : other < scopes.scopes.size
    · have bounded : other < min count scopes.scopes.size := by omega
      simp [bounded, below]
    · have unbounded : ¬ other < min count scopes.scopes.size := by omega
      simp [unbounded, below, present]
  · have unbounded : ¬ other < min count scopes.scopes.size := by omega
    simp [unbounded, below]

theorem ext_getElem? {left right : Scopes}
    (agree : ∀ number : Nat, left.scopes[number]? = right.scopes[number]?) : left = right := by
  cases left
  cases right
  congr
  exact Array.ext_getElem? agree

theorem modify_id (scopes : Scopes) (number : Nat) :
    (scopes.modify number fun scope => scope) = scopes := by
  apply ext_getElem?
  intro _
  rw [getElem?_modify]
  split
  · exact Option.map_id'
  · rfl

theorem modify_modify (scopes : Scopes) (number : Nat) (first second : Scope → Scope) :
    (scopes.modify number first).modify number second =
      scopes.modify number fun scope => second (first scope) := by
  apply ext_getElem?
  intro _
  simp only [getElem?_modify]
  split
  · rw [Option.map_map]
    rfl
  · rfl

end Scopes

end Noxy
