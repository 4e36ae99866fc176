import Noxy.Proofs.Frame
import Noxy.Proofs.ScalarOperator

/-!
# Machines that agree with frames

The types of the variables in a machine show as frames, one for each scope on the chain of the
current one.
-/

namespace Noxy

def Scope.frame (scope : Scope) : Frame :=
  Bindings.mapValues Variable.type scope.bindings

theorem Scope.frame_eq_of_declarations
    {scope other : Scope} (same : scope.declarations = other.declarations) :
    scope.frame = other.frame := by
  have types (scope : Scope) : scope.declarations.frame = scope.frame := by
    simp [Scope.frame, Scope.declarations, Bindings.mapValues]
  rw [← types scope, same, types other]

theorem Scope.outer_eq_of_declarations
    {scope other : Scope} (same : scope.declarations = other.declarations) :
    scope.outer = other.outer := by
  have outers : scope.declarations.outer = other.declarations.outer := by rw [same]
  exact outers

theorem Scope.exists_of_declarations {left right : Option Scope}
    (same : left.map Scope.declarations = right.map Scope.declarations)
    (found : right = some scope) :
    ∃ other, left = some other ∧ other.declarations = scope.declarations := by
  rw [found, Option.map_some] at same
  exact Option.map_eq_some_iff.mp same

structure Variable.Typed (binding : Variable) : Prop where
  isScalar : binding.type.isScalar = true
  isOf : binding.value.isOf binding.type = true

namespace Machine

/-- Variables hold values of their types. -/
def Typed (machine : Machine) : Prop :=
  ∀ (number : Nat) (scope : Scope) (name : String) (binding : Variable),
    machine.scopes.scopes[number]? = some scope →
      Bindings.get? name scope.bindings = some binding → binding.Typed

/--
The machine after a step has the places and the declarations of the one before it, but for scopes
that are excepted, and its variables hold values of their types.
-/
structure Steady (except : Nat → Prop) (before after : Machine) : Prop where
  current : after.current = before.current
  declarations : ∀ number : Nat, ¬ except number →
    (after.scopes.scopes[number]?).map Scope.declarations =
      (before.scopes.scopes[number]?).map Scope.declarations
  typed : after.Typed

namespace Steady

variable {except : Nat → Prop} {before : Machine}

theorem refl (typed : before.Typed) : before.Steady except before :=
  ⟨rfl, fun _ _ => rfl, typed⟩

theorem trans (earlier : before.Steady except middle) (later : middle.Steady except after) :
    before.Steady except after where
  current := later.current.trans earlier.current
  declarations number allowed :=
    (later.declarations number allowed).trans (earlier.declarations number allowed)
  typed := later.typed

theorem lift (steady : before.Steady (fun _ => False) after) : before.Steady except after where
  current := steady.current
  declarations number _ := steady.declarations number id
  typed := steady.typed

theorem of_scopes_eq (typed : before.Typed) (sameScopes : after.scopes = before.scopes)
    (sameCurrent : after.current = before.current) : before.Steady except after where
  current := sameCurrent
  declarations number _ := by rw [sameScopes]
  typed := by
    intro number scope name binding found bound
    rw [sameScopes] at found
    exact typed number scope name binding found bound

end Steady

end Machine

/-! ### Frames of a machine -/

inductive Chain (scopes : Scopes) : Nat → List Frame → Prop where
  | root (found : scopes.scopes[0]? = some scope)
      (covers : ∀ name type, Bindings.get? name frame = some type →
        Bindings.get? name scope.frame = some type) :
      Chain scopes 0 [frame]
  | inner (found : scopes.scopes[number]? = some scope) (notRoot : number ≠ 0)
      (inside : scope.outer = some outer) (same : scope.frame = frame)
      (rest : Chain scopes outer frames) :
      Chain scopes number (frame :: frames)

/-- A machine whose scopes show as frames, whose global scope has certain functions and no others
are defined anywhere, and whose variables hold values of their types. -/
structure Agrees (functions : List (String × Function)) (frames : List Frame)
    (machine : Machine) : Prop where
  wellFormed : machine.scopes.WellFormed
  defined : ∀ number scope, machine.scopes.scopes[number]? = some scope →
    scope.structs = [] ∧ scope.functions = if number = 0 then functions else []
  chain : Chain machine.scopes machine.current frames
  typed : machine.Typed

namespace Chain

theorem found (chain : Chain scopes number frames) :
    ∃ scope, scopes.scopes[number]? = some scope := by
  cases chain with
  | root found => exact ⟨_, found⟩
  | inner found => exact ⟨_, found⟩

theorem of_declarations (same : ∀ number : Nat, (scopes'.scopes[number]?).map Scope.declarations =
      (scopes.scopes[number]?).map Scope.declarations)
    (chain : Chain scopes number frames) : Chain scopes' number frames := by
  induction chain with
  | root found covers =>
    obtain ⟨_, found', sameDeclarations⟩ := Scope.exists_of_declarations (same _) found
    refine .root found' fun name type declared => ?_
    rw [Scope.frame_eq_of_declarations sameDeclarations]
    exact covers name type declared
  | inner found notRoot inside sameFrame _ ih =>
    obtain ⟨_, found', sameDeclarations⟩ := Scope.exists_of_declarations (same _) found
    exact .inner found' notRoot
      ((Scope.outer_eq_of_declarations sameDeclarations).trans inside)
      ((Scope.frame_eq_of_declarations sameDeclarations).trans sameFrame) ih

theorem of_below (wellFormed : scopes.WellFormed)
    (same : ∀ other ≤ number, scopes'.scopes[other]? = scopes.scopes[other]?)
    (chain : Chain scopes number frames) : Chain scopes' number frames := by
  induction chain with
  | root found covers => exact .root ((same 0 (Nat.le_refl _)).trans found) covers
  | inner found notRoot inside sameFrame _ ih =>
    have smaller := wellFormed.outer_lt found inside
    exact .inner ((same _ (Nat.le_refl _)).trans found) notRoot inside sameFrame
      (ih fun other _ => same other (by omega))

end Chain

theorem Chain.find (chain : Chain scopes number frames) (wellFormed : scopes.WellFormed)
    (declared : typeIn frames name = some type) :
    ∃ owner scope binding,
      scopes.find (fun scope => Bindings.get? name scope.bindings) number =
        some (owner, binding) ∧
      scopes.scopes[owner]? = some scope ∧ Bindings.get? name scope.bindings = some binding ∧
      binding.type = type := by
  induction chain with
  | @root scope frame found covers =>
    have inFrame : Bindings.get? name frame = some type := by
      simpa [typeIn] using declared
    have inScope := covers name type inFrame
    rw [Scope.frame, Bindings.get?_mapValues, Option.map_eq_some_iff] at inScope
    obtain ⟨binding, bound, hasType⟩ := inScope
    exact ⟨0, scope, binding, Scopes.find_here found bound, found, bound, hasType⟩
  | @inner number scope outer frame frames found notRoot inside same rest ih =>
    cases bound : Bindings.get? name scope.bindings with
    | some binding =>
      have inFrame : Bindings.get? name frame = some binding.type := by
        rw [← same, Scope.frame, Bindings.get?_mapValues, bound, Option.map_some]
      have hasType : binding.type = type := by
        simpa [typeIn, inFrame] using declared
      exact ⟨number, scope, binding, Scopes.find_here found bound, found, bound, hasType⟩
    | none =>
      have notInFrame : Bindings.get? name frame = none := by
        rw [← same, Scope.frame, Bindings.get?_mapValues, bound, Option.map_none]
      have outside : typeIn frames name = some type := by
        simpa [typeIn, notInFrame] using declared
      obtain ⟨owner, owning, binding, search, present, boundThere, hasType⟩ := ih outside
      refine ⟨owner, owning, binding, ?_, present, boundThere, hasType⟩
      rw [Scopes.find_outer wellFormed found bound inside]
      exact search

namespace Agrees

variable (agrees : Agrees functions frames machine)
include agrees

theorem steady (isSteady : machine.Steady (fun _ => False) final) :
    Agrees functions frames final where
  wellFormed :=
    { root := by
        obtain ⟨_, found, noOuter⟩ := agrees.wellFormed.root
        obtain ⟨later, found', same⟩ :=
          Scope.exists_of_declarations (isSteady.declarations 0 id) found
        exact ⟨later, found', (Scope.outer_eq_of_declarations same).trans noOuter⟩
      nested := by
        intro number _ found notRoot
        obtain ⟨earlier, found', same⟩ :=
          Scope.exists_of_declarations (isSteady.declarations number id).symm found
        rw [← Scope.outer_eq_of_declarations same]
        exact agrees.wellFormed.nested number earlier found' notRoot }
  defined := by
    intro number scope found
    obtain ⟨earlier, found', same⟩ :=
      Scope.exists_of_declarations (isSteady.declarations number id).symm found
    have structs : earlier.declarations.structs = scope.declarations.structs := by rw [same]
    have functions' : earlier.declarations.functions = scope.declarations.functions := by rw [same]
    have defined := agrees.defined number earlier found'
    exact ⟨structs ▸ defined.1, functions' ▸ defined.2⟩
  chain := by
    rw [isSteady.current]
    exact agrees.chain.of_declarations fun number => isSteady.declarations number id
  typed := isSteady.typed

theorem binding (declared : typeIn frames name = some type) :
    ∃ binding, machine.scopes.binding? machine.current name = some binding ∧
      binding.value.isOf type = true := by
  obtain ⟨owner, scope, binding, search, found, bound, rfl⟩ :=
    agrees.chain.find agrees.wellFormed declared
  refine ⟨binding, ?_, (agrees.typed owner scope name binding found bound).isOf⟩
  rw [Scopes.binding?, search, Option.map_some]

theorem callable? (known : Bindings.get? name functions = some function) :
    machine.callable? name = some (.function function) := by
  have noStruct : machine.scopes.struct? machine.current name = none := by
    rw [Scopes.struct?, Scopes.find_nowhere, Option.map_none]
    intro number scope found
    rw [(agrees.defined number scope found).1]
    rfl
  obtain ⟨scope, found⟩ := agrees.chain.found
  obtain ⟨root, rootFound, _⟩ := agrees.wellFormed.root
  have atRoot : Bindings.get? name root.functions = some function := by
    rw [(agrees.defined 0 root rootFound).2, if_pos rfl, known]
  have isFunction : machine.scopes.function? machine.current name = some function := by
    rw [Scopes.function?, Scopes.find_root agrees.wellFormed _ (Scopes.lt_size_of_found found),
      Scopes.find_here rootFound atRoot, Option.map_some]
    intro number scope found notRoot
    rw [(agrees.defined number scope found).2, if_neg notRoot]
    rfl
  simp [Machine.callable?, noStruct, isFunction]

/-! ### Entering and leaving scopes -/

theorem entered (chain : Chain machine.scopes outer around) :
    Agrees functions ([] :: around) (Exec.entered outer machine) := by
  obtain ⟨_, outerFound⟩ := chain.found
  have outerPresent := Scopes.lt_size_of_found outerFound
  constructor
  · exact agrees.wellFormed.child outerPresent
  · intro number scope found
    simp only [Exec.entered, Scopes.getElem?_child] at found
    split at found
    · rename_i isNew
      obtain rfl := Option.some.inj found
      have notRoot : number ≠ 0 := by omega
      exact ⟨rfl, (if_neg notRoot).symm⟩
    · exact agrees.defined number scope found
  · have isNew : (Exec.entered outer machine).scopes.scopes[machine.scopes.scopes.size]? =
        some ⟨some outer, [], [], []⟩ := by
      simp [Exec.entered, Scopes.getElem?_child]
    refine .inner isNew (Nat.ne_zero_of_lt outerPresent) rfl rfl
      (chain.of_below agrees.wellFormed ?_)
    intro _ below
    exact Exec.getElem?_entered (Nat.lt_of_le_of_lt below outerPresent)
  · intro number scope name binding found bound
    simp only [Exec.entered, Scopes.getElem?_child] at found
    split at found
    · obtain rfl := Option.some.inj found
      cases bound
    · exact agrees.typed number scope name binding found bound

theorem enteredBlock : Agrees functions ([] :: frames) (Exec.entered machine.current machine) :=
  agrees.entered agrees.chain

theorem enteredCall : Agrees functions [[], []] (Exec.entered 0 machine) := by
  obtain ⟨_, found, _⟩ := agrees.wellFormed.root
  refine agrees.entered (.root found ?_)
  intro _ _ none
  cases none

end Agrees

theorem Machine.Steady.left
    (steady : (Exec.entered outer machine).Steady (· = machine.scopes.scopes.size) final) :
    machine.Steady except (Exec.left machine final) where
  current := rfl
  declarations number _ := by
    simp only [Exec.left, Scopes.getElem?_shrink]
    split
    · rename_i present
      rw [steady.declarations number (Nat.ne_of_lt present), Exec.getElem?_entered present]
    · rename_i outside
      rw [Array.getElem?_eq_none (Nat.le_of_not_lt outside)]
  typed := by
    intro number scope name binding found bound
    simp only [Exec.left, Scopes.getElem?_shrink] at found
    split at found
    · exact steady.typed number scope name binding found bound
    · cases found

/-! ### Declaring and assigning variables -/

theorem Scope.frame_put (scope : Scope) (binding : Variable) :
    Scope.frame { scope with bindings := Bindings.put name binding scope.bindings } =
      Bindings.put name binding.type scope.frame :=
  Bindings.mapValues_put _ _ _ _

theorem Chain.define (chain : Chain scopes number (frame :: outer)) (wellFormed : scopes.WellFormed)
    (name : String) (binding : Variable) :
    Chain (scopes.define number name binding) number
      (Bindings.put name binding.type frame :: outer) := by
  have changed {scope : Scope} (found : scopes.scopes[number]? = some scope) :
      (scopes.define number name binding).scopes[number]? =
        some { scope with bindings := Bindings.put name binding scope.bindings } := by
    rw [Scopes.define, Scopes.getElem?_modify, if_pos rfl, found, Option.map_some]
  cases chain with
  | root found covers =>
    refine .root (changed found) fun other type declared => ?_
    rw [Scope.frame_put, Bindings.get?_put]
    rw [Bindings.get?_put] at declared
    split at declared
    · rename_i same
      rw [if_pos same, declared]
    · rename_i different
      rw [if_neg different]
      exact covers other type declared
  | inner found notRoot inside same rest =>
    have smaller := wellFormed.outer_lt found inside
    refine .inner (changed found) notRoot inside ?_ (rest.of_below wellFormed ?_)
    · rw [Scope.frame_put, same]
    · intro _ _
      exact Scopes.getElem?_modify_of_ne (by omega) _ _

namespace Agrees

theorem declare (agrees : Agrees functions (frame :: outer) machine) (name : String)
    (binding : Variable) (typed : binding.Typed) :
    Agrees functions (Bindings.put name binding.type frame :: outer)
        { machine with scopes := machine.scopes.define machine.current name binding } ∧
      machine.Steady (· = machine.current)
        { machine with scopes := machine.scopes.define machine.current name binding } := by
  have allTyped : Machine.Typed
      { machine with scopes := machine.scopes.define machine.current name binding } := by
    intro number scope other bound found isBound
    simp only [Scopes.define, Scopes.getElem?_modify] at found
    split at found
    · obtain ⟨earlier, found', rfl⟩ := Option.map_eq_some_iff.mp found
      simp only [Bindings.get?_put] at isBound
      split at isBound
      · exact Option.some.inj isBound ▸ typed
      · exact agrees.typed number earlier other bound found' isBound
    · exact agrees.typed number scope other bound found isBound
  refine ⟨⟨?_, ?_, ?_, allTyped⟩, rfl, ?_, allTyped⟩
  · exact agrees.wellFormed.modify _ fun _ => rfl
  · intro number scope found
    simp only [Scopes.define, Scopes.getElem?_modify] at found
    split at found
    · obtain ⟨earlier, found', rfl⟩ := Option.map_eq_some_iff.mp found
      exact agrees.defined number earlier found'
    · exact agrees.defined number scope found
  · exact agrees.chain.define agrees.wellFormed name binding
  · intro _ other
    simp only [Scopes.define]
    rw [Scopes.getElem?_modify_of_ne (Ne.symm other)]

theorem current_eq_zero (agrees : Agrees functions [frame] machine) : machine.current = 0 := by
  have single {scopes : Scopes} {number : Nat} (chain : Chain scopes number [frame]) :
      number = 0 := by
    cases chain with
    | root => rfl
    | inner _ _ _ _ rest => cases rest
  exact single agrees.chain

theorem assign (agrees : Agrees functions frames machine)
    (declared : typeIn frames name = some type) (typed : value.isOf type = true) :
    Exec.Ends (Exec.assign name value) machine
      (fun _ final => machine.Steady (fun _ => False) final) (fun _ _ => False) := by
  obtain ⟨owner, scope, binding, search, found, bound, rfl⟩ :=
    agrees.chain.find agrees.wellFormed declared
  have owned : machine.scopes.owner? machine.current name = some owner := by
    rw [Scopes.owner?, search, Option.map_some]
  simp only [Exec.assign, Exec.ends_bind, Exec.ends_get, owned, Exec.ends_modify]
  refine ⟨rfl, ?_, ?_⟩
  · intro number _
    simp only [Scopes.assignIn, Scopes.getElem?_modify]
    split
    · cases machine.scopes.scopes[number]? with
      | none => rfl
      | some scope => exact congrArg some (Exec.declarations_assigned scope name value)
    · rfl
  · intro number scope' other bound' found' isBound
    simp only [Scopes.assignIn, Scopes.getElem?_modify] at found'
    split at found'
    · rename_i isOwner
      obtain ⟨earlier, foundBefore, rfl⟩ := Option.map_eq_some_iff.mp found'
      rw [Bindings.get?_assigned] at isBound
      obtain ⟨before, boundBefore, rfl⟩ := Option.map_eq_some_iff.mp isBound
      split
      · rename_i isName
        subst isOwner isName
        rw [found, Option.some.injEq] at foundBefore
        rw [← foundBefore, bound, Option.some.injEq] at boundBefore
        rw [← boundBefore]
        exact ⟨(agrees.typed _ scope _ binding found bound).isScalar, typed⟩
      · exact agrees.typed number earlier other before foundBefore boundBefore
    · exact agrees.typed number scope' other bound' found' isBound

theorem bindAll (agrees : Agrees functions (frame :: outer) machine)
    (areScalar : ∀ param ∈ params, param.1.type.isScalar = true)
    (typed : ∀ param ∈ params, param.2.isOf param.1.type = true) :
    Exec.Ends (Noxy.bindAll params) machine
      (fun _ final =>
        Agrees functions (frame.withParams (params.map Prod.fst) :: outer) final ∧
          machine.Steady (· = machine.current) final)
      (fun _ _ => False) := by
  induction params generalizing frame machine with
  | nil => exact ⟨agrees, .refl agrees.typed⟩
  | cons param _ ih =>
    obtain ⟨declared, value⟩ := param
    have declaredHere :=
      agrees.declare declared.name ⟨declared.type, value, false⟩
        ⟨areScalar _ List.mem_cons_self, typed _ List.mem_cons_self⟩
    simp only [Noxy.bindAll, Exec.defineHere, Exec.ends_bind, Exec.ends_modify]
    refine (ih declaredHere.1 (fun param member => areScalar param (.tail _ member))
      fun param member => typed param (.tail _ member)).imp ?_ fun _ _ impossible => impossible
    rintro _ _ ⟨agreesFinal, steady⟩
    exact ⟨agreesFinal, declaredHere.2.trans steady⟩

end Agrees

end Noxy
