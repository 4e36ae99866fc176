import Noxy.Proofs.CheckerScopes
import Noxy.Proofs.KnownDefinitions
import Noxy.Proofs.QuietRun
import Noxy.Proofs.TypeSafety

/-!
# Names that are defined alike

The checker takes over what a program imports and defines in the order of its statements.
-/

namespace Noxy

open Exec

/-- Checker and machine have one definition of a name. -/
def Machine.AgreesOn (machine : Machine) (known : Checker) (name : String) : Prop :=
  (machine.scopes.function? machine.current name).map Function.unfiled =
      (known.function? name).map Function.unfiled ∧
    (machine.scopes.struct? machine.current name).map Struct.unfiled =
      (known.struct? name).map Struct.unfiled

namespace Machine.AgreesOn

variable {machine : Machine} {known : Checker}

theorem of_eq (sameFunction : machine.scopes.function? machine.current name = known.function? name)
    (sameStruct : machine.scopes.struct? machine.current name = known.struct? name) :
    machine.AgreesOn known name :=
  ⟨congrArg _ sameFunction, congrArg _ sameStruct⟩

theorem reaches (agrees : machine.AgreesOn known name) (wellScoped : machine.WellScoped)
    (bare : machine.Bare) (quiet : Quiet fuel activity machine)
    (reaches : Reaches fuel activity machine fuel' part begun) : begun.AgreesOn known name := by
  obtain ⟨isScoped, isBare, keeps⟩ := quiet.reaches wellScoped bare reaches
  have found := Array.getElem?_eq_getElem wellScoped.root_lt
  obtain ⟨_, foundRoot, same⟩ := keeps _ found
  have sameFunction := same (.function name) nofun
  have sameStruct := same (.struct name) nofun
  rw [AgreesOn, bare.function? wellScoped found, bare.struct? wellScoped found] at agrees
  rw [AgreesOn, isBare.function? isScoped foundRoot, isBare.struct? isScoped foundRoot]
  rwa [← sameFunction, ← sameStruct] at agrees

end Machine.AgreesOn

/-! ### What the checker takes over -/

def Selection.mayBind (name : String) : Selection → Bool
  | .whole => false
  | .all => true
  | .names selected => name ∈ selected

def Program.mayImport (program : Program) (name : String) : Bool :=
  program.any fun stmt =>
    match stmt with
    | .use _ selection _ _ => selection.mayBind name
    | _ => false

def Checker.SameOn (known later : Checker) (name : String) : Prop :=
  later.function? name = known.function? name ∧ later.struct? name = known.struct? name

section Imports

variable {known : Checker}

theorem Checker.sameOn_defineMember (known : Checker)
    (isVariable : item.1 = name → (Member.typed? item).isSome = true) :
    known.SameOn (known.defineMember item.1 item.2) name := by
  obtain ⟨other, member⟩ := item
  cases member with
  | function =>
    have isOther : other ≠ name := fun same => by cases isVariable same
    refine ⟨?_, rfl⟩
    rw [Checker.function?, Checker.defineMember, Checker.defineFunction, Bindings.get?_put,
      if_neg isOther]
    rfl
  | struct =>
    have isOther : other ≠ name := fun same => by cases isVariable same
    refine ⟨rfl, ?_⟩
    rw [Checker.struct?, Checker.defineMember, Checker.defineStruct, Bindings.get?_put,
      if_neg isOther]
    rfl
  | global type =>
    have grows := Checker.Grows.define known other type
    exact ⟨congrArg _ grows.functions, congrArg _ grows.structs⟩

theorem Checker.SameOn.trans (first : known.SameOn later name) (second : later.SameOn last name) :
    known.SameOn last name :=
  ⟨second.1.trans first.1, second.2.trans first.2⟩

theorem Checker.sameOn_importAll (known : Checker)
    (areVariables : ∀ item ∈ members, item.1 = name → (Member.typed? item).isSome = true) :
    known.SameOn (known.importAll members) name := by
  induction members generalizing known with
  | nil => exact ⟨rfl, rfl⟩
  | cons _ _ ih =>
    rw [List.forall_mem_cons] at areVariables
    exact (known.sameOn_defineMember areVariables.1).trans (ih _ areVariables.2)

theorem sameOn_of_checkUse {world : World} (notBound : selection.mayBind name = false)
    (used : checkUse world basePath names selection newName location known = .ok () later) :
    known.SameOn later name := by
  obtain ⟨interfaces, loaded, taken, rfl, isTaken⟩ := checkUse_leaves.of_ok used
  refine Checker.sameOn_importAll { known with interfaces := interfaces, loaded := loaded } ?_
  rw [isTaken rfl, Stmt.imports]
  split
  · split
    · rename_i number read _
      cases read.interfaces[number]? with
      | none => simp
      | some =>
        cases selection with
        | whole => exact fun item member _ => by simp_all [Interface.taken, Member.typed?]
        | all => cases notBound
        | names selected =>
          have notSelected : name ∉ selected := of_decide_eq_false notBound
          intro _ member isName
          obtain ⟨_, isSelected, isItem⟩ := List.mem_filterMap.mp member
          obtain ⟨_, _, rfl⟩ := Option.map_eq_some_iff.mp isItem
          exact absurd (isName ▸ isSelected) notSelected
    · simp
  · simp

theorem Bindings.get?_putAll_congr (same : get? name bindings' = get? name bindings) :
    get? name (putAll items bindings') = get? name (putAll items bindings) := by
  induction items generalizing bindings bindings' with
  | nil => exact same
  | cons _ _ ih =>
    apply ih
    rw [get?_put, get?_put, same]

theorem Bindings.get?_putAll_absent {items bindings : List (String × α)}
    (absent : ∀ item ∈ items, item.1 ≠ name) :
    get? name (putAll items bindings) = get? name bindings := by
  induction items generalizing bindings with
  | nil => rfl
  | cons item _ ih =>
    have isOther := absent item List.mem_cons_self
    exact (ih fun other member => absent other (List.mem_cons_of_mem _ member)).trans
      (by rw [get?_put, if_neg isOther])

theorem Checker.SameOn.declaring (same : known.SameOn later name) (program : Program) :
    (known.declaring program).SameOn (later.declaring program) name :=
  ⟨Bindings.get?_putAll_congr same.1, Bindings.get?_putAll_congr same.2⟩

theorem sameOn_of_declareAll {program : Program} (noImport : program.mayImport name = false)
    {world : World} (declared : declareAll world basePath program known = .ok () later) :
    (known.declaring program).SameOn later name := by
  induction program generalizing known with
  | nil =>
    cases declared
    exact ⟨rfl, rfl⟩
  | cons stmt rest ih =>
    rw [Program.mayImport, List.any_cons, Bool.or_eq_false_iff] at noImport
    cases stmt with
    | use =>
      obtain ⟨_, _, used, declared⟩ := Check.ok_of_bind declared
      have first := (sameOn_of_checkUse noImport.1 used).declaring rest
      exact first.trans (ih noImport.2 declared)
    | _ => exact ih noImport.2 declared

theorem Checker.function?_declaring {program before after : Program}
    (isSplit : program = before ++ definition :: after)
    (isFunction : definition.function? = some function)
    (isLast : ∀ stmt ∈ after, ∀ other, stmt.function? = some other → other.name ≠ function.name) :
    (known.declaring program).function? function.name = some function := by
  have defined : program.definedFunctions =
      before.definedFunctions ++ (function.name, function) :: after.definedFunctions := by
    rw [isSplit, Program.definedFunctions, List.filterMap_append, List.filterMap_cons, isFunction]
    rfl
  have notLater : ∀ item ∈ after.definedFunctions, item.1 ≠ function.name := by
    intro _ member
    obtain ⟨stmt, isStmt, isItem⟩ := List.mem_filterMap.mp member
    obtain ⟨other, isOther, rfl⟩ := Option.map_eq_some_iff.mp isItem
    exact isLast stmt isStmt other isOther
  rw [Checker.function?, Checker.declaring, defined, Bindings.putAll, List.foldl_append]
  refine (Bindings.get?_putAll_absent notLater).trans ?_
  rw [Bindings.get?_put, if_pos rfl]

end Imports

/-! ### What the machine imports -/

namespace Program

variable {program : Program} {world : World}
  (begins : program.Begins fuel (.start world basePath)
    (.execAll (program.filter Stmt.isAction)) ready)
include begins

theorem ready_of_begins :
    ready = ((Activity.useAll program).final fuel (.start world basePath)).defining program := by
  cases begins with
  | actions imported defined =>
    cases (defineMembers_eq program _).symm.trans defined
    rw [Activity.final_of_run rfl, Activity.run, final_of_ok imported]

theorem bare_of_begins : ready.WellScoped ∧ ready.Bare := by
  have settled := Activity.settled_final (Machine.wellScoped_start world basePath) fuel
    (.useAll program)
  rw [ready_of_begins begins]
  refine ⟨settled.wellScoped.modify 0 fun _ => rfl, ?_⟩
  rw [Machine.Bare, Machine.defining, settled.current]
  exact .root

theorem agreesOn_of_native
    (isDeclared : declareAll checkedIn checkedBase program .fresh = .ok () declared)
    (noImport : program.mayImport name = false)
    (noFunction : ¬ (Activity.useAll program).Touches fuel (.start world basePath) (.function name))
    (noStruct : ¬ (Activity.useAll program).Touches fuel (.start world basePath) (.struct name)) :
    ready.AgreesOn declared name := by
  obtain ⟨wellScoped, bare⟩ := bare_of_begins begins
  obtain ⟨sameFunction, sameStruct⟩ := sameOn_of_declareAll noImport isDeclared
  have inside : (Activity.useAll program).Inside (.start world basePath) := trivial
  obtain ⟨root, found, same⟩ := Activity.keepsRoot_final fuel
    (Machine.wellScoped_start world basePath) inside ⟨none, [], [], []⟩ rfl
  have isRoot : ready.scopes.scopes[0]? = some (root.defining program) := by
    rw [ready_of_begins begins]
    exact Machine.getElem?_withRoot found _
  refine .of_eq ?_ ?_
  · rw [bare.function? wellScoped isRoot, sameFunction]
    exact Bindings.get?_putAll_congr (same _ noFunction)
  · rw [bare.struct? wellScoped isRoot, sameStruct]
    exact Bindings.get?_putAll_congr (same _ noStruct)

theorem agreesOn_of_noUse (noUse : .ofModules ∉ Stmt.listMentions program) :
    Quiet fuel (.execAll (program.filter Stmt.isAction)) ready ∧
      ∀ name, ready.AgreesOn (Checker.fresh.declaring program) name := by
  have mirrors := mirrors_start noUse world basePath
  cases begins with
  | actions imported defined =>
    cases (useAll_ends fuel (.start world basePath) (ne_use noUse)).of_ok imported
    cases (defineMembers_eq program _).symm.trans defined
    refine ⟨fun _ _ _ reaches => ?_, fun name => ?_⟩
    · exact (mirrors.reaches reaches (allowed_actions noUse _ _)).2.isLoading
    · exact .of_eq (mirrors.function? name) (mirrors.struct? name)

end Program

end Noxy
