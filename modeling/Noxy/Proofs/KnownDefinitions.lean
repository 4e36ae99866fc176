import Noxy.Proofs.Composition
import Noxy.Proofs.SightRun

/-!
# Definitions that the checker knows

Both the checker and the machine have a table of functions and one of structs.
-/

namespace Noxy

variable {program : Program}

open HasValues Exec

def Hidden.ofImports (functions : Function → Prop) : Hidden where
  objects _ := False
  bindings _ := false
  definitions _ := false
  imports := false
  noNames := nofun
  functions := functions
  anyFunction := nofun

theorem Hidden.allows_ofImports {functions : Function → Prop} :
    (Hidden.ofImports functions).Allows mentions ↔ .ofModules ∉ mentions := by
  constructor
  · intro allowed member
    cases allowed _ member
  · intro noUse mention member
    cases mention with
    | ofVariable => rfl
    | ofDefinition => rfl
    | ofModules => exact absurd member noUse

theorem Machine.without_ofImports (functions : Function → Prop) (machine : Machine) :
    machine.without (.ofImports functions) = machine := by
  have shown {α : Type} (bindings : List (String × α)) :
      Bindings.without (fun _ => false) bindings = bindings :=
    Bindings.without_none bindings fun _ => rfl
  have same (scope : Scope) : scope.without (.ofImports functions) = scope := by
    simp only [Scope.without, Hidden.ofImports, shown]
  rw [Machine.without, Scopes.without, funext same]
  exact congrArg (fun scopes => { machine with scopes := scopes }) (machine.scopes.modify_id 0)

def Checker.callable? (known : Checker) (name : String) : Option Callable :=
  match known.struct? name with
  | some struct => some (.struct struct)
  | none =>
    match known.function? name with
    | some function => some (.function function)
    | none => (Builtin.find? name).map .builtin

/-- The global scope has the functions and structs that the checker knows, no other scope has any,
and nothing that can be got at imports modules. -/
structure Machine.Mirrors (machine : Machine) (known : Checker) (functions : Function → Prop) :
    Prop where
  isSealed : machine.Sealed (.ofImports functions)
  root : ∃ root, machine.scopes.scopes[0]? = some root ∧
    (∀ name, Bindings.get? name root.functions = known.function? name) ∧
    ∀ name, Bindings.get? name root.structs = known.struct? name

namespace Machine.Mirrors

variable {machine : Machine} {functions : Function → Prop}

variable (mirrors : machine.Mirrors known functions)
include mirrors

theorem reaches (reaches : Reaches fuel activity machine fuel' part begun)
    (allowed : activity.Allowed (.ofImports functions) machine) :
    begun.Mirrors known functions ∧ part.Allowed (.ofImports functions) begun := by
  obtain ⟨isSealed, same, allowedPart⟩ := reaches.allowed mirrors.isSealed rfl allowed
  obtain ⟨_, found, _, _⟩ := mirrors.root
  rw [Scopes.definitions, Scopes.definitions, found, Option.map_some] at same
  obtain ⟨later, foundLater, isSame⟩ := Option.map_eq_some_iff.mp same
  obtain ⟨isFunctions, isStructs⟩ := Prod.mk.inj isSame
  refine ⟨⟨isSealed, later, foundLater, ?_, ?_⟩, allowedPart⟩
  · rwa [isFunctions]
  · rwa [isStructs]

theorem function? (name : String) :
    machine.scopes.function? machine.current name = known.function? name := by
  obtain ⟨_, found, sameFunctions, _⟩ := mirrors.root
  rw [← sameFunctions name]
  exact mirrors.isSealed.bare.function? mirrors.isSealed.wellScoped found name

theorem struct? (name : String) :
    machine.scopes.struct? machine.current name = known.struct? name := by
  obtain ⟨_, found, _, sameStructs⟩ := mirrors.root
  rw [← sameStructs name]
  exact mirrors.isSealed.bare.struct? mirrors.isSealed.wellScoped found name

theorem callable? (name : String) : machine.callable? name = known.callable? name := by
  rw [Machine.callable?, mirrors.function?, mirrors.struct?]
  rfl

end Machine.Mirrors

/-! ### Programs without imports -/

def Checker.declaring (known : Checker) (program : Program) : Checker :=
  { known with
    functions := Bindings.putAll program.definedFunctions known.functions
    structs := Bindings.putAll program.definedStructs known.structs }

variable (noUse : .ofModules ∉ Stmt.listMentions program)
include noUse

theorem declareAll_of_noUse (world : World) (basePath : String) (known : Checker) :
    declareAll world basePath program known = .ok () (known.declaring program) := by
  induction program generalizing known with
  | nil => rfl
  | cons stmt _ ih =>
    rw [Stmt.listMentions, List.mem_append, not_or] at noUse
    cases stmt with
    | use => exact absurd List.mem_cons_self noUse.1
    | _ => exact ih noUse.2 _

theorem Program.ne_use :
    ∀ stmt ∈ program, ∀ names selection newName location,
      stmt ≠ .use names selection newName location := by
  rintro _ member _ _ _ _ rfl
  exact noUse (Stmt.mentions_subset member List.mem_cons_self)

theorem Program.allowed_actions (functions : Function → Prop) (machine : Machine) :
    (Activity.execAll (program.filter Stmt.isAction)).Allowed (.ofImports functions) machine :=
  Hidden.allows_ofImports.mpr fun member =>
    noUse (Stmt.listMentions_filter Stmt.isAction program member)

theorem Program.mirrors_start (world : World) (basePath : String) :
    ((Machine.start world basePath).defining program).Mirrors (Checker.fresh.declaring program)
      fun function => ∃ stmt ∈ program, stmt.function? = some function := by
  have wellScoped : ((Machine.start world basePath).defining program).WellScoped :=
    (Machine.wellScoped_start world basePath).modify 0 fun _ => rfl
  refine ⟨⟨wellScoped, .root, ?_⟩, ?_⟩
  · refine hides_start (Hidden.allows_ofImports.mpr noUse) (fun _ => id) rfl
      (Machine.without_ofImports _ _) fun entry member => ?_
    obtain ⟨stmt, isStmt, isEntry⟩ := List.mem_filterMap.mp member
    obtain ⟨function, isFunction, rfl⟩ := Option.map_eq_some_iff.mp isEntry
    exact ⟨stmt, isStmt, isFunction⟩
  · exact ⟨_, rfl, fun _ => rfl, fun _ => rfl⟩

end Noxy
