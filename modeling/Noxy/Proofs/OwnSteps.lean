import Noxy.Proofs.Course
import Noxy.Proofs.Imports

/-!
# What activities do themselves

An activity consists of its parts and of what it does itself, before, between and after them.
-/

namespace Noxy

variable {name : String}

open Relation

/-! ### Names that are bound -/

inductive Bound where
  | var (name : String)
  | function (name : String)
  | struct (name : String)
  deriving DecidableEq

namespace Scope

def SameAt (scope later : Scope) : Bound → Prop
  | .var name => Bindings.get? name later.bindings = Bindings.get? name scope.bindings
  | .function name => Bindings.get? name later.functions = Bindings.get? name scope.functions
  | .struct name => Bindings.get? name later.structs = Bindings.get? name scope.structs

theorem SameAt.refl (scope : Scope) (bound : Bound) : scope.SameAt scope bound := by
  cases bound <;> rfl

theorem SameAt.trans {scope : Scope} (first : scope.SameAt later bound)
    (second : later.SameAt last bound) : scope.SameAt last bound := by
  cases bound <;> exact Eq.trans second first

def VariablesIn (scope later : Scope) : Prop :=
  ∀ name, (Bindings.get? name scope.bindings).isSome = true →
    (Bindings.get? name later.bindings).isSome = true

structure Changed (names : Bound → Prop) (scope later : Scope) : Prop where
  outer : later.outer = scope.outer
  same : ∀ bound, ¬ names bound → scope.SameAt later bound
  stay : scope.VariablesIn later

theorem Changed.mono {scope : Scope} (changed : scope.Changed names later)
    (covered : ∀ bound, names bound → names' bound) : scope.Changed names' later :=
  { changed with
    same := fun bound other => changed.same bound fun named => other (covered bound named) }

theorem variablesIn_put (name : String) (binding : Variable) (scope : Scope) :
    scope.VariablesIn { scope with bindings := Bindings.put name binding scope.bindings } := by
  intro _ isBound
  rw [Bindings.get?_put]
  split
  · rfl
  · exact isBound

theorem changed_bind (name : String) (binding : Variable) (scope : Scope) :
    scope.Changed (· = .var name) (scope.bind name binding) where
  outer := rfl
  same bound other := by
    cases bound with
    | var =>
      exact Bindings.get?_put_of_ne (fun same => other (congrArg Bound.var same.symm)) _ _
    | _ => rfl
  stay := scope.variablesIn_put name binding

theorem changed_bindFunction (scope : Scope) :
    scope.Changed (· = .function function.name) (scope.bindFunction function) where
  outer := rfl
  same bound other := by
    cases bound with
    | function =>
      exact Bindings.get?_put_of_ne (fun same => other (congrArg Bound.function same.symm)) _ _
    | _ => rfl
  stay _ isBound := isBound

theorem changed_bindStruct (scope : Scope) :
    scope.Changed (· = .struct struct.name) (scope.bindStruct struct) where
  outer := rfl
  same bound other := by
    cases bound with
    | struct =>
      exact Bindings.get?_put_of_ne (fun same => other (congrArg Bound.struct same.symm)) _ _
    | _ => rfl
  stay _ isBound := isBound

theorem changed_assign (value : Value) (scope : Scope) :
    scope.Changed (· = .var name)
      { scope with bindings := scope.bindings.map fun (other, binding) =>
          if other = name then (other, { binding with value := value })
          else (other, binding) } where
  outer := rfl
  same bound other := by
    cases bound with
    | var name' =>
      have different : name' ≠ name := fun same => other (congrArg Bound.var same)
      simp only [SameAt, Bindings.get?_assigned, different, if_false, Option.map_id']
    | _ => rfl
  stay name' := by simp [Bindings.get?_assigned]

end Scope

def Bound.ofMember (entry : String × Value) : Bound :=
  match entry.2 with
  | .function definition => .function definition.name
  | .struct definition => .struct definition.name
  | _ => .var entry.1

theorem Scope.changed_importing (heap : Heap) (scope : Scope) :
    scope.Changed (· = .ofMember entry) (heap.importing entry scope) := by
  obtain ⟨name, value⟩ := entry
  cases value with
  | function function => exact scope.changed_bindFunction
  | struct struct => exact scope.changed_bindStruct
  | _ => exact scope.changed_bind name _

def Heap.Imports (heap : Heap) (selection : Selection) (newName : Option String) (module : Value)
    (bound : Bound) : Prop :=
  ∃ moduleName members, heap.object? module = some (.module moduleName members) ∧
    match selection with
    | .whole => bound = .var (newName.getD moduleName)
    | .all => ∃ entry ∈ members, bound = .ofMember entry
    | .names names =>
      ∃ name ∈ names, ∃ value, Bindings.get? name members = some value ∧
        bound = .ofMember (name, value)

def Stmt.defined? (stmt : Stmt) : Option Bound :=
  match stmt.function?, stmt.struct? with
  | some definition, _ => some (.function definition.name)
  | none, some definition => some (.struct definition.name)
  | none, none => none

def Object.shape? : Object → Option (String × List String)
  | .struct name fields => some (name, fields.map Prod.fst)
  | _ => none

/-- The step changes the heap alone, as `made` allows. -/
def Exec.Makes {α : Type} (made : Machine → Heap → Prop) (step : Exec α) (machine : Machine) :
    Prop :=
  ∃ heap, made machine heap ∧ step.final machine = { machine with heap := heap }

structure Machine.IsMaking (made : Machine → Heap → Prop) : Prop where
  refl machine : made machine machine.heap
  trans {machine heap last} (first : made machine heap)
    (second : made { machine with heap := heap } last) : made machine last
  alloc {machine object} (noShape : object.shape? = none) :
    made machine (machine.heap.alloc object).2
  struct {machine name struct values} (isDefined : machine.struct? name = some struct)
    (complete : values.length = struct.fields.length) :
    made machine (machine.heap.alloc (.struct name (fieldsOf struct.fields values))).2

theorem length_of_defaultValues (ended : defaultValues fuel types machine = .ok values final) :
    values.length = types.length := by
  induction types generalizing fuel machine values final with
  | nil =>
    cases fuel with
    | zero => cases ended
    | succ =>
      cases ended
      rfl
  | cons _ _ ih =>
    cases fuel with
    | zero => cases ended
    | succ =>
      obtain ⟨_, _, _, ended⟩ := Exec.exists_of_bind_eq_ok ended
      obtain ⟨_, _, made, ended⟩ := Exec.exists_of_bind_eq_ok ended
      cases ended
      exact congrArg (· + 1) (ih made)

namespace Machine.IsMaking

open Exec

variable {made : Machine → Heap → Prop} {α β : Type} (making : IsMaking made)
include making

theorem of_final_eq (same : step.final machine = machine) : Makes made step machine :=
  ⟨machine.heap, making.refl machine, same⟩

theorem bind (first : Makes made step machine)
    (rest : ∀ value middle, step machine = .ok value middle → Makes made (next value) middle) :
    Makes made (step >>= next) machine := by
  obtain ⟨heap, isMade, same⟩ := first
  cases ended : step machine with
  | ok value =>
    rw [final_of_ok ended] at same
    subst same
    obtain ⟨last, isLater, same'⟩ := rest value _ ended
    exact ⟨last, making.trans isMade isLater, by rw [final_bind_of_ok ended, same']⟩
  | error =>
    rw [final_of_error ended] at same
    exact ⟨heap, isMade, by rw [final_bind_of_error ended, same]⟩

theorem allocated (noShape : object.shape? = none) : Makes made (Exec.alloc object) machine :=
  ⟨_, making.alloc noShape, rfl⟩

theorem defaultValue (fuel : Nat) :
    (∀ type machine, Makes made (defaultValue fuel type) machine) ∧
      ∀ types machine, Makes made (defaultValues fuel types) machine := by
  induction fuel with
  | zero => exact ⟨fun _ _ => making.of_final_eq rfl, fun _ _ => making.of_final_eq rfl⟩
  | succ _ ih =>
    constructor
    · intro type machine
      cases type with
      | array _ size =>
        cases size with
        | none => exact making.allocated rfl
        | some => exact making.bind (ih.2 _ _) fun _ _ _ => making.allocated rfl
      | struct name =>
        simp only [Makes, Noxy.defaultValue, final_get_bind]
        cases isDefined : machine.struct? name with
        | none => exact making.of_final_eq rfl
        | some struct =>
          refine making.bind (ih.2 (struct.fields.map Declared.type) machine) ?_
          intro _ _ ended
          obtain ⟨_, _, same⟩ := ih.2 (struct.fields.map Declared.type) machine
          rw [final_of_ok ended] at same
          subst same
          have complete := length_of_defaultValues ended
          rw [List.length_map] at complete
          exact ⟨_, making.struct isDefined complete, rfl⟩
      | map => exact making.allocated rfl
      | _ => exact making.of_final_eq rfl
    · intro types machine
      cases types with
      | nil => exact making.of_final_eq rfl
      | cons type rest =>
        exact making.bind (ih.1 type machine) fun _ _ _ =>
          making.bind (ih.2 rest _) fun _ _ _ => making.of_final_eq rfl

end Machine.IsMaking

theorem Machine.isMaking_extends :
    Machine.IsMaking fun machine heap => machine.heap.Extends heap where
  refl machine := .refl machine.heap
  trans first second := first.trans second
  alloc _ := .alloc _ _
  struct _ _ := .alloc _ _

namespace Activity

def Writes (activity : Activity) (machine : Machine) (number : Nat) (bound : Bound) : Prop :=
  match activity with
  | bindAll ((param, _) :: _) => number = machine.current ∧ bound = .var param.name
  | exec (.letVar name _ _ _) => number = machine.current ∧ bound = .var name
  | exec (.globalVar name _ _ _) => number = 0 ∧ bound = .var name
  | assignTarget (.identifier name _) _ =>
    machine.scopes.owner? machine.current name = some number ∧ bound = .var name
  | execUse names selection newName _ =>
    number = 0 ∧ ∃ path fuel module loaded,
      Modules.locate machine.world machine.basePath names = .ok (some path) ∧
      Noxy.loadModule fuel path machine = .ok module loaded ∧
      loaded.heap.Imports selection newName module bound
  | defineMembers scope _ (stmt :: _) => number = scope ∧ bound ∈ stmt.defined?
  | evalGlobals _ (.globalVar name _ _ _ :: _) => number = machine.current ∧ bound = .var name
  | _ => False

def module? : Activity → Option Value
  | loadMembers module _ _ => some module
  | defineMembers _ module _ => module
  | evalGlobals module _ => some module
  | _ => none

def IsOpen (activity : Activity) (address : Address) : Prop :=
  activity.module? = some (.object address)

/--
The steps of an activity that are not those of its parts.  The activity was started in `start`, and
a scope that it leaves is one that it entered where the machine was `before`.
-/
inductive Own (activity : Activity) (start : Machine) : Machine → Machine → Prop where
  | plain {α : Type} {step : Exec α} {machine : Machine} (isPlain : Exec.Plain step) :
      Own activity start machine (step.final machine)
  | allocate {machine : Machine} {heap : Heap} (extended : machine.heap.Extends heap) :
      Own activity start machine { machine with heap := heap }
  | assign {machine : Machine} {change : Change} (assigns : machine.heap.Assigns change) :
      Own activity start machine { machine with heap := machine.heap.apply change }
  | setMember {machine : Machine} {address : Address}
      {change : List (String × Value) → List (String × Value)} (isOpen : activity.IsOpen address) :
      Own activity start machine
        { machine with heap := machine.heap.apply ⟨address, Object.mapMembers change⟩ }
  | bind {machine : Machine} (number : Nat) (change : Scope → Scope)
      (binds : ∀ scope : Scope, scope.Changed (activity.Writes start number) (change scope)) :
      Own activity start machine { machine with scopes := machine.scopes.modify number change }
  | enter {machine : Machine} {outer : Nat} :
      Own activity start machine (Exec.entered outer machine)
  | leave {machine before : Machine} (wellScoped : before.WellScoped)
      (sameScope : before.current = start.current) :
      Own activity start machine (Exec.left before machine)

abbrev Owns (activity : Activity) (start : Machine) : Machine → Machine → Prop :=
  ReflTransGen (activity.Own start)

namespace Owns

variable {activity : Activity} {α β : Type}

theorem plain (isPlain : Exec.Plain step) : activity.Owns start machine (step.final machine) :=
  .single (.plain isPlain)

theorem allocate {step : Exec α}
    (allocates : step.Makes (fun machine heap => machine.heap.Extends heap) machine) :
    activity.Owns start machine (step.final machine) := by
  obtain ⟨_, extended, same⟩ := allocates
  rw [same]
  exact .single (.allocate extended)

theorem bind {next : α → Exec β} (first : activity.Owns start machine (step.final machine))
    (rest : ∀ value middle, step machine = .ok value middle →
      activity.Owns start middle ((next value).final middle)) :
    activity.Owns start machine ((step >>= next).final machine) :=
  Exec.related_bind ReflTransGen.trans first rest

theorem changeScope (changed : ∀ scope : Scope, scope.Changed names (change scope))
    (writes : ∀ bound, names bound → activity.Writes start number bound) :
    activity.Owns start machine ((Exec.changeScope number change).final machine) :=
  .single (.bind number change fun scope => (changed scope).mono writes)

theorem define (writes : activity.Writes start number (.var name)) :
    activity.Owns start machine ((Exec.define number name binding).final machine) :=
  changeScope (Scope.changed_bind name binding) fun _ same => same ▸ writes

theorem assign (writes : ∀ owner, machine.scopes.owner? machine.current name = some owner →
      activity.Writes start owner (.var name)) :
    activity.Owns start machine ((Exec.assign name value).final machine) := by
  rw [Exec.final, Exec.assign, Exec.get_bind]
  dsimp only
  cases owned : machine.scopes.owner? machine.current name with
  | none => exact plain (Exec.fail_plain (α := Unit) (.undefinedVariable name))
  | some owner =>
    exact changeScope (Scope.changed_assign value) fun _ same => same ▸ writes owner owned

theorem viewApply {read : Heap → Except Failure Change}
    (assigns : ∀ change, read machine.heap = .ok change → machine.heap.Assigns change) :
    activity.Owns start machine ((Exec.view read >>= Exec.apply).final machine) := by
  refine bind (plain (.view read)) fun change _ made => ?_
  obtain ⟨made, rfl⟩ := Exec.view_eq_ok.mp made
  exact .single (.assign (assigns change made))

theorem setMember (isOpen : activity.module? = some module) :
    activity.Owns start machine ((Noxy.setMember module name value).final machine) := by
  cases module with
  | object => exact .single (.setMember isOpen)
  | _ => exact .refl

theorem importMember (writes : activity.Writes start 0 (.ofMember (name, value))) :
    activity.Owns start machine ((Noxy.importMember name value).final machine) := by
  rw [Exec.final_of_ok (importMember_eq (name, value) machine)]
  exact changeScope (Scope.changed_importing machine.heap) fun _ same => same ▸ writes

theorem forM {steps : List α} {step : α → Exec PUnit}
    (each : ∀ item ∈ steps, ∀ machine, activity.Owns start machine ((step item).final machine)) :
    activity.Owns start machine ((steps.forM step).final machine) := by
  induction steps generalizing machine with
  | nil => exact .refl
  | cons item steps ih =>
    change activity.Owns start machine ((step item >>= fun _ => steps.forM step).final machine)
    exact (each item List.mem_cons_self machine).bind fun _ _ _ =>
      ih fun other member => each other (List.mem_cons_of_mem _ member)

theorem importSelection (writes : ∀ bound, machine.heap.Imports selection newName module bound →
      activity.Writes start 0 bound) :
    activity.Owns start machine
      ((Noxy.importSelection selection newName location module).final machine) := by
  have looked : Exec.object? module machine = .ok (machine.heap.object? module) machine := rfl
  rw [Noxy.importSelection, Exec.final_bind_of_ok looked]
  split
  · rename_i moduleName members isModule
    cases selection with
    | whole => exact define (writes _ ⟨moduleName, members, isModule, rfl⟩)
    | all =>
      exact forM fun entry member _ =>
        importMember (writes _ ⟨moduleName, members, isModule, entry, member, rfl⟩)
    | names names =>
      refine forM fun name member _ => ?_
      split
      · rename_i value found
        exact importMember
          (writes _ ⟨moduleName, members, isModule, name, member, value, found, rfl⟩)
      · exact plain (.throw _)
  · exact plain (.pure _)

theorem defineMember (isOpen : activity.module? = module)
    (writes : ∀ bound ∈ stmt.defined?, activity.Writes start scope bound) :
    activity.Owns start machine ((Noxy.defineMembers scope module [stmt]).final machine) := by
  have member (name : String) (value : Value) (machine : Machine) : activity.Owns start machine
      ((module.forM fun module => Noxy.setMember module name value).final machine) := by
    cases module with
    | none => exact plain (.pure _)
    | some => exact setMember isOpen
  rw [Noxy.defineMembers, Noxy.defineMembers]
  rw [Stmt.defined?] at writes
  split
  · rename_i function isFunction
    rw [isFunction] at writes
    refine bind ?_ fun _ _ _ => (member _ _ _).bind fun _ _ _ => plain (.pure _)
    exact changeScope Scope.changed_bindFunction fun _ same => writes _ (congrArg some same.symm)
  · rename_i struct notFunction isStruct
    rw [notFunction, isStruct] at writes
    refine bind ?_ fun _ _ _ => (member _ _ _).bind fun _ _ _ => plain (.pure _)
    exact changeScope Scope.changed_bindStruct fun _ same => writes _ (congrArg some same.symm)
  · exact .refl

end Owns

end Activity

end Noxy
