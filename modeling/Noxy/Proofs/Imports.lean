import Mathlib
import Noxy.Proofs.ScopeChains
import Noxy.Proofs.SightEval

/-!
# Forms of import

A function of a module can be called in three ways: through the module, after it was selected by its
name, and after all members were selected.
-/

namespace Noxy

variable {hidden : Hidden} {scope : Scope}

open HasValues Exec

/-- The three forms of import. -/
inductive ImportForm where
  | whole
  | one
  | all

namespace ImportForm

def selection (form : ImportForm) (name : String) : Selection :=
  match form with
  | whole => .whole
  | one => .names [name]
  | all => .all

def callee (form : ImportForm) (module name : String) (location : Location) : Expr :=
  match form with
  | whole => .field (.identifier module location) name location
  | one => .identifier name location
  | all => .identifier name location

def call (form : ImportForm) (fuel : Nat) (path : List String) (module name : String)
    (arguments : List Expr) (location : Location) : Exec Value := do
  execUse fuel path (form.selection name) none location
  eval fuel (.call (form.callee module name location) arguments location)

end ImportForm

def Value.ownName? : Value → Option String
  | .function definition => some definition.name
  | .struct definition => some definition.name
  | _ => none

/-- The object is a module that has the function as a member, and no other function or struct that
was defined under the same name. -/
structure Machine.Offers (machine : Machine) (address : Address) (module : String)
    (members : List (String × Value)) (function : Function) : Prop where
  isModule : machine.heap.get? address = some (.module module members)
  member : Bindings.get? function.name members = some (.function function)
  only : ∀ entry ∈ members, function.name ∈ entry.2.ownName? → entry.2 = .function function

structure Scope.Avoids (names : List String) (scope : Scope) : Prop where
  bindings : ∀ entry ∈ scope.bindings, entry.1 ∉ names
  functions : ∀ entry ∈ scope.functions, entry.1 ∉ names
  structs : ∀ entry ∈ scope.structs, entry.1 ∉ names

/-- No scope binds any of the names. -/
def Machine.Avoids (names : List String) (machine : Machine) : Prop :=
  ∀ (number : Nat) scope, machine.scopes.scopes[number]? = some scope → scope.Avoids names

def Hidden.ofModule (address : Address) (names : List String) : Hidden where
  objects := (· = address)
  bindings name := decide (name ∈ names)
  definitions name := decide (name ∈ names)
  imports := false
  noNames := nofun

/-! ### Machines without the names of a module -/

variable {address : Address} {names : List String}

theorem Bindings.without_of_avoids {bindings : List (String × α)}
    (avoids : ∀ entry ∈ bindings, entry.1 ∉ names) :
    Bindings.without (fun name => decide (name ∈ names)) bindings = bindings :=
  List.filter_eq_self.mpr fun entry member => by simp [avoids entry member]

theorem Bindings.get?_of_avoids {bindings : List (String × α)}
    (avoids : ∀ entry ∈ bindings, entry.1 ∉ names) (isName : name ∈ names) :
    Bindings.get? name bindings = none := by
  cases found : Bindings.get? name bindings with
  | none => rfl
  | some => exact absurd isName (avoids _ (Bindings.mem_of_get? found))

theorem Machine.Avoids.without_eq {machine : Machine} (avoids : machine.Avoids names) :
    machine.without (.ofModule address names) = machine := by
  have same : machine.scopes.without (.ofModule address names) = machine.scopes := by
    apply Scopes.ext_getElem?
    intro number
    rw [Scopes.getElem?_without]
    split
    · cases found : machine.scopes.scopes[number]? with
      | none => rfl
      | some scope =>
        have avoidsScope := avoids number scope found
        simp only [Option.map_some, Scope.without, Hidden.ofModule,
          Bindings.without_of_avoids avoidsScope.bindings,
          Bindings.without_of_avoids avoidsScope.functions,
          Bindings.without_of_avoids avoidsScope.structs]
    · rfl
  rw [Machine.without, same]

theorem Machine.Hides.of_without_eq {machine other : Machine}
    (hides : machine.Hides hidden) (same : other.without hidden = machine.without hidden) :
    other.Hides hidden := by
  have sameHeap : (other.without hidden).heap = (machine.without hidden).heap := by rw [same]
  have sameModules : (other.without hidden).modules = (machine.without hidden).modules := by
    rw [same]
  simp only [Machine.without] at sameHeap sameModules
  constructor
  · rw [sameHeap]
    exact hides.heap
  · rw [same, sameHeap]
    exact hides.scopes
  · rw [sameHeap, sameModules]
    exact hides.modules

/-! ### What an import binds -/

def Machine.withRoot (machine : Machine) (change : Scope → Scope) : Machine :=
  { machine with scopes := machine.scopes.modify 0 change }

theorem Machine.withRoot_id (machine : Machine) :
    (machine.withRoot fun scope => scope) = machine := by
  rw [Machine.withRoot, Scopes.modify_id]

def BindsHidden (hidden : Hidden) (change : Scope → Scope) : Prop :=
  ∀ scope, (change scope).without hidden = scope.without hidden

theorem BindsHidden.outer (binds : BindsHidden hidden change) (scope : Scope) :
    (change scope).outer = scope.outer := by
  have sameOuter : ((change scope).without hidden).outer = (scope.without hidden).outer := by
    rw [binds scope]
  exact sameOuter

theorem BindsHidden.withRoot (binds : BindsHidden hidden change) (machine : Machine) :
    (machine.withRoot change).without hidden = machine.without hidden := by
  simp only [Machine.withRoot, Machine.without, Scopes.without, Scopes.modify_modify]
  rw [funext binds]

def Scope.bind (name : String) (binding : Variable) (scope : Scope) : Scope :=
  { scope with bindings := Bindings.put name binding scope.bindings }

def Scope.bindFunction (function : Function) (scope : Scope) : Scope :=
  { scope with functions := Bindings.put function.name function scope.functions }

def Scope.bindStruct (struct : Struct) (scope : Scope) : Scope :=
  { scope with structs := Bindings.put struct.name struct scope.structs }

def Heap.importedType (heap : Heap) (value : Value) : Ty :=
  match heap.object? value with
  | some (.module name _) => .imported name 0
  | _ => .void

def Heap.importing (heap : Heap) (entry : String × Value) (scope : Scope) : Scope :=
  match entry.2 with
  | .function function => scope.bindFunction function
  | .struct struct => scope.bindStruct struct
  | value => scope.bind entry.1 ⟨heap.importedType value, value, true⟩

theorem importMember_eq (entry : String × Value) (machine : Machine) :
    importMember entry.1 entry.2 machine =
      .ok () (machine.withRoot (machine.heap.importing entry)) := by
  obtain ⟨name, value⟩ := entry
  cases value with
  | function => rfl
  | struct => rfl
  | object address =>
    have imported : machine.heap.importing (name, .object address) =
        Scope.bind name ⟨machine.heap.importedType (.object address), .object address, true⟩ := rfl
    simp only [imported, Heap.importedType, importMember]
    rw [object?_bind]
    cases machine.heap.object? (.object address) with
    | none => rfl
    | some object => cases object <;> rfl
  | _ => rfl

def Heap.importingAll (heap : Heap) (members : List (String × Value)) (scope : Scope) : Scope :=
  members.foldl (fun scope entry => heap.importing entry scope) scope

theorem importMembers_eq (members : List (String × Value)) (machine : Machine) :
    (members.forM fun (name, value) => importMember name value) machine =
      .ok () (machine.withRoot (machine.heap.importingAll members)) := by
  induction members generalizing machine with
  | nil => exact congrArg (EStateM.Result.ok ()) machine.withRoot_id.symm
  | cons entry members ih =>
    change (importMember entry.1 entry.2 >>= fun _ => members.forM _) machine = _
    simp only [Bind.bind, EStateM.bind, importMember_eq]
    rw [ih]
    simp only [Machine.withRoot, Scopes.modify_modify]
    rfl

def ImportForm.binding (form : ImportForm) (heap : Heap) (address : Address) (module : String)
    (members : List (String × Value)) (function : Function) : Scope → Scope :=
  match form with
  | whole => Scope.bind module ⟨.imported module 0, .object address, true⟩
  | one => heap.importing (function.name, .function function)
  | all => heap.importingAll members

abbrev Machine.importing (machine : Machine) (form : ImportForm) (address : Address)
    (module : String) (members : List (String × Value)) (function : Function) : Machine :=
  machine.withRoot (form.binding machine.heap address module members function)

variable {machine : Machine} {module : String} {members : List (String × Value)}
  {function : Function}

/-! ### The names that are bound are hidden -/

theorem bindsHidden_bind (isHidden : hidden.bindings name = true) (binding : Variable) :
    BindsHidden hidden (Scope.bind name binding) := by
  intro _
  simp only [Scope.bind, Scope.without, Bindings.without_put, isHidden, if_true]

theorem bindsHidden_bindFunction (isHidden : hidden.definitions function.name = true) :
    BindsHidden hidden (Scope.bindFunction function) := by
  intro _
  simp only [Scope.bindFunction, Scope.without, Bindings.without_put, isHidden, if_true]

theorem bindsHidden_bindStruct {struct : Struct}
    (isHidden : hidden.definitions struct.name = true) :
    BindsHidden hidden (Scope.bindStruct struct) := by
  intro _
  simp only [Scope.bindStruct, Scope.without, Bindings.without_put, isHidden, if_true]

def memberNames (entry : String × Value) : List String :=
  entry.1 :: entry.2.ownName?.toList

variable {arguments : List Expr} {location : Location}

theorem bindsHidden_importing (areNames : memberNames entry ⊆ names)
    (heap : Heap) : BindsHidden (.ofModule address names) (heap.importing entry) := by
  obtain ⟨isName, areOwn⟩ := List.cons_subset.mp areNames
  obtain ⟨_, value⟩ := entry
  cases value with
  | function =>
    exact bindsHidden_bindFunction (decide_eq_true (areOwn List.mem_cons_self))
  | struct => exact bindsHidden_bindStruct (decide_eq_true (areOwn List.mem_cons_self))
  | _ => exact bindsHidden_bind (decide_eq_true isName) _

theorem bindsHidden_importingAll (areNames : members.flatMap memberNames ⊆ names) (heap : Heap) :
    BindsHidden (.ofModule address names) (heap.importingAll members) := by
  induction members with
  | nil => exact fun _ => rfl
  | cons entry _ ih =>
    intro scope
    rw [List.flatMap_cons, List.append_subset] at areNames
    have first : BindsHidden (.ofModule address names) (heap.importing entry) :=
      bindsHidden_importing areNames.1 heap
    exact (ih areNames.2 (heap.importing entry scope)).trans (first scope)

def moduleNames (module : String) (members : List (String × Value)) : List String :=
  module :: members.flatMap memberNames

def Hidden.ofImport (address : Address) (module : String) (members : List (String × Value)) :
    Hidden :=
  .ofModule address (moduleNames module members)

/-! ### The names are found -/

structure Scope.Calls (function : Function) (scope : Scope) : Prop where
  isFunction : Bindings.get? function.name scope.functions = some function
  noStruct : Bindings.get? function.name scope.structs = none

theorem Scope.Calls.of_bindFunction (noStruct : Bindings.get? function.name scope.structs = none) :
    (scope.bindFunction function).Calls function :=
  ⟨Bindings.get?_put_self _ _ _, noStruct⟩

theorem importingAll_keeps {heap : Heap} (good : Scope → Prop)
    (keeps : ∀ entry ∈ others, ∀ scope, good scope → good (heap.importing entry scope))
    (isGood : good scope) : good (heap.importingAll others scope) := by
  induction others generalizing scope with
  | nil => exact isGood
  | cons _ _ ih =>
    obtain ⟨keepsFirst, keepsOthers⟩ := List.forall_mem_cons.mp keeps
    exact ih keepsOthers (keepsFirst scope isGood)

section Lookup

variable {hidden : Hidden} {change : Scope → Scope}

theorem Machine.WellScoped.find_withRoot {α : Type} {find : Scope → Option α} {found : α}
    (wellScoped : machine.WellScoped) (binds : BindsHidden hidden change)
    (absent : ∀ (number : Nat) scope, machine.scopes.scopes[number]? = some scope →
      find scope = none)
    (present : ∀ scope, machine.scopes.scopes[0]? = some scope → find (change scope) = some found) :
    (machine.withRoot change).scopes.find find machine.current = some (0, found) := by
  have wellFormed := wellScoped.scopes.modify 0 binds.outer
  obtain ⟨root, isRoot, _⟩ := wellScoped.scopes.root
  have changed : (machine.scopes.modify 0 change).scopes[0]? = some (change root) := by
    rw [Scopes.getElem?_modify, if_pos rfl, isRoot]
    rfl
  have inside : machine.current < (machine.scopes.modify 0 change).scopes.size := by
    rw [Scopes.size_modify]
    exact wellScoped.current
  rw [Machine.withRoot, Scopes.find_root wellFormed _ inside]
  · exact Scopes.find_here changed (present root isRoot)
  · intro number scope isScope notRoot
    rw [Scopes.getElem?_modify_of_ne (Ne.symm notRoot)] at isScope
    exact absent number scope isScope

theorem find_withRoot_nowhere {α : Type} {find : Scope → Option α}
    (absent : ∀ (number : Nat) scope, machine.scopes.scopes[number]? = some scope →
      find scope = none ∧ find (change scope) = none) (number : Nat) :
    (machine.withRoot change).scopes.find find number = none := by
  refine Scopes.find_nowhere (fun other scope isScope => ?_) number
  rw [Machine.withRoot, Scopes.getElem?_modify] at isScope
  split at isScope
  · obtain ⟨old, isOld, rfl⟩ := Option.map_eq_some_iff.mp isScope
    exact (absent other old isOld).2
  · exact (absent other scope isScope).1

theorem Machine.WellScoped.callable?_withRoot (wellScoped : machine.WellScoped)
    (avoids : machine.Avoids names) (isName : function.name ∈ names)
    (binds : BindsHidden hidden change)
    (calls : ∀ scope : Scope, Bindings.get? function.name scope.structs = none →
      (change scope).Calls function) :
    (machine.withRoot change).callable? function.name = some (.function function) := by
  have absent (number : Nat) (scope : Scope)
      (isScope : machine.scopes.scopes[number]? = some scope) :
      Bindings.get? function.name scope.functions = none ∧
        Bindings.get? function.name scope.structs = none :=
    ⟨Bindings.get?_of_avoids (avoids number scope isScope).functions isName,
      Bindings.get?_of_avoids (avoids number scope isScope).structs isName⟩
  have noStruct :
      (machine.withRoot change).scopes.struct? machine.current function.name = none := by
    rw [Scopes.struct?, find_withRoot_nowhere, Option.map_none]
    intro number scope isScope
    have noStruct := (absent number scope isScope).2
    exact ⟨noStruct, (calls scope noStruct).noStruct⟩
  have isFunction :
      (machine.withRoot change).scopes.function? machine.current function.name = some function := by
    rw [Scopes.function?, wellScoped.find_withRoot binds, Option.map_some]
    · exact fun number scope isScope => (absent number scope isScope).1
    · exact fun scope isScope => (calls scope (absent 0 scope isScope).2).isFunction
  have sameCurrent : (machine.withRoot change).current = machine.current := rfl
  simp only [Machine.callable?, sameCurrent, noStruct, isFunction]

end Lookup

/-! ### The calls -/

theorem eval_call_name (isFunction : machine.callable? name = some (.function function))
    (fuel : Nat) :
    eval (fuel + 2) (.call (.identifier name location) arguments location) machine =
      callFunction fuel function arguments machine := by
  rw [eval, evalCall, get_bind, isFunction]

theorem eval_identifier {binding : Variable}
    (isBound : machine.scopes.binding? machine.current name = some binding) :
    eval (fuel + 1) (.identifier name location) machine = .ok binding.value machine :=
  bind_of_ok (binding_of_some isBound)

theorem Heap.selected_member {heap : Heap} {selected : Value}
    (isModule : heap.object? (.object address) = some (.module module members))
    (found : Bindings.get? name members = some selected) :
    heap.selected (.object address) name = .ok selected := by
  have followed : heap.dereference (.object address) = .ok (.object address) := by
    rw [Heap.dereference, Heap.depth, Heap.follow, isModule]
  simp only [Heap.selected, followed, bind, Except.bind, Value.isNull, Bool.false_eq_true,
    ↓reduceIte, isModule, found]
  rfl

/-- The object of a member that is called is evaluated twice. -/
theorem evalCall_member (evaluated : eval (fuel + 2) object machine = .ok value middle)
    (notReceiver : middle.heap.receiver? value = none)
    (again : eval fuel object middle = .ok owner later)
    (isSelected : later.heap.selected owner name = .ok selected) :
    eval (fuel + 1) (.field object name location) middle = .ok selected later ∧
      evalCall (fuel + 3) (.field object name location) arguments machine =
        callValue (fuel + 2) (.field object name location) arguments middle := by
  have viewed : Exec.view (fun heap => heap.selected owner name) later = .ok selected later := by
    change Exec.ofExcept (later.heap.selected owner name) later = _
    rw [isSelected]
    rfl
  constructor
  · rw [eval, bind_of_ok again, viewed]
  · rw [evalCall, bind_of_ok evaluated, look_bind, notReceiver]

namespace Machine.Offers

variable (offers : machine.Offers address module members function)
include offers

theorem object?_eq : machine.heap.object? (.object address) = some (.module module members) :=
  offers.isModule

theorem importSelection_eq (form : ImportForm) (location : Location) :
    importSelection (form.selection function.name) none location (.object address) machine =
      .ok () (machine.importing form address module members function) := by
  rw [importSelection, object?_bind, offers.object?_eq]
  cases form with
  | whole => rfl
  | one =>
    have single (step : String → Exec Unit) :
        [function.name].forM step = (step function.name >>= fun _ => pure ()) := rfl
    simp only [ImportForm.selection, single, offers.member]
    rfl
  | all => exact importMembers_eq members machine

theorem name_mem : function.name ∈ moduleNames module members :=
  List.mem_cons_of_mem _ (List.mem_flatMap.mpr
    ⟨_, Bindings.mem_of_get? offers.member, List.mem_cons_self⟩)

theorem bindsHidden (form : ImportForm) : BindsHidden (.ofImport address module members)
    (form.binding machine.heap address module members function) := by
  cases form with
  | whole => exact bindsHidden_bind (decide_eq_true List.mem_cons_self) _
  | one => exact bindsHidden_bindFunction (decide_eq_true offers.name_mem)
  | all => exact bindsHidden_importingAll (List.subset_cons_self _ _) _

theorem noStruct_importing (isMember : entry ∈ members) (heap : Heap)
    (noStruct : Bindings.get? function.name scope.structs = none) :
    Bindings.get? function.name (heap.importing entry scope).structs = none := by
  obtain ⟨_, value⟩ := entry
  cases value with
  | struct definition =>
    have different : definition.name ≠ function.name :=
      fun same => nomatch offers.only _ isMember (congrArg some same)
    exact (Bindings.get?_put_of_ne different _ _).trans noStruct
  | _ => exact noStruct

theorem calls_importing (isMember : entry ∈ members) (heap : Heap)
    (calls : scope.Calls function) : (heap.importing entry scope).Calls function := by
  refine ⟨?_, offers.noStruct_importing isMember heap calls.noStruct⟩
  obtain ⟨_, value⟩ := entry
  cases value with
  | function definition =>
    by_cases same : definition.name = function.name
    · cases offers.only _ isMember (congrArg some same)
      exact Bindings.get?_put_self _ _ _
    · exact (Bindings.get?_put_of_ne same _ _).trans calls.isFunction
  | _ => exact calls.isFunction

theorem calls_all (heap : Heap) (noStruct : Bindings.get? function.name scope.structs = none) :
    (heap.importingAll members scope).Calls function := by
  obtain ⟨before, after, split⟩ := List.append_of_mem (Bindings.mem_of_get? offers.member)
  have parts : heap.importingAll members scope =
      heap.importingAll after ((heap.importingAll before scope).bindFunction function) := by
    rw [split, Heap.importingAll, List.foldl_append]
    rfl
  have noStructBefore :
      Bindings.get? function.name (heap.importingAll before scope).structs = none := by
    refine importingAll_keeps (fun scope => Bindings.get? function.name scope.structs = none)
      (fun entry member scope absent => ?_) noStruct
    exact offers.noStruct_importing (by simp [split, member]) heap absent
  rw [parts]
  refine importingAll_keeps (Scope.Calls function) (fun entry member scope calls => ?_)
    (.of_bindFunction noStructBefore)
  exact offers.calls_importing (by simp [split, member]) heap calls

theorem eval_call_member {binding : Variable}
    (isBound : machine.scopes.binding? machine.current module = some binding)
    (isModule : binding.value = .object address) (fuel : Nat) :
    eval (fuel + 5) (.call (.field (.identifier module location) function.name location) arguments
      location) machine = callFunction (fuel + 2) function arguments machine := by
  have evaluated (fuel : Nat) : eval (fuel + 1) (.identifier module location) machine =
      .ok (.object address) machine := by
    rw [eval_identifier isBound, isModule]
  obtain ⟨selected, called⟩ := evalCall_member (evaluated (fuel + 2))
    (by rw [Heap.receiver?, offers.object?_eq]) (evaluated fuel)
    (Heap.selected_member offers.object?_eq offers.member)
  rw [eval, called, callValue, bind_of_ok selected]

end Machine.Offers

/-! ### The forms agree -/

/-- The step, with what is hidden forgotten at its end. -/
def Exec.forgetting {α : Type} (hidden : Hidden) (step : Exec α) : Exec α :=
  fun machine => ending (Machine.without hidden) (step machine)

theorem Exec.Grows.forgetting (grows : Grows step) (hidden : Hidden) :
    Grows fun fuel => Exec.forgetting hidden (step fuel) := by
  intro fuel machine
  simp only [Exec.forgetting]
  rcases grows fuel machine with ⟨_, spent⟩ | same
  · rw [spent]
    exact Or.inl ⟨_, rfl⟩
  · rw [same]
    exact Or.inr rfl

theorem execUse_eq (located : Modules.locate machine.world machine.basePath path = .ok (some file))
    (loads : loadModule fuel file machine = .ok (.object address) loaded)
    (offers : loaded.Offers address module members function) (form : ImportForm)
    (location : Location) :
    execUse (fuel + 1) path (form.selection function.name) none location machine =
      .ok () (loaded.importing form address module members function) := by
  rw [execUse, get_bind, located]
  exact (bind_of_ok loads).trans (offers.importSelection_eq form location)

theorem eval_callee (wellScoped : machine.WellScoped)
    (offers : machine.Offers address module members function)
    (avoids : machine.Avoids (moduleNames module members)) (form : ImportForm)
    (arguments : List Expr) (location : Location) :
    ∃ extra extra', ∀ fuel,
      eval (fuel + extra) (.call (form.callee module function.name location) arguments location)
          (machine.importing form address module members function) =
        callFunction (fuel + extra') function arguments
          (machine.importing form address module members function) := by
  have binds := offers.bindsHidden form
  cases form with
  | whole =>
    have isBound : (machine.importing .whole address module members function).scopes.binding?
        machine.current module = some ⟨.imported module 0, .object address, true⟩ := by
      rw [Scopes.binding?, wellScoped.find_withRoot binds, Option.map_some]
      · exact fun number scope isScope =>
          Bindings.get?_of_avoids (avoids number scope isScope).bindings List.mem_cons_self
      · exact fun _ _ => Bindings.get?_put_self _ _ _
    exact ⟨5, 2, Machine.Offers.eval_call_member ⟨offers.isModule, offers.member, offers.only⟩
      isBound rfl⟩
  | one =>
    exact ⟨2, 0, eval_call_name (wellScoped.callable?_withRoot avoids offers.name_mem binds
      fun _ noStruct => .of_bindFunction noStruct)⟩
  | all =>
    exact ⟨2, 0, eval_call_name (wellScoped.callable?_withRoot avoids offers.name_mem binds
      fun _ noStruct => offers.calls_all machine.heap noStruct)⟩

theorem yields_callee (wellScoped : machine.WellScoped)
    (offers : machine.Offers address module members function)
    (avoids : machine.Avoids (moduleNames module members))
    (hides : machine.Hides (.ofImport address module members))
    (allowed : (Hidden.ofImport address module members).Allows function.mentions)
    (allowedArguments : (Hidden.ofImport address module members).Allows
      (Expr.listMentions arguments))
    (form : ImportForm) (location : Location) (result : EStateM.Result Signal Machine Value) :
    Yields (fun fuel => Exec.forgetting (.ofImport address module members)
        (eval fuel (.call (form.callee module function.name location) arguments location)))
      (machine.importing form address module members function) result ↔
      Yields (fun fuel => callFunction fuel function arguments) machine result := by
  have sameNames := (offers.bindsHidden form).withRoot machine
  have hidesThere := hides.of_without_eq sameNames
  rw [Hidden.ofImport, avoids.without_eq] at sameNames
  obtain ⟨extra, extra', reaches⟩ :=
    eval_callee wellScoped offers avoids form arguments location
  refine yields_congr ((fueled (.eval _)).forgetting _) (fueled (.callFunction function arguments))
    extra extra' fun fuel => ?_
  have respects := (sighted _ (fuel + extra') (.callFunction allowed allowedArguments)).same
    hidesThere
  rw [Hidden.ofImport, sameNames] at respects
  rw [respects, Exec.forgetting, reaches]
  rfl

/--
The forms of import agree about a function, if neither it nor its arguments nor anything else in
sight of the importer mentions the module or its members: the same value or error, the same output
and the same machine, but for these names.
-/
theorem import_forms_agree
    (machine loaded : Machine) (path : List String) (file : String) (address : Address)
    (module : String) (members : List (String × Value)) (function : Function)
    (arguments : List Expr) (location : Location)
    (located : Modules.locate machine.world machine.basePath path = .ok (some file))
    (loads : Yields (fun fuel => loadModule fuel file) machine (.ok (.object address) loaded))
    (wellScoped : machine.WellScoped) (offers : loaded.Offers address module members function)
    (avoids : loaded.Avoids (moduleNames module members))
    (hides : loaded.Hides (.ofImport address module members))
    (allowed : (Hidden.ofImport address module members).Allows function.mentions)
    (allowedArguments : (Hidden.ofImport address module members).Allows
      (Expr.listMentions arguments))
    (form form' : ImportForm) (result : EStateM.Result Signal Machine Value) :
    Yields (fun fuel => Exec.forgetting (.ofImport address module members)
        (form.call fuel path module function.name arguments location)) machine result ↔
      Yields (fun fuel => Exec.forgetting (.ofImport address module members)
        (form'.call fuel path module function.name arguments location)) machine result := by
  have agrees (form : ImportForm) :
      Yields (fun fuel => Exec.forgetting (.ofImport address module members)
          (form.call fuel path module function.name arguments location)) machine result ↔
        Yields (fun fuel => callFunction fuel function arguments) loaded result := by
    obtain ⟨least, loadsAlways⟩ := loads.eventually (fueled (.loadModule file))
    have kept := (disciplined least (.loadModule file) machine wellScoped).keeps.of_ok
      (loadsAlways least (Nat.le_refl _))
    rw [← yields_callee (kept.wellScoped wellScoped) offers avoids hides allowed allowedArguments
      form location]
    have grows : Grows fun fuel => form.call fuel path module function.name arguments location :=
      fun fuel => .bind (fueled (.execUse _ _ _ _) fuel) fun _ => fueled (.eval _) fuel
    refine yields_congr (grows.forgetting _) ((fueled (.eval _)).forgetting _)
      (least + 1) (least + 1) fun fuel => ?_
    have imported := execUse_eq located (loadsAlways (fuel + least) (Nat.le_add_left _ _))
      offers form location
    simp only [Exec.forgetting, ImportForm.call]
    rw [← Nat.add_assoc, bind_of_ok imported]
  rw [agrees form, agrees form']

/-! ### A module -/

def pairText : String :=
  "func f(n: int) -> int\nreturn n + 1\nend\nfunc g() -> int\nreturn f(1)\nend"

def pairPlace (line column : Nat) : Location :=
  ⟨line, column, "m.nx"⟩

def Function.successor : Function :=
  ⟨"f", [⟨"n", .int⟩], .int,
    [.returning (some (.binary (.identifier "n" (pairPlace 2 8)) .add
      (.int 1 (pairPlace 2 12)) (pairPlace 2 10))) (pairPlace 2 1)], pairPlace 1 1⟩

def Function.viaSuccessor : Function :=
  ⟨"g", [], .int,
    [.returning (some (.call (.identifier "f" (pairPlace 5 8))
      [.int 1 (pairPlace 5 10)] (pairPlace 5 9))) (pairPlace 5 1)], pairPlace 4 1⟩

def Function.stmt (function : Function) : Stmt :=
  .function function.name function.params function.returns function.body function.location

def pairMembers : List (String × Value) :=
  [("f", .function .successor), ("g", .function .viaSuccessor)]

def Machine.besideText (text : String) : Machine :=
  .start (.start ⟨[(["m.nx"], .file 0)], #[text.toUTF8.data.toList]⟩ [] [] [] 0) "."

def Machine.besideModule : Machine :=
  .besideText pairText

def Machine.withModule : Machine :=
  { Machine.besideModule with
    heap := (Heap.empty.alloc (.module "m" pairMembers)).2
    modules := [(["m.nx"], .object 0)] }

theorem parse_pairText :
    Program.parse pairText "m.nx" = .ok [Function.successor.stmt, Function.viaSuccessor.stmt] := by
  cbv

theorem locate_besideText (text : String) :
    Modules.locate (Machine.besideText text).world (Machine.besideText text).basePath ["m"] =
      .ok (some "m.nx") := by
  have located (contents : Array (List UInt8)) :
      Modules.locate (.start ⟨[(["m.nx"], .file 0)], contents⟩ [] [] [] 0) "." ["m"] =
        .ok (some "m.nx") := by
    cbv
  exact located _

theorem find_besideText (text : String) :
    (Machine.besideText text).world.disk.find (Machine.besideText text).world.workingDirectory
      "m.nx" = .ok (["m.nx"], .file 0) := by
  have found (contents : Array (List UInt8)) :
      Disk.find ⟨[(["m.nx"], .file 0)], contents⟩ [] "m.nx" = .ok (["m.nx"], .file 0) := by
    cbv
  exact found _

theorem locate_pair :
    Modules.locate Machine.besideModule.world Machine.besideModule.basePath ["m"] =
      .ok (some "m.nx") :=
  locate_besideText pairText

set_option maxRecDepth 1024 in
theorem sourceText_pair : Modules.sourceText Machine.besideModule.world.disk 0 = .ok pairText := by
  cbv

theorem loadModule_pair : loadModule 20 "m.nx" .besideModule = .ok (.object 0) .withModule := by
  have isFound : Machine.besideModule.world.disk.find Machine.besideModule.world.workingDirectory
      "m.nx" = .ok (["m.nx"], .file 0) := find_besideText pairText
  have isNamed : Modules.moduleName "m.nx" = "m" := by cbv
  let named : Machine := { Machine.besideModule with
    heap := (Heap.empty.alloc (.module "m" [])).2
    modules := [(["m.nx"], .object 0)] }
  have isRead : readModule "m.nx" 0 named =
      .ok [Function.successor.stmt, Function.viaSuccessor.stmt] named := by
    rw [readModule, world_bind, show named.world.disk = Machine.besideModule.world.disk from rfl,
      sourceText_pair]
    change Exec.ofExcept (Program.parse pairText "m.nx") named = _
    rw [parse_pairText]
    rfl
  rw [loadModule, world_bind, id, isFound]
  simp only []
  rw [isNamed]
  change (readModule "m.nx" 0 >>= _) named = _
  rw [bind_of_ok isRead]
  rfl

theorem withModule_avoids : Machine.withModule.Avoids names := by
  intro number _ found
  cases number with
  | zero =>
    cases Option.some.inj found
    exact ⟨nofun, nofun, nofun⟩
  | succ => cases found

theorem withModule_hides : Machine.withModule.Hides (.ofImport 0 "m" pairMembers) where
  heap := by
    constructor
    · rintro address rfl
      decide
    · intro address _ found notModule
      cases address with
      | zero => exact absurd rfl notModule
      | succ => cases found
  scopes := by
    rw [Hidden.ofImport, withModule_avoids.without_eq]
    intro _ member
    cases Array.mem_singleton.mp member
    exact ⟨nofun, nofun, nofun⟩
  modules := nofun

theorem withModule_offers (isOwn : function = .successor ∨ function = .viaSuccessor) :
    Machine.withModule.Offers 0 "m" pairMembers function := by
  rcases isOwn with rfl | rfl
  all_goals
    exact ⟨rfl, rfl, by simp [pairMembers, Value.ownName?, Function.successor,
      Function.viaSuccessor]⟩

/-- The function that calls no other one can be imported in each form. -/
theorem import_forms_agree_successor :
    Modules.locate Machine.besideModule.world Machine.besideModule.basePath ["m"] =
        .ok (some "m.nx") ∧
      Yields (fun fuel => loadModule fuel "m.nx") .besideModule (.ok (.object 0) .withModule) ∧
      Machine.besideModule.WellScoped ∧
      Machine.withModule.Offers 0 "m" pairMembers .successor ∧
      Machine.withModule.Avoids (moduleNames "m" pairMembers) ∧
      Machine.withModule.Hides (.ofImport 0 "m" pairMembers) ∧
      (Hidden.ofImport 0 "m" pairMembers).Allows Function.successor.mentions ∧
      ∀ (form form' : ImportForm) (result : EStateM.Result Signal Machine Value),
        Yields (fun fuel => Exec.forgetting (.ofImport 0 "m" pairMembers)
            (form.call fuel ["m"] "m" "f" [.int 1 (pairPlace 1 1)] (pairPlace 1 1)))
          .besideModule result ↔
          Yields (fun fuel => Exec.forgetting (.ofImport 0 "m" pairMembers)
            (form'.call fuel ["m"] "m" "f" [.int 1 (pairPlace 1 1)] (pairPlace 1 1)))
          .besideModule result := by
  have loads : Yields (fun fuel => loadModule fuel "m.nx") .besideModule
      (.ok (.object 0) .withModule) :=
    ⟨nofun, 20, loadModule_pair⟩
  have wellScoped : Machine.besideModule.WellScoped := Machine.wellScoped_start _ _
  have offers := withModule_offers (.inl rfl)
  have allowed : (Hidden.ofImport 0 "m" pairMembers).Allows Function.successor.mentions := by
    rw [Hidden.Allows]
    decide
  exact ⟨locate_pair, loads, wellScoped, offers, withModule_avoids, withModule_hides, allowed,
    import_forms_agree _ _ _ _ _ _ _ .successor _ _ locate_pair loads wellScoped offers
      withModule_avoids withModule_hides allowed nofun⟩

/-- `g` does not find `f` where only the module itself was imported. -/
theorem import_forms_differ :
    (∃ value final, value.int? = some 2 ∧
      Yields (fun fuel => ImportForm.all.call fuel ["m"] "m" "g" [] (pairPlace 1 1)) .besideModule
        (.ok value final)) ∧
    ∃ final, Yields (fun fuel => ImportForm.whole.call fuel ["m"] "m" "g" [] (pairPlace 1 1))
      .besideModule (.error (.failure (.error (.runtime (.undefinedFunction "f") none)))
          final) := by
  have reaches (form : ImportForm) :
      form.call 21 ["m"] "m" "g" [] (pairPlace 1 1) .besideModule =
        eval 21 (.call (form.callee "m" "g" (pairPlace 1 1)) [] (pairPlace 1 1))
          (Machine.withModule.importing form 0 "m" pairMembers .viaSuccessor) :=
    bind_of_ok (execUse_eq locate_pair loadModule_pair (withModule_offers (.inr rfl)) form _)
  constructor
  · exact ⟨_, _, rfl, nofun, 21, (reaches .all).trans rfl⟩
  · exact ⟨_, nofun, 21, (reaches .whole).trans rfl⟩

end Noxy
