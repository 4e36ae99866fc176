import Noxy.Proofs.RunFrame

/-!
# Names that stay

A variable that is bound stays bound as long as its scope is there: whatever an activity does, each
scope that was there before has afterwards the variables it had, and perhaps more.
-/

namespace Noxy

variable {root : Scope} {name : String}

open Exec

/-! ### Looking up in larger scopes -/

namespace Scopes

variable {α : Type} {scopes : Scopes} {find : Scope → Option α}

theorem isSome_find_iff {number : Nat} : (scopes.find find number).isSome = true ↔
    ∃ met ∈ scopes.chain number, (scopes.scopes[met]?.bind find).isSome = true := by
  rw [find_eq, List.findSome?_isSome_iff]
  simp only [Option.isSome_map]

theorem find_child (wellFormed : scopes.WellFormed) (outer : Nat) {number : Nat}
    (present : number < scopes.scopes.size) :
    (scopes.child outer).2.find find number = scopes.find find number := by
  have outwards (number outer : Nat) (shown : number < scopes.scopes.size)
      (inside : scopes.scopes[number]?.bind Scope.outer = some outer) :
      outer < scopes.scopes.size :=
    Nat.lt_trans (wellFormed.bind_outer_lt inside) shown
  have same (number : Nat) (shown : number < scopes.scopes.size) :
      (scopes.child outer).2.scopes[number]? = scopes.scopes[number]? := by
    rw [getElem?_child, if_neg (Nat.ne_of_lt shown)]
  refine find_congr ?_ fun met member => ?_
  · refine (chainFrom_congr outwards (fun met shown => by rw [same met shown]) _ present).trans ?_
    exact chainFrom_bound wellFormed (by simp [child]; omega) present
  · rw [same met (shown_of_mem_chain outwards present member)]

inductive Bare (scopes : Scopes) : Nat → Prop where
  | root : Bare scopes 0
  | inner {number outer : Nat} {scope : Scope} (found : scopes.scopes[number]? = some scope)
      (noFunctions : scope.functions = []) (noStructs : scope.structs = [])
      (inside : scope.outer = some outer) (around : Bare scopes outer) : Bare scopes number

theorem find_of_bare {number : Nat} (bare : scopes.Bare number) (wellFormed : scopes.WellFormed)
    (foundRoot : scopes.scopes[0]? = some root)
    (absent : ∀ scope : Scope, scope.functions = [] → scope.structs = [] → find scope = none) :
    (scopes.find find number).map Prod.snd = find root := by
  induction bare with
  | root =>
    rw [find_eq, chain_root wellFormed, List.findSome?_singleton, foundRoot, Option.bind_some,
      Option.map_map]
    exact Option.map_id'
  | inner found noFunctions noStructs inside _ ih =>
    rw [find_outer wellFormed found (absent _ noFunctions noStructs) inside, ih]

end Scopes

/-! ### Machines with more names -/

/-- A later state of the scope with a number: it has the variables that it had, and other functions
and structs only if it is the global one. -/
structure Scope.ExtendedBy (number : Nat) (scope later : Scope) : Prop where
  outer : later.outer = scope.outer
  stay : scope.VariablesIn later
  definitions : number ≠ 0 → later.functions = scope.functions ∧ later.structs = scope.structs

theorem Scope.ExtendedBy.of_declarations {scope : Scope} (number : Nat)
    (same : later.declarations = scope.declarations) : scope.ExtendedBy number later := by
  have bound (name : String) : (Bindings.get? name later.bindings).isSome =
      (Bindings.get? name scope.bindings).isSome := by
    have sameBindings := congrArg (fun scope => (Bindings.get? name scope.bindings).isSome) same
    simpa only [declarations, Bindings.get?_mapValues, Option.isSome_map] using sameBindings
  have sameOuter : later.declarations.outer = scope.declarations.outer := by rw [same]
  have sameFunctions : later.declarations.functions = scope.declarations.functions := by rw [same]
  have sameStructs : later.declarations.structs = scope.declarations.structs := by rw [same]
  exact ⟨sameOuter, fun name isBound => (bound name).trans isBound,
    fun _ => ⟨sameFunctions, sameStructs⟩⟩

namespace Machine

/-- What is bound stays bound. -/
structure Extends (machine later : Machine) : Prop where
  current : later.current = machine.current
  size : later.scopes.scopes.size = machine.scopes.scopes.size
  scopes : ∀ (number : Nat) (scope : Scope), machine.scopes.scopes[number]? = some scope →
    ∃ scope', later.scopes.scopes[number]? = some scope' ∧ scope.ExtendedBy number scope'

def Binds (machine : Machine) (name : String) : Prop :=
  (machine.scopes.binding? machine.current name).isSome = true

def KeepsGlobals (machine later : Machine) : Prop :=
  ∀ scope, machine.scopes.scopes[0]? = some scope →
    ∃ scope', later.scopes.scopes[0]? = some scope' ∧ scope.VariablesIn scope'

def Bare (machine : Machine) : Prop :=
  machine.scopes.Bare machine.current

variable {machine later : Machine}

theorem KeepsGlobals.of_eq (same : later.scopes.scopes[0]? = machine.scopes.scopes[0]?) :
    machine.KeepsGlobals later :=
  fun scope found => ⟨scope, same.trans found, fun _ isBound => isBound⟩

theorem isFrame_keepsGlobals : IsFrame KeepsGlobals where
  refl _ := .of_eq rfl
  trans first second scope found := by
    obtain ⟨scope', found', stay⟩ := first scope found
    obtain ⟨scope'', found'', stay'⟩ := second scope' found'
    exact ⟨scope'', found'', fun name isBound => stay' name (stay name isBound)⟩
  own own scope found := by
    obtain ⟨scope', found', changed⟩ := own.changes_root found
    exact ⟨scope', found', changed.stay⟩
  remembering _ _ _ := .of_eq rfl

/-! ### What is kept by steps -/

theorem Extends.of_scopes_eq (sameScopes : later.scopes = machine.scopes)
    (sameCurrent : later.current = machine.current) : machine.Extends later where
  current := sameCurrent
  size := by rw [sameScopes]
  scopes number scope found :=
    ⟨scope, by rw [sameScopes, found], rfl, fun _ isBound => isBound, fun _ => ⟨rfl, rfl⟩⟩

theorem Extends.refl (machine : Machine) : machine.Extends machine :=
  .of_scopes_eq rfl rfl

theorem Extends.trans (first : machine.Extends later) (second : later.Extends last) :
    machine.Extends last where
  current := second.current.trans first.current
  size := second.size.trans first.size
  scopes number scope found := by
    obtain ⟨scope', found', extended⟩ := first.scopes number scope found
    obtain ⟨scope'', found'', extended'⟩ := second.scopes number scope' found'
    refine ⟨scope'', found'', extended'.outer.trans extended.outer,
      fun name isBound => extended'.stay name (extended.stay name isBound), fun notRoot => ?_⟩
    obtain ⟨sameFunctions, sameStructs⟩ := extended.definitions notRoot
    obtain ⟨sameFunctions', sameStructs'⟩ := extended'.definitions notRoot
    exact ⟨sameFunctions'.trans sameFunctions, sameStructs'.trans sameStructs⟩

theorem extends_define (machine : Machine) (number : Nat) (binding : Variable) :
    machine.Extends { machine with scopes := machine.scopes.define number name binding } where
  current := rfl
  size := Scopes.size_modify _ _ _
  scopes other scope found := by
    have present := Scopes.getElem?_modify machine.scopes number other
      fun scope => { scope with bindings := Bindings.put name binding scope.bindings }
    rw [found, Option.map_some] at present
    by_cases isThis : number = other
    · rw [if_pos isThis] at present
      exact ⟨_, present, rfl, scope.variablesIn_put name binding, fun _ => ⟨rfl, rfl⟩⟩
    · rw [if_neg isThis] at present
      exact ⟨scope, present, rfl, fun _ isBound => isBound, fun _ => ⟨rfl, rfl⟩⟩

theorem Extends.of_kept (kept : machine.Kept .block later) (keeps : machine.KeepsGlobals later) :
    machine.Extends later where
  current := kept.current
  size := kept.size_eq
  scopes number scope found := by
    have outers := kept.outers number
    rw [found, Option.map_some] at outers
    obtain ⟨scope', found', sameOuter⟩ := Option.map_eq_some_iff.mp outers
    refine ⟨scope', found', ?_⟩
    by_cases isRoot : number = 0
    · subst isRoot
      obtain ⟨_, foundRoot, stay⟩ := keeps scope found
      cases found'.symm.trans foundRoot
      exact ⟨sameOuter, stay, fun notRoot => absurd rfl notRoot⟩
    · have contents := kept.contents number isRoot
      rw [found, found'] at contents
      exact .of_declarations number (Option.some.inj contents)

theorem Extends.binds (extended : machine.Extends later)
    (binds : machine.Binds name) : later.Binds name := by
  rw [Binds, Scopes.binding?, Option.isSome_map, Scopes.isSome_find_iff] at binds ⊢
  obtain ⟨met, member, isBound⟩ := binds
  have sameOuter (number : Nat) : later.scopes.scopes[number]?.bind Scope.outer =
      machine.scopes.scopes[number]?.bind Scope.outer := by
    cases found : machine.scopes.scopes[number]? with
    | none =>
      rw [Array.getElem?_eq_none_iff, ← extended.size] at found
      rw [Array.getElem?_eq_none found]
    | some scope =>
      obtain ⟨_, found', isExtended⟩ := extended.scopes number scope found
      rw [found', Option.bind_some, isExtended.outer, Option.bind_some]
  refine ⟨met, ?_, ?_⟩
  · rw [extended.current, Scopes.chain, extended.size]
    rwa [Scopes.chainFrom_congr (fun _ _ _ _ => trivial) (fun met _ => sameOuter met) _ trivial]
  · cases found : machine.scopes.scopes[met]? with
    | none =>
      rw [found] at isBound
      cases isBound
    | some scope =>
      rw [found] at isBound
      obtain ⟨_, found', isExtended⟩ := extended.scopes met scope found
      rw [found']
      exact isExtended.stay name isBound

theorem Extends.bareAt (extended : machine.Extends later) {number : Nat}
    (bare : machine.scopes.Bare number) : later.scopes.Bare number := by
  induction bare with
  | root => exact .root
  | @inner number outer scope found noFunctions noStructs inside _ ih =>
    by_cases isRoot : number = 0
    · exact isRoot ▸ .root
    · obtain ⟨_, found', isExtended⟩ := extended.scopes number scope found
      obtain ⟨sameFunctions, sameStructs⟩ := isExtended.definitions isRoot
      exact .inner found' (sameFunctions.trans noFunctions) (sameStructs.trans noStructs)
        (isExtended.outer.trans inside) ih

theorem Extends.bare (extended : machine.Extends later) (bare : machine.Bare) : later.Bare := by
  rw [Bare, extended.current]
  exact extended.bareAt bare

theorem getElem?_entered_size (machine : Machine) (outer : Nat) :
    (entered outer machine).scopes.scopes[machine.scopes.scopes.size]? =
      some ⟨some outer, [], [], []⟩ := by
  simp only [entered, Scopes.getElem?_child, if_true]

theorem bare_entered (bare : machine.scopes.Bare outer) : (entered outer machine).Bare := by
  have around {number : Nat} (bare : machine.scopes.Bare number) :
      (Exec.entered outer machine).scopes.Bare number := by
    induction bare with
    | root => exact .root
    | inner found noFunctions noStructs inside _ ih =>
      exact .inner ((getElem?_entered (Scopes.lt_size_of_found found)).trans found) noFunctions
        noStructs inside ih
  exact .inner (getElem?_entered_size machine outer) rfl rfl rfl (around bare)

theorem Bare.function? (bare : machine.Bare) (wellScoped : machine.WellScoped)
    (found : machine.scopes.scopes[0]? = some root) (name : String) :
    machine.scopes.function? machine.current name = Bindings.get? name root.functions := by
  refine Scopes.find_of_bare bare wellScoped.scopes found fun _ noFunctions _ => ?_
  rw [noFunctions]
  rfl

theorem Bare.struct? (bare : machine.Bare) (wellScoped : machine.WellScoped)
    (found : machine.scopes.scopes[0]? = some root) (name : String) :
    machine.scopes.struct? machine.current name = Bindings.get? name root.structs := by
  refine Scopes.find_of_bare bare wellScoped.scopes found fun _ _ noStructs => ?_
  rw [noStructs]
  rfl

theorem Binds.entered (binds : machine.Binds name)
    (wellScoped : machine.WellScoped) : (entered machine.current machine).Binds name := by
  have isScoped := wellScoped_entered wellScoped wellScoped.current
  have isNew := getElem?_entered_size machine machine.current
  rw [Binds, Scopes.binding?, Option.isSome_map] at binds ⊢
  change ((Exec.entered machine.current machine).scopes.find _ machine.scopes.scopes.size).isSome =
    true
  rw [Scopes.find_outer isScoped.scopes isNew rfl rfl]
  exact (Scopes.find_child wellScoped.scopes _ wellScoped.current).symm ▸ binds

theorem binds_of_global (wellScoped : machine.WellScoped)
    (found : machine.scopes.scopes[0]? = some root)
    (isBound : (Bindings.get? name root.bindings).isSome = true) : machine.Binds name := by
  rw [Binds, Scopes.binding?, Option.isSome_map]
  exact Scopes.isSome_find_iff.mpr
    ⟨0, Scopes.root_mem_chain wellScoped.scopes wellScoped.current, by rwa [found]⟩

theorem binds_define (name : String) (binding : Variable) (wellScoped : machine.WellScoped) :
    Binds { machine with scopes := machine.scopes.define machine.current name binding } name := by
  have found := Array.getElem?_eq_getElem wellScoped.current
  have present := Scopes.getElem?_modify machine.scopes machine.current machine.current
    fun scope => { scope with bindings := Bindings.put name binding scope.bindings }
  rw [if_pos rfl, found, Option.map_some] at present
  rw [Binds, Scopes.binding?, Option.isSome_map]
  exact Option.isSome_iff_exists.mpr
    ⟨_, Scopes.find_here present (Bindings.get?_put_self _ _ _)⟩

end Machine

/-! ### What is kept by activities -/

section Steps

variable {machine later : Machine}

theorem Exec.Plain.extends {step : Exec α} {value : α} (isPlain : Plain step)
    (ended : step machine = .ok value later) : machine.Extends later := by
  have same := isPlain.final_scopes machine
  rw [final_of_ok ended] at same
  exact .of_scopes_eq same.1 same.2

theorem Activity.extends_of_ok {step : Exec α} {value : α} (activity : Activity)
    (wellScoped : machine.WellScoped) (ends : activity.final fuel machine = step.final machine)
    (isLocal : Local .block step) (ended : step machine = .ok value later) :
    machine.Extends later := by
  have keeps := Machine.isFrame_keepsGlobals.final wellScoped fuel activity
  rw [ends, final_of_ok ended] at keeps
  exact .of_kept (isLocal.kept_of_ok wellScoped ended) keeps

theorem eval_extends (wellScoped : machine.WellScoped)
    (ended : eval fuel expr machine = .ok value later) : machine.Extends later :=
  Activity.extends_of_ok (.eval expr) wellScoped (Activity.final_of_discard rfl machine)
    (disciplined fuel (.eval expr)).lift ended

theorem execBlock_extends (wellScoped : machine.WellScoped)
    (ended : execBlock fuel stmts machine = .ok () later) : machine.Extends later :=
  Activity.extends_of_ok (.execBlock stmts) wellScoped (Activity.final_of_run rfl machine)
    (disciplined fuel (.execBlock stmts)) ended

theorem defineHere_extends (ended : defineHere name type value machine = .ok () later) :
    machine.Extends later := by
  cases ended
  exact machine.extends_define _ _

theorem bindAll_extends (ended : bindAll params machine = .ok () later) :
    machine.Extends later := by
  induction params generalizing machine with
  | nil =>
    cases ended
    exact .refl _
  | cons _ _ ih =>
    obtain ⟨_, _, bound, ended⟩ := exists_of_bind_eq_ok ended
    exact (defineHere_extends bound).trans (ih ended)

theorem ok_of_exec_letVar (wellScoped : machine.WellScoped)
    (ended : exec (fuel + 1) (.letVar name type initializer location) machine = .ok () later) :
    ∃ value middle, machine.Extends middle ∧ middle.WellScoped ∧
      defineHere name type value middle = .ok () later := by
  cases initializer with
  | none =>
    obtain ⟨value, _, made, ended⟩ := exists_of_bind_eq_ok ended
    obtain ⟨heap, _, same⟩ := (Machine.isMaking_extends.defaultValue fuel).1 type machine
    rw [final_of_ok made] at same
    subst same
    exact ⟨value, { machine with heap := heap }, .of_scopes_eq rfl rfl,
      ⟨wellScoped.scopes, wellScoped.current⟩, ended⟩
  | some initializer =>
    obtain ⟨value, middle, evaluated, ended⟩ := exists_of_bind_eq_ok ended
    exact ⟨value, middle, eval_extends wellScoped evaluated,
      (disciplined fuel (.eval initializer)).wellScoped_of_ok wellScoped evaluated, ended⟩

theorem exec_extends (wellScoped : machine.WellScoped)
    (ended : exec fuel stmt machine = .ok () later) : machine.Extends later := by
  cases fuel with
  | zero => cases ended
  | succ fuel =>
    by_cases isLet : ∃ name type initializer location,
        stmt = .letVar name type initializer location
    · obtain ⟨name, type, initializer, location, rfl⟩ := isLet
      obtain ⟨_, _, extended, _, bound⟩ := ok_of_exec_letVar wellScoped ended
      exact extended.trans (defineHere_extends bound)
    · have isLocal := ((isDisciplined fuel).undeclaring fun name type initializer location same =>
        isLet ⟨name, type, initializer, location, same⟩).isLocal
      have ends : (Activity.exec stmt).final (fuel + 1) machine =
          (exec (fuel + 1) stmt).final machine := Activity.final_of_run rfl machine
      exact Activity.extends_of_ok (.exec stmt) wellScoped ends isLocal ended

end Steps

namespace Activity

def isLoading : Activity → Bool
  | execUse _ _ _ _ => true
  | loadModule _ => true
  | loadMembers _ _ _ => true
  | useAll _ => true
  | defineMembers _ _ _ => true
  | evalGlobals _ _ => true
  | _ => false

def enters : Activity → Activity → Bool
  | execBlock _, _ => true
  | callFunction _ _, bindAll _ => true
  | callFunction _ _, execAll _ => true
  | _, _ => false

end Activity

section Parts

variable {machine : Machine}

theorem Begins.extends (begins : Begins fuel activity machine part begun)
    (wellScoped : machine.WellScoped) (noLoading : activity.isLoading = false)
    (sameScope : activity.enters part = false) : machine.Extends begun := by
  cases begins with
  | indexPosition ended | rightOfAnd ended | rightOfOr ended | rightOperand ended
  | restOfAll ended | entryValue ended | restOfParts ended | refObject ended
  | methodArguments ended | callMember ended | callFunctionValue ended | callStructValue ended
  | assignedTarget ended | thenBody ended | elseBody ended | loopBody ended | targetIndex ended =>
    exact eval_extends wellScoped ended
  | restOfEntries keyEnded valueEnded isKey =>
    have afterKey := (disciplined fuel (.eval _)).wellScoped_of_ok wellScoped keyEnded
    have afterValue := (eval_extends wellScoped keyEnded).trans (eval_extends afterKey valueEnded)
    exact afterValue.trans
      ((Exec.Plain.bind (checkKey_plain _) fun _ => Builtin.keyOf_plain _).extends isKey)
  | restOfArguments ended isPassed =>
    exact (eval_extends wellScoped ended).trans ((passed_plain _ _).extends isPassed)
  | restOfParams bound => exact defineHere_extends bound
  | restOfStmts ended => exact exec_extends wellScoped ended
  | nextTurn ended _ bodyEnded =>
    have afterCondition := (disciplined fuel (.eval _)).wellScoped_of_ok wellScoped ended
    exact (eval_extends wellScoped ended).trans (execBlock_extends afterCondition bodyEnded)
  | params | body | block => cases sameScope
  | located | directory | moduleImports | moduleDefinitions | moduleGlobals | firstMember
  | restOfMembers | firstUse | restAfterUse | restOfUses | restOfDefinitions | globalOfModule
  | restAfterGlobal | restOfGlobals => cases noLoading
  | _ => exact .refl _

theorem Begins.bare (begins : Begins fuel activity machine part begun)
    (wellScoped : machine.WellScoped) (noLoading : activity.isLoading = false)
    (bare : machine.Bare) : begun.Bare := by
  cases sameScope : activity.enters part with
  | false => exact (begins.extends wellScoped noLoading sameScope).bare bare
  | true =>
    cases begins with
    | params => exact Machine.bare_entered .root
    | body _ _ bound => exact (bindAll_extends bound).bare (Machine.bare_entered .root)
    | block => exact Machine.bare_entered bare
    | _ => cases sameScope

end Parts

end Noxy
