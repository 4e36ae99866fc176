import Noxy.Proofs.CallChecking
import Noxy.Proofs.CoveredRun
import Noxy.Proofs.Uncaught

/-!
# Names that are not bound

The checker goes through a program once, from its first statement to its last, while a run goes
where calls and branches lead it.
-/

namespace Noxy

open Exec

/-! ### Global variables -/

namespace Machine

variable {machine : Machine} {name : String}

def BindsGlobally (machine : Machine) (name : String) : Prop :=
  ∃ root, machine.scopes.scopes[0]? = some root ∧ (Bindings.get? name root.bindings).isSome = true

theorem BindsGlobally.binds (binds : machine.BindsGlobally name) (wellScoped : machine.WellScoped) :
    machine.Binds name := by
  obtain ⟨_, found, isBound⟩ := binds
  exact binds_of_global wellScoped found isBound

theorem BindsGlobally.kept (binds : machine.BindsGlobally name)
    (keeps : machine.KeepsGlobals later) :
    later.BindsGlobally name := by
  obtain ⟨root, found, isBound⟩ := binds
  obtain ⟨root', found', stay⟩ := keeps root found
  exact ⟨root', found', stay name isBound⟩

theorem bindsGlobally_define (name : String) (binding : Variable)
    (wellScoped : machine.WellScoped) :
    BindsGlobally { machine with scopes := machine.scopes.define 0 name binding } name := by
  have found := Array.getElem?_eq_getElem wellScoped.root_lt
  have present := Scopes.getElem?_modify machine.scopes 0 0
    fun scope => { scope with bindings := Bindings.put name binding scope.bindings }
  rw [if_pos rfl, found, Option.map_some] at present
  refine ⟨_, present, ?_⟩
  rw [Bindings.get?_put, if_pos rfl]
  rfl

theorem not_binds_of_none (unbound : machine.scopes.binding? machine.current name = none) :
    ¬ machine.Binds name :=
  Option.not_isSome_iff_eq_none.mpr unbound

theorem not_binds_of_owner (unbound : machine.scopes.owner? machine.current name = none) :
    ¬ machine.Binds name := by
  apply not_binds_of_none
  rw [Scopes.binding?, Option.map_eq_none_iff]
  exact Option.map_eq_none_iff.mp unbound

end Machine

theorem bindsGlobally_of_exec (wellScoped : machine.WellScoped) (outside : machine.current = 0)
    (declares : stmt.declares name = true) (ended : exec fuel stmt machine = .ok () later) :
    later.BindsGlobally name := by
  cases fuel with
  | zero => cases ended
  | succ fuel =>
    cases stmt with
    | letVar _ type =>
      cases of_decide_eq_true declares
      obtain ⟨value, _, extended, isScoped, bound⟩ := ok_of_exec_letVar wellScoped ended
      have isDefined := Machine.bindsGlobally_define name ⟨type, value, false⟩ isScoped
      rw [← outside, ← extended.current] at isDefined
      cases bound
      exact isDefined
    | globalVar _ _ initializer =>
      cases of_decide_eq_true declares
      obtain ⟨_, _, evaluated, bound⟩ := exists_of_bind_eq_ok ended
      cases bound
      exact Machine.bindsGlobally_define _ _
        ((disciplined fuel (.eval initializer)).wellScoped_of_ok wellScoped evaluated)
    | _ => cases declares

theorem Reaches.of_execAll (reaches : Reaches fuel (.execAll stmts) machine fuel' part begun)
    (notList : ∀ others, part ≠ .execAll others) (wellScoped : machine.WellScoped)
    (outside : machine.current = 0) :
    ∃ first stmt rest fuel'' started, stmts = first ++ stmt :: rest ∧
      Reaches fuel (.execAll stmts) machine fuel'' (.exec stmt) started ∧
      Reaches fuel'' (.exec stmt) started fuel' part begun ∧
      ∀ earlier ∈ first, ∀ name, earlier.declares name = true → started.BindsGlobally name := by
  induction stmts generalizing fuel machine with
  | nil =>
    cases reaches with
    | here => exact absurd rfl (notList _)
    | inside begins _ => cases begins
  | cons stmt others ih =>
    cases reaches with
    | here => exact absurd rfl (notList _)
    | inside begins reaches =>
      cases begins with
      | firstStmt =>
        exact ⟨[], stmt, others, _, machine, rfl, .inside .firstStmt .here, reaches, nofun⟩
      | restOfStmts ended =>
        have isScoped := (disciplined _ (.exec stmt)).wellScoped_of_ok wellScoped ended
        have isOutside := (exec_extends wellScoped ended).current.trans outside
        obtain ⟨first, later, rest, fuel'', started, rfl, toStmt, inStmt, bound⟩ :=
          ih reaches isScoped isOutside
        refine ⟨stmt :: first, later, rest, fuel'', started, rfl,
          .inside (.restOfStmts ended) toStmt, inStmt, fun earlier member name declares => ?_⟩
        rcases List.mem_cons.mp member with rfl | isFirst
        · obtain ⟨_, keeps, _⟩ := Machine.isFrame_keepsGlobals.reaches isScoped toStmt
          exact (bindsGlobally_of_exec wellScoped outside declares ended).kept keeps
        · exact bound earlier isFirst name declares

theorem Stmt.isAction_of_declares {stmt : Stmt} (declares : stmt.declares name = true) :
    stmt.isAction = true := by
  cases stmt with
  | letVar | globalVar => rfl
  | _ => cases declares

theorem Reaches.of_actions
    (reaches : Reaches fuel (.execAll (program.filter Stmt.isAction)) machine fuel' part begun)
    (notList : ∀ stmts, part ≠ .execAll stmts) (wellScoped : machine.WellScoped)
    (outside : machine.current = 0) :
    ∃ before action after fuel'' started, program = before ++ action :: after ∧
      Reaches fuel (.execAll (program.filter Stmt.isAction)) machine fuel'' (.exec action) started ∧
      Reaches fuel'' (.exec action) started fuel' part begun ∧
      ∀ stmt ∈ before, ∀ name, stmt.declares name = true → started.BindsGlobally name := by
  obtain ⟨first, action, rest, fuel'', started, isSplit, toAction, inAction, bound⟩ :=
    reaches.of_execAll notList wellScoped outside
  obtain ⟨early, late, rfl, isFirst, isRest⟩ := List.filter_eq_append_iff.mp isSplit
  obtain ⟨skipped, after, rfl, areSkipped, _, _⟩ := List.filter_eq_cons_iff.mp isRest
  refine ⟨early ++ skipped, action, after, fuel'', started, (List.append_assoc _ _ _).symm,
    toAction, inAction, fun stmt member name declares => ?_⟩
  have isAction := Stmt.isAction_of_declares declares
  rcases List.mem_append.mp member with isEarly | isSkipped
  · exact bound stmt (isFirst ▸ List.mem_filter.mpr ⟨isEarly, isAction⟩) name declares
  · exact absurd isAction (areSkipped stmt isSkipped)

/-! ### What is looked up -/

section Lookups

variable {activity : Activity} {machine : Machine} {functions : Function → Prop}
  {inner visible : String → Prop}

theorem Machine.Knows.callable? (knows : machine.Knows declared visible known) (name : String) :
    known.callable? name = declared.callable? name := by
  simp only [Checker.callable?, Checker.struct?, Checker.function?, knows.functions, knows.structs]

theorem Machine.Knows.of_identifier (knows : machine.Knows declared visible known)
    (accepted : (Site.expr (.identifier name location)).Accepted known) :
    machine.Binds name ∨ visible name ∨ (declared.struct? name).isSome = true := by
  obtain ⟨type, typed⟩ := accepted
  rw [Checker.typeOf, Checker.identifierTyped] at typed
  cases isTyped : known.typeOfName? name with
  | some =>
    rw [Checker.typeOfName?, Option.or_eq_some_iff] at isTyped
    rcases isTyped with isInner | ⟨_, isOutermost⟩
    · exact .inl (knows.inner name (Option.isSome_of_eq_some isInner))
    · exact .inr (.inl (knows.outermost name (Option.isSome_of_eq_some isOutermost)))
  | none =>
    cases isStruct : known.struct? name with
    | some =>
      rw [Checker.struct?, knows.structs] at isStruct
      exact .inr (.inr (Option.isSome_of_eq_some isStruct))
    | none =>
      rw [isTyped] at typed
      simp only [isStruct] at typed
      cases typed

theorem Checker.isSome_callable?
    (accepted : (Site.expr (.call (.identifier name place) arguments location)).Accepted known) :
    (known.callable? name).isSome = true := by
  obtain ⟨_, typed⟩ := accepted
  obtain ⟨_, validates⟩ := (validates_iff rfl).mp typed
  rcases validates.callable? with ⟨isCallable, _⟩ | ⟨⟨_, _, isCallable, _⟩, _⟩
  · exact Option.isSome_of_eq_some isCallable
  · exact Option.isSome_of_eq_some isCallable

theorem Activity.Raises.of_covered (raises : activity.Raises fuel machine (.failure cause))
    (isAboutName : cause.isAboutName = true) (mirrors : machine.Mirrors declared functions)
    (allowed : activity.Allowed (.ofImports functions) machine)
    (knows : machine.Knows declared visible known) (covered : activity.Covered inner known) :
    ∃ name, cause = .error (.runtime (.undefinedVariable name) none) ∧ ¬ machine.Binds name ∧
      (visible name ∨ (declared.struct? name).isSome = true) := by
  have missed {name : String} {location : Location} (unbound : ¬ machine.Binds name)
      (covered : (Site.expr (.identifier name location)).Covered inner known) :
      visible name ∨ (declared.struct? name).isSome = true :=
    (knows.of_identifier covered.accepted).resolve_left unbound
  cases raises with
  | unboundName unbound =>
    have isUnbound := Machine.not_binds_of_none unbound
    rcases covered with covered | ⟨_, _, _, isField, _⟩
    · exact ⟨_, rfl, isUnbound, missed isUnbound covered⟩
    · cases isField
  | unboundReference unbound =>
    have isUnbound := Machine.not_binds_of_none unbound
    exact ⟨_, rfl, isUnbound, missed isUnbound covered⟩
  | unboundTarget unbound =>
    have isUnbound := Machine.not_binds_of_owner unbound
    exact ⟨_, rfl, isUnbound, missed isUnbound covered⟩
  | unknownFunction unknown =>
    obtain ⟨_, covered⟩ := covered
    have isKnown := Checker.isSome_callable? covered.accepted
    rw [knows.callable?, ← mirrors.callable?, unknown] at isKnown
    cases isKnown
  | unreadModule => exact allowed.elim

end Lookups

/-! ### Programs -/

namespace Program

/-- How an action of an accepted program can come to look up a name that is not there: inside of a
callee that is neither a name nor a member; for a variable with the name of a struct; for a global
variable that is declared inside of a statement; or in a function whose definition stands behind the
declaration of the variable, while that declaration is not yet executed. -/
inductive Overlooks (program : Program) (action : Stmt) (after : Program) (fuel : Nat)
    (started : Machine) (fuel' : Nat) (part : Activity) (begun : Machine) : Failure → Prop where
  | callee (notNamed : callee.isNamed = false)
      (called : Reaches fuel (.exec action) started (fuel'' + 1)
        (.callValue callee arguments) caller)
      (reaches : Reaches fuel'' (.eval callee) caller fuel' part begun) :
      Overlooks program action after fuel started fuel' part begun cause
  | structName (isStruct : (name, definition) ∈ program.definedStructs)
      (unbound : ¬ begun.Binds name) :
      Overlooks program action after fuel started fuel' part begun
        (.error (.runtime (.undefinedVariable name) none))
  | innerGlobal (declares : program.DeclaresInside name) (unbound : ¬ begun.Binds name) :
      Overlooks program action after fuel started fuel' part begun
        (.error (.runtime (.undefinedVariable name) none))
  | ahead (isSplit : action :: after = between ++ definition :: rest)
      (declares : ∃ stmt ∈ between, stmt.declares name = true)
      (isFunction : definition.function? = some function)
      (called : Reaches fuel (.exec action) started fuel'' (.callFunction function arguments)
        caller)
      (reaches : Reaches fuel'' (.callFunction function arguments) caller fuel' part begun)
      (unbound : ¬ begun.Binds name) :
      Overlooks program action after fuel started fuel' part begun
        (.error (.runtime (.undefinedVariable name) none))

variable {program : Program}

theorem isCovered_of_check (noUse : .ofModules ∉ Stmt.listMentions program)
    (noTemplates : Stmt.anyHasTemplate program = false)
    (noReturns : Stmt.anyMayReturn program = false)
    (accepted : program.check checkedIn checkedBase .fresh = .ok () checker) :
    program.IsCovered (Checker.fresh.declaring program) := by
  obtain ⟨_, _, isDeclared, checked⟩ := Check.ok_of_bind accepted
  cases (declareAll_of_noUse noUse checkedIn checkedBase .fresh).symm.trans isDeclared
  intro _ _ _ isSplit
  obtain ⟨known, outside, functions, structs, outermost, covered⟩ :=
    covered_at isSplit checked noTemplates noReturns rfl rfl
  refine ⟨known, outside, fun _ => ⟨functions, structs, outermost, fun _ isKnown => ?_⟩,
    covered⟩
  rw [outside] at isKnown
  cases isKnown

theorem signals_of_run (noUse : .ofModules ∉ Stmt.listMentions program)
    (isAboutName : cause.isAboutName = true)
    (failed : (program.run fuel).Signals machine (.failure cause)) :
    ((Activity.execAll (program.filter Stmt.isAction)).run fuel).Signals (machine.defining program)
      (.failure cause) := by
  have imports := useAll_ends fuel machine (ne_use noUse)
  rcases failed.of_bind with ⟨final, ended⟩ | ⟨_, middle, imported, failed⟩
  · rw [Ends, ended] at imports
    cases imports.2
    cases isAboutName
  · cases imports.of_ok imported
    rcases failed.of_bind with ⟨_, ended⟩ | ⟨_, _, defined, failed⟩
    · cases (defineMembers_eq program _).symm.trans ended
    · cases (defineMembers_eq program _).symm.trans defined
      exact failed

theorem mem_definedStructs_of_declaring
    (isStruct : ((Checker.fresh.declaring program).struct? name).isSome = true) :
    ∃ struct, (name, struct) ∈ program.definedStructs := by
  obtain ⟨struct, found⟩ := Option.isSome_iff_exists.mp isStruct
  rcases Bindings.mem_putAll (Bindings.mem_of_get? found) with isDefined | isOld
  · exact ⟨struct, isDefined⟩
  · cases isOld

end Program

/--
If a program without imports, templates and `return`s outside of functions is accepted by a fresh
checker, and its run fails because a name is not defined, then the name is looked up within one of
its actions and was overlooked there: the lookup stands in a callee that the checker does not look
at, or it is that of a variable that is not bound at that moment, although a struct has its name, or
it is declared as a global variable inside of some statement, or it is declared by a statement that
is not executed yet but stands before the definition of a function whose call is going on.
-/
theorem undefined_names_are_overlooked
    (program : Program) (noUse : .ofModules ∉ Stmt.listMentions program)
    (noTemplates : Stmt.anyHasTemplate program = false)
    (noReturns : Stmt.anyMayReturn program = false)
    {checkedIn : World} {checkedBase : String} {checker : Checker}
    (accepted : program.check checkedIn checkedBase .fresh = .ok () checker)
    {world : World} {basePath : String} {fuel : Nat} {cause : Failure}
    (failed : (program.run fuel).Signals (.start world basePath) (.failure cause))
    (isAboutName : cause.isAboutName = true) :
    ∃ before action after fuel₁ started fuel₂ part begun,
      program = before ++ action :: after ∧
      Reaches fuel (.execAll (program.filter Stmt.isAction))
        ((Machine.start world basePath).defining program) fuel₁ (.exec action) started ∧
      Reaches fuel₁ (.exec action) started (fuel₂ + 1) part begun ∧
      part.Raises fuel₂ begun (.failure cause) ∧
      program.Overlooks action after fuel₁ started (fuel₂ + 1) part begun cause := by
  have covers := Program.isCovered_of_check noUse noTemplates noReturns accepted
  have mirrors := Program.mirrors_start noUse world basePath
  have allowed := Program.allowed_actions noUse
    (fun function => ∃ stmt ∈ program, stmt.function? = some function)
    ((Machine.start world basePath).defining program)
  have notTame : (Signal.failure cause).isTame = false := by rw [Signal.isTame, isAboutName]; rfl
  obtain ⟨fuel₂, part, begun, uncaught, raises⟩ :=
    Activity.uncaught_origin (Program.signals_of_run noUse isAboutName failed) notTame
  have notList (stmts : List Stmt) : part ≠ .execAll stmts := by
    rintro rfl
    cases raises
  obtain ⟨before, action, after, fuel₁, started, isSplit, toAction, inAction, bound⟩ :=
    uncaught.reaches.of_actions notList mirrors.isSealed.wellScoped rfl
  refine ⟨before, action, after, fuel₁, started, fuel₂, part, begun, isSplit, toAction, inAction,
    raises, ?_⟩
  obtain ⟨mirrorsAction, allowedAction⟩ := mirrors.reaches toAction allowed
  obtain ⟨mirrorsPart, allowedPart⟩ := mirrorsAction.reaches inAction allowedAction
  obtain ⟨known, _, knows, covered⟩ := covers before action after isSplit
  obtain ⟨isScoped, keeps, _⟩ :=
    Machine.isFrame_keepsGlobals.reaches mirrorsAction.isSealed.wellScoped inAction
  have notBefore {name : String} (unbound : ¬ begun.Binds name) (stmt : Stmt)
      (member : stmt ∈ before) : ¬ stmt.declares name = true :=
    fun declares => unbound (((bound stmt member name declares).kept keeps).binds isScoped)
  -- what the checker takes for bound is what stands before the statement that it looks at
  have overlooked {earlier : Program} {known : Checker}
      (knows : begun.Knows (Checker.fresh.declaring program) (program.Visible earlier) known)
      (covered : part.Covered program.DeclaresInside known) :
      program.Overlooks action after fuel₁ started (fuel₂ + 1) part begun cause ∨
        ∃ name, cause = .error (.runtime (.undefinedVariable name) none) ∧ ¬ begun.Binds name ∧
          ∃ stmt ∈ earlier, stmt.declares name = true := by
    obtain ⟨name, rfl, unbound, (isInner | isEarlier) | isStruct⟩ :=
      raises.of_covered isAboutName mirrorsPart allowedPart knows covered
    · exact .inl (.innerGlobal isInner unbound)
    · exact .inr ⟨name, rfl, unbound, isEarlier⟩
    · obtain ⟨struct, isStruct⟩ := Program.mem_definedStructs_of_declaring isStruct
      exact .inl (.structName isStruct unbound)
  cases covers.of_reaches inAction mirrorsAction allowedAction (knows started) covered with
  | inCallee notNamed called reaches => exact .callee notNamed called reaches
  | here knows covered =>
    rcases overlooked knows covered with isOverlooked | ⟨name, _, unbound, stmt, member, declares⟩
    · exact isOverlooked
    · exact absurd declares (notBefore unbound stmt member)
  | inCall isSplit' isFunction called reaches knows covered =>
    rcases overlooked knows covered with
      isOverlooked | ⟨name, rfl, unbound, stmt, member, declares⟩
    · exact isOverlooked
    · rcases List.append_eq_append_iff.mp (isSplit.symm.trans isSplit') with
        ⟨between, rfl, isRest⟩ | ⟨between, rfl, _⟩
      · rcases List.mem_append.mp member with isBefore | isBetween
        · exact absurd declares (notBefore unbound stmt isBefore)
        · exact .ahead isRest ⟨stmt, isBetween, declares⟩ isFunction called reaches unbound
      · exact absurd declares (notBefore unbound stmt (List.mem_append_left _ member))

def Program.hasty : Program :=
  let here : Location := ⟨1, 1, "main.nx"⟩
  [ .expression (.call (.identifier "f" here) [] here) here,
    .letVar "x" .int (some (.int 1 here)) here,
    .function "f" [] .int [.returning (some (.identifier "x" here)) here] here ]

/-- This program is accepted and its run fails, since the declaration is ahead. -/
theorem undefined_names_are_overlooked_hasty :
    .ofModules ∉ Stmt.listMentions Program.hasty ∧ Stmt.anyHasTemplate Program.hasty = false ∧
      Stmt.anyMayReturn Program.hasty = false ∧
      (∃ checker, Program.hasty.check (.start .empty [] [] [] 0) "." .fresh = .ok () checker) ∧
      ∃ cause, cause.isAboutName = true ∧
        (Program.hasty.run 10).Signals (.start (.start .empty [] [] [] 0) ".") (.failure cause) ∧
        ∃ before action after fuel₁ started fuel₂ part begun,
          Program.hasty = before ++ action :: after ∧
          Reaches 10 (.execAll (Program.hasty.filter Stmt.isAction))
            ((Machine.start (.start .empty [] [] [] 0) ".").defining .hasty) fuel₁ (.exec action)
            started ∧
          Reaches fuel₁ (.exec action) started (fuel₂ + 1) part begun ∧
          part.Raises fuel₂ begun (.failure cause) ∧
          Program.hasty.Overlooks action after fuel₁ started (fuel₂ + 1) part begun cause := by
  have noUse : .ofModules ∉ Stmt.listMentions Program.hasty := by decide
  have accepted : ∃ checker,
      Program.hasty.check (.start .empty [] [] [] 0) "." .fresh = .ok () checker := ⟨_, rfl⟩
  have failed : (Program.hasty.run 10).Signals (.start (.start .empty [] [] [] 0) ".")
      (.failure (.error (.runtime (.undefinedVariable "x") none))) := ⟨_, rfl⟩
  obtain ⟨checker, isAccepted⟩ := accepted
  exact ⟨noUse, rfl, rfl, ⟨checker, isAccepted⟩, _, rfl, failed,
    undefined_names_are_overlooked Program.hasty noUse rfl rfl isAccepted failed rfl⟩

def Program.structAsValue : Program :=
  let here : Location := ⟨1, 1, "main.nx"⟩
  [ .struct "P" [⟨"a", .int⟩] here,
    .letVar "p" (.struct "P" none) (some (.identifier "P" here)) here ]

/-- The checker accepts this program, and its run fails to find the variable. -/
theorem struct_name_is_not_bound :
    (∃ checker, Program.structAsValue.check (.start .empty [] [] [] 0) "." .fresh =
      .ok () checker) ∧
      ∃ cause, cause.isAboutName = true ∧ (Program.structAsValue.run 10).Signals
        (.start (.start .empty [] [] [] 0) ".") (.failure cause) :=
  ⟨⟨_, rfl⟩, .error (.runtime (.undefinedVariable "P") none), rfl, _, rfl⟩

end Noxy
