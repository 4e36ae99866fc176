import Noxy.Proofs.Conduct
import Noxy.Proofs.Frame
import Noxy.Proofs.Fuel
import Noxy.Session

/-!
# The discipline of scopes

Whatever an expression or a statement does and however it ends, the scope that was current is
current again and every scope stands where it stood.  More fuel changes nothing about it, unless the
fuel was spent.
-/

namespace Noxy

variable {machine : Machine}

open Exec

variable {extent : Extent}

/-! ### Steps next to the evaluator -/

theorem local_setMember (module : Value) (name : String) (value : Value) :
    Local extent (setMember module name value) := by
  cases module with
  | object => exact local_apply _
  | _ => exact Plain.isLocal (.pure _)

theorem local_remember :
    Local extent (modify fun machine =>
      { machine with modules := machine.modules ++ [(path, module)] }) := by
  intro _ _
  exact ⟨.of_scopes_eq rfl rfl, fun _ _ _ => rfl⟩

theorem passed_plain (type : Ty) (value : Value) : Plain (passed type value) := by
  unfold passed
  grind

theorem checkKey_plain (key : Value) : Plain (checkKey key) := by
  unfold checkKey
  grind

theorem readModule_plain (path : String) (content : Nat) : Plain (readModule path content) := by
  unfold readModule
  grind

theorem struct?_covered (shields : machine.scopes.Shields cover)
    (visible : cover machine.current = none) :
    (machine.covered cover).struct? name = machine.struct? name := by
  simp only [Machine.struct?, Machine.covered, Scopes.struct?, shields.find_covered _ visible,
    shields.find_covered _ shields.root]

theorem local_bindAll (params : List (Declared × Value)) : Local .statement (bindAll params) := by
  induction params with
  | nil => exact Plain.isLocal (.pure _)
  | cons _ _ ih => exact (local_defineHere _ _ _).bind fun _ => ih

theorem local_importMember : Local extent (importMember name value) := by
  unfold importMember
  split
  · exact local_changeRoot fun _ => rfl
  · exact local_changeRoot fun _ => rfl
  · refine (Plain.isLocal (object?_plain _)).bind fun _ => ?_
    split
    · exact local_changeRoot fun _ => rfl
    · exact local_changeRoot fun _ => rfl

theorem local_importSelection :
    Local extent (importSelection selection newName location module) := by
  unfold importSelection
  refine (Plain.isLocal (object?_plain _)).bind fun found => ?_
  split
  · rename_i moduleName members
    cases selection with
    | whole => exact local_changeRoot fun _ => rfl
    | all => exact Local.forM fun _ => local_importMember
    | names =>
      refine Local.forM fun _ => ?_
      split
      · exact local_importMember
      · exact Plain.isLocal (.throw _)
  · exact Plain.isLocal (.pure _)

theorem local_memberOf (module : Option Value) (name : String) (value : Value) :
    Local extent (module.forM fun module => setMember module name value) := by
  cases module with
  | none => exact Plain.isLocal (.pure _)
  | some => exact local_setMember _ _ _

theorem localAt_defineMembers (changes : ∀ machine : Machine, machine.current = current →
      ∀ change : Scope → Scope, (∀ scope, (change scope).outer = scope.outer) →
        LocalAt extent (changeScope scope change) machine) :
    ∀ machine : Machine, machine.WellScoped → machine.current = current →
      LocalAt extent (defineMembers scope module stmts) machine := by
  induction stmts with
  | nil =>
    intro machine wellScoped _
    exact Plain.isLocal (.pure _) machine wellScoped
  | cons stmt rest ih =>
    intro machine wellScoped isCurrent
    unfold defineMembers
    have restLocal (final : Machine) (kept : machine.Kept extent final) :
        LocalAt extent (defineMembers scope module rest) final :=
      ih final (kept.wellScoped wellScoped) (kept.current.trans isCurrent)
    have defined {define : Exec Unit} (isLocal : LocalAt extent define machine) (name : String)
        (value : Value) : LocalAt extent (do
          define
          module.forM fun module => setMember module name value
          defineMembers scope module rest) machine :=
      isLocal.bind fun _ middle kept =>
        (local_memberOf module name value middle (kept.wellScoped wellScoped)).bind
          fun _ final later => restLocal final (kept.trans later)
    split
    · refine defined ?_ _ _
      exact changes machine isCurrent _ fun _ => rfl
    · refine defined ?_ _ _
      exact changes machine isCurrent _ fun _ => rfl
    · exact restLocal machine (.refl extent machine)

theorem local_defineGlobals (stmts : List Stmt) : Local extent (defineMembers 0 none stmts) := by
  intro machine wellScoped
  refine localAt_defineMembers ?_ machine wellScoped rfl
  intro _ _ change keepsOuter
  exact localAt_changeScope change keepsOuter (fun _ shields _ => shields.root)
    (fun notRoot => absurd rfl notRoot)

theorem localAt_defineInModule (wellScoped : machine.WellScoped) :
    LocalAt .statement (defineMembers machine.current (some module) stmts) machine := by
  refine localAt_defineMembers ?_ machine wellScoped rfl
  intro _ isCurrent change keepsOuter
  exact localAt_changeCurrent isCurrent.symm change keepsOuter

theorem find?_of_callable? (found : machine.callable? name = some (.builtin builtin)) :
    Builtin.find? name = some builtin := by
  unfold Machine.callable? at found
  split at found
  · cases found
  · split at found
    · cases found
    · obtain ⟨_, present, same⟩ := Option.map_eq_some_iff.mp found
      cases same
      exact present

def callBody (fuel : Nat) (function : Function) (values : List Value) : Exec Value :=
  Exec.asCall (Exec.inScope 0 (do
    bindAll (function.params.zip values)
    execAll fuel function.body))

/-! ### The evaluator -/

/-- A step within an extent that comes to the same with more fuel, unless it was spent. -/
structure Steps {α : Type} (extent : Extent) (step step' : Exec α) : Prop where
  isLocal : Local extent step
  approximates : Approximates step step'

namespace Steps

variable {α β : Type}

theorem own (isLocal : Local extent step) : Steps extent step step :=
  ⟨isLocal, .refl step⟩

theorem plain (plain : Plain step) : Steps extent step step :=
  own plain.isLocal

theorem pure (value : α) : Steps extent (Pure.pure value) (Pure.pure value) :=
  plain (.pure value)

theorem exhausted : Steps extent Exec.exhausted step :=
  ⟨Plain.isLocal (.throw _), .exhausted⟩

theorem truth (value : Value) : Steps extent (Exec.truth value) (Exec.truth value) :=
  plain (.view _)

theorem lift (steps : Steps .expression step step') : Steps extent step step' :=
  ⟨steps.isLocal.lift, steps.approximates⟩

theorem asStatement (steps : Steps .block step step') : Steps .statement step step' :=
  ⟨steps.isLocal.asStatement, steps.approximates⟩

theorem bind (first : Steps extent step step')
    (rest : ∀ value, Steps extent (next value) (next' value)) :
    Steps extent (step >>= next) (step' >>= next') :=
  ⟨first.isLocal.bind fun value => (rest value).isLocal,
    first.approximates.bind fun value => (rest value).approximates⟩

theorem get_bind
    (same : ∀ machine cover, machine.scopes.Shields cover → cover machine.current = none →
      next (machine.covered cover) = next machine)
    (rest : ∀ machine, Steps extent (next machine) (next' machine)) :
    Steps extent (get >>= next) (get >>= next') :=
  ⟨.get_bind same fun machine => (rest machine).isLocal,
    .after _ fun machine => (rest machine).approximates⟩

theorem inRoot (steps : Steps .statement step step') :
    Steps .expression (inScope 0 step) (inScope 0 step') :=
  ⟨steps.isLocal.inRoot, steps.approximates.inScope⟩

theorem asCall (steps : Steps extent body body') :
    Steps extent (Exec.asCall body) (Exec.asCall body') :=
  ⟨steps.isLocal.asCall, steps.approximates.asCall⟩

theorem proceeds (steps : Steps extent turn turn') :
    Steps extent (Exec.proceeds turn) (Exec.proceeds turn') :=
  ⟨steps.isLocal.proceeds, steps.approximates.proceeds⟩

end Steps

/-- The steps of the evaluator, each by the fuel that it is given, and their extents. -/
inductive Calls : {α : Type} → Extent → (Nat → Exec α) → Prop where
  | defaultValue (type) : Calls .expression (defaultValue · type)
  | defaultValues (types) : Calls .expression (defaultValues · types)
  | eval (expr) : Calls .expression (eval · expr)
  | evalBinary (operator left right) : Calls .expression (evalBinary · operator left right)
  | evalAll (exprs) : Calls .expression (evalAll · exprs)
  | evalEntries (entries done) : Calls .expression (evalEntries · entries done)
  | evalParts (parts) : Calls .expression (evalParts · parts)
  | evalRef (expr) : Calls .expression (evalRef · expr)
  | evalCall (callee arguments) : Calls .expression (evalCall · callee arguments)
  | callValue (callee arguments) : Calls .expression (callValue · callee arguments)
  | construct (struct arguments) : Calls .expression (construct · struct arguments)
  | callFunction (function arguments) : Calls .expression (callFunction · function arguments)
  | evalArguments (arguments) : Calls .expression (evalArguments · arguments)
  | exec (stmt) : Calls .statement (exec · stmt)
  | execAll (stmts) : Calls .statement (execAll · stmts)
  | execBlock (stmts) : Calls .block (execBlock · stmts)
  | execLoop (condition body) : Calls .block (execLoop · condition body)
  | assignTarget (target value) : Calls .block (assignTarget · target value)
  | execUse (names selection newName location) :
      Calls .expression (execUse · names selection newName location)
  | loadModule (path) : Calls .expression (loadModule · path)
  | loadMembers (module path members) : Calls .expression (loadMembers · module path members)
  | useAll (stmts) : Calls .expression (useAll · stmts)
  | evalGlobals (module stmts) : Calls .statement (evalGlobals · module stmts)

abbrev StepsAt {α : Type} (fuel : Nat) (extent : Extent) (family : Nat → Exec α) : Prop :=
  Steps extent (family fuel) (family (fuel + 1))

def Disciplined (fuel : Nat) : Prop :=
  ∀ ⦃α : Type⦄ ⦃extent : Extent⦄ ⦃family : Nat → Exec α⦄, Calls extent family →
    StepsAt fuel extent family

namespace Disciplined

variable {fuel : Nat} (ih : Disciplined fuel)
include ih

theorem defaultValue (type : Ty) :
    StepsAt (fuel + 1) .expression (Noxy.defaultValue · type) := by
  cases type with
  | array _ size =>
    cases size with
    | none => exact .plain (.alloc _)
    | some => exact .bind (ih (.defaultValues _)) fun _ => .plain (.alloc _)
  | struct name =>
    refine .get_bind ?_ fun machine => ?_
    · intro machine _ shields visible
      simp only [struct?_covered shields visible]
    · cases machine.struct? name with
      | none => exact .plain (fail_plain _)
      | some => exact .bind (ih (.defaultValues _)) fun _ => .plain (.alloc _)
  | map => exact .plain (.alloc _)
  | _ => exact .pure _

theorem eval (expr : Expr) :
    StepsAt (fuel + 1) .expression (Noxy.eval · expr) := by
  rw [StepsAt, Noxy.eval.eq_def (fuel + 1), Noxy.eval.eq_def (fuel + 1 + 1)]
  cases expr with
  | int | float | string | bytes | bool | null => exact .pure _
  | identifier name => exact .bind (.own (local_binding name)) fun _ => .pure _
  | binary left operator right => exact ih (.evalBinary operator left right)
  | unary operator operand =>
    cases operator with
    | negate =>
      exact .bind (ih (.eval operand)) fun _ => .bind (.plain (.view _)) fun _ =>
        .plain (make_plain _)
    | invert =>
      exact .bind (ih (.eval operand)) fun _ => .bind (.truth _) fun _ => .pure _
  | call callee arguments => exact ih (.evalCall callee arguments)
  | index object index =>
    exact .bind (ih (.eval object)) fun _ => .bind (ih (.eval index)) fun _ => .plain (.view _)
  | field object => exact .bind (ih (.eval object)) fun _ => .plain (.view _)
  | array elements => exact .bind (ih (.evalAll elements)) fun _ => .plain (.alloc _)
  | map entries => exact .bind (ih (.evalEntries entries [])) fun _ => .plain (.alloc _)
  | ref value => exact ih (.evalRef value)
  | template parts => exact .bind (ih (.evalParts parts)) fun _ => .pure _
  | zeros size =>
    refine .bind (ih (.eval size)) fun _ => .plain ?_
    grind
  | group inner => exact ih (.eval inner)

theorem evalBinary (operator : BinaryOperator) (left right : Expr) :
    StepsAt (fuel + 1) .expression (Noxy.evalBinary · operator left right) := by
  unfold Noxy.evalBinary
  refine .bind (ih (.eval left)) fun _ => ?_
  split
  · refine .bind (.truth _) fun _ => ?_
    split
    · exact .bind (ih (.eval right)) fun _ => .bind (.truth _) fun _ => .pure _
    · exact .pure _
  · refine .bind (.truth _) fun _ => ?_
    split
    · exact .pure _
    · exact .bind (ih (.eval right)) fun _ => .bind (.truth _) fun _ => .pure _
  · exact .bind (ih (.eval right)) fun _ => .bind (.plain (.view _)) fun _ => .plain (make_plain _)

theorem evalRef (expr : Expr) :
    StepsAt (fuel + 1) .expression (Noxy.evalRef · expr) := by
  rw [StepsAt]
  unfold Noxy.evalRef
  split
  · exact .bind (.own (local_binding _)) fun _ => .plain (.alloc _)
  · exact .bind (ih (.eval _)) fun _ => .bind (.plain (.view _)) fun _ => .plain (.alloc _)
  · exact .bind (ih (.eval _)) fun _ => .bind (ih (.eval _)) fun _ =>
      .bind (.plain (.look _)) fun _ => .plain (.alloc _)
  · exact .bind (ih (.eval _)) fun _ => .plain (.alloc _)

theorem evalCall (callee : Expr) (arguments : List Expr) :
    StepsAt (fuel + 1) .expression (Noxy.evalCall · callee arguments) := by
  rw [StepsAt]
  unfold Noxy.evalCall
  split
  · rename_i name location
    refine .get_bind ?_ fun machine => ?_
    · intro machine cover shields visible
      simp only [Machine.callable?, Machine.covered, Scopes.struct?, Scopes.function?,
        shields.find_covered _ visible]
    · split
      · exact ih (.construct _ arguments)
      · exact ih (.callFunction _ arguments)
      · rename_i found
        have isTame := Builtin.call_tame (find?_of_callable? found)
        exact .bind (ih (.evalAll arguments)) fun values => .plain (isTame values).plain
      · exact .plain (fail_plain _)
  · refine .bind (ih (.eval _)) fun object => .bind (.plain (.look _)) fun receiver => ?_
    split
    · split
      · rename_i found
        exact .bind (ih (.evalAll arguments)) fun _ => .plain (Builtin.call_tame found _).plain
      · exact .plain (fail_plain _)
    · exact ih (.callValue _ arguments)
  · exact ih (.callValue _ arguments)

theorem callBody (function : Function) (values : List Value) :
    Steps .expression (Noxy.callBody fuel function values)
      (Noxy.callBody (fuel + 1) function values) :=
  .asCall (.inRoot (.bind (.own (local_bindAll _)) fun _ => ih (.execAll _)))

theorem branch (condition : Expr) (thenBody elseBody : List Stmt) (location : Location) :
    StepsAt (fuel + 1) .block (Noxy.exec · (.branch condition thenBody elseBody location)) := by
  unfold Noxy.exec
  refine .bind (ih (.eval condition)).lift fun _ => .bind (.truth _) fun _ => ?_
  split
  · exact ih (.execBlock thenBody)
  · exact ih (.execBlock elseBody)

theorem undeclaring
    (notLet : ∀ name type initializer location, stmt ≠ .letVar name type initializer location) :
    StepsAt (fuel + 1) .block (Noxy.exec · stmt) := by
  cases stmt with
  | letVar => exact absurd rfl (notLet _ _ _ _)
  | globalVar _ _ initializer =>
    exact .bind (ih (.eval initializer)).lift fun _ => .own (local_changeRoot fun _ => rfl)
  | assign target value =>
    exact .bind (ih (.eval value)).lift fun _ => ih (.assignTarget target _)
  | expression expr => exact .bind (ih (.eval expr)).lift fun _ => .pure _
  | branch condition thenBody elseBody location =>
    exact ih.branch condition thenBody elseBody location
  | loop condition body => exact ih (.execLoop condition body)
  | returning value =>
    cases value with
    | none => exact .plain (.throw _)
    | some value => exact .bind (ih (.eval value)).lift fun _ => .plain (.throw _)
  | breaking => exact .plain (.throw _)
  | function | struct => exact .pure _
  | use path selection newName location =>
    exact (ih (.execUse path selection newName location)).lift

theorem exec (stmt : Stmt) :
    StepsAt (fuel + 1) .statement (Noxy.exec · stmt) := by
  cases stmt with
  | letVar _ type initializer =>
    cases initializer with
    | none =>
      exact .bind (ih (.defaultValue type)).lift fun _ => .own (local_defineHere _ _ _)
    | some initializer =>
      exact .bind (ih (.eval initializer)).lift fun _ => .own (local_defineHere _ _ _)
  | _ => exact (ih.undeclaring fun _ _ _ _ => Stmt.noConfusion).asStatement

theorem execLoop (condition : Expr) (body : List Stmt) :
    StepsAt (fuel + 1) .block (Noxy.execLoop · condition body) := by
  have turn : Steps .block (loopTurn fuel condition body) (loopTurn (fuel + 1) condition body) := by
    refine .bind (ih (.eval condition)).lift fun _ => .bind (.truth _) fun _ => ?_
    split
    · exact .bind (ih (.execBlock body)) fun _ => .pure _
    · exact .pure _
  rw [StepsAt, Noxy.execLoop_succ, Noxy.execLoop_succ]
  refine .bind turn.proceeds fun _ => ?_
  split
  · exact ih (.execLoop condition body)
  · exact .pure _

theorem assignTarget (target : Expr) (value : Value) :
    StepsAt (fuel + 1) .block (Noxy.assignTarget · target value) := by
  rw [StepsAt]
  unfold Noxy.assignTarget
  split
  · exact .own (local_assign _ _)
  · exact .bind (ih (.eval _)).lift fun _ => .bind (ih (.eval _)).lift fun _ =>
      .bind (.plain (.view _)) fun _ => .own (local_apply _)
  · exact .bind (ih (.eval _)).lift fun _ => .bind (.plain (.view _)) fun _ =>
      .own (local_apply _)
  · exact .plain (fail_plain _)

theorem moduleBody (module : Value) (program : Program) :
    Steps .expression
      (Exec.inScope 0 (do
        Noxy.useAll fuel program
        let scope := (← get).current
        defineMembers scope (some module) program
        Noxy.evalGlobals fuel module program))
      (Exec.inScope 0 (do
        Noxy.useAll (fuel + 1) program
        let scope := (← get).current
        defineMembers scope (some module) program
        Noxy.evalGlobals (fuel + 1) module program)) := by
  refine .inRoot (.bind (ih (.useAll program)).lift fun _ => ⟨fun _ wellScoped => ?_, ?_⟩)
  · refine LocalAt.get_bind (fun _ _ _ => rfl) ?_
    exact (localAt_defineInModule wellScoped).bind fun _ final kept =>
      (ih (.evalGlobals module program)).isLocal final (kept.wellScoped wellScoped)
  · exact .after _ fun _ => .after _ fun _ => (ih (.evalGlobals module program)).approximates

theorem loadModule (path : String) :
    StepsAt (fuel + 1) .expression (Noxy.loadModule · path) := by
  unfold Noxy.loadModule
  refine .bind (.plain (.world _)) fun _ => ?_
  split
  · refine .get_bind (fun _ _ _ _ => rfl) fun _ => .plain ?_
    split
    · exact .pure _
    · exact fault_plain _
  · refine .get_bind (fun _ _ _ _ => rfl) fun _ => ?_
    split
    · exact .pure _
    · refine .bind (.plain (.alloc _)) fun module => .bind (.own local_remember) fun _ => ?_
      split
      · exact .bind (ih (.loadMembers _ _ _)) fun _ => .pure _
      · exact .bind (.plain (readModule_plain _ _)) fun program =>
          .bind (ih.moduleBody module program) fun _ => .pure _

theorem succ : Disciplined (fuel + 1) := by
  intro _ _ _ calls
  cases calls with
  | defaultValue type => exact ih.defaultValue type
  | defaultValues types =>
    cases types with
    | nil => exact .pure _
    | cons type rest =>
      exact .bind (ih (.defaultValue type)) fun _ => .bind (ih (.defaultValues rest)) fun _ =>
        .pure _
  | eval expr => exact ih.eval expr
  | evalBinary operator left right => exact ih.evalBinary operator left right
  | evalAll exprs =>
    cases exprs with
    | nil => exact .pure _
    | cons expr rest =>
      exact .bind (ih (.eval expr)) fun _ => .bind (ih (.evalAll rest)) fun _ => .pure _
  | evalEntries entries =>
    cases entries with
    | nil => exact .pure _
    | cons entry rest =>
      exact .bind (ih (.eval entry.1)) fun _ => .bind (ih (.eval entry.2)) fun _ =>
        .bind (.plain (checkKey_plain _)) fun _ => .bind (.plain (Builtin.keyOf_plain _)) fun _ =>
          ih (.evalEntries rest _)
  | evalParts parts =>
    cases parts with
    | nil => exact .pure _
    | cons part rest =>
      cases part with
      | text => exact .bind (ih (.evalParts rest)) fun _ => .pure _
      | interpolation expr =>
        exact .bind (ih (.eval expr)) fun _ => .bind (.plain (.view _)) fun _ =>
          .bind (ih (.evalParts rest)) fun _ => .pure _
  | evalRef expr => exact ih.evalRef expr
  | evalCall callee arguments => exact ih.evalCall callee arguments
  | callValue callee arguments =>
    unfold Noxy.callValue
    refine .bind (ih (.eval callee)) fun _ => ?_
    split
    · exact ih (.callFunction _ arguments)
    · exact ih (.construct _ arguments)
    · exact .bind (.plain (.look _)) fun _ => .plain (fail_plain _)
  | construct _ arguments =>
    rw [StepsAt]
    unfold Noxy.construct
    split
    · exact .plain (fail_plain _)
    · exact .bind (ih (.evalAll arguments)) fun _ => .plain (struct_plain _ _)
  | callFunction function =>
    rw [StepsAt]
    unfold Noxy.callFunction
    split
    · exact .plain (fail_plain _)
    · exact .bind (ih (.evalArguments _)) fun values => ih.callBody function values
  | evalArguments arguments =>
    cases arguments with
    | nil => exact .pure _
    | cons argument rest =>
      exact .bind (ih (.eval argument.2)) fun _ => .bind (.plain (passed_plain _ _)) fun _ =>
        .bind (ih (.evalArguments rest)) fun _ => .pure _
  | exec stmt => exact ih.exec stmt
  | execAll stmts =>
    cases stmts with
    | nil => exact .pure _
    | cons stmt rest => exact .bind (ih (.exec stmt)) fun _ => ih (.execAll rest)
  | execBlock stmts =>
    have steps := ih (.execAll stmts)
    exact ⟨steps.isLocal.inCurrent, .after _ fun _ => steps.approximates.inScope⟩
  | execLoop condition body => exact ih.execLoop condition body
  | assignTarget target value => exact ih.assignTarget target value
  | execUse =>
    refine .get_bind (fun _ _ _ _ => rfl) fun _ => ?_
    split
    · exact .plain (fault_plain _)
    · exact .plain (.throw _)
    · exact .bind (ih (.loadModule _)) fun _ => .own local_importSelection
  | loadModule path => exact ih.loadModule path
  | loadMembers module path members =>
    cases members with
    | nil => exact .pure _
    | cons _ rest =>
      exact .bind (ih (.loadModule _)) fun _ => .bind (.own (local_setMember _ _ _)) fun _ =>
        ih (.loadMembers module path rest)
  | useAll stmts =>
    cases stmts with
    | nil => exact .pure _
    | cons _ rest =>
      rw [StepsAt]
      unfold Noxy.useAll
      dsimp only
      split
      · exact .bind (ih (.execUse _ _ _ _)) fun _ => ih (.useAll rest)
      · exact ih (.useAll rest)
  | evalGlobals module stmts =>
    cases stmts with
    | nil => exact .pure _
    | cons _ rest =>
      rw [StepsAt]
      unfold Noxy.evalGlobals
      dsimp only
      split
      · exact .bind (ih (.eval _)).lift fun _ => .bind (.own (local_defineHere _ _ _)) fun _ =>
          .bind (.own (local_setMember _ _ _)) fun _ => ih (.evalGlobals module rest)
      · exact ih (.evalGlobals module rest)

end Disciplined

theorem isDisciplined (fuel : Nat) : Disciplined fuel := by
  induction fuel with
  | zero =>
    intro _ _ _ calls
    cases calls <;> exact .exhausted
  | succ _ ih => exact ih.succ

variable {α : Type} {family : Nat → Exec α}

theorem disciplined (fuel : Nat) (calls : Calls extent family) : Local extent (family fuel) :=
  (isDisciplined fuel calls).isLocal

theorem fueled (calls : Calls extent family) : Grows family :=
  fun fuel => (isDisciplined fuel calls).approximates

theorem local_run (fuel : Nat) (program : Program) : Local .statement (program.run fuel) :=
  (disciplined fuel (.useAll _)).lift.bind fun _ => (local_defineGlobals _).bind fun _ =>
    disciplined fuel (.execAll _)

theorem callBody_withLocals (fuel : Nat) (function : Function) (values : List Value)
    (wellScoped : machine.WellScoped) (contents : Nat → Scope) :
    callBody fuel function values (machine.withLocals contents) =
      ending (Machine.withLocals contents) (callBody fuel function values machine) := by
  let cover (number : Nat) : Option Scope :=
    if number ≠ 0 ∧ number < machine.scopes.scopes.size then some (contents number) else none
  have shields : machine.scopes.Shields cover := shields_locals wellScoped fun _ _ => by simp
  have rootPresent : 0 < machine.scopes.scopes.size := Nat.zero_lt_of_lt wellScoped.current
  have bodyLocal : Local .statement (do
      bindAll (function.params.zip values)
      execAll fuel function.body) :=
    (local_bindAll _).bind fun _ => disciplined fuel (.execAll _)
  have commutes : callBody fuel function values (machine.covered cover) =
      ending (Machine.covered cover) (callBody fuel function values machine) :=
    asCall_commutes (inScope_blind (bodyLocal _ (wellScoped_entered wellScoped rootPresent))
      shields shields.root)
  have sameCover (final : Machine) (kept : machine.Kept .expression final) :
      final.withLocals contents = final.covered cover := by
    refine Machine.covered_congr fun number present => ?_
    rw [kept.size_eq] at present
    by_cases isRoot : number = 0 <;> simp [cover, isRoot, present]
  have keeps := ((isDisciplined fuel).callBody function values).isLocal machine wellScoped |>.keeps
  rw [sameCover machine (.refl _ _), commutes]
  unfold Ends at keeps
  cases ended : callBody fuel function values machine with
  | ok _ final | error _ final =>
    rw [ended] at keeps
    simp only [ending, sameCover final keeps]

/-! ### Sessions -/

namespace Session

variable {α β : Type}

def after : EStateM.Result (Phase × Signal) Session α → Session
  | .ok _ final => final
  | .error _ final => final

def Keeps (step : Step α) : Prop :=
  ∀ session : Session, session.machine.WellScoped →
    session.machine.Kept .statement (after (step session)).machine

theorem Keeps.bind {step : Step β} (first : Keeps step) (rest : ∀ value, Keeps (next value)) :
    Keeps (step >>= next) := by
  intro session wellScoped
  have kept := first session wellScoped
  simp only [Bind.bind, EStateM.bind]
  cases ended : step session with
  | error =>
    rw [ended] at kept
    exact kept
  | ok value final =>
    rw [ended] at kept
    exact kept.trans (rest value final (kept.wellScoped wellScoped))

theorem keeps_report : Keeps (report settings lines) := by
  intro _ _
  unfold report
  split
  · exact .of_scopes_eq rfl rfl
  · exact .refl _ _

theorem keeps_ofExcept : Keeps (ofExcept phase result) := by
  intro _ _
  cases result <;> exact .refl _ _

theorem keeps_check : Keeps (check program) := by
  intro _ _
  unfold check
  split <;> exact .refl _ _

theorem keeps_execute (program : Program) : Keeps (execute program) := by
  intro session wellScoped
  have keeps := (local_run standardFuel program session.machine wellScoped).keeps
  unfold Ends at keeps
  unfold execute
  cases ended : program.run standardFuel session.machine with
  | ok | error =>
    rw [ended] at keeps
    exact keeps

theorem keeps_run (settings : Settings) (source file : String) :
    Keeps (run settings source file) := by
  refine keeps_report.bind fun _ => keeps_ofExcept.bind fun _ =>
    keeps_report.bind fun _ => keeps_report.bind fun _ =>
      keeps_ofExcept.bind fun _ => keeps_report.bind fun _ => ?_
  dsimp only
  split
  · exact keeps_report.bind fun _ => keeps_check.bind fun _ =>
      keeps_report.bind fun _ => keeps_report.bind fun _ => keeps_execute _
  · exact keeps_report.bind fun _ => keeps_execute _

/-- The sessions that inputs lead to. -/
inductive Reachable (world : World) (basePath : String) : Session → Prop where
  | start : Reachable world basePath (start world basePath)
  | next {session : Session} (before : Reachable world basePath session)
      (settings : Settings) (source file : String) :
      Reachable world basePath (after (run settings source file session))

theorem Reachable.in_global {world : World} (reachable : Reachable world basePath session) :
    session.machine.WellScoped ∧ session.machine.current = 0 := by
  induction reachable with
  | start => exact ⟨Machine.wellScoped_start world basePath, rfl⟩
  | next _ settings source file ih =>
    have kept := keeps_run settings source file _ ih.1
    exact ⟨kept.wellScoped ih.1, kept.current.trans ih.2⟩

end Session

/--
However an expression or a statement ends, the scope that was current is current again and all
scopes stand where they stood.  An expression changes no other scope than the global one, and a
branch or a loop declares nothing in any other.  So a function neither sees nor changes what its
callers have declared, and a session goes on in the global scope after every program.
-/
theorem scope_discipline (fuel : Nat) (machine : Machine) (wellScoped : machine.WellScoped) :
    (∀ expr, Ends (eval fuel expr) machine
      (fun _ final => machine.Kept .expression final)
      (fun _ final => machine.Kept .expression final)) ∧
    (∀ stmt, Ends (exec fuel stmt) machine
      (fun _ final => machine.Kept .statement final)
      (fun _ final => machine.Kept .statement final)) ∧
    (∀ condition thenBody elseBody location,
      Ends (exec fuel (.branch condition thenBody elseBody location)) machine
        (fun _ final => machine.Kept .block final) (fun _ final => machine.Kept .block final)) ∧
    (∀ condition body location, Ends (exec fuel (.loop condition body location)) machine
      (fun _ final => machine.Kept .block final) (fun _ final => machine.Kept .block final)) ∧
    (∀ function values contents,
      callBody fuel function values (machine.withLocals contents) =
        ending (Machine.withLocals contents) (callBody fuel function values machine)) ∧
    (∀ world basePath session, Session.Reachable world basePath session →
      session.machine.WellScoped ∧ session.machine.current = 0) := by
  refine ⟨?_, ?_, ?_, ?_, ?_, ?_⟩
  · intro expr
    exact (disciplined fuel (.eval expr) machine wellScoped).keeps
  · intro stmt
    exact (disciplined fuel (.exec stmt) machine wellScoped).keeps
  · intro condition thenBody elseBody location
    cases fuel with
    | zero => exact .refl _ _
    | succ fuel =>
      exact (((isDisciplined fuel).branch condition thenBody elseBody location).isLocal machine
        wellScoped).keeps
  · intro condition body location
    cases fuel with
    | zero => exact .refl _ _
    | succ fuel => exact (disciplined fuel (.execLoop condition body) machine wellScoped).keeps
  · intro function values contents
    exact callBody_withLocals fuel function values wellScoped contents
  · intro world basePath session reachable
    exact reachable.in_global

def Machine.insideCall : Machine :=
  let location : Location := ⟨1, 1, "main.nx"⟩
  let body : List Stmt :=
    [.letVar "x" .int (some (.int 2 location)) location,
      .assign (.identifier "x" location) (.int 3 location) location,
      .returning (some (.identifier "x" location)) location]
  { Machine.start (.start .empty [] [] [] 0) "." with
    scopes := ⟨#[⟨none, [], [("f", ⟨"f", [], .int, body, location⟩)], []⟩,
      ⟨some 0, [("x", ⟨.int, .int 1, false⟩)], [], []⟩]⟩
    current := 1 }

theorem Machine.wellScoped_insideCall : insideCall.WellScoped where
  scopes :=
    { root := ⟨_, rfl, rfl⟩
      nested := by
        intro number _ found _
        match number, found with
        | 1, found =>
          obtain rfl := Option.some.inj found
          exact ⟨0, rfl, Nat.zero_lt_one⟩ }
  current := by decide

/-- The call of the function in this machine gives 3, and the local `x` around it stays 1. -/
theorem scope_discipline_insideCall :
    Machine.insideCall.WellScoped ∧
      Ends (eval 12 (.call (.identifier "f" ⟨1, 1, ""⟩) [] ⟨1, 1, ""⟩)) .insideCall
        (fun value final => value = .int 3 ∧ Machine.insideCall.Kept .expression final)
        (fun _ _ => False) := by
  have kept := (scope_discipline 12 .insideCall Machine.wellScoped_insideCall).1
    (.call (.identifier "f" ⟨1, 1, ""⟩) [] ⟨1, 1, ""⟩)
  exact ⟨Machine.wellScoped_insideCall, rfl, kept⟩

end Noxy
