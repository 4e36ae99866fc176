import Noxy.Proofs.Covered
import Noxy.Proofs.KnownDefinitions

/-!
# What the checker knows of a run

In the run of a program that is covered by the checker, every activity works on code that the
checker has looked at, in a state of its own that fits the machine: its functions and structs are
those of the program, and the variables of the scopes inside the global one are bound
(`Machine.Knows`).
-/

namespace Noxy

open Exec

/-! ### What the checker knows of a machine -/

/-- A state of the checker in which its tables are the declared ones, its global variables are
visible, and its other variables are bound in the machine. -/
structure Machine.Knows (machine : Machine) (declared : Checker) (visible : String → Prop)
    (known : Checker) : Prop where
  functions : known.functions = declared.functions
  structs : known.structs = declared.structs
  outermost : ∀ name, (Bindings.get? name known.outermost).isSome = true → visible name
  inner : ∀ name, (known.inner.findSome? (Bindings.get? name)).isSome = true → machine.Binds name

theorem Stmt.known_of_declaredInner {stmt : Stmt} {inner : List Frame}
    (isKnown : ((stmt.declaredInner inner).findSome? (Bindings.get? name)).isSome = true) :
    (inner.findSome? (Bindings.get? name)).isSome = true ∨
      ∃ type initializer location, stmt = .letVar name type initializer location := by
  cases stmt with
  | letVar other type initializer location =>
    cases inner with
    | nil => cases isKnown
    | cons =>
      simp only [declaredInner, List.findSome?_cons, Bindings.get?_put] at isKnown ⊢
      by_cases isThis : other = name
      · exact .inr ⟨type, initializer, location, by rw [isThis]⟩
      · rw [if_neg isThis] at isKnown
        exact .inl isKnown
  | _ => exact .inl isKnown

theorem Stmt.declaredInner_ne_nil (stmt : Stmt) {inner : List Frame} (inside : inner ≠ []) :
    stmt.declaredInner inner ≠ [] := by
  cases stmt with
  | letVar =>
    cases inner with
    | nil => exact absurd rfl inside
    | cons => exact List.cons_ne_nil _ _
  | _ => exact inside

theorem binds_of_exec_letVar (wellScoped : machine.WellScoped)
    (ended : exec fuel (.letVar name type initializer location) machine = .ok () later) :
    later.Binds name := by
  cases fuel with
  | zero => cases ended
  | succ =>
    obtain ⟨_, _, _, isScoped, bound⟩ := ok_of_exec_letVar wellScoped ended
    cases bound
    exact Machine.binds_define name _ isScoped

theorem Frame.param_of_withParams {frame : Frame}
    (found : (Bindings.get? name (frame.withParams params)).isSome = true) :
    (∃ param ∈ params, param.name = name) ∨ (Bindings.get? name frame).isSome = true := by
  induction params generalizing frame with
  | nil => exact .inr found
  | cons param _ ih =>
    rcases ih found with ⟨other, member, isName⟩ | inFrame
    · exact .inl ⟨other, List.mem_cons_of_mem _ member, isName⟩
    · rw [Bindings.get?_put] at inFrame
      by_cases isThis : param.name = name
      · exact .inl ⟨param, List.mem_cons_self, isThis⟩
      · rw [if_neg isThis] at inFrame
        exact .inr inFrame

namespace Machine.Knows

variable {machine : Machine} {visible : String → Prop}

variable (knows : machine.Knows declared visible known)
include knows

theorem extend (extended : machine.Extends later) : later.Knows declared visible known :=
  { knows with inner := fun name isKnown => extended.binds (knows.inner name isKnown) }

theorem enter (wellScoped : machine.WellScoped) :
    (entered machine.current machine).Knows declared visible known.enter :=
  { knows with inner := fun name isKnown => (knows.inner name isKnown).entered wellScoped }

theorem leave (checked : Stmt.checkAll stmts known.enter = .ok () next)
    (globals : ∀ name ∈ Stmt.globalsOf stmts, visible name) :
    machine.Knows declared visible next.leave := by
  obtain ⟨grows, _, isInner⟩ := Stmt.checkAll_passes checked rfl
  have sameInner : next.leave.inner = known.inner := by
    rw [Checker.leave, isInner, List.tail_cons]
  refine ⟨grows.functions.trans knows.functions, grows.structs.trans knows.structs,
    fun name isKnown => ?_, fun name isKnown => knows.inner name (sameInner ▸ isKnown)⟩
  exact ((grows.outermost name).mp isKnown).elim (knows.outermost name) (globals name)

theorem after (wellScoped : machine.WellScoped) (checked : stmt.check known = .ok () next)
    (inside : known.inner ≠ []) (globals : ∀ name ∈ stmt.globals, visible name)
    (ended : exec fuel stmt machine = .ok () later) : later.Knows declared visible next := by
  obtain ⟨grows, isInner⟩ := Stmt.check_passes checked
  have extended := exec_extends wellScoped ended
  refine ⟨grows.functions.trans knows.functions, grows.structs.trans knows.structs,
    fun name isKnown => ?_, fun name isKnown => ?_⟩
  · rcases (grows.outermost name).mp isKnown with isOld | isGlobal | ⟨outside, _⟩
    · exact knows.outermost name isOld
    · exact globals name isGlobal
    · exact absurd outside inside
  · rw [isInner] at isKnown
    rcases Stmt.known_of_declaredInner isKnown with isOld | ⟨type, initializer, location, rfl⟩
    · exact extended.binds (knows.inner name isOld)
    · exact binds_of_exec_letVar wellScoped ended

theorem inFunction (outside : known.inner = [])
    (bound : ∀ param ∈ params, machine.Binds param.name) :
    machine.Knows declared visible (known.inFunction params returns) := by
  refine { knows with inner := fun _ isKnown => ?_ }
  rw [Checker.inFunction, outside, List.findSome?_singleton] at isKnown
  rcases Frame.param_of_withParams isKnown with ⟨param, isParam, rfl⟩ | isOld
  · exact bound param isParam
  · cases isOld

end Machine.Knows

/-! ### Covered activities -/

def Checker.Reads (known : Checker) (inner : String → Prop) (expr : Expr) : Prop :=
  (Site.expr expr).Covered inner known ∨
    ∃ object name location, expr = .field object name location ∧
      (Site.expr object).Covered inner known

namespace Activity

def Covered (inner : String → Prop) (known : Checker) : Activity → Prop
  | eval expr => known.Reads inner expr
  | evalBinary _ left right =>
    (Site.expr left).Covered inner known ∧ (Site.expr right).Covered inner known
  | evalAll exprs => ∀ expr ∈ exprs, (Site.expr expr).Covered inner known
  | evalEntries entries _ =>
    ∀ entry ∈ entries, (Site.expr entry.1).Covered inner known ∧
      (Site.expr entry.2).Covered inner known
  | evalRef expr => (Site.expr expr).Covered inner known
  | evalCall callee arguments =>
    ∃ location, (Site.expr (.call callee arguments location)).Covered inner known
  | callValue callee arguments =>
    (callee.isNamed = true → known.Reads inner callee) ∧
      ∀ argument ∈ arguments, (Site.expr argument).Covered inner known
  | construct _ arguments => ∀ argument ∈ arguments, (Site.expr argument).Covered inner known
  | callFunction _ arguments => ∀ argument ∈ arguments, (Site.expr argument).Covered inner known
  | evalArguments arguments => ∀ argument ∈ arguments, (Site.expr argument.2).Covered inner known
  | bindAll _ => True
  | exec stmt => (Site.stmt stmt).Covered inner known
  | execAll stmts => (Site.body stmts).Covered inner known ∧ known.inner ≠ []
  | execBlock stmts => (Site.body stmts).Covered inner known.enter
  | execLoop condition body =>
    (Site.expr condition).Covered inner known ∧ (Site.body body).Covered inner known.enter
  | assignTarget target _ => (Site.expr target).Covered inner known
  | _ => False

end Activity

section Parts

variable {machine : Machine} {inner visible : String → Prop}

theorem Site.Covered.within {expr : Expr} (covered : (Site.expr expr).Covered inner known)
    (isPart : ExprPart expr inside) : (Site.expr inside).Covered inner known :=
  (Contains.part isPart).covered covered

theorem Begins.covered_eval (begins : Begins fuel (.eval expr) machine part begun)
    (reads : known.Reads inner expr) : part.Covered inner known := by
  rcases reads with covered | ⟨_, _, _, rfl, covered⟩
  · cases begins with
    | binary => exact ⟨covered.within .left, covered.within .right⟩
    | unary => exact .inl (covered.within .operand)
    | call => exact ⟨_, covered⟩
    | indexObject => exact .inl (covered.within .indexed)
    | indexPosition => exact .inl (covered.within .position)
    | fieldObject => exact .inl (covered.within .selected)
    | elements => exact fun _ member => covered.within (.element member)
    | entries =>
      exact fun _ member => ⟨covered.within (.key member), covered.within (.value member)⟩
    | reference => exact covered.within .referred
    | parts => cases covered.noTemplate
    | zeros => exact .inl (covered.within .size)
    | group => exact .inl (covered.within .grouped)
  · cases begins with
    | fieldObject => exact .inl covered

theorem Begins.covered_evalCall {callee : Expr} {arguments : List Expr}
    (begins : Begins fuel (.evalCall callee arguments) machine part begun)
    (covered : (Activity.evalCall callee arguments).Covered inner known) :
    part.Covered inner known := by
  obtain ⟨location, covered⟩ := covered
  have each : ∀ argument ∈ arguments, (Site.expr argument).Covered inner known :=
    fun _ member => covered.within (.argument member)
  cases begins with
  | callStruct | callNamed | callBuiltin | methodArguments => exact each
  | methodObject => exact .inl (covered.within .receiver)
  | callMember => exact ⟨fun _ => .inr ⟨_, _, _, rfl, covered.within .receiver⟩, each⟩
  | callOther notName notField =>
    refine ⟨fun isNamed => ?_, each⟩
    cases callee with
    | identifier => exact absurd rfl (notName _ _)
    | field => exact absurd rfl (notField _ _ _)
    | _ => cases isNamed

theorem Begins.covered_exec (begins : Begins fuel (.exec stmt) machine part begun)
    (noLoading : part.isLoading = false) (areVisible : ∀ name, inner name → visible name)
    (knows : begun.Knows declared visible known) (covered : (Site.stmt stmt).Covered inner known) :
    ∃ next, begun.Knows declared visible next ∧ part.Covered inner next := by
  have within {site : Site} {next : Checker} (contains : Contains known (.stmt stmt) next site) :
      site.Covered inner next :=
    contains.covered covered
  cases begins with
  | initializer => exact ⟨known, knows, .inl (within .initializer)⟩
  | globalInitializer => exact ⟨known, knows, .inl (within .globalInitializer)⟩
  | assignedValue => exact ⟨known, knows, .inl (within .assigned)⟩
  | assignedTarget => exact ⟨known, knows, within .target⟩
  | expression => exact ⟨known, knows, .inl (within .expression)⟩
  | branchCondition => exact ⟨known, knows, .inl (within .branchCondition)⟩
  | thenBody => exact ⟨known, knows, within .thenBody⟩
  | elseBody =>
    obtain ⟨_, checked⟩ := covered.accepted
    obtain ⟨_, afterThen, _, thenChecked, _⟩ := Stmt.ok_of_check_branch checked
    have thenCovered := within .thenBody
    exact ⟨afterThen.leave, knows.leave thenChecked fun name member =>
      areVisible name (thenCovered.globals name member), within (.elseBody thenChecked)⟩
  | loop => exact ⟨known, knows, within .loopCondition, within .loopBody⟩
  | returnedValue =>
    cases expected : known.returns with
    | none => cases covered.returns expected
    | some => exact ⟨known, knows, .inl (within (.returned expected))⟩
  | use => cases noLoading

theorem Begins.covered (begins : Begins fuel activity machine part begun)
    (wellScoped : machine.WellScoped) (noLoading : part.isLoading = false)
    (areVisible : ∀ name, inner name → visible name)
    (knows : machine.Knows declared visible known) (covered : activity.Covered inner known) :
    (∃ next, begun.Knows declared visible next ∧ part.Covered inner next) ∨
      (∃ function arguments, activity = .callFunction function arguments ∧
        activity.enters part = true) ∨
      ∃ callee arguments, activity = .callValue callee arguments ∧ callee.isNamed = false ∧
        part = .eval callee ∧ begun = machine := by
  have isCovered : activity.isLoading = false := by
    cases activity <;> first | rfl | exact covered.elim
  have extended (sameScope : activity.enters part = false) : begun.Knows declared visible known :=
    knows.extend (begins.extends wellScoped isCovered sameScope)
  cases activity
  case' eval | evalCall | evalBinary | evalAll | evalEntries | evalRef | construct | evalArguments |
      bindAll | execLoop | assignTarget =>
    refine .inl ⟨known, extended rfl, ?_⟩
  case eval => exact begins.covered_eval covered
  case evalCall => exact begins.covered_evalCall covered
  case exec => exact .inl (begins.covered_exec noLoading areVisible (extended rfl) covered)
  case evalBinary =>
    cases begins with
    | leftOperand => exact .inl covered.1
    | rightOfAnd | rightOfOr | rightOperand => exact .inl covered.2
  case evalAll =>
    cases begins with
    | firstOfAll => exact .inl (covered _ List.mem_cons_self)
    | restOfAll => exact fun expr member => covered expr (List.mem_cons_of_mem _ member)
  case evalEntries =>
    cases begins with
    | entryKey => exact .inl (covered _ List.mem_cons_self).1
    | entryValue => exact .inl (covered _ List.mem_cons_self).2
    | restOfEntries => exact fun entry member => covered entry (List.mem_cons_of_mem _ member)
  case evalRef =>
    cases begins with
    | refField => exact .inl (covered.within .selected)
    | refIndex => exact .inl (covered.within .position)
    | refObject => exact .inl (covered.within .indexed)
    | refValue => exact .inl covered
  case callValue callee arguments =>
    cases begins with
    | callee =>
      cases isNamed : callee.isNamed with
      | true => exact .inl ⟨known, extended rfl, covered.1 isNamed⟩
      | false => exact .inr (.inr ⟨callee, arguments, rfl, isNamed, rfl, rfl⟩)
    | callFunctionValue => exact .inl ⟨known, extended rfl, covered.2⟩
    | callStructValue => exact .inl ⟨known, extended rfl, covered.2⟩
  case construct =>
    cases begins with
    | fieldValues => exact covered
  case callFunction function arguments =>
    cases begins with
    | arguments =>
      exact .inl ⟨known, extended rfl, fun _ member => covered _ (List.of_mem_zip member).2⟩
    | params => exact .inr (.inl ⟨function, arguments, rfl, rfl⟩)
    | body => exact .inr (.inl ⟨function, arguments, rfl, rfl⟩)
  case evalArguments =>
    cases begins with
    | firstArgument => exact .inl (covered _ List.mem_cons_self)
    | restOfArguments =>
      exact fun argument member => covered argument (List.mem_cons_of_mem _ member)
  case bindAll =>
    cases begins with
    | restOfParams => trivial
  case execAll =>
    cases begins with
    | firstStmt => exact .inl ⟨known, extended rfl, Contains.first.covered covered.1⟩
    | restOfStmts ended =>
      obtain ⟨_, checked⟩ := covered.1.accepted
      obtain ⟨next, isFirst, _⟩ := Stmt.ok_of_checkAll_cons checked
      have globals := covered.1.globals
      simp only [Site.innerGlobals, Stmt.globalsOf, List.forall_mem_append] at globals
      have stillInside : next.inner ≠ [] := by
        rw [(Stmt.check_passes isFirst).2]
        exact Stmt.declaredInner_ne_nil _ covered.2
      exact .inl ⟨next, knows.after wellScoped isFirst covered.2
        (fun name member => areVisible name (globals.1 name member)) ended,
        (Contains.rest isFirst).covered covered.1, stillInside⟩
  case execBlock =>
    cases begins with
    | block => exact .inl ⟨known.enter, knows.enter wellScoped, covered, List.cons_ne_nil _ _⟩
  case execLoop =>
    cases begins with
    | loopCondition => exact .inl covered.1
    | loopBody => exact covered.2
    | nextTurn => exact covered
  case assignTarget =>
    cases begins with
    | targetObject => exact .inl (covered.within .indexed)
    | targetIndex => exact .inl (covered.within .position)
    | targetField => exact .inl (covered.within .selected)
  all_goals exact covered.elim

end Parts

/-! ### Calls -/

theorem length_of_evalArguments (ended : evalArguments fuel arguments machine = .ok values later) :
    values.length = arguments.length := by
  induction fuel generalizing arguments values machine with
  | zero => cases ended
  | succ _ ih =>
    cases arguments with
    | nil =>
      cases ended
      rfl
    | cons =>
      obtain ⟨_, _, _, ended⟩ := exists_of_bind_eq_ok ended
      obtain ⟨_, _, _, ended⟩ := exists_of_bind_eq_ok ended
      obtain ⟨_, _, restEnded, ended⟩ := exists_of_bind_eq_ok ended
      cases ended
      rw [List.length_cons, List.length_cons, ih restEnded]

theorem exists_mem_zip_of_mem {first : List α} (sameLength : first.length = second.length)
    {item : α} (member : item ∈ first) : ∃ other, (item, other) ∈ first.zip second := by
  rw [← List.map_fst_zip (Nat.le_of_eq sameLength)] at member
  obtain ⟨⟨_, other⟩, isPair, rfl⟩ := List.mem_map.mp member
  exact ⟨other, isPair⟩

theorem binds_of_bindAll (wellScoped : machine.WellScoped)
    (bound : bindAll params machine = .ok () later) (member : param ∈ params) :
    later.Binds param.1.name := by
  induction params generalizing machine with
  | nil => cases member
  | cons _ _ ih =>
    obtain ⟨_, _, isFirst, others⟩ := exists_of_bind_eq_ok bound
    have isScoped := (local_defineHere _ _ _).wellScoped_of_ok wellScoped isFirst
    rcases List.mem_cons.mp member with rfl | inRest
    · cases isFirst
      exact (bindAll_extends others).binds (Machine.binds_define _ _ wellScoped)
    · exact ih isScoped others inRest

namespace Program

def IsCovered (program : Program) (declared : Checker) : Prop :=
  ∀ before stmt after, program = before ++ stmt :: after → ∃ known : Checker, known.inner = [] ∧
    (∀ machine : Machine, machine.Knows declared (program.Visible before) known) ∧
    (Site.stmt stmt).Covered program.DeclaresInside known

/-- How the checker has come to look at what goes on within an activity: in the statement of the
program that the activity belongs to, which stands behind some others, or in a function that is
called, or not at all, in a callee. -/
inductive Coverage (program : Program) (declared : Checker) (before : Program) :
    Nat → Activity → Machine → Nat → Activity → Machine → Prop where
  | here (knows : begun.Knows declared (program.Visible before) known)
      (covered : part.Covered program.DeclaresInside known) :
      Coverage program declared before fuel activity machine fuel' part begun
  | inCall (isSplit : program = earlier ++ definition :: after)
      (isFunction : definition.function? = some function)
      (called : Reaches fuel activity machine fuel'' (.callFunction function arguments) caller)
      (reaches : Reaches fuel'' (.callFunction function arguments) caller fuel' part begun)
      (knows : begun.Knows declared (program.Visible earlier) known)
      (covered : part.Covered program.DeclaresInside known) :
      Coverage program declared before fuel activity machine fuel' part begun
  | inCallee (notNamed : callee.isNamed = false)
      (called : Reaches fuel activity machine (fuel'' + 1) (.callValue callee arguments) caller)
      (reaches : Reaches fuel'' (.eval callee) caller fuel' part begun) :
      Coverage program declared before fuel activity machine fuel' part begun

variable {program : Program} {machine : Machine}

theorem Coverage.inside {inner : Activity} (begins : Noxy.Begins fuel activity machine part begun)
    (coverage : program.Coverage declared earlier fuel part begun fuel' inner moment)
    (here : ∀ {known : Checker}, moment.Knows declared (program.Visible earlier) known →
      inner.Covered program.DeclaresInside known →
      program.Coverage declared before (fuel + 1) activity machine fuel' inner moment) :
    program.Coverage declared before (fuel + 1) activity machine fuel' inner moment := by
  cases coverage with
  | here knows covered => exact here knows covered
  | inCall isSplit isFunction called reaches knows covered =>
    exact .inCall isSplit isFunction (.inside begins called) reaches knows covered
  | inCallee notNamed called reaches => exact .inCallee notNamed (.inside begins called) reaches

theorem IsCovered.of_call (covers : program.IsCovered declared)
    (isDefined : ∃ stmt ∈ program, stmt.function? = some function) (wellScoped : machine.WellScoped)
    (begins : Noxy.Begins fuel (.callFunction function arguments) machine part begun)
    (enters : (Activity.callFunction function arguments).enters part = true) :
    ∃ earlier definition after known, program = earlier ++ definition :: after ∧
      definition.function? = some function ∧
      begun.Knows declared (program.Visible earlier) known ∧
      part.Covered program.DeclaresInside known := by
  obtain ⟨definition, member, isFunction⟩ := isDefined
  obtain ⟨earlier, after, isSplit⟩ := List.append_of_mem member
  obtain ⟨known, outside, knows, covered⟩ := covers earlier definition after isSplit
  cases begins with
  | arguments => cases enters
  | params => exact ⟨earlier, definition, after, known, isSplit, isFunction, knows _, trivial⟩
  | body complete passed bound =>
    cases definition with
    | function _ params returns =>
      cases isFunction
      refine ⟨earlier, _, after, known.inFunction params returns, isSplit, rfl, ?_,
        Contains.functionBody.covered covered, List.cons_ne_nil _ _⟩
      have isScoped := (disciplined fuel (.evalArguments _)).wellScoped_of_ok wellScoped passed
      have sameLength := length_of_evalArguments passed
      rw [List.length_zip, complete, Nat.min_self] at sameLength
      refine (knows begun).inFunction outside fun _ isParam => ?_
      obtain ⟨_, isBound⟩ := exists_mem_zip_of_mem sameLength.symm isParam
      exact binds_of_bindAll (wellScoped_entered isScoped isScoped.root_lt) bound isBound
    | _ => cases isFunction

theorem IsCovered.of_reaches (covers : program.IsCovered declared)
    (reaches : Reaches fuel activity machine fuel' part begun)
    (mirrors : machine.Mirrors declared fun function =>
      ∃ stmt ∈ program, stmt.function? = some function)
    (allowed : activity.Allowed (.ofImports fun function =>
      ∃ stmt ∈ program, stmt.function? = some function) machine)
    (knows : machine.Knows declared (program.Visible before) known)
    (covered : activity.Covered program.DeclaresInside known) :
    program.Coverage declared before fuel activity machine fuel' part begun := by
  induction reaches generalizing before known with
  | here => exact .here knows covered
  | inside begins reaches ih =>
    have wellScoped := mirrors.isSealed.wellScoped
    obtain ⟨mirrorsPart, allowedPart⟩ := mirrors.reaches (.inside begins .here) allowed
    rcases begins.covered wellScoped allowedPart.isLoading (fun _ => .inl) knows covered with
      ⟨next, knowsPart, coveredPart⟩ | ⟨function, arguments, rfl, enters⟩ |
      ⟨callee, arguments, rfl, notNamed, rfl, rfl⟩
    · exact (ih mirrorsPart allowedPart knowsPart coveredPart).inside begins .here
    · obtain ⟨_, _, _, _, isSplit, isFunction, knowsPart, coveredPart⟩ :=
        covers.of_call allowed.1.2 wellScoped begins enters
      exact (ih mirrorsPart allowedPart knowsPart coveredPart).inside begins
        (.inCall isSplit isFunction .here (.inside begins reaches))
    · exact .inCallee notNamed .here reaches

end Program

end Noxy
