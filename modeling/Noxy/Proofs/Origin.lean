import Noxy.Proofs.Interruption

/-!
# Where signals come from

A signal that ends an activity is one that a part of it ends with, or one that the activity raises
itself.
-/

namespace Noxy

open Exec

/-- Where an activity itself raises a signal that is not tame. -/
inductive Activity.Raises (fuel : Nat) : Activity → Machine → Signal → Prop where
  | unboundName (unbound : machine.scopes.binding? machine.current name = none) :
      Raises fuel (.eval (.identifier name location)) machine
        (.failure (.error (.runtime (.undefinedVariable name) none)))
  | unboundReference (unbound : machine.scopes.binding? machine.current name = none) :
      Raises fuel (.evalRef (.identifier name location)) machine
        (.failure (.error (.runtime (.undefinedVariable name) none)))
  | unboundTarget (unbound : machine.scopes.owner? machine.current name = none) :
      Raises fuel (.assignTarget (.identifier name location) value) machine
        (.failure (.error (.runtime (.undefinedVariable name) none)))
  | unknownFunction (unknown : machine.callable? name = none) :
      Raises fuel (.evalCall (.identifier name location) arguments) machine
        (.failure (.error (.runtime (.undefinedFunction name) none)))
  | breaking : Raises fuel (.exec (.breaking location)) machine .breaking
  | returning (evaluated : Noxy.eval fuel expr machine = .ok value after) :
      Raises fuel (.exec (.returning (some expr) location)) machine (.returning value)
  | returningNothing :
      Raises fuel (.exec (.returning none location)) machine (.returning .null)
  | unreadModule : Raises fuel (.loadModule path) machine (.failure cause)

inductive Activity.Source (fuel : Nat) (activity : Activity) (machine : Machine) (signal : Signal) :
    Prop where
  | tame (isTame : signal.isTame = true)
  | own (raises : activity.Raises fuel machine signal)
  | part {part : Activity} {begun : Machine} (begins : Begins fuel activity machine part begun)
      (signals : (part.run fuel).Signals begun signal)

namespace Exec

variable {α β : Type}

/-- Every signal that the step ends with is good. -/
def EndsIn (good : Signal → Prop) (step : Exec α) : Prop :=
  ∀ machine, Ends step machine (fun _ _ => True) (fun signal _ => good signal)

abbrev EndsTamely (step : Exec α) : Prop :=
  EndsIn (·.isTame = true) step

namespace EndsIn

variable {good : Signal → Prop}

theorem bind (first : EndsIn good step)
    (rest : ∀ value, EndsIn good (next value)) : EndsIn good (step >>= next) := by
  intro machine
  rw [ends_bind]
  exact (first machine).imp (fun value final _ => rest value final) fun _ _ isGood => isGood

end EndsIn

/-- The step leaves the world as it is, and every signal that it ends with is good. -/
def LeavesWorld (good : Signal → Prop) (step : Exec α) : Prop :=
  ∀ machine, Ends step machine (fun _ final => final.world = machine.world)
    (fun signal final => good signal ∧ final.world = machine.world)

namespace LeavesWorld

variable {good : Signal → Prop}

theorem endsIn (leaves : LeavesWorld good step) : EndsIn good step :=
  fun machine => (leaves machine).imp (fun _ _ _ => trivial) fun _ _ isGood => isGood.1

theorem bind (first : LeavesWorld good step) (rest : ∀ value, LeavesWorld good (next value)) :
    LeavesWorld good (step >>= next) := by
  intro machine
  rw [ends_bind]
  refine (first machine).imp (fun value final same => ?_) fun _ _ isGood => isGood
  rw [← same]
  exact rest value final

theorem forM {items : List α} (each : ∀ item, LeavesWorld good (step item)) :
    LeavesWorld good (items.forM step) := by
  induction items with
  | nil => exact fun _ => rfl
  | cons item _ ih => exact .bind (each item) fun _ => ih

theorem setMember (module : Value) (name : String) (value : Value) :
    LeavesWorld good (setMember module name value) := by
  intro _
  cases module <;> rfl

theorem importMember (name : String) (value : Value) :
    LeavesWorld good (importMember name value) := by
  intro machine
  rw [Ends, importMember_eq (name, value) machine]
  rfl

theorem importSelection (selection : Selection) (newName : Option String) (location : Location)
    (module : Value) (missing : ∀ name moduleName,
      good (.failure (.error (.runtime (.symbolNotFound name moduleName) (some location))))) :
    LeavesWorld good (importSelection selection newName location module) := by
  refine .bind (fun _ => rfl) fun _ => ?_
  split
  · cases selection with
    | whole => exact fun _ => rfl
    | all => exact .forM fun entry => importMember entry.1 entry.2
    | names =>
      refine .forM fun _ => ?_
      split
      · exact importMember _ _
      · exact fun _ => ⟨missing _ _, rfl⟩
  · exact fun _ => rfl

theorem defineMembers (scope : Nat) (module : Option Value) (stmts : List Stmt) :
    LeavesWorld good (defineMembers scope module stmts) := by
  have member (name : String) (value : Value) :
      LeavesWorld good (module.forM fun module => Noxy.setMember module name value) := by
    cases module with
    | none => exact fun _ => rfl
    | some module => exact setMember module name value
  induction stmts with
  | nil => exact fun _ => rfl
  | cons _ _ ih =>
    rw [Noxy.defineMembers]
    split
    case h_3 => exact ih
    all_goals exact .bind (fun _ => rfl) fun _ => .bind (member _ _) fun _ => ih

end LeavesWorld

namespace EndsIn

variable {good : Signal → Prop}

theorem bindAll (params : List (Declared × Value)) : EndsIn good (bindAll params) := by
  induction params with
  | nil => exact fun _ => trivial
  | cons _ _ ih => exact .bind (fun _ => trivial) fun _ => ih

theorem defaultValue (fuel : Nat) :
    (∀ type, EndsTamely (defaultValue fuel type)) ∧
      ∀ types, EndsTamely (defaultValues fuel types) := by
  induction fuel with
  | zero => exact ⟨fun _ _ => rfl, fun _ _ => rfl⟩
  | succ _ ih =>
    constructor
    · intro type
      cases type with
      | array _ size =>
        cases size with
        | none => exact fun _ => trivial
        | some => exact .bind (ih.2 _) fun _ _ => trivial
      | struct name =>
        refine .bind (fun _ => trivial) fun machine => ?_
        cases machine.struct? name with
        | none => exact fun _ => rfl
        | some => exact .bind (ih.2 _) fun _ _ => trivial
      | _ => exact fun _ => trivial
    · intro types
      cases types with
      | nil => exact fun _ => trivial
      | cons type rest => exact .bind (ih.1 type) fun _ => .bind (ih.2 rest) fun _ _ => trivial

end EndsIn

def Traced (fuel : Nat) (activity : Activity) (start : Machine) (step : Exec α)
    (machine : Machine) : Prop :=
  ∀ signal, step.Signals machine signal → activity.Source fuel start signal

theorem EndsTamely.isTame (ends : EndsTamely step) (signals : step.Signals machine signal) :
    signal.isTame = true := by
  obtain ⟨_, ended⟩ := signals
  have isTame := ends machine
  rwa [Ends, ended] at isTame

namespace Traced

variable {activity : Activity}

theorem tamely (ends : EndsTamely step) : Traced fuel activity start step machine :=
  fun _ signals => .tame (ends.isTame signals)

theorem tame (isTame : Tame step) : Traced fuel activity start step machine :=
  tamely isTame.signals

theorem bind (first : Traced fuel activity start step machine)
    (rest : ∀ value middle, step machine = .ok value middle →
      Traced fuel activity start (next value) middle) :
    Traced fuel activity start (step >>= next) machine := by
  intro signal signals
  rcases signals.of_bind with signals | ⟨value, middle, ended, signals⟩
  · exact first signal signals
  · exact rest value middle ended signal signals

theorem own {step : Exec α} (raises : ∀ signal, step.Signals machine signal →
    activity.Raises fuel start signal) : Traced fuel activity start step machine :=
  fun signal signals => .own (raises signal signals)

theorem binding (raises : machine.scopes.binding? machine.current name = none →
      activity.Raises fuel start (.failure (.error (.runtime (.undefinedVariable name) none)))) :
    Traced fuel activity start (Exec.binding name) machine := by
  refine bind (tamely fun _ => trivial) fun _ _ isMachine => ?_
  cases isMachine
  split
  · exact tame (.pure _)
  · rename_i unbound
    refine own fun _ signals => ?_
    obtain ⟨_, ended⟩ := signals
    cases ended
    exact raises unbound

end Traced

end Exec

/-! ### Activities step by step -/

namespace Activity

open Exec

/-- A step of an activity, with the parts that it begins.  They follow one another, and the signals
that end the step are theirs, unless the activity catches them, or the activity's own. -/
structure Follows {α : Type} (fuel : Nat) (activity : Activity) (start : Machine) (step : Exec α)
    (machine : Machine) (parts : List Part) : Prop where
  traced : Traced fuel activity start step machine
  linked : start.WellScoped → Linked fuel activity start machine parts (step.final machine)
  each : ∀ part moment, (part, moment) ∈ parts → Begins fuel activity start part moment ∧
    ∀ signal, activity.catches signal = false → (part.run fuel).Signals moment signal →
      step.Signals machine signal

namespace Follows

variable {α β : Type} {activity : Activity} {next : α → Exec β} {parts : List Part}
  {rest : α → Machine → List Part}

theorem alone (traced : Traced fuel activity start step machine)
    (owns : start.WellScoped → activity.Owns start machine (step.final machine)) :
    Follows fuel activity start step machine [] :=
  ⟨traced, owns, fun _ _ member => absurd member List.not_mem_nil⟩

theorem only (begins : Begins fuel activity start part machine)
    (runs : part.run fuel = discard step) :
    Follows fuel activity start step machine [(part, machine)] := by
  refine ⟨fun _ signals => .part begins (runs ▸ Signals.bind signals),
    fun _ => ⟨.refl, final_of_discard runs _ ▸ .refl⟩, fun _ _ member => ?_⟩
  cases List.mem_singleton.mp member
  exact ⟨begins, fun _ _ signals => (runs ▸ signals).of_discard⟩

theorem ran (begins : Begins fuel activity start part machine) (runs : part.run fuel = step) :
    Follows fuel activity start step machine [(part, machine)] := by
  refine only begins (runs.trans (funext fun machine => ?_))
  change _ = EStateM.bind step (fun _ => pure ()) machine
  rw [EStateM.bind]
  cases step machine <;> rfl

theorem bind (follows : Follows fuel activity start step machine parts)
    (later : ∀ value middle, step machine = .ok value middle →
      Follows fuel activity start (next value) middle (rest value middle)) :
    Follows fuel activity start (step >>= next) machine (parts ++ step.andThen machine rest) := by
  refine ⟨.bind follows.traced fun value middle ended => (later value middle ended).traced,
    fun wellScoped => ?_, fun other moment member => ?_⟩
  · have linked := follows.linked wellScoped
    cases ended : step machine with
    | ok value middle =>
      rw [andThen_of_ok ended, final_bind_of_ok ended]
      rw [final_of_ok ended] at linked
      exact linked.join ((later value middle ended).linked wellScoped)
    | error signal middle =>
      rw [andThen_of_error ended, final_bind_of_error ended, List.append_nil]
      rwa [final_of_error ended] at linked
  · rcases List.mem_append.mp member with member | member
    · obtain ⟨begins, passes⟩ := follows.each _ _ member
      exact ⟨begins, fun signal isPassed signals => .bind (passes signal isPassed signals)⟩
    · obtain ⟨value, middle, ended, member⟩ := mem_andThen.mp member
      obtain ⟨begins, passes⟩ := (later value middle ended).each _ _ member
      exact ⟨begins, fun signal isPassed signals => .after ended (passes signal isPassed signals)⟩

theorem first (follows : Follows fuel activity start step machine [(part, moment)])
    (later : ∀ value middle, step machine = .ok value middle →
      Follows fuel activity start (next value) middle (rest value middle)) :
    Follows fuel activity start (step >>= next) machine
      ((part, moment) :: step.andThen machine rest) :=
  bind follows later

theorem own (follows : Follows fuel activity start step machine [])
    (later : ∀ value middle, step machine = .ok value middle →
      Follows fuel activity start (next value) middle (rest value middle)) :
    Follows fuel activity start (step >>= next) machine (step.andThen machine rest) :=
  bind follows later

theorem last (follows : Follows fuel activity start step machine parts)
    (later : ∀ value middle, step machine = .ok value middle →
      Follows fuel activity start (next value) middle []) :
    Follows fuel activity start (step >>= next) machine parts := by
  have noMore : step.andThen machine (fun _ _ => []) = [] := by
    unfold andThen
    cases step machine <;> rfl
  have bound := bind follows later
  rwa [noMore, List.append_nil] at bound

theorem tame (isTame : Tame step) : Follows fuel activity start step machine [] :=
  alone (.tame isTame) fun _ => Owns.plain isTame.plain

theorem tamely (ends : EndsTamely step)
    (owns : start.WellScoped → activity.Owns start machine (step.final machine)) :
    Follows fuel activity start step machine [] :=
  alone (.tamely ends) owns

/-- A signal that the activity raises itself. -/
theorem throws (raises : activity.Raises fuel start signal) :
    Follows fuel activity start (throw signal : Exec α) machine [] := by
  refine alone (.own fun _ signals => ?_) fun _ => Owns.plain (.throw _)
  obtain ⟨_, ended⟩ := signals
  cases ended
  exact raises

/-- What goes on around a step changes neither its parts nor the signals that are not caught. -/
theorem around {whole : Exec β} (follows : Follows fuel activity start step machine parts)
    (inside : ∀ signal, whole.Signals outside signal → step.Signals machine signal)
    (linked : start.WellScoped → Linked fuel activity start machine parts (step.final machine) →
      Linked fuel activity start outside parts (whole.final outside))
    (passes : ∀ signal, activity.catches signal = false → step.Signals machine signal →
      whole.Signals outside signal) : Follows fuel activity start whole outside parts where
  traced signal signals := follows.traced signal (inside signal signals)
  linked wellScoped := linked wellScoped (follows.linked wellScoped)
  each other moment member :=
    have ⟨begins, ends⟩ := follows.each other moment member
    ⟨begins, fun signal isPassed signals => passes signal isPassed (ends signal isPassed signals)⟩

theorem get {next : Machine → Exec α}
    (follows : Follows fuel activity start (next machine) machine parts) :
    Follows fuel activity start (get >>= next) machine parts :=
  follows.around (fun _ => id) (fun _ => id) fun _ _ => id

theorem look {read : Heap → β} {next : β → Exec α}
    (follows : Follows fuel activity start (next (read machine.heap)) machine parts) :
    Follows fuel activity start (Exec.look read >>= next) machine parts :=
  follows.around (fun _ => id) (fun _ => id) fun _ _ => id

theorem inScope (same : start.WellScoped → machine.WellScoped ∧ machine.current = start.current)
    (follows : Follows fuel activity start step (entered outer machine) parts) :
    Follows fuel activity start (Exec.inScope outer step) machine parts :=
  follows.around (fun _ => signals_inScope.mp)
    (fun wellScoped => .inScope (same wellScoped).1 (same wellScoped).2) fun _ _ =>
      signals_inScope.mpr

theorem asCall
    (follows : Follows fuel (.callFunction function arguments) start body machine parts) :
    Follows fuel (.callFunction function arguments) start (Exec.asCall body) machine parts :=
  follows.around (fun _ signals => (signals_asCall.mp signals).1)
    (fun _ linked => Exec.final_asCall body machine ▸ linked) fun _ passes signals =>
      signals_asCall.mpr ⟨signals, fun _ returns => by cases returns; cases passes⟩

theorem proceeds (follows : Follows fuel (.execLoop condition body) start turn machine parts) :
    Follows fuel (.execLoop condition body) start (Exec.proceeds turn) machine parts :=
  follows.around (fun _ signals => (signals_proceeds.mp signals).1)
    (fun _ linked => Exec.final_proceeds turn machine ▸ linked) fun _ passes signals =>
      signals_proceeds.mpr ⟨signals, fun breaks => by cases breaks; cases passes⟩

theorem discarded (follows : Follows fuel activity start step machine parts) :
    Follows fuel activity start (discard step) machine parts :=
  follows.around (fun _ => Signals.of_discard)
    (fun _ linked => Exec.final_discard step machine ▸ linked) fun _ _ => .bind

theorem binding (raises : machine.scopes.binding? machine.current name = none →
      activity.Raises fuel start (.failure (.error (.runtime (.undefinedVariable name) none)))) :
    Follows fuel activity start (Exec.binding name) machine [] :=
  alone (.binding raises) fun _ => by
    simp only [Exec.binding, Exec.final_get_bind]
    split <;> exact .refl

theorem truth {next : Bool → Exec β} {rest : Bool → Machine → List Part}
    (follows : ∀ holds, machine.heap.isTrue value = .ok holds →
      Follows fuel activity start (next holds) machine (rest holds machine)) :
    Follows fuel activity start (Exec.truth value >>= next) machine
      ((Exec.truth value).andThen machine rest) := by
  refine .own (.tame (.view fun heap => heap.isTrue_nameless value)) fun holds _ isRead => ?_
  obtain ⟨isHolds, rfl⟩ := truth_eq_ok.mp isRead
  exact follows holds isHolds

theorem pure (value : α) : Follows fuel activity start (Pure.pure value) machine [] :=
  tame (.pure value)

end Follows

section Steps

theorem follows_eval :
    Follows fuel (.eval expr) machine (Noxy.eval (fuel + 1) expr) machine
      (partsOfExpr fuel machine expr) := by
  cases expr with
  | int | float | string | bytes | bool | null => exact .pure _
  | identifier => exact .last (.binding .unboundName) fun _ _ _ => .pure _
  | binary => exact .only .binary rfl
  | call => exact .only .call rfl
  | ref => exact .only .reference rfl
  | group => exact .only .group rfl
  | unary operator =>
    cases operator with
    | negate =>
      refine .last (.only .unary rfl) fun value _ _ => ?_
      exact .tame (.bind (.view fun heap => heap.negate_nameless value) fun made => make_tame made)
    | invert =>
      refine .last (.only .unary rfl) fun value _ _ => ?_
      exact .tame (.bind (.view fun heap => heap.isTrue_nameless value) fun _ => .pure _)
  | index =>
    refine .first (.only .indexObject rfl) fun objectValue _ objectEnded => ?_
    refine .last (.only (.indexPosition objectEnded) rfl) fun indexValue _ _ => ?_
    exact .tame (.view fun heap => heap.indexed_nameless objectValue indexValue)
  | field _ name =>
    refine .last (.only .fieldObject rfl) fun value _ _ => ?_
    exact .tame (.view fun heap => heap.selected_nameless value name)
  | array => exact .last (.only .elements rfl) fun values last _ => .tame (.alloc _)
  | map => exact .last (.only .entries rfl) fun _ last _ => .tame (.alloc _)
  | template => exact .last (.only .parts rfl) fun _ last _ => .pure _
  | zeros =>
    refine .last (.only .zeros rfl) fun _ _ _ => ?_
    split
    · exact .tame (.bind (ofExcept_tame (Heap.zeros_nameless _)) fun _ => .alloc _)
    · exact .tame (fail_tame rfl)

theorem follows_evalBinary (left right : Expr) :
    Follows fuel (.evalBinary operator left right) machine
      (Noxy.evalBinary (fuel + 1) operator left right) machine
      (partsOfBinary fuel machine operator left right) := by
  unfold Noxy.evalBinary
  refine .first (.only .leftOperand rfl) fun leftValue middle leftEnded => ?_
  have truthTame (value : Value) : Tame (Exec.truth value) :=
    .view fun heap => heap.isTrue_nameless value
  cases operator with
  | and =>
    refine .truth fun holds isTrue => ?_
    cases holds with
    | true =>
      exact .last (.only (.rightOfAnd leftEnded isTrue) rfl) fun value last _ =>
        .tame (.bind (truthTame value) fun _ => .pure _)
    | false => exact .pure _
  | or =>
    refine .truth fun holds isFalse => ?_
    cases holds with
    | true => exact .pure _
    | false =>
      exact .last (.only (.rightOfOr leftEnded isFalse) rfl) fun value last _ =>
        .tame (.bind (truthTame value) fun _ => .pure _)
  | _ =>
    refine .last (.only (.rightOperand leftEnded BinaryOperator.noConfusion
      BinaryOperator.noConfusion) rfl) fun rightValue last _ => ?_
    exact .tame (.bind (.view fun heap => heap.binary_nameless _ leftValue rightValue)
      fun made => make_tame made)

theorem follows_evalRef :
    Follows fuel (.evalRef expr) machine (Noxy.evalRef (fuel + 1) expr) machine
      (partsOfRef fuel machine expr) := by
  cases expr with
  | identifier =>
    exact .last (.binding .unboundReference) fun _ _ _ => .tame (.alloc _)
  | field =>
    refine .last (.only .refField rfl) fun value _ _ => ?_
    exact .tame (.bind (.view fun heap => heap.dereference_nameless value) fun _ => .alloc _)
  | index =>
    refine .first (.only .refIndex rfl) fun _ _ indexEnded => ?_
    refine .last (.only (.refObject indexEnded) rfl) fun _ _ _ => ?_
    exact .tame (.bind (.look _) fun _ => .alloc _)
  | _ => exact .last (.only (.refValue nofun nofun nofun) rfl) fun _ _ _ => .tame (.alloc _)

theorem follows_evalCall :
    Follows fuel (.evalCall callee arguments) machine (Noxy.evalCall (fuel + 1) callee arguments)
      machine (partsOfCall fuel machine callee arguments) := by
  cases callee with
  | identifier name =>
    simp only [Noxy.evalCall, partsOfCall]
    refine .get ?_
    cases found : machine.callable? name with
    | none => exact .throws (.unknownFunction found)
    | some callable =>
      cases callable with
      | struct => exact .only (.callStruct found) rfl
      | function => exact .only (.callNamed found) rfl
      | builtin =>
        refine .last (.only (.callBuiltin found) rfl) fun values _ _ => ?_
        exact .tame (Builtin.call_tame (find?_of_callable? found) values)
  | field _ name =>
    simp only [Noxy.evalCall, partsOfCall]
    refine .first (.only .methodObject rfl) fun value middle objectEnded => .look ?_
    cases hasMethods : middle.heap.receiver? value with
    | none => exact .only (.callMember objectEnded hasMethods) rfl
    | some receiver =>
      simp only
      cases found : Builtin.find? (receiver.start ++ name) with
      | none => exact .tame (fail_tame rfl)
      | some =>
        refine .last (.only (.methodArguments objectEnded hasMethods found) rfl) fun _ _ _ => ?_
        exact .tame (Builtin.call_tame found _)
  | _ => exact .only (.callOther (fun _ _ => Expr.noConfusion) fun _ _ _ => Expr.noConfusion) rfl

theorem follows_callValue :
    Follows fuel (.callValue callee arguments) machine (Noxy.callValue (fuel + 1) callee arguments)
      machine ((callValue callee arguments).parts fuel machine) := by
  refine .first (.only .callee rfl) fun value _ calleeEnded => ?_
  cases value with
  | function => exact .only (.callFunctionValue calleeEnded) rfl
  | struct => exact .only (.callStructValue calleeEnded) rfl
  | _ => exact .tame (.bind (.look _) fun _ => fail_tame rfl)

theorem follows_construct (struct : Struct) :
    Follows fuel (.construct struct arguments) machine (Noxy.construct (fuel + 1) struct arguments)
      machine ((construct struct arguments).parts fuel machine) := by
  simp only [parts, Noxy.construct, ne_eq, ite_not]
  split
  · rename_i complete
    exact .last (.only (.fieldValues complete) rfl) fun _ _ _ => .tame (.alloc _)
  · exact .tame (fail_tame rfl)

theorem follows_callFunction :
    Follows fuel (.callFunction function arguments) machine
      (Noxy.callFunction (fuel + 1) function arguments) machine
      ((callFunction function arguments).parts fuel machine) := by
  simp only [parts, Noxy.callFunction, ne_eq, ite_not]
  split
  · rename_i complete
    refine .first (.only (.arguments complete) rfl) fun _ _ passed => .asCall (.inScope ?_ ?_)
    · intro wellScoped
      have kept := (disciplined fuel (.evalArguments _)).kept_of_ok wellScoped passed
      exact ⟨kept.wellScoped wellScoped, kept.current⟩
    · exact .first (.ran (.params complete passed) rfl) fun _ _ bound =>
        .ran (.body complete passed bound) rfl
  · exact .tame (fail_tame rfl)

theorem follows_exec :
    Follows fuel (.exec stmt) machine (Noxy.exec (fuel + 1) stmt) machine
      (partsOfStmt fuel machine stmt) := by
  cases stmt with
  | letVar name type initializer location =>
    cases initializer with
    | some initializer =>
      refine .last (.only .initializer rfl) fun value last evaluated =>
        .tamely (fun _ => trivial) ?_
      intro wellScoped
      have kept := (disciplined fuel (.eval _)).kept_of_ok wellScoped evaluated
      exact .define ⟨kept.current, rfl⟩
    | none =>
      refine .last (.tamely ((EndsIn.defaultValue fuel).1 type) fun _ =>
        .allocate ((Machine.isMaking_extends.defaultValue fuel).1 type _)) fun value last made => ?_
      refine .tamely (fun _ => trivial) fun wellScoped => ?_
      have isLocal : Exec.Local .expression (defaultValue fuel type) :=
        (disciplined fuel (.defaultValue type)).lift
      exact .define ⟨(isLocal.kept_of_ok wellScoped made).current, rfl⟩
  | globalVar name type initializer location =>
    exact .last (.only .globalInitializer rfl) fun value last _ =>
      .tamely (fun _ => trivial) fun _ => .define ⟨rfl, rfl⟩
  | assign target value location =>
    exact .first (.only .assignedValue rfl) fun value middle valueEnded =>
      .ran (.assignedTarget valueEnded) rfl
  | expression expr location => exact .last (.only .expression rfl) fun value last _ => .pure _
  | branch condition thenBody elseBody location =>
    refine .first (.only .branchCondition rfl) fun value middle conditionEnded =>
      .truth fun holds isHolds => ?_
    cases holds with
    | true => exact .ran (.thenBody conditionEnded isHolds) rfl
    | false => exact .ran (.elseBody conditionEnded isHolds) rfl
  | loop condition body location => exact .ran .loop rfl
  | returning value location =>
    cases value with
    | some value =>
      exact .last (.only .returnedValue rfl) fun value last valueEnded =>
        .throws (.returning valueEnded)
    | none => exact .throws .returningNothing
  | breaking location => exact .throws .breaking
  | function | struct => exact .pure _
  | use names selection newName location => exact .ran .use rfl

theorem follows_assignTarget :
    Follows fuel (.assignTarget target value) machine (Noxy.assignTarget (fuel + 1) target value)
      machine (partsOfTarget fuel machine target) := by
  cases target with
  | identifier name =>
    refine .alone (.bind (.tamely fun _ => trivial) fun _ _ isMachine => ?_) fun _ =>
      .assign fun _ owned => ⟨owned, rfl⟩
    cases isMachine
    simp only
    cases unbound : machine.scopes.owner? machine.current name with
    | some => exact .tamely fun _ => trivial
    | none =>
      refine .own fun _ signals => ?_
      obtain ⟨_, ended⟩ := signals
      cases ended
      exact .unboundTarget unbound
  | index =>
    refine .first (.only .targetObject rfl) fun _ _ objectEnded => ?_
    refine .last (.only (.targetIndex objectEnded) rfl) fun _ _ _ => .alone ?_ fun _ => ?_
    · exact .bind (.tame (.view fun heap => heap.indexAssignment_nameless _ _ _)) fun _ _ _ =>
        .tamely fun _ => trivial
    · exact .viewApply fun _ made => .inl ⟨_, _, _, made⟩
  | field =>
    refine .last (.only .targetField rfl) fun _ _ _ => .alone ?_ fun _ => ?_
    · exact .bind (.tame (.view fun heap => heap.fieldAssignment_nameless _ _ _)) fun _ _ _ =>
        .tamely fun _ => trivial
    · exact .viewApply fun _ made => .inr ⟨_, _, _, made⟩
  | _ => exact .tame (fail_tame rfl)

theorem follows_execUse :
    Follows fuel (.execUse names selection newName location) machine
      (Noxy.execUse (fuel + 1) names selection newName location) machine
      ((execUse names selection newName location).parts fuel machine) := by
  simp only [parts, Noxy.execUse]
  refine .get ?_
  cases located : Modules.locate machine.world machine.basePath names with
  | error => exact .tame (fault_tame _)
  | ok found =>
    cases found with
    | none => exact .tame (.throw rfl)
    | some path =>
      refine .last (.only (.located located) rfl) fun module loaded isLoaded => ?_
      exact .tamely (LeavesWorld.importSelection _ _ _ module fun _ _ => rfl).endsIn fun _ =>
        .importSelection fun _ imports =>
          ⟨rfl, path, fuel, module, loaded, located, isLoaded, imports⟩

theorem ok_of_proceeds {final : Machine}
    (goesOn : proceeds (loopTurn fuel condition body) machine = .ok true final) :
    ∃ value turned, Noxy.eval fuel condition machine = .ok value turned ∧
      turned.heap.isTrue value = .ok true ∧ Noxy.execBlock fuel body turned = .ok () final := by
  have turned : loopTurn fuel condition body machine = .ok true final := by
    unfold proceeds at goesOn
    split at goesOn
    · cases goesOn
    · exact goesOn
  obtain ⟨value, _, conditionEnded, turned⟩ := exists_of_bind_eq_ok turned
  obtain ⟨holds, _, isRead, turned⟩ := exists_of_bind_eq_ok turned
  obtain ⟨isHolds, rfl⟩ := truth_eq_ok.mp isRead
  cases holds with
  | false => cases turned
  | true =>
    obtain ⟨_, _, bodyEnded, turned⟩ := exists_of_bind_eq_ok turned
    cases turned
    exact ⟨value, _, conditionEnded, isHolds, bodyEnded⟩

theorem parts_execLoop :
    (execLoop condition body).parts fuel machine =
      ((.eval condition, machine) :: (Noxy.eval fuel condition).andThen machine fun value next =>
        (Exec.truth value).andThen next fun holds next =>
          if holds then [(.execBlock body, next)] else []) ++
      (Exec.proceeds (loopTurn fuel condition body)).andThen machine fun goesOn next =>
        if goesOn then [(.execLoop condition body, next)] else [] := by
  simp only [parts, andThen, Exec.proceeds, loopTurn, Bind.bind, EStateM.bind]
  cases Noxy.eval fuel condition machine with
  | error signal => cases signal <;> rfl
  | ok value middle =>
    rcases Exec.truth_cases value middle with ⟨_, failed⟩ | ⟨holds, read⟩
    · simp only [failed]
      rfl
    · simp only [read]
      cases holds with
      | false => rfl
      | true =>
        simp only [if_true, EStateM.bind]
        cases Noxy.execBlock fuel body middle with
        | error signal => cases signal <;> rfl
        | ok => rfl

theorem follows_execLoop :
    Follows fuel (.execLoop condition body) machine (Noxy.execLoop (fuel + 1) condition body)
      machine ((execLoop condition body).parts fuel machine) := by
  rw [parts_execLoop, execLoop_succ]
  refine .bind (.proceeds ?turn) fun goesOn _ turned => ?rest
  case turn =>
    refine .first (.only .loopCondition rfl) fun _ _ conditionEnded =>
      .truth fun holds isHolds => ?_
    cases holds with
    | false => exact .pure _
    | true => exact .last (.ran (.loopBody conditionEnded isHolds) rfl) fun _ _ _ => .pure _
  case rest =>
    cases goesOn with
    | false => exact .pure _
    | true =>
      obtain ⟨_, _, conditionEnded, isTrue, bodyEnded⟩ := ok_of_proceeds turned
      exact .ran (.nextTurn conditionEnded isTrue bodyEnded) rfl

variable {activity : Activity}

theorem failure_of_readModule (signals : (readModule path content).Signals machine signal) :
    ∃ cause, signal = .failure cause := by
  rcases signals.of_bind with ⟨_, ended⟩ | ⟨_, _, isDisk, _, ended⟩
  · cases ended
  · cases isDisk
    cases isText : Modules.sourceText machine.world.disk content with
    | error =>
      simp only [isText] at ended
      cases ended
      exact ⟨_, rfl⟩
    | ok source =>
      simp only [isText] at ended
      cases isParsed : Program.parse source path with
      | ok =>
        rw [isParsed] at ended
        cases ended
      | error cause =>
        rw [isParsed] at ended
        cases ended
        exact ⟨cause, rfl⟩

theorem discard_congr {step other : Exec α} (same : step machine = other start) :
    (discard step) machine = (discard other) start := by
  change (step >>= fun _ => pure PUnit.unit) machine = (other >>= fun _ => pure PUnit.unit) start
  simp only [Bind.bind, EStateM.bind, same]

theorem follows_fillModule
    (found : machine.world.disk.find machine.world.workingDirectory path = .ok (resolved, node))
    (isNew : machine.modules.lookup resolved = none) :
    Follows fuel (.loadModule path) machine
      (fillModule fuel (.object machine.heap.objects.size) path
        (Modules.members machine.world.disk resolved) node)
      (machine.remembering resolved path)
      (partsOfModule fuel (machine.remembering resolved path) (.object machine.heap.objects.size)
        path resolved node) := by
  cases node with
  | directory => exact .ran (.directory found isNew) rfl
  | file content =>
    refine .own (.alone (.own fun signal signals => ?_) fun _ =>
      .plain (readModule_plain path content))
      fun program inside read => .inScope (fun wellScoped => ?_) ?_
    · obtain ⟨cause, rfl⟩ := failure_of_readModule signals
      exact .unreadModule
    · obtain ⟨rfl, _⟩ := readModule_eq_ok.mp read
      exact ⟨⟨wellScoped.scopes, wellScoped.current⟩, rfl⟩
    · refine .first (.ran (.moduleImports found isNew read) rfl) fun _ afterImports imported =>
        .get ?_
      refine .first (.ran (.moduleDefinitions found isNew read imported) rfl)
        fun _ begun defined => ?_
      exact .ran (.moduleGlobals found isNew read imported defined) rfl

theorem follows_run (notLoad : ∀ path, activity ≠ .loadModule path) :
    Follows fuel activity machine (activity.run (fuel + 1)) machine
      (activity.parts fuel machine) := by
  cases activity with
  | eval expr => exact .discarded follows_eval
  | evalBinary operator left right => exact .discarded (follows_evalBinary left right)
  | evalAll exprs =>
    refine .discarded ?_
    cases exprs with
    | nil => exact .pure _
    | cons expr rest =>
      refine .first (.only .firstOfAll rfl) fun value middle firstEnded => ?_
      exact .last (.only (.restOfAll firstEnded) rfl) fun _ _ _ => .pure _
  | evalEntries entries done =>
    refine .discarded ?_
    cases entries with
    | nil => exact .pure _
    | cons entry rest =>
      rw [evalEntries_cons]
      refine .first (.only .entryKey rfl) fun keyValue afterKey keyEnded => ?_
      refine .first (.only (.entryValue keyEnded) rfl) fun entryValue afterValue valueEnded => ?_
      refine .own (.tame (.bind (by unfold Noxy.checkKey; grind) fun _ => Builtin.keyOf_tame _))
        fun mapKey middle isKey => ?_
      exact .only (.restOfEntries keyEnded valueEnded isKey) rfl
  | evalParts parts =>
    refine .discarded ?_
    cases parts with
    | nil => exact .pure _
    | cons first rest =>
      cases first with
      | text content => exact .last (.only .restOfText rfl) fun _ _ _ => .pure _
      | interpolation expr format =>
        refine .first (.only .interpolation rfl) fun value middle exprEnded => ?_
        refine .own (.tame (.view fun heap => heap.formatted_nameless value format))
          fun text last isText => ?_
        obtain ⟨hasText, rfl⟩ := view_eq_ok.mp isText
        exact .last (.only (.restOfParts exprEnded hasText) rfl) fun _ _ _ => .pure _
  | evalRef expr => exact .discarded follows_evalRef
  | evalCall callee arguments => exact .discarded follows_evalCall
  | callValue callee arguments => exact .discarded follows_callValue
  | construct struct arguments => exact .discarded (follows_construct struct)
  | callFunction function arguments => exact .discarded follows_callFunction
  | evalArguments arguments =>
    refine .discarded ?_
    cases arguments with
    | nil => exact .pure _
    | cons first rest =>
      refine .first (.only .firstArgument rfl) fun value middle firstEnded => ?_
      refine .own (.tame (by unfold Noxy.passed; grind)) fun copy last isPassed => ?_
      exact .last (.only (.restOfArguments firstEnded isPassed) rfl) fun _ _ _ => .pure _
  | bindAll params =>
    cases params with
    | nil => exact .pure _
    | cons first rest =>
      obtain ⟨param, value⟩ := first
      refine .own (.tamely (fun _ => ?_) fun _ => ?_) fun _ _ bound =>
        .ran (.restOfParams bound) rfl
      · exact trivial
      · exact .define ⟨rfl, rfl⟩
  | exec stmt => exact follows_exec
  | execAll stmts =>
    cases stmts with
    | nil => exact .pure _
    | cons stmt rest =>
      exact .first (.ran .firstStmt rfl) fun _ middle firstEnded =>
        .ran (.restOfStmts firstEnded) rfl
  | execBlock stmts =>
    exact .get (.inScope (fun wellScoped => ⟨wellScoped, rfl⟩) (.ran .block rfl))
  | execLoop condition body => exact follows_execLoop
  | assignTarget target value => exact follows_assignTarget
  | execUse names selection newName location =>
    exact follows_execUse
  | loadModule path => exact absurd rfl (notLoad path)
  | loadMembers module path members =>
    cases members with
    | nil => exact .pure _
    | cons first rest =>
      refine .first (.only .firstMember rfl) fun member middle loaded => ?_
      exact .own (.tamely (LeavesWorld.setMember _ _ _).endsIn fun _ => .setMember rfl)
          fun _ last isSet =>
        .ran (.restOfMembers loaded isSet) rfl
  | useAll stmts =>
    cases stmts with
    | nil => exact .pure _
    | cons stmt rest =>
      cases stmt with
      | use names selection newName location =>
        exact .first (.ran .firstUse rfl) fun _ middle used => .ran (.restAfterUse used) rfl
      | _ => exact .ran (.restOfUses fun _ _ _ _ => Stmt.noConfusion) rfl
  | defineMembers scope module stmts =>
    cases stmts with
    | nil => exact .pure _
    | cons stmt rest =>
      rw [run, defineMembers_cons]
      refine .own (.tamely (LeavesWorld.defineMembers scope module [stmt]).endsIn fun _ => ?_)
          fun _ middle defined =>
        .ran (.restOfDefinitions defined) rfl
      exact .defineMember rfl fun bound isDefined => ⟨rfl, isDefined⟩
  | evalGlobals module stmts =>
    cases stmts with
    | nil => exact .pure _
    | cons stmt rest =>
      cases stmt with
      | globalVar name type initializer location =>
        rw [run, evalGlobals_globalVar]
        refine .first (.only .globalOfModule rfl) fun value middle evaluated => ?_
        refine .own (.tamely (.bind (fun _ => trivial) fun _ =>
          (LeavesWorld.setMember _ _ _).endsIn) ?_)
          fun _ last isSet => .ran (.restAfterGlobal evaluated isSet) rfl
        intro wellScoped
        have kept := (disciplined fuel (.eval _)).kept_of_ok wellScoped evaluated
        exact .bind (.define ⟨kept.current, rfl⟩) fun _ _ _ => .setMember rfl
      | _ => exact .ran (.restOfGlobals fun _ _ _ _ => Stmt.noConfusion) rfl

/-- An activity goes on as a step that follows its parts, once a module is remembered that it loads.
-/
theorem followed (fuel : Nat) (activity : Activity) (machine : Machine) : ∃ step : Exec Unit,
    activity.run (fuel + 1) machine = step (activity.opened machine) ∧
      Follows fuel activity machine step (activity.opened machine)
        (activity.parts fuel machine) := by
  cases activity with
  | loadModule path =>
    simp only [opened, parts]
    cases isNew : machine.unloaded? path with
    | some place =>
      obtain ⟨resolved, node⟩ := place
      obtain ⟨found, isRemembered⟩ := Machine.unloaded?_eq_some.mp isNew
      refine ⟨discard (do
        fillModule fuel (.object machine.heap.objects.size) path
          (Modules.members machine.world.disk resolved) node
        return Value.object machine.heap.objects.size), ?_, .discarded ?_⟩
      · exact discard_congr (loadModule_new fuel found isRemembered)
      · exact .last (follows_fillModule found isRemembered) fun _ _ _ => .pure _
    | none =>
      refine ⟨_, rfl, .discarded (.alone ?_ fun _ => ?_)⟩
      · rintro _ ⟨_, ended⟩
        rcases loadModule_of_known isNew with ⟨module, same⟩ | ⟨cause, same⟩ <;>
          cases same.symm.trans ended
        exact .tame rfl
      · rw [Exec.final]
        rcases loadModule_of_known isNew with ⟨_, same⟩ | ⟨_, same⟩
        · rw [same]
        · rw [same]
          exact .refl
  | _ => exact ⟨_, rfl, follows_run fun _ => Activity.noConfusion⟩

theorem traced (signals : (activity.run (fuel + 1)).Signals machine signal) :
    activity.Source fuel machine signal := by
  obtain ⟨_, same, follows⟩ := activity.followed fuel machine
  obtain ⟨final, ended⟩ := signals
  exact follows.traced signal ⟨final, same ▸ ended⟩

theorem linked (wellScoped : machine.WellScoped) (activity : Activity) :
    Linked fuel activity machine (activity.opened machine) (activity.parts fuel machine)
      (activity.final (fuel + 1) machine) := by
  obtain ⟨_, same, follows⟩ := activity.followed fuel machine
  rw [final_eq_final_run, Exec.final, same]
  exact follows.linked wellScoped

theorem begins_of_mem_parts (member : (part, begun) ∈ activity.parts fuel machine) :
    Begins fuel activity machine part begun := by
  obtain ⟨_, _, follows⟩ := activity.followed fuel machine
  exact (follows.each part begun member).1

theorem isTame_of_run_zero
    (signals : (activity.run 0).Signals machine signal) : signal.isTame = true := by
  refine EndsTamely.isTame ?_ signals
  cases activity with
  | bindAll params => exact .bindAll params
  | defineMembers scope module stmts => exact (LeavesWorld.defineMembers scope module stmts).endsIn
  | _ => exact fun _ => rfl

end Steps

end Activity

theorem Begins.signals (begins : Begins fuel activity machine part begun)
    (passes : activity.catches signal = false) (signals : (part.run fuel).Signals begun signal) :
    (activity.run (fuel + 1)).Signals machine signal := by
  obtain ⟨_, same, follows⟩ := activity.followed fuel machine
  obtain ⟨final, ended⟩ := (follows.each _ _ (Activity.mem_parts_of_begins begins)).2 signal
    passes signals
  exact ⟨final, same.trans ended⟩

theorem Reaches.signals (reaches : Reaches fuel activity machine fuel' part begun)
    (endsRun : signal.endsRun = true) (signals : (part.run fuel').Signals begun signal) :
    (activity.run fuel).Signals machine signal := by
  induction reaches with
  | here => exact signals
  | inside begins _ ih => exact begins.signals (Activity.catches_of_endsRun _ endsRun) (ih signals)

end Noxy
