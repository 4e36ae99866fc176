import Noxy.Proofs.Moments
import Noxy.Proofs.ScalarChecking
import Noxy.Proofs.ScalarMachine

/-!
# Safety of scalar programs

A scalar program that the checker accepts keeps to its types.
-/

namespace Noxy

open Exec

variable {returns : Option Ty} {inLoop : Bool} {type : Ty} {arguments : List Expr}

def Signal.Allowed (returns : Option Ty) (inLoop : Bool) : Signal → Prop
  | failure cause => cause.OfScalars
  | breaking => inLoop = true
  | returning value => ∃ type, returns = some type ∧ value.isOf type = true
  | exit _ => False

theorem Signal.Allowed.lift {signal : Signal} (allowed : signal.Allowed none false) :
    signal.Allowed returns inLoop := by
  cases signal with
  | failure => exact allowed
  | breaking => exact absurd allowed Bool.false_ne_true
  | returning =>
    obtain ⟨_, isNone, _⟩ := allowed
    cases isNone
  | exit => exact allowed

namespace Exec

variable {α β : Type}

def Keeps (step : Exec α) (machine : Machine) (except : Nat → Prop) (returns : Option Ty)
    (inLoop : Bool) (onValue : α → Machine → Prop) : Prop :=
  Ends step machine
    (fun value final => machine.Steady except final ∧ onValue value final)
    (fun signal final => machine.Steady except final ∧ signal.Allowed returns inLoop)

def Evaluates (step : Exec α) (machine : Machine) (onValue : α → Prop) : Prop :=
  step.Keeps machine (fun _ => False) none false fun value _ => onValue value

variable {except : Nat → Prop}

theorem Keeps.bind {next : α → Exec β} (first : step.Keeps machine except returns inLoop onValue)
    (rest : ∀ value final, machine.Steady except final → onValue value final →
      (next value).Keeps final except returns inLoop onResult) :
    (step >>= next).Keeps machine except returns inLoop onResult := by
  unfold Keeps at first ⊢
  rw [ends_bind]
  refine first.imp ?_ fun _ _ ended => ended
  intro value final ⟨steady, holds⟩
  refine (rest value final steady holds).imp ?_ ?_
  · exact fun result last ⟨later, holdsLast⟩ => ⟨steady.trans later, holdsLast⟩
  · exact fun signal last ⟨later, allowed⟩ => ⟨steady.trans later, allowed⟩

theorem Evaluates.lift {step : Exec α} (evaluates : step.Evaluates machine onValue) :
    step.Keeps machine except returns inLoop fun value final =>
      machine.Steady (fun _ => False) final ∧ onValue value := by
  refine Ends.imp evaluates ?_ ?_
  · exact fun value final kept => ⟨kept.1.lift, kept⟩
  · exact fun signal final ⟨steady, allowed⟩ => ⟨steady.lift, allowed.lift⟩

theorem Evaluates.bind
    {step : Exec α} {next : α → Exec β} {onValue : α → Prop} {onResult : β → Machine → Prop}
    (first : step.Evaluates machine onValue)
    (rest : ∀ value final, machine.Steady (fun _ => False) final → onValue value →
      (next value).Keeps final except returns inLoop onResult) :
    (step >>= next).Keeps machine except returns inLoop onResult :=
  first.lift.bind fun value final _ ⟨steady, holds⟩ => rest value final steady holds

section

variable {machine : Machine} (typed : machine.Typed)
include typed

theorem keeps_pure (holds : onValue value machine) :
    (pure value : Exec α).Keeps machine except returns inLoop onValue :=
  ⟨.refl typed, holds⟩

theorem keeps_throw (allowed : signal.Allowed returns inLoop) :
    (throw signal : Exec α).Keeps machine except returns inLoop onValue :=
  ⟨.refl typed, allowed⟩

theorem keeps_exhausted : (exhausted : Exec α).Keeps machine except returns inLoop onValue :=
  keeps_throw typed .exhausted

theorem keeps_view {read : Heap → Except Failure α} (gives : Gives (read machine.heap) onValue) :
    (view read).Evaluates machine onValue := by
  unfold Evaluates Keeps
  rw [ends_view]
  cases result : read machine.heap <;> rw [result] at gives <;> exact ⟨.refl typed, gives⟩

theorem keeps_make (isOf : made.isOf type = true) :
    (make made).Evaluates machine fun value => value.isOf type = true := by
  cases made with
  | value => exact ⟨.refl typed, isOf⟩
  | float number =>
    have isFloat : type = .float := by cases type <;> simp_all [Made.isOf]
    subst isFloat
    exact ⟨.of_scopes_eq typed rfl rfl, machine.heap.number_isOf number⟩
  | object => cases type <;> cases isOf

theorem keeps_truth (isBool : value.isOf .bool = true) :
    (truth value).Evaluates machine fun _ => True := by
  obtain ⟨_, rfl⟩ := Value.eq_of_isOf_bool isBool
  exact ⟨.refl typed, trivial⟩

end

theorem keeps_inScope {onResult : α → Prop}
    (keeps : body.Keeps (entered outer machine) (· = machine.scopes.scopes.size) returns inLoop
      onValue) (implies : ∀ value final, onValue value final → onResult value) :
    (inScope outer body).Keeps machine (fun _ => False) returns inLoop
      fun value _ => onResult value := by
  unfold Keeps
  rw [ends_inScope]
  refine Ends.imp keeps ?_ ?_
  · exact fun value final ⟨steady, holds⟩ => ⟨steady.left, implies value final holds⟩
  · exact fun signal final ⟨steady, allowed⟩ => ⟨steady.left, allowed⟩

end Exec

/-! ### Statements that return -/

structure Returning (fuel : Nat) : Prop where
  exec : ∀ stmt machine, stmt.returns = true →
    (exec fuel stmt).Ends machine (fun _ _ => False) (fun _ _ => True)
  execAll : ∀ stmts machine, Stmt.anyReturns stmts = true →
    (execAll fuel stmts).Ends machine (fun _ _ => False) (fun _ _ => True)
  execBlock : ∀ stmts machine, Stmt.anyReturns stmts = true →
    (execBlock fuel stmts).Ends machine (fun _ _ => False) (fun _ _ => True)

theorem Exec.ends_anyhow (step : Exec α) :
    step.Ends machine (fun _ _ => True) (fun _ _ => True) := by
  unfold Ends
  split <;> trivial

theorem returning (fuel : Nat) : Returning fuel := by
  induction fuel with
  | zero => constructor <;> exact fun _ _ _ => trivial
  | succ _ ih =>
    constructor
    · intro stmt machine returns
      cases stmt with
      | returning value =>
        cases value with
        | none => exact trivial
        | some =>
          simp only [exec, ends_bind, ends_throw]
          exact ends_anyhow _
      | branch _ thenBody elseBody =>
        simp only [Stmt.returns, Bool.and_eq_true] at returns
        simp only [exec, ends_bind]
        refine (ends_anyhow _).imp (fun _ _ _ => ?_) fun _ _ _ => trivial
        refine (ends_anyhow _).imp (fun holds final _ => ?_) fun _ _ _ => trivial
        cases holds with
        | true => exact ih.execBlock thenBody final returns.1
        | false => exact ih.execBlock elseBody final returns.2
      | _ => cases returns
    · intro stmts machine returns
      cases stmts with
      | nil => cases returns
      | cons stmt rest =>
        simp only [Stmt.anyReturns, Bool.or_eq_true] at returns
        simp only [execAll, ends_bind]
        rcases returns with first | later
        · exact (ih.exec stmt machine first).imp (fun _ _ never => never.elim)
            fun _ _ _ => trivial
        · exact (ends_anyhow _).imp (fun _ final _ => ih.execAll rest final later)
            fun _ _ _ => trivial
    · intro stmts _ returns
      simp only [execBlock, ends_bind, ends_get]
      rw [ends_inScope]
      exact ih.execAll stmts _ returns

/-! ### Evaluation keeps to the rules -/

section

variable (functions : List (String × Function)) (fuel : Nat)

def EvalSound : Prop :=
  ∀ {frames machine expr type}, Agrees functions frames machine →
  HasType functions frames expr type →
  (eval fuel expr).Evaluates machine fun value => value.isOf type = true

def EvalBinarySound : Prop :=
  ∀ {frames machine operator left right leftType rightType type},
  Agrees functions frames machine →
  HasType functions frames left leftType → HasType functions frames right rightType →
  operator.typed leftType rightType = .ok type →
  (evalBinary fuel operator left right).Evaluates machine fun value => value.isOf type = true

def EvalCallSound : Prop :=
  ∀ {frames machine name function arguments location},
  Agrees functions frames machine → Bindings.get? name functions = some function →
  HaveTypes functions frames arguments (function.params.map Declared.type) →
  (evalCall fuel (.identifier name location) arguments).Evaluates machine
    fun value => value.isOf function.returns = true

def CallFunctionSound : Prop :=
  ∀ {frames machine name function arguments},
  Agrees functions frames machine → Bindings.get? name functions = some function →
  HaveTypes functions frames arguments (function.params.map Declared.type) →
  (callFunction fuel function arguments).Evaluates machine
    fun value => value.isOf function.returns = true

def EvalArgumentsSound : Prop :=
  ∀ {frames machine arguments} {params : List Declared},
  Agrees functions frames machine →
  HaveTypes functions frames arguments (params.map Declared.type) →
  (∀ param ∈ params, param.type.isScalar = true) →
  (evalArguments fuel (params.zip arguments)).Evaluates machine fun values =>
    values.length = params.length ∧
      ∀ pair ∈ params.zip values, pair.2.isOf pair.1.type = true

def ExecSound : Prop :=
  ∀ {frames machine returns inLoop stmt}, Agrees functions frames machine →
  StmtTyped functions returns inLoop frames stmt →
  (exec fuel stmt).Keeps machine (· = machine.current) returns inLoop
    fun _ final => Agrees functions (stmt.declaredIn frames) final

def ExecAllSound : Prop :=
  ∀ {frames machine returns inLoop stmts}, Agrees functions frames machine →
  BodyTyped functions returns inLoop frames stmts →
  (execAll fuel stmts).Keeps machine (· = machine.current) returns inLoop fun _ _ => True

def ExecBlockSound : Prop :=
  ∀ {frames machine returns inLoop stmts}, Agrees functions frames machine →
  BodyTyped functions returns inLoop ([] :: frames) stmts →
  (execBlock fuel stmts).Keeps machine (fun _ => False) returns inLoop fun _ _ => True

def ExecLoopSound : Prop :=
  ∀ {frames machine returns inLoop condition body}, Agrees functions frames machine →
  HasType functions frames condition .bool →
  BodyTyped functions returns true ([] :: frames) body →
  (execLoop fuel condition body).Keeps machine (fun _ => False) returns inLoop fun _ _ => True

structure Sound : Prop where
  eval : EvalSound functions fuel
  evalBinary : EvalBinarySound functions fuel
  evalCall : EvalCallSound functions fuel
  callFunction : CallFunctionSound functions fuel
  evalArguments : EvalArgumentsSound functions fuel
  exec : ExecSound functions fuel
  execAll : ExecAllSound functions fuel
  execBlock : ExecBlockSound functions fuel
  execLoop : ExecLoopSound functions fuel

end

namespace Sound

theorem eval_succ (sound : Sound functions fuel) : EvalSound functions (fuel + 1) := by
  intro _ _ _ type agrees typed
  unfold Noxy.eval
  cases typed with
  | int | float | string | bytes | bool => exact keeps_pure agrees.typed rfl
  | identifier found =>
    obtain ⟨_, isBound, isOf⟩ := agrees.binding found
    simp only [Exec.Evaluates, Exec.Keeps, Exec.binding, ends_bind, ends_get, isBound,
      ends_pure]
    exact ⟨.refl agrees.typed, isOf⟩
  | binary left right typed => exact sound.evalBinary agrees left right typed
  | @unary _ operandType operator _ _ operand typed =>
    cases operator with
    | negate =>
      refine (sound.eval agrees operand).bind fun _ final steady isOf => ?_
      have allTyped := steady.typed
      exact (keeps_view allTyped (final.heap.negate_gives isOf typed)).bind
        fun _ _ steadyLast madeIsOf => keeps_make steadyLast.typed madeIsOf
    | invert =>
      have isBool : operandType = .bool ∧ type = .bool := by
        simp only [UnaryOperator.typed] at typed
        split at typed
        · exact ⟨‹_›, (Except.ok.inj typed).symm⟩
        · cases typed
      obtain ⟨rfl, rfl⟩ := isBool
      refine (sound.eval agrees operand).bind fun _ _ steady isOf => ?_
      exact (keeps_truth steady.typed isOf).bind
        fun _ _ steadyLast _ => keeps_pure steadyLast.typed rfl
  | index object index typed =>
    refine (sound.eval agrees object).bind fun _ _ steady isOf => ?_
    refine (sound.eval (agrees.steady steady) index).bind fun _ final later indexIsOf => ?_
    exact keeps_view later.typed (final.heap.indexed_gives isOf indexIsOf typed)
  | group inner => exact sound.eval agrees inner
  | call found arguments => exact sound.evalCall agrees found arguments

theorem evalBinary_succ (sound : Sound functions fuel) : EvalBinarySound functions (fuel + 1) := by
  intro frames machine operator left right leftType rightType type agrees leftTyped rightTyped typed
  -- the right operand of a logical operator gives a truth value wherever it is evaluated
  have decides {final : Machine} (agreesFinal : Agrees functions frames final)
      (rightIsBool : rightType = .bool) :
      (do return .bool (← Exec.truth (← Noxy.eval fuel right)) : Exec Value).Evaluates final
        fun value => value.isOf .bool = true := by
    refine (sound.eval agreesFinal rightTyped).bind fun _ _ steady isOf => ?_
    exact (keeps_truth steady.typed (rightIsBool ▸ isOf)).bind
      fun _ _ steadyEnd _ => keeps_pure steadyEnd.typed rfl
  unfold Noxy.evalBinary
  refine (sound.eval agrees leftTyped).bind fun leftValue middle steady leftIsOf => ?_
  have agreesMiddle := agrees.steady steady
  split
  · obtain ⟨rfl, rightIsBool, rfl⟩ := BinaryOperator.ok_of_typed_logic (.inl rfl) typed
    refine (keeps_truth steady.typed leftIsOf).bind fun holds _ later _ => ?_
    cases holds with
    | true => exact decides (agreesMiddle.steady later) rightIsBool
    | false => exact keeps_pure later.typed rfl
  · obtain ⟨rfl, rightIsBool, rfl⟩ := BinaryOperator.ok_of_typed_logic (.inr rfl) typed
    refine (keeps_truth steady.typed leftIsOf).bind fun holds _ later _ => ?_
    cases holds with
    | true => exact keeps_pure later.typed rfl
    | false => exact decides (agreesMiddle.steady later) rightIsBool
  · rename_i notAnd notOr
    refine (sound.eval agreesMiddle rightTyped).bind fun _ final later rightIsOf => ?_
    have gives := final.heap.binary_gives leftIsOf rightIsOf typed notAnd notOr
    exact (keeps_view later.typed gives).bind
      fun _ _ steadyLast madeIsOf => keeps_make steadyLast.typed madeIsOf

theorem evalCall_succ (sound : Sound functions fuel) : EvalCallSound functions (fuel + 1) := by
  intro _ _ _ _ _ _ agrees found typed
  have isFunction := agrees.callable? found
  simp only [Noxy.evalCall, Exec.Evaluates, Exec.Keeps, ends_bind, ends_get, isFunction]
  exact sound.callFunction agrees found typed

theorem passed_scalar (isScalar : type.isScalar = true) (value : Value) :
    passed type value = pure value := by
  unfold passed
  split <;> simp_all [Ty.isScalar]

theorem evalArguments_succ (sound : Sound functions fuel) :
    EvalArgumentsSound functions (fuel + 1) := by
  intro _ _ _ params agrees typed areScalar
  cases params with
  | nil => exact keeps_pure agrees.typed ⟨rfl, fun pair member => nomatch member⟩
  | cons param =>
    cases typed with
    | @cons _ _ exprs _ first rest =>
      simp only [List.zip_cons_cons, Noxy.evalArguments]
      refine (sound.eval agrees first).bind fun _ _ steady isOf => ?_
      rw [passed_scalar (areScalar param List.mem_cons_self), pure_bind]
      refine (sound.evalArguments (agrees.steady steady) rest
        fun other member => areScalar other (.tail _ member)).bind
        fun values final later ⟨complete, allTyped⟩ => ?_
      refine keeps_pure later.typed ⟨congrArg (· + 1) complete, ?_⟩
      intro pair member
      rcases List.mem_cons.mp member with rfl | member
      · exact isOf
      · exact allTyped pair member

theorem HaveTypes.length (typed : HaveTypes functions frames arguments types) :
    arguments.length = types.length := by
  induction arguments generalizing types with
  | nil =>
    cases typed
    rfl
  | cons _ _ ih =>
    cases typed with
    | cons _ typed => exact congrArg (· + 1) (ih typed)

theorem areScalar_zip (functionTyped : FunctionTyped functions function) :
    ∀ pair ∈ function.params.zip values, pair.1.type.isScalar = true :=
  fun _ member => functionTyped.params _ (List.of_mem_zip member).1

theorem callFunction_succ (sound : Sound functions fuel)
    (functionsTyped : ∀ name function, Bindings.get? name functions = some function →
      FunctionTyped functions function) : CallFunctionSound functions (fuel + 1) := by
  intro _ _ name function arguments agrees found typed
  have functionTyped := functionsTyped name function found
  have complete : arguments.length = function.params.length := by
    rw [HaveTypes.length typed, List.length_map]
  simp only [Noxy.callFunction, ne_eq, complete, not_true_eq_false, if_false]
  refine (sound.evalArguments agrees typed functionTyped.params).bind
    fun values called steady ⟨sameLength, allTyped⟩ => ?_
  have agreesInside := (agrees.steady steady).enteredCall
  -- the body, with its parameters bound
  have bodyKeeps : (do
      bindAll (function.params.zip values)
      Noxy.execAll fuel function.body).Keeps (Exec.entered 0 called)
        (· = called.scopes.scopes.size) (some function.returns) false
        fun _ _ => function.returns = Ty.void := by
    have bound : (bindAll (function.params.zip values)).Keeps (Exec.entered 0 called)
        (· = called.scopes.scopes.size) (some function.returns) false fun _ final =>
          Agrees functions [Frame.withParams [] function.params, []] final := by
      refine (agreesInside.bindAll (areScalar_zip functionTyped) allTyped).imp ?_
        fun _ _ impossible => impossible.elim
      intro _ _ ⟨agreesFinal, steadyFinal⟩
      rw [List.map_fst_zip (Nat.le_of_eq sameLength.symm)] at agreesFinal
      exact ⟨steadyFinal, agreesFinal⟩
    refine bound.bind fun _ final steadyFinal agreesFinal => ?_
    have executed := sound.execAll agreesFinal functionTyped.body
    rw [steadyFinal.current] at executed
    rcases functionTyped.returns with isVoid | always
    · exact executed.imp (fun _ _ ⟨kept, _⟩ => ⟨kept, isVoid⟩) fun _ _ ended => ended
    · refine (executed.and ((returning fuel).execAll function.body final always)).imp ?_ ?_
      · exact fun _ _ ⟨_, never⟩ => never.elim
      · exact fun _ _ ⟨ended, _⟩ => ended
  unfold Exec.Keeps
  rw [ends_asCall]
  refine Exec.Ends.imp (keeps_inScope bodyKeeps fun _ _ isVoid => isVoid) ?_ ?_
  · intro _ final ⟨kept, isVoid⟩
    exact ⟨kept, by rw [isVoid]; rfl⟩
  · intro signal _ ⟨kept, allowed⟩
    cases signal with
    | failure => exact ⟨kept, allowed⟩
    | breaking => exact absurd allowed Bool.false_ne_true
    | returning =>
      obtain ⟨_, isReturned, isOf⟩ := allowed
      exact ⟨kept, Option.some.inj isReturned ▸ isOf⟩
    | exit => exact allowed.elim

theorem defaultValue_evaluates
    (fuel : Nat) (isScalar : type.isScalar = true) (allTyped : machine.Typed) :
    (defaultValue fuel type).Evaluates machine fun value => value.isOf type = true := by
  cases fuel with
  | zero => exact keeps_exhausted allTyped
  | succ =>
    unfold defaultValue
    cases type <;> first | exact keeps_pure allTyped rfl | cases isScalar

theorem define_keeps (returns : Option Ty) (inLoop : Bool)
    (agrees : Agrees functions (frame :: outer) machine) (isCurrent : scope = machine.current)
    (isScalar : type.isScalar = true) (isOf : value.isOf type = true) :
    (Exec.define scope name ⟨type, value, isGlobal⟩).Keeps machine (· = machine.current) returns
      inLoop fun _ final => Agrees functions (Bindings.put name type frame :: outer) final := by
  subst isCurrent
  have declared := agrees.declare name ⟨type, value, isGlobal⟩ ⟨isScalar, isOf⟩
  exact ⟨declared.2, declared.1⟩

theorem assignTarget_evaluates (fuel : Nat) (agrees : Agrees functions frames machine)
    (declared : typeIn frames name = some type) (isOf : value.isOf type = true) :
    (assignTarget fuel (.identifier name location) value).Evaluates machine fun _ => True := by
  cases fuel with
  | zero => exact keeps_exhausted agrees.typed
  | succ =>
    unfold assignTarget
    exact (agrees.assign declared isOf).imp (fun _ _ steady => ⟨steady, trivial⟩)
      fun _ _ impossible => impossible.elim

theorem agrees_of_keeps {step : Exec Unit} (agrees : Agrees functions frames machine)
    (keeps : step.Keeps machine (fun _ => False) returns inLoop fun _ _ => True) :
    step.Keeps machine except returns inLoop fun _ final => Agrees functions frames final := by
  refine Exec.Ends.imp keeps ?_ ?_
  · exact fun _ final ⟨steady, _⟩ => ⟨steady.lift, agrees.steady steady⟩
  · exact fun signal final ⟨steady, allowed⟩ => ⟨steady.lift, allowed⟩

variable (sound : Sound functions fuel)
include sound

theorem exec_succ : ExecSound functions (fuel + 1) := by
  intro frames machine returns inLoop stmt agrees typed
  unfold Noxy.exec
  cases typed with
  | letDefault isScalar =>
    refine (defaultValue_evaluates fuel isScalar agrees.typed).bind
      fun value final steady isOf => ?_
    rw [← steady.current]
    exact define_keeps returns inLoop (agrees.steady steady) rfl isScalar isOf
  | letVar isScalar initializer =>
    refine (sound.eval agrees initializer).bind fun value final steady isOf => ?_
    rw [← steady.current]
    exact define_keeps returns inLoop (agrees.steady steady) rfl isScalar isOf
  | globalVar isScalar initializer =>
    refine (sound.eval agrees initializer).bind fun value final steady isOf => ?_
    have agreesFinal := agrees.steady steady
    rw [← steady.current]
    exact define_keeps returns inLoop agreesFinal agreesFinal.current_eq_zero.symm isScalar isOf
  | assign target value =>
    refine agrees_of_keeps agrees ?_
    refine (sound.eval agrees value).bind fun assigned final steady isOf => ?_
    exact (assignTarget_evaluates fuel (agrees.steady steady) target isOf).lift.imp
      (fun _ _ kept => ⟨kept.1, trivial⟩) fun _ _ => id
  | expression typed =>
    refine agrees_of_keeps agrees ?_
    exact (sound.eval agrees typed).bind fun _ final steady _ =>
      keeps_pure steady.typed trivial
  | branch condition thenTyped elseTyped =>
    refine agrees_of_keeps agrees ?_
    refine (sound.eval agrees condition).bind fun value middle steady isOf => ?_
    refine (keeps_truth steady.typed isOf).bind fun holds final later _ => ?_
    have agreesFinal := (agrees.steady steady).steady later
    cases holds with
    | true => exact sound.execBlock agreesFinal thenTyped
    | false => exact sound.execBlock agreesFinal elseTyped
  | loop condition bodyTyped =>
    exact agrees_of_keeps agrees (sound.execLoop agrees condition bodyTyped)
  | returnValue expected value =>
    exact (sound.eval agrees value).bind fun result final steady isOf =>
      keeps_throw steady.typed ⟨_, expected, isOf⟩
  | returnNothing expected => exact keeps_throw agrees.typed ⟨_, expected, rfl⟩
  | breaking => exact keeps_throw agrees.typed rfl

theorem execAll_succ : ExecAllSound functions (fuel + 1) := by
  intro _ _ _ _ _ agrees typed
  unfold Noxy.execAll
  cases typed with
  | nil => exact keeps_pure agrees.typed trivial
  | cons first rest =>
    refine (sound.exec agrees first).bind fun _ _ steady agreesFinal => ?_
    rw [← steady.current]
    exact sound.execAll agreesFinal rest

theorem execBlock_succ : ExecBlockSound functions (fuel + 1) := by
  intro _ _ _ _ _ agrees typed
  exact keeps_inScope (sound.execAll agrees.enteredBlock typed) fun _ _ _ => trivial

theorem execLoop_succ : ExecLoopSound functions (fuel + 1) := by
  intro _ machine returns inLoop condition body agrees conditionTyped bodyTyped
  -- within a turn a `break` is allowed, and none is left after it
  have turn : (loopTurn fuel condition body).Keeps machine (fun _ => False) returns true
      fun _ _ => True := by
    refine (sound.eval agrees conditionTyped).bind fun _ _ steady isOf => ?_
    refine (keeps_truth steady.typed isOf).bind fun holds _ later _ => ?_
    cases holds with
    | true =>
      have executed := sound.execBlock ((agrees.steady steady).steady later) bodyTyped
      exact executed.bind fun _ _ steadyLast _ => keeps_pure steadyLast.typed trivial
    | false => exact keeps_pure later.typed trivial
  have proceeds : (Exec.proceeds (loopTurn fuel condition body)).Keeps machine (fun _ => False)
      returns inLoop fun _ _ => True := by
    unfold Exec.Keeps
    rw [ends_proceeds]
    refine Exec.Ends.imp turn (fun _ _ ended => ended) ?_
    intro signal _ ⟨steady, allowed⟩
    cases signal with
    | breaking => exact ⟨steady, trivial⟩
    | _ => exact ⟨steady, allowed⟩
  rw [Noxy.execLoop_succ]
  refine proceeds.bind fun next _ steady _ => ?_
  cases next with
  | true => exact sound.execLoop (agrees.steady steady) conditionTyped bodyTyped
  | false => exact keeps_pure steady.typed trivial

end Sound

theorem sound (functionsTyped : ∀ name function, Bindings.get? name functions = some function →
      FunctionTyped functions function) (fuel : Nat) : Sound functions fuel := by
  induction fuel with
  | zero =>
    constructor
    all_goals
      intro _
      intros
      exact keeps_exhausted (Agrees.typed ‹_›)
  | succ _ ih =>
    exact ⟨ih.eval_succ, ih.evalBinary_succ, ih.evalCall_succ, ih.callFunction_succ functionsTyped,
      ih.evalArguments_succ, ih.exec_succ, ih.execAll_succ, ih.execBlock_succ, ih.execLoop_succ⟩

end Noxy
