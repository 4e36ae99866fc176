import Noxy.Eval
import Noxy.Proofs.Scalar

/-!
# The checker keeps to the typing rules

What the checker accepts of a scalar program follows the typing rules.
-/

namespace Noxy

/-! ### Steps of the checker that end well -/

theorem Typed.ok_of_bind {result : Except Failure β} {next : β → Except Failure α} {value : α}
    (ended : (result >>= next) = .ok value) :
    ∃ first, result = .ok first ∧ next first = .ok value := by
  cases result with
  | error => cases ended
  | ok first => exact ⟨first, rfl, ended⟩

namespace Check

variable {α β : Type} {checker : Checker}

section Results

variable {next : β → Check α}

theorem bind_apply : (step >>= next) checker =
    match step checker with
    | .ok value middle => next value middle
    | .error failure middle => .error failure middle := by
  cases ended : step checker <;> simp [bind, EStateM.bind, ended]

theorem pure_apply (value : α) : (pure value : Check α) checker = .ok value checker :=
  rfl

theorem get_apply : (get : Check Checker) checker = .ok checker checker :=
  rfl

theorem modify_apply (change : Checker → Checker) :
    (modify change : Check PUnit) checker = .ok () (change checker) :=
  rfl

theorem enter_apply : enter checker = .ok () checker.enter :=
  rfl

theorem leave_apply : leave checker = .ok () checker.leave :=
  rfl

theorem fail_apply (cause : TypingCause) (location : Location) :
    (fail cause location : Check α) checker = .error (.error (.typing cause location)) checker :=
  rfl

theorem typeOf_apply (expr : Expr) : typeOf expr checker =
    match checker.typeOf expr with
    | .ok type => .ok type checker
    | .error failure => .error failure checker :=
  rfl

theorem require_apply (holds : Bool) (cause : TypingCause) (location : Location) :
    require holds cause location checker =
      if holds then .ok () checker else .error (.error (.typing cause location)) checker := by
  cases holds <;> rfl

theorem ok_of_bind (ended : (step >>= next) checker = .ok value final) :
    ∃ first middle, step checker = .ok first middle ∧ next first middle = .ok value final := by
  rw [bind_apply] at ended
  grind

theorem error_of_bind {failure : Failure}
    (failed : (step >>= next) checker = .error failure final) :
    step checker = .error failure final ∨ ∃ first middle,
      step checker = .ok first middle ∧ next first middle = .error failure final := by
  rw [bind_apply] at failed
  grind

end Results

end Check

theorem defineParams_eq
    (params : List Declared) (checker : Checker) (frame : Frame) (outer : List Frame) :
    defineParams params { checker with inner := frame :: outer } =
      .ok () { checker with inner := frame.withParams params :: outer } := by
  induction params generalizing frame with
  | nil => rfl
  | cons _ _ ih => exact ih _

/-! ### Accepted statements -/

namespace Checker

def inFunction (known : Checker) (params : List Declared) (returns : Ty) : Checker :=
  { known with inner := Frame.withParams [] params :: known.inner, returns := some returns }

end Checker

namespace Stmt

variable {known : Checker}

attribute [local simp] check checkAll Check.bind_apply Check.pure_apply Check.get_apply
  Check.modify_apply Check.enter_apply Check.leave_apply Check.fail_apply Check.typeOf_apply
  Check.require_apply

theorem ok_of_check_letVar
    (checked : (letVar name type initializer location).check known = .ok () later) :
    (∀ expr ∈ initializer, ∃ actual, known.typeOf expr = .ok actual ∧
      type.initializerRefusal? actual = none) ∧ later = known.define name type := by
  cases initializer with
  | none => simp_all
  | some expr =>
    cases typed : known.typeOf expr with
    | error => simp_all
    | ok actual => cases refused : type.initializerRefusal? actual <;> simp_all

theorem ok_of_check_globalVar
    (checked : (globalVar name type initializer location).check known = .ok () later) :
    (∃ actual, known.typeOf initializer = .ok actual ∧ type.accepts actual = true) ∧
      later = known.defineGlobal name type := by
  simp at checked
  grind

theorem ok_of_check_assign (checked : (assign target value location).check known = .ok () later) :
    ∃ expected actual, known.typeOf target = .ok expected ∧ known.typeOf value = .ok actual ∧
      expected.accepts actual = true ∧ later = known := by
  simp at checked
  grind

theorem ok_of_check_expression (checked : (expression expr location).check known = .ok () later) :
    (∃ actual, known.typeOf expr = .ok actual) ∧ later = known := by
  simp at checked
  grind

theorem ok_of_check_branch
    (checked : (branch condition thenBody elseBody location).check known = .ok () later) :
    known.typeOf condition = .ok .bool ∧ ∃ afterThen afterElse,
      checkAll thenBody known.enter = .ok () afterThen ∧
      checkAll elseBody afterThen.leave.enter = .ok () afterElse ∧ later = afterElse.leave := by
  simp at checked
  grind

theorem ok_of_check_loop (checked : (loop condition body location).check known = .ok () later) :
    known.typeOf condition = .ok .bool ∧ ∃ afterBody,
      checkAll body known.enter = .ok () afterBody ∧ later = afterBody.leave := by
  simp at checked
  grind

theorem ok_of_check_function {returns : Ty}
    (checked : (function name params returns body location).check known =
      .ok () later) :
    ∃ afterBody, checkAll body (known.inFunction params returns) = .ok () afterBody ∧
      later = { afterBody.leave with returns := known.returns } := by
  have bound := defineParams_eq params { known with returns := some returns } [] known.inner
  simp [Checker.enter, bound] at checked
  grind [Checker.inFunction]

theorem ok_of_check_returning (expects : known.returns = some expected)
    (checked : (returning value location).check known = .ok () later) :
    match value with
    | none => expected = .void
    | some value => ∃ actual, known.typeOf value = .ok actual ∧ expected.accepts actual = true := by
  cases value <;> simp [checkReturn, expects] at checked <;> grind

theorem eq_of_check_returning (checked : (returning value location).check known = .ok () later) :
    later = known := by
  cases returns : known.returns <;> cases value <;> simp [checkReturn, returns] at checked <;>
    grind

theorem ok_of_checkAll_cons (checked : checkAll (stmt :: rest) known = .ok () later) :
    ∃ middle, stmt.check known = .ok () middle ∧ checkAll rest middle = .ok () later := by
  simp only [checkAll] at checked
  obtain ⟨_, middle, first, rest⟩ := Check.ok_of_bind checked
  exact ⟨middle, first, rest⟩

end Stmt

/-! ### Types without parts -/

theorem Ty.eq_of_accepts {declared actual : Ty} (declaredPrimitive : declared.isPrimitive = true)
    (actualPrimitive : actual.isPrimitive = true) (accepted : declared.accepts actual = true) :
    actual = declared := by
  cases declared <;> simp only [Ty.isPrimitive, Bool.false_eq_true] at declaredPrimitive <;>
    cases actual <;>
      simp_all [Ty.isPrimitive, Ty.accepts, Ty.equal, Ty.sameShape]

theorem Ty.isPrimitive_of_isScalar {type : Ty} (isScalar : type.isScalar = true) :
    type.isPrimitive = true := by
  cases type <;> simp_all [Ty.isScalar, Ty.isPrimitive]

theorem Ty.acceptsArgument_eq {param : Ty} (isScalar : param.isScalar = true) :
    param.acceptsArgument argument = param.accepts argument := by
  cases param <;> simp_all [Ty.isScalar, Ty.acceptsArgument]

theorem Ty.accepts_of_initializer {declared : Ty} (isScalar : declared.isScalar = true)
    (notRefused : declared.initializerRefusal? actual = none) : declared.accepts actual = true := by
  cases declared <;> simp_all [Ty.isScalar, Ty.initializerRefusal?]

/-! ### Expressions -/

theorem typeIn_put :
    typeIn (Bindings.put name type frame :: outer) other =
      if name = other then some type else typeIn (frame :: outer) other := by
  simp only [typeIn, List.findSome?_cons, Bindings.get?_put]
  by_cases same : name = other <;> simp [same]

namespace Checker

theorem ok_of_located (typed : located location result = .ok type) : result = .ok type := by
  cases result <;> cases typed
  rfl

theorem length_typesOf (checker : Checker) : (checker.typesOf exprs).length = exprs.length := by
  induction exprs with
  | nil => rfl
  | cons _ _ ih => simp only [typesOf, List.length_cons, ih]

theorem ok_of_functionTyped (typed : functionTyped name function arguments location = .ok type) :
    arguments.length = function.params.length ∧
      checkArguments (fun number (param : Declared) type =>
        if param.type.acceptsArgument type then none
        else some (.functionArgument number name type.name param.type.name)) location 1 arguments
        function.params = .ok () ∧
      function.returns = type := by
  unfold functionTyped at typed
  split at typed
  · cases typed
  · rename_i sameLength
    obtain ⟨_, checked, returned⟩ := Typed.ok_of_bind typed
    cases returned
    exact ⟨Decidable.not_not.mp sameLength, checked, rfl⟩

theorem typeOfName?_define (checker : Checker) (type : Ty) :
    (checker.define name type).typeOfName? other =
      if name = other then some type else checker.typeOfName? other := by
  unfold define
  split
  · rename_i isOutermost
    simp only [typeOfName?, defineGlobal, isOutermost, List.findSome?_nil, Option.none_or,
      Bindings.get?_put]
  · rename_i scope rest isInner
    simp only [typeOfName?, isInner, List.findSome?_cons, Bindings.get?_put]
    by_cases same : name = other <;> simp [same]

theorem define_eq (checker : Checker) (name : String) (type : Ty) :
    ∃ outermost inner,
      checker.define name type = { checker with outermost := outermost, inner := inner } := by
  unfold define
  split
  · exact ⟨_, checker.inner, rfl⟩
  · exact ⟨checker.outermost, _, rfl⟩

/-- What the checker knows where everything is scalar.  The frames hold the known variables. -/
structure Ready (checker : Checker) (callable : String → Bool) (inFunction : Bool)
    (known : String → Bool) (frames : List Frame) : Prop where
  inFrame : ∃ frame outer, frames = frame :: outer
  agree : ∀ name, known name = true → checker.typeOfName? name = typeIn frames name
  names : ∀ name type, checker.typeOfName? name = some type → type.isScalar = true
  noStructs : checker.structs = []
  functions : ∀ name function, Bindings.get? name checker.functions = some function →
    (∀ param ∈ function.params, param.type.isScalar = true) ∧ function.returns.isPrimitive = true
  finds : ∀ name, callable name = true →
    isReserved name = false ∧ ∃ function, Bindings.get? name checker.functions = some function
  returns : inFunction = true →
    ∃ expected, checker.returns = some expected ∧ expected.isPrimitive = true

namespace Ready

variable {checker : Checker} {callable known : String → Bool} {inFunction : Bool}

theorem enter (ready : checker.Ready callable inFunction known frames) :
    checker.enter.Ready callable inFunction known ([] :: frames) :=
  { ready with inFrame := ⟨[], frames, rfl⟩ }

theorem declare (ready : checker.Ready callable inFunction known (frame :: outer))
    (isScalar : type.isScalar = true)
    (wasKnown : ∀ other, known' other = true → other = name ∨ known other = true) :
    (checker.define name type).Ready callable inFunction known'
      (Bindings.put name type frame :: outer) := by
  have agree : ∀ other, known' other = true → (checker.define name type).typeOfName? other =
      typeIn (Bindings.put name type frame :: outer) other := by
    intro other isKnown
    rw [typeOfName?_define, typeIn_put]
    split
    · rfl
    · rename_i different
      exact ready.agree other ((wasKnown other isKnown).resolve_left (Ne.symm different))
  have names : ∀ other type', (checker.define name type).typeOfName? other = some type' →
      type'.isScalar = true := by
    intro other type' found
    rw [typeOfName?_define] at found
    split at found
    · exact Option.some.inj found ▸ isScalar
    · exact ready.names other type' found
  obtain ⟨_, _, isDefined⟩ := checker.define_eq name type
  rw [isDefined] at agree names ⊢
  exact { ready with inFrame := ⟨_, _, rfl⟩, agree, names }

theorem hasType_identifier (ready : checker.Ready callable inFunction known frames)
    (isKnown : known name = true) (typed : checker.identifierTyped name location = .ok type) :
    typeIn frames name = some type ∧ type.isScalar = true := by
  unfold identifierTyped at typed
  split at typed
  · rename_i found
    cases typed
    exact ⟨(ready.agree name isKnown).symm.trans found, ready.names name type found⟩
  · simp only [struct?, ready.noStructs, Bindings.get?] at typed
    cases typed

theorem ok_of_nameCallTyped (ready : checker.Ready callable inFunction known frames)
    (isCallable : callable name = true)
    (typed : checker.nameCallTyped name arguments location = .ok type) :
    ∃ function, Bindings.get? name checker.functions = some function ∧
      functionTyped name function arguments location = .ok type := by
  obtain ⟨notReserved, function, found⟩ := ready.finds name isCallable
  refine ⟨function, found, ?_⟩
  simpa only [nameCallTyped, struct?, ready.noStructs, Bindings.get?, notReserved,
    Bool.false_eq_true, if_false, function?, found] using typed

mutual

theorem hasType (ready : checker.Ready callable inFunction known frames) :
    ∀ {expr : Expr} {type : Ty}, expr.isScalar callable known = true →
      checker.typeOf expr = .ok type →
        HasType checker.functions frames expr type ∧ type.isPrimitive = true := by
  intro expr _ isScalar typed
  cases expr with
  | int | float | string | bytes | bool =>
    cases typed
    exact ⟨by constructor, rfl⟩
  | identifier =>
    obtain ⟨found, isScalar⟩ := ready.hasType_identifier isScalar typed
    exact ⟨.identifier found, Ty.isPrimitive_of_isScalar isScalar⟩
  | binary =>
    simp only [Expr.isScalar, Bool.and_eq_true] at isScalar
    simp only [typeOf] at typed
    obtain ⟨_, leftTyped, typed⟩ := Typed.ok_of_bind typed
    obtain ⟨_, rightTyped, typed⟩ := Typed.ok_of_bind typed
    obtain ⟨hasLeft, isPrimitive⟩ := hasType ready isScalar.1 leftTyped
    exact ⟨.binary hasLeft (hasType ready isScalar.2 rightTyped).1 (ok_of_located typed),
      BinaryOperator.typed_isPrimitive isPrimitive (ok_of_located typed)⟩
  | unary =>
    simp only [Expr.isScalar] at isScalar
    simp only [typeOf] at typed
    obtain ⟨_, operandTyped, typed⟩ := Typed.ok_of_bind typed
    obtain ⟨hasOperand, isPrimitive⟩ := hasType ready isScalar operandTyped
    exact ⟨.unary hasOperand (ok_of_located typed),
      UnaryOperator.typed_isPrimitive isPrimitive (ok_of_located typed)⟩
  | index =>
    simp only [Expr.isScalar, Bool.and_eq_true] at isScalar
    simp only [typeOf] at typed
    obtain ⟨_, objectTyped, typed⟩ := Typed.ok_of_bind typed
    obtain ⟨_, indexTyped, typed⟩ := Typed.ok_of_bind typed
    obtain ⟨hasObject, isPrimitive⟩ := hasType ready isScalar.1 objectTyped
    exact ⟨.index hasObject (hasType ready isScalar.2 indexTyped).1 (ok_of_located typed),
      Ty.indexed_isPrimitive isPrimitive (ok_of_located typed)⟩
  | group =>
    simp only [Expr.isScalar] at isScalar
    simp only [typeOf] at typed
    obtain ⟨hasInner, isPrimitive⟩ := hasType ready isScalar typed
    exact ⟨.group hasInner, isPrimitive⟩
  | call callee =>
    cases callee with
    | identifier name =>
      simp only [Expr.isScalar, Bool.and_eq_true] at isScalar
      simp only [typeOf] at typed
      obtain ⟨function, found, typed⟩ := ready.ok_of_nameCallTyped isScalar.1 typed
      obtain ⟨sameLength, checked, rfl⟩ := ok_of_functionTyped typed
      obtain ⟨paramsScalar, isPrimitive⟩ := ready.functions name function found
      rw [length_typesOf] at sameLength
      exact ⟨.call found (haveTypes ready isScalar.2 paramsScalar sameLength checked), isPrimitive⟩
    | _ => cases isScalar
  | _ => cases isScalar

theorem haveTypes (ready : checker.Ready callable inFunction known frames) :
    ∀ {exprs : List Expr} {params : List Declared} {number : Nat} {name : String}
      {location : Location}, Expr.areScalar callable known exprs = true →
      (∀ param ∈ params, param.type.isScalar = true) → exprs.length = params.length →
      checkArguments (fun number (param : Declared) type =>
        if param.type.acceptsArgument type then none
        else some (.functionArgument number name type.name param.type.name)) location number
        (checker.typesOf exprs) params = .ok () →
      HaveTypes checker.functions frames exprs (params.map Declared.type)
  | [], [], _, _, _, _, _, _, _ => .nil
  | expr :: exprs, param :: params, number, name, location, areScalar, paramsScalar, sameLength,
      checked => by
    simp only [Expr.areScalar, Bool.and_eq_true] at areScalar
    simp only [typesOf, checkArguments] at checked
    obtain ⟨type, typed, checked⟩ := Typed.ok_of_bind checked
    obtain ⟨hasFirst, isPrimitive⟩ := hasType ready areScalar.1 typed
    obtain ⟨isScalar, restScalar⟩ := List.forall_mem_cons.mp paramsScalar
    rw [Ty.acceptsArgument_eq isScalar] at checked
    by_cases accepted : param.type.accepts type = true
    · simp only [accepted, if_true] at checked
      obtain rfl := Ty.eq_of_accepts (Ty.isPrimitive_of_isScalar isScalar) isPrimitive accepted
      exact .cons hasFirst
        (haveTypes ready areScalar.2 restScalar (Nat.succ.inj sameLength) checked)
    · simp only [accepted] at checked
      cases checked

end

end Ready

end Checker

/-! ### Statements -/

def Stmt.checkedIn (checker : Checker) : Stmt → Checker
  | .letVar name type _ _ => checker.define name type
  | .globalVar name type _ _ => checker.defineGlobal name type
  | _ => checker

mutual

theorem Stmt.typed_of_check {callable : String → Bool} {inFunction : Bool} :
    ∀ {stmt : Stmt} {inLoop : Bool} {known : String → Bool} {frames : List Frame}
      {checker final : Checker}, stmt.isScalar callable inFunction inLoop known = true →
      checker.Ready callable inFunction known frames → stmt.check checker = .ok () final →
        StmtTyped checker.functions checker.returns inLoop frames stmt ∧
          final = stmt.checkedIn checker ∧
          final.Ready callable inFunction (stmt.knownAfter known) (stmt.declaredIn frames) := by
  intro stmt _ known _ _ _ isScalar ready checked
  cases stmt with
  | letVar name type initializer location =>
    obtain ⟨typed, rfl⟩ := ok_of_check_letVar checked
    obtain ⟨_, _, rfl⟩ := ready.inFrame
    have wasKnown (initializer : Option Expr) (other : String)
        (isKnown : (letVar name type initializer location).knownAfter known other = true) :
        other = name ∨ known other = true := by
      simpa [knownAfter] using isKnown
    cases initializer with
    | none => exact ⟨.letDefault isScalar, rfl, ready.declare isScalar (wasKnown none)⟩
    | some initializer =>
      simp only [Stmt.isScalar, Bool.and_eq_true] at isScalar
      obtain ⟨_, typed, notRefused⟩ := typed initializer rfl
      obtain ⟨hasType, isPrimitive⟩ := ready.hasType isScalar.2 typed
      obtain rfl := Ty.eq_of_accepts (Ty.isPrimitive_of_isScalar isScalar.1) isPrimitive
        (Ty.accepts_of_initializer isScalar.1 notRefused)
      exact ⟨.letVar isScalar.1 hasType, rfl, ready.declare isScalar.1
        (wasKnown (some initializer))⟩
  | assign target =>
    cases target with
    | identifier =>
      simp only [Stmt.isScalar, Bool.and_eq_true] at isScalar
      obtain ⟨_, _, targetTyped, typed, accepted, rfl⟩ := ok_of_check_assign checked
      obtain ⟨hasType, isPrimitive⟩ := ready.hasType isScalar.2 typed
      obtain ⟨found, isDeclared⟩ := ready.hasType_identifier isScalar.1 targetTyped
      obtain rfl := Ty.eq_of_accepts (Ty.isPrimitive_of_isScalar isDeclared) isPrimitive accepted
      exact ⟨.assign found hasType, rfl, ready⟩
    | _ => cases isScalar
  | expression =>
    obtain ⟨⟨_, typed⟩, rfl⟩ := ok_of_check_expression checked
    exact ⟨.expression (ready.hasType isScalar typed).1, rfl, ready⟩
  | branch =>
    simp only [Stmt.isScalar, Bool.and_eq_true] at isScalar
    obtain ⟨isBool, _, _, thenChecked, elseChecked, rfl⟩ :=
      ok_of_check_branch checked
    obtain ⟨thenTyped, frame, rfl⟩ := bodyTyped_of_checkAll isScalar.1.2 ready.enter thenChecked rfl
    obtain ⟨elseTyped, _, rfl⟩ := bodyTyped_of_checkAll isScalar.2 ready.enter elseChecked rfl
    exact ⟨.branch (ready.hasType isScalar.1.1 isBool).1 thenTyped elseTyped, rfl, ready⟩
  | loop =>
    simp only [Stmt.isScalar, Bool.and_eq_true] at isScalar
    obtain ⟨isBool, _, bodyChecked, rfl⟩ := ok_of_check_loop checked
    obtain ⟨bodyTyped, _, rfl⟩ := bodyTyped_of_checkAll isScalar.2 ready.enter bodyChecked rfl
    exact ⟨.loop (ready.hasType isScalar.1 isBool).1 bodyTyped, rfl, ready⟩
  | returning value =>
    obtain rfl := eq_of_check_returning checked
    cases value with
    | none =>
      obtain ⟨_, expects, _⟩ := ready.returns isScalar
      obtain rfl := ok_of_check_returning expects checked
      exact ⟨.returnNothing expects, rfl, ready⟩
    | some =>
      simp only [Stmt.isScalar, Bool.and_eq_true] at isScalar
      obtain ⟨_, expects, expectedPrimitive⟩ := ready.returns isScalar.1
      obtain ⟨_, typed, accepted⟩ := ok_of_check_returning expects checked
      obtain ⟨hasType, isPrimitive⟩ := ready.hasType isScalar.2 typed
      obtain rfl := Ty.eq_of_accepts expectedPrimitive isPrimitive accepted
      exact ⟨.returnValue expects hasType, rfl, ready⟩
  | breaking =>
    cases checked
    simp only [Stmt.isScalar] at isScalar
    exact ⟨isScalar ▸ .breaking, rfl, ready⟩
  | _ => cases isScalar

theorem Stmt.bodyTyped_of_checkAll :
    ∀ {stmts : List Stmt} {inLoop : Bool} {known : String → Bool} {frames outer : List Frame}
      {frame : Frame} {checker final : Checker},
      Stmt.areScalar callable inFunction inLoop known stmts = true →
      checker.Ready callable inFunction known frames → checkAll stmts checker = .ok () final →
      checker.inner = frame :: outer →
        BodyTyped checker.functions checker.returns inLoop frames stmts ∧
          ∃ frame', final = { checker with inner := frame' :: outer }
  | [], _, _, _, _, frame, _, _, _, _, checked, inside => by
    cases checked
    exact ⟨.nil, frame, by rw [← inside]⟩
  | stmt :: rest, _, _, _, outer, frame, checker, _, areScalar, ready, checked, inside => by
    simp only [Stmt.areScalar, Bool.and_eq_true] at areScalar
    obtain ⟨middle, firstChecked, checked⟩ := ok_of_checkAll_cons checked
    obtain ⟨firstTyped, same, nextReady⟩ := typed_of_check areScalar.1 ready firstChecked
    have left : ∃ frame', middle = { checker with inner := frame' :: outer } := by
      cases stmt with
      | letVar => exact ⟨_, by rw [same, checkedIn, Checker.define, inside]⟩
      | globalVar => cases areScalar.1
      | _ => exact ⟨frame, same.trans (by rw [← inside]; rfl)⟩
    obtain ⟨_, rfl⟩ := left
    obtain ⟨restTyped, last⟩ := bodyTyped_of_checkAll areScalar.2 nextReady checked rfl
    exact ⟨.cons firstTyped restTyped, last⟩

end

/-! ### Functions -/

theorem Frame.withParams_eq (frame : Frame) :
    frame.withParams params =
      Bindings.putAll (params.map fun param => (param.name, param.type)) frame := by
  induction params generalizing frame with
  | nil => rfl
  | cons _ _ ih => exact ih _

namespace Checker

variable {checker : Checker} {callable : String → Bool}

theorem typeOfName?_inFunction (returns : Ty) :
    (checker.inFunction params returns).typeOfName? name =
      (Bindings.get? name (Frame.withParams [] params)).or (checker.typeOfName? name) := by
  simp only [typeOfName?, inFunction, List.findSome?_cons]
  cases Bindings.get? name (Frame.withParams [] params) <;> rfl

theorem Ready.body {inFunction : Bool} (ready : checker.Ready callable inFunction known frames)
    {returns : Ty} (paramsScalar : ∀ param ∈ params, param.type.isScalar = true)
    (returnsPrimitive : returns.isPrimitive = true) :
    (checker.inFunction params returns).Ready callable true
      (fun name => params.any fun param => param.name = name)
      [Frame.withParams [] params, []] where
  inFrame := ⟨_, _, rfl⟩
  agree name isParam := by
    have isSome : (Bindings.get? name (Frame.withParams [] params)).isSome = true := by
      rw [Frame.withParams_eq, Bindings.isSome_get?_putAll]
      exact .inr (by simpa using isParam)
    obtain ⟨_, found⟩ := Option.isSome_iff_exists.mp isSome
    simp [typeOfName?_inFunction, typeIn, found]
  names name type found := by
    rw [typeOfName?_inFunction] at found
    cases isParam : Bindings.get? name (Frame.withParams [] params) with
    | none => exact ready.names name type (by simpa [isParam] using found)
    | some paramType =>
      cases (by simpa [isParam] using found : paramType = type)
      rw [Frame.withParams_eq] at isParam
      rcases Bindings.mem_putAll (Bindings.mem_of_get? isParam) with member | none
      · obtain ⟨param, isAmong, same⟩ := List.mem_map.mp member
        cases same
        exact paramsScalar param isAmong
      · cases none
  noStructs := ready.noStructs
  functions := ready.functions
  finds := ready.finds
  returns _ := ⟨returns, rfl, returnsPrimitive⟩

theorem Ready.functionTyped (ready : checker.Ready callable false known frames) {returns : Ty}
    {body : List Stmt}
    (isScalar : (Stmt.function name params returns body location).isScalarMember callable = true)
    (checked : (Stmt.function name params returns body location).check checker = .ok () final) :
    FunctionTyped checker.functions ⟨name, params, returns, body, location⟩ ∧
      final = checker := by
  simp only [Stmt.isScalarMember, Bool.and_eq_true, List.all_eq_true, Bool.or_eq_true,
    decide_eq_true_eq] at isScalar
  obtain ⟨⟨⟨paramsScalar, returnsKnown⟩, bodyScalar⟩, returnsAlways⟩ := isScalar
  have returnsPrimitive : returns.isPrimitive = true := by
    rcases returnsKnown with isScalar | rfl
    · exact Ty.isPrimitive_of_isScalar isScalar
    · rfl
  obtain ⟨_, bodyChecked, rfl⟩ := Stmt.ok_of_check_function checked
  obtain ⟨bodyTyped, _, rfl⟩ := Stmt.bodyTyped_of_checkAll bodyScalar
    (ready.body paramsScalar returnsPrimitive) bodyChecked rfl
  exact ⟨⟨paramsScalar, bodyTyped, returnsAlways⟩, rfl⟩

end Checker

/-! ### Programs -/

def Stmt.addTo (functions : List (String × Function)) (stmt : Stmt) : List (String × Function) :=
  match stmt.function? with
  | some definition => Bindings.put definition.name definition functions
  | none => functions

def Program.functions (program : Program) : List (String × Function) :=
  program.foldl Stmt.addTo []

theorem foldl_addTo (stmts : List Stmt) :
    stmts.foldl Stmt.addTo functions = Bindings.putAll
      ((stmts.filterMap Stmt.function?).map fun function => (function.name, function))
      functions := by
  induction stmts generalizing functions with
  | nil => rfl
  | cons stmt _ ih =>
    rw [List.foldl_cons, ih, List.filterMap_cons]
    cases defines : stmt.function? <;> simp [Stmt.addTo, defines, Bindings.putAll]

theorem Program.defines_of_get? (program : Program)
    (found : Bindings.get? name program.functions = some function) :
    ∃ stmt ∈ program, stmt.function? = some function := by
  rw [functions, foldl_addTo] at found
  rcases Bindings.mem_putAll (Bindings.mem_of_get? found) with member | none
  · obtain ⟨_, defined, same⟩ := List.mem_map.mp member
    cases same
    exact List.mem_filterMap.mp defined
  · cases none

variable {callable : String → Bool}

theorem declareAll_eq (areScalar : ∀ stmt ∈ stmts, stmt.isScalarMember callable = true)
    (checker : Checker) :
    declareAll world basePath stmts checker =
      .ok () { checker with functions := stmts.foldl Stmt.addTo checker.functions } := by
  induction stmts generalizing checker with
  | nil => rfl
  | cons stmt _ ih =>
    obtain ⟨isScalar, restScalar⟩ := List.forall_mem_cons.mp areScalar
    cases stmt with
    | function name params returns body location =>
      exact ih restScalar (checker.defineFunction name ⟨name, params, returns, body, location⟩)
    | struct | use => cases isScalar
    | _ => exact ih restScalar checker

theorem Stmt.typed_of_check_member (isScalar : stmt.isScalarMember callable = true)
    (ready : checker.Ready callable false (fun _ => true) [frame]) (isOutside : checker.inner = [])
    (checked : stmt.check checker = .ok () final) :
    final.Ready callable false (fun _ => true) (stmt.declaredIn [frame]) ∧
      final = stmt.checkedIn checker ∧
      (stmt.isAction = true → StmtTyped checker.functions checker.returns false [frame] stmt) ∧
      ∀ function ∈ stmt.function?, FunctionTyped checker.functions function := by
  cases stmt with
  | function =>
    obtain ⟨typed, rfl⟩ := ready.functionTyped isScalar checked
    exact ⟨ready, rfl, nofun, fun _ defines => Option.some.inj defines ▸ typed⟩
  | globalVar name =>
    simp only [isScalarMember, Bool.and_eq_true] at isScalar
    obtain ⟨⟨actual, typed, accepted⟩, rfl⟩ := ok_of_check_globalVar checked
    obtain ⟨hasType, isPrimitive⟩ := ready.hasType isScalar.2 typed
    obtain rfl := Ty.eq_of_accepts (Ty.isPrimitive_of_isScalar isScalar.1) isPrimitive accepted
    refine ⟨?_, rfl, fun _ => .globalVar isScalar.1 hasType, nofun⟩
    have isDefined : checker.define name actual = checker.defineGlobal name actual := by
      rw [Checker.define, isOutside]
    exact isDefined ▸ ready.declare isScalar.1 fun _ _ => .inr rfl
  | letVar _ type initializer =>
    obtain ⟨typed, rfl, _⟩ := typed_of_check isScalar ready checked
    have typeScalar : type.isScalar = true := by
      cases initializer <;> simp_all [isScalarMember, Stmt.isScalar]
    exact ⟨ready.declare typeScalar fun _ _ => .inr rfl, rfl, fun _ => typed, nofun⟩
  | struct | use => cases isScalar
  | _ =>
    obtain ⟨typed, rfl, _⟩ := typed_of_check isScalar ready checked
    exact ⟨ready, rfl, fun _ => typed, nofun⟩

theorem typed_of_checkAll (areScalar : ∀ stmt ∈ stmts, stmt.isScalarMember callable = true)
    (ready : checker.Ready callable false (fun _ => true) [frame]) (isOutside : checker.inner = [])
    (checked : Stmt.checkAll stmts checker = .ok () final) :
    BodyTyped checker.functions checker.returns false [frame] (stmts.filter Stmt.isAction) ∧
      ∀ stmt ∈ stmts, ∀ function ∈ stmt.function?, FunctionTyped checker.functions function := by
  induction stmts generalizing checker frame with
  | nil => exact ⟨.nil, nofun⟩
  | cons stmt _ ih =>
    obtain ⟨isScalar, restScalar⟩ := List.forall_mem_cons.mp areScalar
    obtain ⟨middle, firstChecked, checked⟩ := Stmt.ok_of_checkAll_cons checked
    obtain ⟨nextReady, same, typed, functionsTyped⟩ :=
      Stmt.typed_of_check_member isScalar ready isOutside firstChecked
    have later : ∃ frame', stmt.declaredIn [frame] = [frame'] ∧ middle.inner = [] ∧
        middle.functions = checker.functions ∧ middle.returns = checker.returns := by
      subst same
      cases stmt <;> exact ⟨_, rfl, by
        simp [Stmt.checkedIn, Checker.define, Checker.defineGlobal, isOutside]⟩
    obtain ⟨_, isLater, stillOutside, sameFunctions, sameReturns⟩ := later
    obtain ⟨restTyped, restFunctions⟩ := ih restScalar (isLater ▸ nextReady) stillOutside checked
    rw [sameFunctions, sameReturns] at restTyped
    rw [sameFunctions] at restFunctions
    refine ⟨?_, List.forall_mem_cons.mpr ⟨functionsTyped, restFunctions⟩⟩
    cases isAction : stmt.isAction with
    | true =>
      rw [List.filter_cons_of_pos isAction]
      exact .cons (typed isAction) (isLater ▸ restTyped)
    | false =>
      have unchanged : stmt.declaredIn [frame] = [frame] := by
        cases stmt <;> first | rfl | cases isAction
      rw [List.filter_cons_of_neg (by simp [isAction])]
      rwa [← isLater, unchanged] at restTyped

theorem Checker.ready_program {program : Program}
    (areScalar : ∀ stmt ∈ program, stmt.isScalarMember program.isCallable = true) :
    Ready { Checker.fresh with functions := program.functions } program.isCallable false
      (fun _ => true) [[]] where
  inFrame := ⟨_, _, rfl⟩
  agree _ _ := rfl
  names := nofun
  noStructs := rfl
  functions name function found := by
    obtain ⟨stmt, member, defines⟩ := program.defines_of_get? found
    cases stmt with
    | function =>
      cases defines
      have isScalar := areScalar _ member
      simp only [Stmt.isScalarMember, Bool.and_eq_true, List.all_eq_true, Bool.or_eq_true,
        decide_eq_true_eq] at isScalar
      refine ⟨isScalar.1.1.1, ?_⟩
      rcases isScalar.1.1.2 with returnsScalar | isVoid
      · exact Ty.isPrimitive_of_isScalar returnsScalar
      · simp only [isVoid, Ty.isPrimitive]
    | _ => cases defines
  finds name isCallable := by
    simp only [Program.isCallable, Bool.and_eq_true, Bool.not_eq_true'] at isCallable
    refine ⟨isCallable.1, Option.isSome_iff_exists.mp ?_⟩
    rw [Program.functions, foldl_addTo, Bindings.isSome_get?_putAll]
    obtain ⟨stmt, member, isNamed⟩ := List.any_eq_true.mp isCallable.2
    obtain ⟨function, defines, isName⟩ := (Option.any_eq_true ..).mp isNamed
    refine .inr (List.mem_map.mpr ⟨(function.name, function), List.mem_map.mpr ⟨function, ?_, rfl⟩,
      of_decide_eq_true isName⟩)
    exact List.mem_filterMap.mpr ⟨stmt, member, defines⟩
  returns := nofun

theorem Program.typed_of_check {program : Program} (isScalar : program.isScalar = true)
    (accepted : program.check world basePath .fresh = .ok () final) :
    BodyTyped program.functions none false [[]] (program.filter Stmt.isAction) ∧
      ∀ name function, Bindings.get? name program.functions = some function →
        FunctionTyped program.functions function := by
  have areScalar : ∀ stmt ∈ program, stmt.isScalarMember program.isCallable = true := by
    simpa only [Program.isScalar, List.all_eq_true] using isScalar
  obtain ⟨_, _, declared, checked⟩ := Check.ok_of_bind accepted
  rw [declareAll_eq areScalar] at declared
  cases declared
  obtain ⟨bodyTyped, functionsTyped⟩ :=
    typed_of_checkAll areScalar (Checker.ready_program areScalar) rfl checked
  refine ⟨bodyTyped, fun _ function found => ?_⟩
  obtain ⟨stmt, member, defines⟩ := program.defines_of_get? found
  exact functionsTyped stmt member function defines

end Noxy
