import Noxy.Proofs.ScalarChecking

/-!
# What the checker looks at

The checker goes through a program from its statements down to the operands of its expressions, and
its state changes on the way as variables are declared.
-/

namespace Noxy

/-! ### Accepted calls -/

def Expr.isNamed : Expr → Bool
  | .identifier _ _ => true
  | .field _ _ _ => true
  | _ => false

theorem Signature.exists_builtin (found : Signature.find? name = some signature) :
    ∃ builtin, Builtin.find? name = some builtin := by
  have exist : ∀ entry ∈ Signature.all, (Builtin.find? entry.1).isSome = true := by decide +kernel
  exact Option.isSome_iff_exists.mp (exist (name, signature) (Bindings.mem_of_lookup found))

def Ty.hasMethod (name : String) : Ty → Bool
  | .array _ _ => name ∈ arrayMethods
  | .map _ _ => name ∈ mapMethods
  | _ => false

namespace Checker

/-- `known.Validates arguments location callee target type` says that the checker, in the state
`known`, takes the call of `callee` for a call of `target`, that the arguments fit the fields or
parameters of that, and that the call has the type. -/
inductive Validates (known : Checker) (arguments : List Expr) (location : Location) :
    Expr → Callable → Ty → Prop where
  | construct (isStruct : known.struct? name = some struct)
      (fits : constructed name struct.fields (known.typesOf arguments) location = .ok ()) :
      Validates known arguments location (.identifier name place) (.struct struct)
        (.struct name none)
  | function (noStruct : known.struct? name = none) (isFree : isReserved name = false)
      (isFunction : known.function? name = some function)
      (fits : functionTyped name function (known.typesOf arguments) location = .ok type) :
      Validates known arguments location (.identifier name place) (.function function) type
  | builtin (noStruct : known.struct? name = none)
      (noFunction : isReserved name = true ∨ known.function? name = none)
      (signed : Signature.find? name = some signature)
      (isBuiltin : Builtin.find? name = some builtin)
      (fits : builtinTyped name signature.returns signature.params (known.typesOf arguments)
        location = .ok type) :
      Validates known arguments location (.identifier name place) (.builtin builtin) type
  | methodFunction (typed : known.typeOf object = .ok collection)
      (isMethod : collection.hasMethod name = true)
      (isFunction : known.function? name = some function)
      (fits : functionTyped name function (known.typesOf arguments) location = .ok type) :
      Validates known arguments location (.field object name place) (.function function) type
  | method (typed : known.typeOf object = .ok collection)
      (isMethod : collection.hasMethod name = true) (noFunction : known.function? name = none)
      (signed : Signature.find? name = some signature)
      (isBuiltin : Builtin.find? name = some builtin)
      (fits : builtinTyped name signature.returns signature.params.tail (known.typesOf arguments)
        location = .ok type) :
      Validates known arguments location (.field object name place) (.builtin builtin) type
  | service (typed : known.typeOf object = .ok (.struct struct home))
      (isFamily : methodFamily? struct = some start)
      (signed : Signature.find? (start ++ name) = some signature)
      (isBuiltin : Builtin.find? (start ++ name) = some builtin)
      (fits : builtinTyped (start ++ name) signature.returns signature.params
        (known.typesOf arguments) location = .ok type) :
      Validates known arguments location (.field object name place) (.builtin builtin) type
  | memberFunction (typed : known.typeOf object = .ok (.imported title number))
      (isMember : known.member? number name = some (.function function))
      (fits : functionTyped name function (known.typesOf arguments) location = .ok type) :
      Validates known arguments location (.field object name place) (.function function) type
  | memberStruct (typed : known.typeOf object = .ok (.imported title number))
      (isMember : known.member? number name = some (.struct struct))
      (fits : constructed name struct.fields (known.typesOf arguments) location = .ok ()) :
      Validates known arguments location (.field object name place) (.struct struct)
        (.struct struct.name (some title))

variable {known : Checker}

theorem validates_of_nameCallTyped
    (typed : known.nameCallTyped name (known.typesOf arguments) location = .ok type) :
    ∃ target, known.Validates arguments location (.identifier name place) target type := by
  unfold nameCallTyped at typed
  split at typed
  case h_1 struct isStruct =>
    obtain ⟨_, fits, isType⟩ := Typed.ok_of_bind typed
    cases isType
    exact ⟨_, .construct isStruct fits⟩
  case h_2 noStruct =>
    split at typed
    case h_1 function isFunction =>
      obtain ⟨isFree, isFunction⟩ := Option.ite_none_left_eq_some.mp isFunction
      exact ⟨_, .function noStruct (Bool.eq_false_iff.mpr isFree) isFunction typed⟩
    case h_2 noFunction =>
      split at typed
      · obtain ⟨_, isBuiltin⟩ := Signature.exists_builtin ‹_›
        refine ⟨_, .builtin noStruct ?_ ‹_› isBuiltin typed⟩
        rwa [ite_eq_left_iff, ← Classical.or_iff_not_imp_left] at noFunction
      · cases typed

theorem validates_of_collectionCallTyped (isObject : known.typeOf object = .ok collection)
    (isMethod : collection.hasMethod name = true)
    (typed : known.collectionCallTyped collection name (known.typesOf arguments) location =
      .ok type) :
    ∃ target, known.Validates arguments location (.field object name place) target type := by
  unfold collectionCallTyped at typed
  split at typed
  · exact ⟨_, .methodFunction isObject isMethod ‹_› typed⟩
  · split at typed
    · obtain ⟨_, isBuiltin⟩ := Signature.exists_builtin ‹_›
      exact ⟨_, .method isObject isMethod ‹_› ‹_› isBuiltin typed⟩
    · cases typed

theorem validates_of_methodCallTyped (isObject : known.typeOf object = .ok owner)
    (typed : known.methodCallTyped owner name (known.typesOf arguments) location = .ok type) :
    ∃ target, known.Validates arguments location (.field object name place) target type := by
  unfold methodCallTyped at typed
  split at typed
  case h_1 title number =>
    unfold memberCallTyped at typed
    split at typed
    · cases typed
    · exact ⟨_, .memberFunction isObject ‹_› typed⟩
    · obtain ⟨_, fits, isType⟩ := Typed.ok_of_bind typed
      cases isType
      exact ⟨_, .memberStruct isObject ‹_› fits⟩
    · cases typed
  case h_2 struct home =>
    split at typed
    · cases typed
    · obtain ⟨_, isFamily, rfl⟩ := Option.map_eq_some_iff.mp ‹_›
      split at typed
      · obtain ⟨_, isBuiltin⟩ := Signature.exists_builtin ‹_›
        exact ⟨_, .service isObject isFamily ‹_› isBuiltin typed⟩
      · cases typed
  case h_3 | h_4 =>
    split at typed
    · exact validates_of_collectionCallTyped isObject (decide_eq_true ‹_›) typed
    · cases typed
  case h_5 => cases typed

theorem methodCallTyped_of_hasMethod (isMethod : collection.hasMethod name = true) :
    known.methodCallTyped collection name types location =
      known.collectionCallTyped collection name types location := by
  cases collection with
  | array | map => exact if_pos (of_decide_eq_true isMethod)
  | _ => cases isMethod

theorem validates_iff (isNamed : callee.isNamed = true) :
    known.typeOf (.call callee arguments location) = .ok type ↔
      ∃ target, known.Validates arguments location callee target type := by
  constructor
  · intro typed
    cases callee with
    | identifier =>
      rw [typeOf] at typed
      exact validates_of_nameCallTyped typed
    | field =>
      rw [typeOf] at typed
      obtain ⟨_, isObject, typed⟩ := Typed.ok_of_bind typed
      exact validates_of_methodCallTyped isObject typed
    | _ => cases isNamed
  · rintro ⟨_, validates⟩
    cases validates with
    | construct isStruct fits =>
      rw [typeOf, nameCallTyped, isStruct]
      simp only [fits]
      rfl
    | function noStruct isFree isFunction fits =>
      simp [typeOf, nameCallTyped, noStruct, isFree, isFunction, fits]
    | builtin noStruct noFunction signed _ fits =>
      have isNone : (if isReserved _ then none else known.function? _) = none :=
        ite_eq_left_iff.mpr fun isFree => noFunction.resolve_left isFree
      simp [typeOf, nameCallTyped, noStruct, isNone, signed, fits]
    | methodFunction typed isMethod isFunction fits =>
      simp only [typeOf, typed, Bind.bind, Except.bind, methodCallTyped_of_hasMethod isMethod,
        collectionCallTyped, isFunction, fits]
    | method typed isMethod noFunction signed _ fits =>
      simp only [typeOf, typed, Bind.bind, Except.bind, methodCallTyped_of_hasMethod isMethod,
        collectionCallTyped, noFunction, signed, fits]
    | service typed isFamily signed _ fits =>
      simp only [typeOf, typed, Bind.bind, Except.bind, methodCallTyped, isFamily, Option.map_some,
        signed, fits]
    | memberFunction typed isMember fits =>
      simp only [typeOf, typed, Bind.bind, Except.bind, methodCallTyped, memberCallTyped, isMember,
        fits]
    | memberStruct typed isMember fits =>
      simp only [typeOf, typed, Bind.bind, Except.bind, methodCallTyped, memberCallTyped, isMember,
        fits]
      rfl

end Checker

/-! ### Accepted expressions -/

inductive ExprPart : Expr → Expr → Prop where
  | left : ExprPart (.binary left operator right location) left
  | right : ExprPart (.binary left operator right location) right
  | operand : ExprPart (.unary operator operand location) operand
  | receiver : ExprPart (.call (.field object name place) arguments location) object
  | argument (member : argument ∈ arguments) : ExprPart (.call callee arguments location) argument
  | indexed : ExprPart (.index object index location) object
  | position : ExprPart (.index object index location) index
  | selected : ExprPart (.field object name location) object
  | element (member : element ∈ elements) : ExprPart (.array elements location) element
  | key (member : (key, value) ∈ entries) : ExprPart (.map entries location) key
  | value (member : (key, value) ∈ entries) : ExprPart (.map entries location) value
  | referred : ExprPart (.ref value location) value
  | size : ExprPart (.zeros size location) size
  | grouped : ExprPart (.group body location) body

section Arguments

def AllTyped (results : List Typed) : Prop :=
  ∀ result ∈ results, ∃ type, result = .ok type

theorem allTyped_cons (isFirst : first = .ok firstType) (all : AllTyped rest) :
    AllTyped (first :: rest) :=
  List.forall_mem_cons.mpr ⟨⟨firstType, isFirst⟩, all⟩

theorem allTyped_of_checkAll (checked : checkAll arguments = .ok ()) : AllTyped arguments := by
  induction arguments with
  | nil => exact nofun
  | cons _ _ ih =>
    obtain ⟨_, isFirst, checked⟩ := Typed.ok_of_bind checked
    exact allTyped_cons isFirst (ih checked)

theorem allTyped_of_checkArguments {refusal? : Nat → α → Ty → Option TypingCause} {params : List α}
    (complete : arguments.length ≤ params.length)
    (checked : checkArguments refusal? location number arguments params = .ok ()) :
    AllTyped arguments := by
  induction arguments generalizing number params with
  | nil => exact nofun
  | cons _ _ ih =>
    cases params with
    | nil => exact absurd complete (Nat.not_succ_le_zero _)
    | cons =>
      rw [checkArguments] at checked
      obtain ⟨_, isFirst, checked⟩ := Typed.ok_of_bind checked
      split at checked
      · cases checked
      · exact allTyped_cons isFirst (ih (Nat.le_of_succ_le_succ complete) checked)

theorem allTyped_of_constructed (checked : constructed name fields arguments location = .ok ()) :
    AllTyped arguments := by
  unfold constructed at checked
  split at checked
  · cases checked
  · rename_i complete
    exact allTyped_of_checkArguments (Nat.le_of_eq (Decidable.not_not.mp complete)) checked

theorem allTyped_of_functionTyped
    (typed : functionTyped name function arguments location = .ok type) : AllTyped arguments := by
  obtain ⟨complete, checked, _⟩ := Checker.ok_of_functionTyped typed
  exact allTyped_of_checkArguments (Nat.le_of_eq complete) checked

theorem allTyped_of_builtinTyped
    (typed : builtinTyped name returns params arguments location = .ok type) :
    AllTyped arguments := by
  unfold builtinTyped at typed
  split at typed
  · obtain ⟨_, checked, _⟩ := Typed.ok_of_bind typed
    exact allTyped_of_checkAll checked
  · split at typed
    · cases typed
    · rename_i complete
      obtain ⟨_, checked, _⟩ := Typed.ok_of_bind typed
      exact allTyped_of_checkArguments (Nat.le_of_eq (Decidable.not_not.mp complete)) checked

theorem allTyped_of_arrayTyped (typed : arrayTyped location arguments = .ok type) :
    AllTyped arguments := by
  cases arguments with
  | nil => exact nofun
  | cons =>
    obtain ⟨_, isFirst, typed⟩ := Typed.ok_of_bind typed
    obtain ⟨_, checked, _⟩ := Typed.ok_of_bind typed
    exact allTyped_cons isFirst (allTyped_of_checkArguments (by simp) checked)

theorem allTyped_of_checkEntries (checked : checkEntries key value location entries = .ok ()) :
    AllTyped (entries.map Prod.fst) ∧ AllTyped (entries.map Prod.snd) := by
  induction entries with
  | nil => exact ⟨nofun, nofun⟩
  | cons _ _ ih =>
    rw [checkEntries] at checked
    obtain ⟨_, isKey, checked⟩ := Typed.ok_of_bind checked
    obtain ⟨_, isValue, checked⟩ := Typed.ok_of_bind checked
    split at checked
    · cases checked
    · split at checked
      · cases checked
      · exact ⟨allTyped_cons isKey (ih checked).1, allTyped_cons isValue (ih checked).2⟩

theorem allTyped_of_mapTyped (typed : mapTyped location entries = .ok type) :
    AllTyped (entries.map Prod.fst) ∧ AllTyped (entries.map Prod.snd) := by
  cases entries with
  | nil => exact ⟨nofun, nofun⟩
  | cons =>
    obtain ⟨_, isKey, typed⟩ := Typed.ok_of_bind typed
    obtain ⟨_, isValue, typed⟩ := Typed.ok_of_bind typed
    obtain ⟨_, checked, _⟩ := Typed.ok_of_bind typed
    obtain ⟨keys, values⟩ := allTyped_of_checkEntries checked
    exact ⟨allTyped_cons isKey keys, allTyped_cons isValue values⟩

end Arguments

namespace Checker

variable {known : Checker}

theorem typesOf_eq : known.typesOf exprs = exprs.map known.typeOf := by
  induction exprs with
  | nil => rfl
  | cons _ _ ih => rw [typesOf, ih, List.map_cons]

theorem entryTypes_eq :
    known.entryTypes entries =
      entries.map fun entry => (known.typeOf entry.1, known.typeOf entry.2) := by
  induction entries with
  | nil => rfl
  | cons _ _ ih => rw [entryTypes, ih, List.map_cons]

theorem allTyped_of_call (typed : known.typeOf (.call callee exprs location) = .ok type) :
    AllTyped (known.typesOf exprs) := by
  cases isNamed : callee.isNamed with
  | true =>
    obtain ⟨_, validates⟩ := (validates_iff isNamed).mp typed
    cases validates with
    | construct _ fits | memberStruct _ _ fits => exact allTyped_of_constructed fits
    | function _ _ _ fits | methodFunction _ _ _ fits | memberFunction _ _ fits =>
      exact allTyped_of_functionTyped fits
    | builtin _ _ _ _ fits | method _ _ _ _ _ fits | service _ _ _ _ fits =>
      exact allTyped_of_builtinTyped fits
  | false =>
    cases callee with
    | identifier | field => cases isNamed
    | _ =>
      simp only [typeOf] at typed
      obtain ⟨_, checked, _⟩ := Typed.ok_of_bind typed
      exact allTyped_of_checkAll checked

theorem typed_part (isPart : ExprPart expr part) (typed : known.typeOf expr = .ok type) :
    ∃ partType, known.typeOf part = .ok partType := by
  cases isPart with
  | left | operand | indexed | selected | referred | size | receiver =>
    simp only [typeOf] at typed
    obtain ⟨partType, isTyped, _⟩ := Typed.ok_of_bind typed
    exact ⟨partType, isTyped⟩
  | right | position =>
    simp only [typeOf] at typed
    obtain ⟨_, _, typed⟩ := Typed.ok_of_bind typed
    obtain ⟨partType, isTyped, _⟩ := Typed.ok_of_bind typed
    exact ⟨partType, isTyped⟩
  | grouped =>
    simp only [typeOf] at typed
    exact ⟨type, typed⟩
  | argument member =>
    have all := allTyped_of_call typed
    rw [typesOf_eq] at all
    exact all _ (List.mem_map_of_mem member)
  | element member =>
    simp only [typeOf, typesOf_eq] at typed
    exact allTyped_of_arrayTyped typed _ (List.mem_map_of_mem member)
  | key member =>
    simp only [typeOf, entryTypes_eq] at typed
    obtain ⟨keys, _⟩ := allTyped_of_mapTyped typed
    exact keys _ (List.mem_map_of_mem (List.mem_map_of_mem member))
  | value member =>
    simp only [typeOf, entryTypes_eq] at typed
    obtain ⟨_, values⟩ := allTyped_of_mapTyped typed
    exact values _ (List.mem_map_of_mem (List.mem_map_of_mem member))

end Checker

/-! ### Sites -/

inductive Site where
  | body (stmts : List Stmt)
  | stmt (stmt : Stmt)
  | expr (expr : Expr)

namespace Site

def Accepted (known : Checker) : Site → Prop
  | body stmts => ∃ later, Stmt.checkAll stmts known = .ok () later
  | stmt statement => ∃ later, statement.check known = .ok () later
  | expr expression => ∃ type, known.typeOf expression = .ok type

end Site

/-- `Contains known site inner part` says that the checker, when it looks at the site in the state
`known`, looks at the part in the state `inner`. -/
inductive Contains : Checker → Site → Checker → Site → Prop where
  | first : Contains known (.body (stmt :: rest)) known (.stmt stmt)
  | rest (checked : stmt.check known = .ok () later) :
      Contains known (.body (stmt :: rest)) later (.body rest)
  | initializer :
      Contains known (.stmt (.letVar name type (some initializer) location)) known
        (.expr initializer)
  | globalInitializer :
      Contains known (.stmt (.globalVar name type initializer location)) known (.expr initializer)
  | target : Contains known (.stmt (.assign target value location)) known (.expr target)
  | assigned : Contains known (.stmt (.assign target value location)) known (.expr value)
  | expression : Contains known (.stmt (.expression expr location)) known (.expr expr)
  | branchCondition :
      Contains known (.stmt (.branch condition thenBody elseBody location)) known (.expr condition)
  | thenBody :
      Contains known (.stmt (.branch condition thenBody elseBody location)) known.enter
        (.body thenBody)
  | elseBody (checked : Stmt.checkAll thenBody known.enter = .ok () later) :
      Contains known (.stmt (.branch condition thenBody elseBody location)) later.leave.enter
        (.body elseBody)
  | loopCondition :
      Contains known (.stmt (.loop condition body location)) known (.expr condition)
  | loopBody :
      Contains known (.stmt (.loop condition body location)) known.enter (.body body)
  | functionBody :
      Contains known (.stmt (.function name params returns body location))
        (known.inFunction params returns) (.body body)
  | returned (expected : known.returns = some returns) :
      Contains known (.stmt (.returning (some value) location)) known (.expr value)
  | part (isPart : ExprPart expr part) : Contains known (.expr expr) known (.expr part)

/-- What the checker comes to when it checks a site. -/
inductive Visits : Checker → Site → Checker → Site → Prop where
  | here : Visits known site known site
  | inside (contains : Contains known site state part) (visits : Visits state part last other) :
      Visits known site last other

section Acceptance

variable {known : Checker} {part : Site}

theorem Contains.accepted (contains : Contains known site state part)
    (accepted : site.Accepted known) : part.Accepted state := by
  cases contains <;> obtain ⟨result, checked⟩ := accepted
  case first =>
      obtain ⟨middle, first, _⟩ := Stmt.ok_of_checkAll_cons checked
      exact ⟨middle, first⟩
  case rest isFirst =>
      obtain ⟨_, first, rest⟩ := Stmt.ok_of_checkAll_cons checked
      cases first.symm.trans isFirst
      exact ⟨result, rest⟩
  case initializer => exact ((Stmt.ok_of_check_letVar checked).1 _ rfl).imp fun _ => And.left
  case globalInitializer => exact (Stmt.ok_of_check_globalVar checked).1.imp fun _ => And.left
  case target | assigned =>
      obtain ⟨_, _, _, _, _⟩ := Stmt.ok_of_check_assign checked
      exact ⟨_, by assumption⟩
  case expression => exact (Stmt.ok_of_check_expression checked).1
  case branchCondition => exact ⟨.bool, (Stmt.ok_of_check_branch checked).1⟩
  case thenBody =>
      obtain ⟨_, afterThen, _, thenChecked, _⟩ := Stmt.ok_of_check_branch checked
      exact ⟨afterThen, thenChecked⟩
  case elseBody isThen =>
      obtain ⟨_, _, afterElse, thenChecked, elseChecked, _⟩ := Stmt.ok_of_check_branch checked
      cases thenChecked.symm.trans isThen
      exact ⟨afterElse, elseChecked⟩
  case loopCondition => exact ⟨.bool, (Stmt.ok_of_check_loop checked).1⟩
  case loopBody =>
      obtain ⟨_, afterBody, bodyChecked, _⟩ := Stmt.ok_of_check_loop checked
      exact ⟨afterBody, bodyChecked⟩
  case functionBody =>
      obtain ⟨afterBody, bodyChecked, _⟩ := Stmt.ok_of_check_function checked
      exact ⟨afterBody, bodyChecked⟩
  case returned expected =>
      obtain ⟨actual, typed, _⟩ := Stmt.ok_of_check_returning expected checked
      exact ⟨actual, typed⟩
  case part isPart => exact Checker.typed_part isPart checked

theorem Visits.accepted (visits : Visits known site state part) (accepted : site.Accepted known) :
    part.Accepted state := by
  induction visits with
  | here => exact accepted
  | inside contains _ ih => exact ih (contains.accepted accepted)

theorem Visits.trans (first : Visits known site state part)
    (second : Visits state part last other) :
    Visits known site last other := by
  induction first with
  | here => exact second
  | inside contains _ ih => exact .inside contains (ih second)

end Acceptance

/-! ### What checking declares -/

mutual

def Stmt.globals : Stmt → List String
  | .globalVar name _ _ _ => [name]
  | .branch _ thenBody elseBody _ => Stmt.globalsOf thenBody ++ Stmt.globalsOf elseBody
  | .loop _ body _ => Stmt.globalsOf body
  | .function _ _ _ body _ => Stmt.globalsOf body
  | _ => []

def Stmt.globalsOf : List Stmt → List String
  | [] => []
  | stmt :: rest => stmt.globals ++ Stmt.globalsOf rest

end

def Stmt.declaredInner : Stmt → List Frame → List Frame
  | .letVar name type _ _, frame :: outer => Bindings.put name type frame :: outer
  | _, inner => inner

def Stmt.declaredGlobally (stmt : Stmt) (inner : List Frame) (name : String) : Prop :=
  name ∈ stmt.globals ∨ inner = [] ∧ ∃ type initializer location,
    stmt = .letVar name type initializer location

namespace Checker

/-- A later state of the checker: functions, structs, modules and the expected result are the same,
and some names were declared in the outermost scope. -/
structure Grows (known later : Checker) (names : String → Prop) : Prop where
  functions : later.functions = known.functions
  structs : later.structs = known.structs
  returns : later.returns = known.returns
  interfaces : later.interfaces = known.interfaces
  outermost : ∀ name, (Bindings.get? name later.outermost).isSome = true ↔
    (Bindings.get? name known.outermost).isSome = true ∨ names name

variable {known : Checker} {names names' : String → Prop}

theorem Grows.refl (known : Checker) (none : ∀ name, ¬ names name) : known.Grows known names :=
  ⟨rfl, rfl, rfl, rfl, fun name => (or_iff_left (none name)).symm⟩

theorem Grows.trans (first : known.Grows later names) (second : later.Grows last names') :
    known.Grows last fun name => names name ∨ names' name where
  functions := second.functions.trans first.functions
  structs := second.structs.trans first.structs
  returns := second.returns.trans first.returns
  interfaces := second.interfaces.trans first.interfaces
  outermost name := by rw [second.outermost, first.outermost, or_assoc]

theorem Grows.congr (grows : known.Grows later names) (same : ∀ name, names name ↔ names' name) :
    known.Grows later names' :=
  { grows with outermost := fun name => (grows.outermost name).trans (or_congr_right (same name)) }

theorem Grows.leave (grows : known.enter.Grows later names) : known.Grows later.leave names :=
  ⟨grows.functions, grows.structs, grows.returns, grows.interfaces, grows.outermost⟩

theorem Grows.defineGlobal (known : Checker) (name : String) (type : Ty) :
    known.Grows (known.defineGlobal name type) (· = name) := by
  refine ⟨rfl, rfl, rfl, rfl, fun other => ?_⟩
  rw [Checker.defineGlobal, Bindings.get?_put]
  by_cases same : name = other
  · simp [same]
  · simp [same, Ne.symm same]

theorem Grows.define (known : Checker) (name : String) (type : Ty) :
    known.Grows (known.define name type) fun other => known.inner = [] ∧ other = name := by
  unfold Checker.define
  split
  · rename_i isOutermost
    exact (Grows.defineGlobal known name type).congr fun _ => (and_iff_right isOutermost).symm
  · rename_i isInner
    exact ⟨rfl, rfl, rfl, rfl, fun _ => by simp [isInner]⟩

theorem inner_define :
    (known.define name type).inner =
      (Stmt.letVar name type initializer location).declaredInner known.inner := by
  unfold Checker.define Stmt.declaredInner
  cases inner : known.inner with
  | nil => exact inner
  | cons => rfl

end Checker

namespace Stmt

variable {known : Checker}

mutual

theorem check_passes {stmt : Stmt} {known later : Checker}
    (checked : stmt.check known = .ok () later) :
    known.Grows later (stmt.declaredGlobally known.inner) ∧
      later.inner = stmt.declaredInner known.inner := by
  cases stmt with
  | letVar name type =>
    obtain ⟨_, rfl⟩ := ok_of_check_letVar checked
    refine ⟨(Checker.Grows.define known name type).congr fun _ => ?_,
      known.inner_define⟩
    simp [declaredGlobally, globals, eq_comm]
  | globalVar name type =>
    obtain ⟨_, rfl⟩ := ok_of_check_globalVar checked
    refine ⟨(Checker.Grows.defineGlobal known name type).congr fun _ => ?_, rfl⟩
    simp [declaredGlobally, globals]
  | branch =>
    obtain ⟨_, _, _, thenChecked, elseChecked, rfl⟩ := ok_of_check_branch checked
    obtain ⟨thenGrows, _, thenInner⟩ := checkAll_passes thenChecked rfl
    obtain ⟨elseGrows, _, elseInner⟩ := checkAll_passes elseChecked rfl
    refine ⟨(thenGrows.leave.trans elseGrows.leave).congr fun _ => ?_, ?_⟩
    · simp [declaredGlobally, globals]
    · rw [Checker.leave, elseInner, List.tail_cons, Checker.leave, thenInner, List.tail_cons]
      rfl
  | loop =>
    obtain ⟨_, _, bodyChecked, rfl⟩ := ok_of_check_loop checked
    obtain ⟨grows, _, inner⟩ := checkAll_passes bodyChecked rfl
    refine ⟨grows.leave.congr fun _ => by simp [declaredGlobally, globals], ?_⟩
    rw [Checker.leave, inner, List.tail_cons]
    rfl
  | function name =>
    obtain ⟨afterBody, bodyChecked, rfl⟩ := ok_of_check_function checked
    obtain ⟨grows, _, inner⟩ := checkAll_passes bodyChecked rfl
    refine ⟨⟨grows.functions, grows.structs, rfl, grows.interfaces, fun name => ?_⟩, ?_⟩
    · exact (grows.outermost name).trans (or_congr_right (by simp [declaredGlobally, globals]))
    · change afterBody.inner.tail = _
      rw [inner, List.tail_cons]
      rfl
  | assign | expression | returning | breaking | struct | use =>
    obtain rfl : later = known := by
      first
      | exact eq_of_check_returning checked
      | exact (ok_of_check_expression checked).2
      | exact (ok_of_check_assign checked).elim fun _ ⟨_, _, _, _, same⟩ => same
      | exact (EStateM.Result.ok.inj checked).2.symm
    exact ⟨.refl _ (by simp [declaredGlobally, globals]), rfl⟩

theorem checkAll_passes {stmts : List Stmt} {known later : Checker}
    (checked : checkAll stmts known = .ok () later) (inside : known.inner = frame :: outer) :
    known.Grows later (· ∈ globalsOf stmts) ∧ ∃ frame', later.inner = frame' :: outer := by
  cases stmts with
  | nil =>
    cases checked
    exact ⟨.refl _ (by simp [globalsOf]), frame, inside⟩
  | cons stmt =>
    obtain ⟨middle, first, others⟩ := ok_of_checkAll_cons checked
    obtain ⟨firstGrows, firstInner⟩ := check_passes first
    have stillInside : ∃ frame', middle.inner = frame' :: outer := by
      rw [firstInner, inside]
      cases stmt <;> exact ⟨_, rfl⟩
    obtain ⟨_, isInner⟩ := stillInside
    obtain ⟨restGrows, restInner⟩ := checkAll_passes others isInner
    refine ⟨(firstGrows.trans restGrows).congr fun _ => ?_, restInner⟩
    simp [declaredGlobally, globalsOf, inside]

end

end Stmt

end Noxy
