import Noxy.Proofs.CallChecking
import Noxy.Proofs.DefinedNames
import Noxy.Proofs.InterfaceAgreement
import Noxy.Proofs.ReturnedValues

/-!
# What calls resolve to

Both the checker and the machine look for what a call calls, each in its own way.
-/

namespace Noxy

open Exec

/-! ### Invocations -/

namespace Callable

def unfiled : Callable → Callable
  | struct definition => .struct definition.unfiled
  | function definition => .function definition.unfiled
  | builtin definition => .builtin definition

def apply (fuel : Nat) (given : List Value) (arguments : List Expr) : Callable → Exec Value
  | struct definition => construct fuel definition arguments
  | function definition => callFunction fuel definition arguments
  | builtin definition => do
    let values ← evalAll fuel arguments
    definition.call (given ++ values)

end Callable

/-- `Invokes arguments fuel callee machine callable` says that evaluating the call of `callee` in
the machine comes down to calling `callable` with the arguments: at once, or when the object of a
method has been evaluated, or when a member has been selected from it. -/
inductive Invokes (arguments : List Expr) : Nat → Expr → Machine → Callable → Prop where
  | named (runs : evalCall (fuel + 1) (.identifier name place) arguments machine =
        callable.apply fuel [] arguments machine) :
      Invokes arguments (fuel + 1) (.identifier name place) machine callable
  | method (evaluated : eval fuel object machine = .ok value later)
      (isGiven : given = [] ∨ given = [value])
      (runs : evalCall (fuel + 1) (.field object name place) arguments machine =
        callable.apply fuel given arguments later) :
      Invokes arguments (fuel + 1) (.field object name place) machine callable
  | member (evaluated : eval (fuel + 1) object machine = .ok value middle)
      (isSelected : eval fuel (.field object name place) middle = .ok selected later)
      (runs : evalCall (fuel + 2) (.field object name place) arguments machine =
        callable.apply fuel [] arguments later) :
      Invokes arguments (fuel + 2) (.field object name place) machine callable

section Invocations

variable {fuel : Nat} {arguments : List Expr} {machine later : Machine} {name : String}
  {place : Location} {object : Expr} {value : Value}

theorem invokes_name (isCallable : machine.callable? name = some callable) :
    Invokes arguments (fuel + 1) (.identifier name place) machine callable := by
  refine .named ?_
  rw [evalCall, get_bind, isCallable]
  cases callable <;> rfl

theorem invokes_method (evaluated : eval fuel object machine = .ok value later)
    (isReceiver : later.heap.receiver? value = some receiver)
    (isBuiltin : Builtin.find? (receiver.start ++ name) = some builtin) :
    Invokes arguments (fuel + 1) (.field object name place) machine (.builtin builtin) := by
  have isGiven : (if receiver.isPassed then [value] else []) = [] ∨
      (if receiver.isPassed then [value] else []) = [value] := by
    cases receiver.isPassed
    · exact .inl rfl
    · exact .inr rfl
  refine .method evaluated isGiven ?_
  rw [evalCall, bind_of_ok evaluated, look_bind, isReceiver]
  simp only [isBuiltin]
  cases receiver.isPassed <;> rfl

variable {module selected : Value}

theorem Heap.selected_of_member {heap : Heap}
    (isMember : heap.member? module name = some selected) :
    heap.selected module name = .ok selected := by
  unfold Heap.member? at isMember
  split at isMember
  · split at isMember
    · rename_i found
      exact Heap.selected_member found isMember
    · cases isMember
  · cases isMember

def Value.callable? : Value → Option Callable
  | .function definition => some (.function definition)
  | .struct definition => some (.struct definition)
  | _ => none

theorem invokes_member
    (evaluated : eval (fuel + 2) object machine = .ok value middle)
    (notReceiver : middle.heap.receiver? value = none)
    (again : eval fuel object middle = .ok module later)
    (isMember : later.heap.member? module name = some selected)
    (isCallable : selected.callable? = some callable) :
    Invokes arguments (fuel + 3) (.field object name place) machine callable := by
  obtain ⟨isSelected, called⟩ :=
    evalCall_member evaluated notReceiver again (Heap.selected_of_member isMember)
  refine .member evaluated isSelected ?_
  rw [called, callValue, bind_of_ok isSelected]
  cases selected with
  | function | struct =>
    cases isCallable
    rfl
  | _ => cases isCallable

end Invocations

/-! ### What the checker relies on -/

def Heap.isCollection (heap : Heap) (value : Value) : Bool :=
  match heap.object? value with
  | some (.list _) => true
  | some (.array _ _) => true
  | some (.map _) => true
  | _ => false

/-- `known.Foresees fuel callee machine` says that where the call of `callee` is evaluated, things
are as the checker takes them to be: names are defined alike, what has the type of an array or map
is one, what has the type of a struct is an instance of it, and what has the type of a module is a
module with the members of the interface. -/
inductive Checker.Foresees (known : Checker) : Nat → Expr → Machine → Prop where
  | named (agrees : machine.AgreesOn known name) :
      Foresees known (fuel + 1) (.identifier name place) machine
  | collection (typed : known.typeOf object = .ok owner) (isMethod : owner.hasMethod name = true)
      (evaluated : eval fuel object machine = .ok value later)
      (isCollection : later.heap.isCollection value = true) :
      Foresees known (fuel + 1) (.field object name place) machine
  | service (typed : known.typeOf object = .ok (.struct family home))
      (evaluated : eval fuel object machine = .ok value later)
      (isInstance : later.heap.object? value = some (.struct family fields)) :
      Foresees known (fuel + 1) (.field object name place) machine
  | member (typed : known.typeOf object = .ok (.imported title interface))
      (evaluated : eval (fuel + 2) object machine = .ok value middle)
      (notReceiver : middle.heap.receiver? value = none)
      (again : eval fuel object middle = .ok module later)
      (agrees : Interface.Agrees known.interfaces later.heap interface module) :
      Foresees known (fuel + 3) (.field object name place) machine

section Resolution

variable {machine : Machine} {known : Checker} {name : String}

theorem Machine.AgreesOn.callable? (agrees : machine.AgreesOn known name) :
    (machine.callable? name).map Callable.unfiled =
      (known.callable? name).map Callable.unfiled := by
  obtain ⟨sameFunction, sameStruct⟩ := agrees
  rw [Machine.callable?, Checker.callable?]
  cases inMachine : machine.scopes.struct? machine.current name with
  | some =>
    rw [inMachine] at sameStruct
    obtain ⟨_, isKnown, same⟩ := Option.map_eq_some_iff.mp sameStruct.symm
    simp only [isKnown, Option.map_some, Callable.unfiled, same]
  | none =>
    rw [inMachine, Option.map_none] at sameStruct
    simp only [Option.map_eq_none_iff.mp sameStruct.symm]
    cases foundFunction : machine.scopes.function? machine.current name with
    | some =>
      rw [foundFunction] at sameFunction
      obtain ⟨_, isKnown, same⟩ := Option.map_eq_some_iff.mp sameFunction.symm
      simp only [isKnown, Option.map_some, Callable.unfiled, same]
    | none =>
      rw [foundFunction, Option.map_none] at sameFunction
      simp only [Option.map_eq_none_iff.mp sameFunction.symm]

theorem Heap.receiver?_of_isCollection {heap : Heap} (isCollection : heap.isCollection value) :
    ∃ receiver, heap.receiver? value = some receiver ∧ receiver.start = "" := by
  rw [Heap.isCollection] at isCollection
  rw [Heap.receiver?]
  generalize heap.object? value = found at isCollection ⊢
  cases found with
  | none => cases isCollection
  | some object =>
    cases object with
    | list | array | map => exact ⟨_, rfl, rfl⟩
    | _ => cases isCollection

theorem Heap.receiver?_of_family {heap : Heap} (isFamily : methodFamily? family = some start)
    (isInstance : heap.object? value = some (.struct family fields)) :
    ∃ receiver, heap.receiver? value = some receiver ∧ receiver.start = start := by
  rw [Heap.receiver?, isInstance]
  unfold methodFamily? at isFamily
  split at isFamily
  all_goals cases isFamily
  all_goals exact ⟨_, rfl, rfl⟩

theorem Ty.exists_builtin_of_hasMethod {owner : Ty} (isMethod : owner.hasMethod name = true) :
    ∃ builtin, Builtin.find? name = some builtin := by
  have exist : ∀ method ∈ arrayMethods ++ mapMethods, (Builtin.find? method).isSome = true := by
    decide +kernel
  apply Option.isSome_iff_exists.mp
  cases owner with
  | array => exact exist name (List.mem_append_left _ (of_decide_eq_true isMethod))
  | map => exact exist name (List.mem_append_right _ (of_decide_eq_true isMethod))
  | _ => cases isMethod

end Resolution

namespace Checker

section Dispatch

variable {known : Checker} {arguments : List Expr} {location place : Location} {target : Callable}
  {type owner : Ty} {fuel : Nat} {machine later : Machine} {name : String} {object : Expr}
  {value : Value}

theorem shadows_field (typed : known.typeOf object = .ok owner) :
    known.shadows (.field object name place) =
      (owner.hasMethod name && (known.function? name).isSome) := by
  rw [shadows, typed]

/-- The call invokes something, which is the target unless a function is in its place. -/
abbrev Resolves (known : Checker) (arguments : List Expr) (fuel : Nat) (callee : Expr)
    (machine : Machine) (target : Callable) : Prop :=
  ∃ callable, Invokes arguments fuel callee machine callable ∧
    (callable.unfiled = target.unfiled ↔ known.shadows callee = false)

namespace Validates

theorem invokes_named
    (validates : known.Validates arguments location (.identifier name place) target type)
    (agrees : machine.AgreesOn known name) (fuel : Nat) :
    known.Resolves arguments (fuel + 1) (.identifier name place) machine target := by
  have alike := agrees.callable?
  rcases validates.callable? with
    ⟨isCallable, noShadow⟩ | ⟨⟨function, builtin, isCallable, rfl⟩, isShadow⟩
  all_goals
    rw [isCallable] at alike
    obtain ⟨callable, found, same⟩ := Option.map_eq_some_iff.mp alike
    refine ⟨callable, invokes_name found, ?_⟩
  · exact iff_of_true same noShadow
  · refine iff_of_false (fun isTarget => ?_) ?_
    · cases same.symm.trans isTarget
    · exact (Bool.not_eq_false _).mpr isShadow

section

variable (validates : known.Validates arguments location (.field object name place) target type)
include validates

theorem invokes_collection (typed : known.typeOf object = .ok owner)
    (isMethod : owner.hasMethod name = true)
    (evaluated : eval fuel object machine = .ok value later)
    (isCollection : later.heap.isCollection value = true) :
    known.Resolves arguments (fuel + 1) (.field object name place) machine target := by
  obtain ⟨_, isReceiver, noStart⟩ := Heap.receiver?_of_isCollection isCollection
  obtain ⟨builtin, isBuiltin⟩ := Ty.exists_builtin_of_hasMethod isMethod
  have invokes : Invokes arguments (fuel + 1) (.field object name place) machine
      (.builtin builtin) :=
    invokes_method evaluated isReceiver (by rwa [noStart, String.empty_append])
  refine ⟨_, invokes, ?_⟩
  rw [shadows_field typed, isMethod, Bool.true_and]
  cases validates with
  | methodFunction _ _ isFunction =>
    rw [isFunction]
    exact iff_of_false nofun nofun
  | method _ _ noFunction _ isBuiltin' =>
    cases isBuiltin.symm.trans isBuiltin'
    rw [noFunction]
    exact iff_of_true rfl rfl
  | service typed' | memberFunction typed' | memberStruct typed' =>
    cases typed.symm.trans typed'
    cases isMethod

theorem invokes_service (typed : known.typeOf object = .ok (.struct family home))
    (evaluated : eval fuel object machine = .ok value later)
    (isInstance : later.heap.object? value = some (.struct family fields)) :
    known.Resolves arguments (fuel + 1) (.field object name place) machine target := by
  rw [Resolves, shadows_field typed]
  cases validates with
  | service typed' isFamily _ isBuiltin =>
    cases typed.symm.trans typed'
    obtain ⟨_, isReceiver, rfl⟩ := Heap.receiver?_of_family isFamily isInstance
    exact ⟨_, invokes_method evaluated isReceiver isBuiltin, iff_of_true rfl rfl⟩
  | methodFunction typed' isMethod | method typed' isMethod =>
    cases typed.symm.trans typed'
    cases isMethod
  | memberFunction typed' | memberStruct typed' => cases typed.symm.trans typed'

theorem invokes_member (typed : known.typeOf object = .ok (.imported title interface))
    (evaluated : eval (fuel + 2) object machine = .ok value middle)
    (notReceiver : middle.heap.receiver? value = none)
    (again : eval fuel object middle = .ok module later)
    (agrees : Interface.Agrees known.interfaces later.heap interface module) :
    known.Resolves arguments (fuel + 3) (.field object name place) machine target := by
  rw [Resolves, shadows_field typed]
  obtain ⟨_, _, alike, _⟩ := agrees
  have described {member : Member} (isMember : known.member? interface name = some member) :
      ∃ selected, later.heap.member? module name = some selected ∧ member.Describes selected := by
    have related : Option.Rel Member.Describes (known.member? interface name)
        (later.heap.member? module name) := alike name
    rw [isMember] at related
    generalize later.heap.member? module name = selected at related ⊢
    cases related with
    | some describes => exact ⟨_, rfl, describes⟩
  cases validates with
  | memberFunction typed' isMember | memberStruct typed' isMember =>
    cases typed.symm.trans typed'
    obtain ⟨_, isMember, _, rfl, same⟩ := described isMember
    refine ⟨_, Noxy.invokes_member evaluated notReceiver again isMember rfl, iff_of_true ?_ rfl⟩
    rw [Callable.unfiled, Callable.unfiled, same]
  | service typed' => cases typed.symm.trans typed'
  | methodFunction typed' isMethod | method typed' isMethod =>
    cases typed.symm.trans typed'
    cases isMethod

end

/-- Where things are as the checker takes them to be, a call invokes something, and this is what the
checker has checked the arguments against unless a function bears the name of a builtin function. -/
theorem invokes (validates : known.Validates arguments location callee target type)
    (foresees : known.Foresees fuel callee machine) :
    known.Resolves arguments fuel callee machine target := by
  cases foresees with
  | named agrees => exact validates.invokes_named agrees _
  | collection typed isMethod evaluated isCollection =>
    exact validates.invokes_collection typed isMethod evaluated isCollection
  | service typed evaluated isInstance => exact validates.invokes_service typed evaluated isInstance
  | member typed evaluated notReceiver again agrees =>
    exact validates.invokes_member typed evaluated notReceiver again agrees

end Validates

end Dispatch

end Checker

/-! ### Calls in a run -/

section Runs

variable {program : Program} {declared known : Checker} {arguments : List Expr}
    {location place : Location}

theorem Checker.Validates.isFunction_iff {function : Function}
    (isDeclared : declareAll checkedIn checkedBase program .fresh = .ok () declared)
    (isSplit : program = before ++ definition :: after)
    (isFunction : definition.function? = some function)
    (isLast : ∀ stmt ∈ after, ∀ other, stmt.function? = some other → other.name ≠ function.name)
    (noImport : program.mayImport function.name = false)
    (sameFunctions : known.functions = declared.functions)
    (validates : known.Validates arguments location (.identifier function.name place) target type) :
    target = .function function ↔
      isReserved function.name = false ∧ known.struct? function.name = none := by
  have isKnown : known.function? function.name = some function := by
    rw [Checker.function?, sameFunctions]
    exact (sameOn_of_declareAll noImport isDeclared).1.trans
      (Checker.function?_declaring isSplit isFunction isLast)
  cases validates with
  | construct isStruct =>
    exact iff_of_false Callable.noConfusion fun facts => by cases facts.2.symm.trans isStruct
  | function noStruct isFree isFound =>
    cases isKnown.symm.trans isFound
    exact iff_of_true rfl ⟨isFree, noStruct⟩
  | builtin _ noFunction =>
    refine iff_of_false Callable.noConfusion fun facts => ?_
    rcases noFunction with isTaken | isNone
    · cases facts.1.symm.trans isTaken
    · cases isKnown.symm.trans isNone

end Runs

/--
In a program that a fresh checker accepts, every call of a name or member that the checker looks at
is checked against something: a struct, a function or a builtin function.  Where such a call is
evaluated in the run of the program and things are as the checker takes them to be, the call invokes
something, and that is what the checker has checked the arguments against, up to the names of files,
unless a function of the program has a reserved name or, for methods of arrays and maps, the name of
the method. For calls of names, things are as the checker takes them to be if no import has been
carried out since the actions began and checker and machine agreed on the name then.  They agree on
every name if the program has no imports, and on every name that is not imported if it has.  Calls
of the name of a function that the program defines are checked against this function, unless the
name is imported, reserved or that of a struct.
-/
theorem calls_resolve_alike
    (program : Program) {checkedIn : World} {checkedBase : String} {checker : Checker}
    (accepted : program.check checkedIn checkedBase .fresh = .ok () checker) :
    ∃ declared, declareAll checkedIn checkedBase program .fresh = .ok () declared ∧
      (∀ known callee arguments location,
        Visits declared (.body program) known (.expr (.call callee arguments location)) →
        callee.isNamed = true →
        ∃ target type, known.Validates arguments location callee target type) ∧
      (∀ before definition after function, program = before ++ definition :: after →
        definition.function? = some function →
        (∀ stmt ∈ after, ∀ other, stmt.function? = some other → other.name ≠ function.name) →
        program.mayImport function.name = false →
        ∀ known place arguments location target type,
          Visits declared (.body program) known
            (.expr (.call (.identifier function.name place) arguments location)) →
          known.Validates arguments location (.identifier function.name place) target type →
          (target = .function function ↔
            isReserved function.name = false ∧ known.struct? function.name = none)) ∧
      ∀ world basePath fuel ready,
        program.Begins fuel (.start world basePath)
          (.execAll (program.filter Stmt.isAction)) ready →
        (.ofModules ∉ Stmt.listMentions program →
          Quiet fuel (.execAll (program.filter Stmt.isAction)) ready ∧
            ∀ name, ready.AgreesOn declared name) ∧
        (∀ name, program.mayImport name = false →
          ¬ (Activity.useAll program).Touches fuel (.start world basePath) (.function name) →
          ¬ (Activity.useAll program).Touches fuel (.start world basePath) (.struct name) →
          ready.AgreesOn declared name) ∧
        ∀ fuel' callee arguments begun known location,
          Reaches fuel (.execAll (program.filter Stmt.isAction)) ready (fuel' + 1)
            (.evalCall callee arguments) begun →
          Visits declared (.body program) known (.expr (.call callee arguments location)) →
          (∀ name place, callee = .identifier name place →
            Quiet fuel (.execAll (program.filter Stmt.isAction)) ready →
            ready.AgreesOn declared name → known.Foresees (fuel' + 1) callee begun) ∧
          (known.Foresees (fuel' + 1) callee begun →
            ∀ target type, known.Validates arguments location callee target type →
              ∃ callable, Invokes arguments (fuel' + 1) callee begun callable ∧
                (callable.unfiled = target.unfiled ↔ known.shadows callee = false)) := by
  obtain ⟨_, declared, isDeclared, checked⟩ := Check.ok_of_bind accepted
  refine ⟨declared, isDeclared, ?_, ?_, ?_⟩
  · intro known callee arguments location visits isNamed
    obtain ⟨type, typed⟩ := visits.accepted ⟨checker, checked⟩
    obtain ⟨target, validates⟩ := (Checker.validates_iff isNamed).mp typed
    exact ⟨target, type, validates⟩
  · intro before definition after function isSplit isFunction isLast noImport known place arguments
      location target type visits validates
    exact validates.isFunction_iff isDeclared isSplit isFunction isLast noImport visits.sameTables.1
  · intro world basePath fuel ready begins
    refine ⟨fun noUse => ?_, fun name noImport noFunction noStruct =>
      Program.agreesOn_of_native begins isDeclared noImport noFunction noStruct, ?_⟩
    · cases (declareAll_of_noUse noUse checkedIn checkedBase .fresh).symm.trans isDeclared
      exact Program.agreesOn_of_noUse begins noUse
    · intro fuel' callee arguments begun known location reaches visits
      refine ⟨?_, fun foresees target type validates => validates.invokes foresees⟩
      rintro name place rfl quiet agrees
      obtain ⟨wellScoped, bare⟩ := Program.bare_of_begins begins
      obtain ⟨sameFunctions, sameStructs, _⟩ := visits.sameTables
      refine .named ?_
      have agreesThere := agrees.reaches wellScoped bare quiet reaches
      rwa [Machine.AgreesOn, Checker.function?, Checker.struct?, ← sameFunctions, ← sameStructs]
        at agreesThere

/-! ### Two programs -/

def Expr.lengthOf (arguments : List Expr) : Expr :=
  .call (.field (.identifier "a" ⟨2, 1, "main.nx"⟩) "length" ⟨2, 1, "main.nx"⟩) arguments
    ⟨2, 1, "main.nx"⟩

def Stmt.letArray : Stmt :=
  .letVar "a" (.array .int none) (some (.array [.int 1 ⟨1, 1, "main.nx"⟩] ⟨1, 1, "main.nx"⟩))
    ⟨1, 1, "main.nx"⟩

def Program.measuring : Program :=
  let here : Location := ⟨2, 1, "main.nx"⟩
  [ .function "f" [⟨"x", .int⟩] .int [.returning (some (.identifier "x" here)) here] here,
    .letArray,
    .letVar "n" .int (some (.call (.identifier "f" here) [.lengthOf []] here)) here ]

def Program.ready (program : Program) : Machine :=
  (Machine.start (.start .empty [] [] [] 0) ".").defining program

def Program.declaredArray (program : Program) : Machine :=
  (exec 19 .letArray).final program.ready

/-- In this program, which the checker accepts, both calls invoke what they are checked against. -/
theorem calls_resolve_alike_measuring :
    (∃ checker, Program.measuring.check (.start .empty [] [] [] 0) "." .fresh = .ok () checker) ∧
      ∃ declared known,
        Visits declared (.body Program.measuring) known
          (.expr (.call (.identifier "f" ⟨2, 1, "main.nx"⟩) [.lengthOf []] ⟨2, 1, "main.nx"⟩)) ∧
        Visits declared (.body Program.measuring) known (.expr (.lengthOf [])) ∧
        (∃ target type callable, known.Validates [.lengthOf []] ⟨2, 1, "main.nx"⟩
            (.identifier "f" ⟨2, 1, "main.nx"⟩) target type ∧
          Invokes [.lengthOf []] 16 (.identifier "f" ⟨2, 1, "main.nx"⟩)
            Program.measuring.declaredArray callable ∧
          callable.unfiled = target.unfiled) ∧
        ∃ target type callable, known.Validates [] ⟨2, 1, "main.nx"⟩
            (.field (.identifier "a" ⟨2, 1, "main.nx"⟩) "length" ⟨2, 1, "main.nx"⟩) target type ∧
          Invokes [] 12 (.field (.identifier "a" ⟨2, 1, "main.nx"⟩) "length" ⟨2, 1, "main.nx"⟩)
            Program.measuring.declaredArray callable ∧
          callable.unfiled = target.unfiled := by
  obtain ⟨checker, isAccepted⟩ : ∃ checker,
      Program.measuring.check (.start .empty [] [] [] 0) "." .fresh = .ok () checker := ⟨_, rfl⟩
  have noUse : .ofModules ∉ Stmt.listMentions Program.measuring := by decide
  have begins : Program.measuring.Begins 20 (.start (.start .empty [] [] [] 0) ".")
      (.execAll (Program.measuring.filter Stmt.isAction)) Program.measuring.ready :=
        .actions rfl rfl
  have toCall : Reaches 20 (.execAll (Program.measuring.filter Stmt.isAction))
      Program.measuring.ready 16 (.evalCall (.identifier "f" _) [.lengthOf []])
      Program.measuring.declaredArray :=
    .inside (.restOfStmts rfl) (.inside .firstStmt (.inside .initializer (.inside .call .here)))
  have toMethod : Reaches 20 (.execAll (Program.measuring.filter Stmt.isAction))
      Program.measuring.ready 12 (.evalCall (.field (.identifier "a" _) "length" _) [])
      Program.measuring.declaredArray :=
    toCall.trans (.inside (.callNamed rfl) (.inside (.arguments rfl) (.inside .firstArgument
      (.inside .call .here))))
  obtain ⟨declared, isDeclared, validated, _, alike⟩ :=
    calls_resolve_alike Program.measuring isAccepted
  cases (declareAll_of_noUse noUse _ _ _).symm.trans isDeclared
  have visits : Visits (Checker.fresh.declaring .measuring) (.body Program.measuring) _
      (.expr (.call (.identifier "f" _) [.lengthOf []] _)) :=
    .inside (.rest rfl) (.inside (.rest rfl) (.inside .first (.inside .initializer .here)))
  have visitsMethod := visits.trans (.inside (.part (.argument List.mem_cons_self)) .here)
  obtain ⟨withoutImports, _, calls⟩ := alike _ _ _ _ begins
  obtain ⟨quiet, agrees⟩ := withoutImports noUse
  obtain ⟨target, type, validates⟩ := validated _ _ _ _ visits rfl
  obtain ⟨method, result, validatesMethod⟩ := validated _ _ _ _ visitsMethod rfl
  obtain ⟨foreseen, resolved⟩ := calls _ _ _ _ _ _ toCall visits
  obtain ⟨callable, invokes, isTarget⟩ := resolved (foreseen _ _ rfl quiet (agrees _)) _ _ validates
  obtain ⟨_, resolvedMethod⟩ := calls _ _ _ _ _ _ toMethod visitsMethod
  obtain ⟨callable', invokesMethod, isMethod⟩ :=
    resolvedMethod (.collection rfl rfl rfl rfl) _ _ validatesMethod
  exact ⟨⟨checker, isAccepted⟩, _, _, visits, visitsMethod,
    ⟨target, type, callable, validates, invokes, isTarget.mpr rfl⟩,
    method, result, callable', validatesMethod, invokesMethod, isMethod.mpr rfl⟩

def Program.overriding : Program :=
  let here : Location := ⟨2, 1, "main.nx"⟩
  [ .function "length" [⟨"x", .int⟩] .string [.returning (some (.string "u" here)) here] here,
    .letArray,
    .letVar "s" .string (some (.lengthOf [.int 5 here])) here ]

/-- The checker accepts this program.  It checks the call of the method against the function, and
the machine invokes something else. -/
theorem method_call_is_checked_as_function :
    (∃ checker, Program.overriding.check (.start .empty [] [] [] 0) "." .fresh = .ok () checker) ∧
      ∃ declared known target type callable,
        declareAll (.start .empty [] [] [] 0) "." Program.overriding .fresh = .ok () declared ∧
        Visits declared (.body Program.overriding) known
          (.expr (.lengthOf [.int 5 ⟨2, 1, "main.nx"⟩])) ∧
        Reaches 20 (.execAll (Program.overriding.filter Stmt.isAction)) Program.overriding.ready 16
          (.evalCall (.field (.identifier "a" ⟨2, 1, "main.nx"⟩) "length" ⟨2, 1, "main.nx"⟩)
            [.int 5 ⟨2, 1, "main.nx"⟩]) Program.overriding.declaredArray ∧
        known.Validates [.int 5 ⟨2, 1, "main.nx"⟩] ⟨2, 1, "main.nx"⟩
          (.field (.identifier "a" ⟨2, 1, "main.nx"⟩) "length" ⟨2, 1, "main.nx"⟩) target type ∧
        Invokes [.int 5 ⟨2, 1, "main.nx"⟩] 16
          (.field (.identifier "a" ⟨2, 1, "main.nx"⟩) "length" ⟨2, 1, "main.nx"⟩)
          Program.overriding.declaredArray callable ∧
        callable.unfiled ≠ target.unfiled := by
  obtain ⟨checker, isAccepted⟩ : ∃ checker,
      Program.overriding.check (.start .empty [] [] [] 0) "." .fresh = .ok () checker := ⟨_, rfl⟩
  obtain ⟨_, declared, isDeclared, checked⟩ := Check.ok_of_bind isAccepted
  have visits : Visits (Checker.fresh.declaring .overriding) (.body Program.overriding) _
      (.expr (.lengthOf [.int 5 _])) :=
    .inside (.rest rfl) (.inside (.rest rfl) (.inside .first (.inside .initializer .here)))
  cases isDeclared
  obtain ⟨type, typed⟩ := visits.accepted ⟨checker, checked⟩
  obtain ⟨target, validates⟩ := (Checker.validates_iff rfl).mp typed
  obtain ⟨callable, invokes, isTarget⟩ := validates.invokes
    (.collection rfl rfl rfl rfl : Checker.Foresees _ 16 _ Program.overriding.declaredArray)
  refine ⟨⟨checker, isAccepted⟩, _, _, target, type, callable, rfl, visits,
    .inside (.restOfStmts rfl) (.inside .firstStmt (.inside .initializer (.inside .call .here))),
    validates, invokes, fun same => ?_⟩
  cases isTarget.mp same

end Noxy
