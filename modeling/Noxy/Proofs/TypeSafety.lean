import Noxy.Proofs.ScalarSafety

/-!
# Type safety

From what an activity of a scalar program does as a whole follows what holds while it goes on: all
that it begins fits the typing rules in the machine it begins in.
-/

namespace Noxy

namespace Exec

variable {α : Type} {machine : Machine}

theorem ends_discard :
    Ends (discard step) machine onValue onSignal ↔
      Ends step machine (fun _ final => onValue () final) onSignal := by
  have unfolded : (discard step : Exec Unit) = (do let _ ← step) := by
    funext machine
    simp only [discard, Functor.discard, Functor.mapConst, bind, EStateM.bind, EStateM.map,
      Function.comp]
    cases step machine <;> rfl
  rw [unfolded, ends_bind]
  exact Iff.rfl

def EndsTyped (step : Exec α) (machine : Machine) : Prop :=
  Ends step machine (fun _ final => final.Typed) (fun _ final => final.Typed)

theorem Keeps.endsTyped {step : Exec α} (keeps : step.Keeps machine except returns inLoop onValue) :
    step.EndsTyped machine :=
  Ends.imp keeps (fun _ _ ended => ended.1.typed) fun _ _ ended => ended.1.typed

end Exec

/-! ### Before the actions of a program -/

theorem useAll_ends (fuel : Nat) (machine : Machine)
    (noUses : ∀ stmt ∈ stmts, ∀ names selection newName location,
      stmt ≠ .use names selection newName location) :
    (useAll fuel stmts).Ends machine (fun _ final => final = machine)
      (fun signal final => final = machine ∧ signal = .failure .exhausted) := by
  induction fuel generalizing stmts with
  | zero => exact ⟨rfl, rfl⟩
  | succ _ ih =>
    cases stmts with
    | nil => exact rfl
    | cons stmt =>
      have restEnds := ih fun other member => noUses other (.tail _ member)
      cases stmt with
      | use names selection newName location =>
        exact absurd rfl (noUses _ List.mem_cons_self names selection newName location)
      | _ => exact restEnds

theorem Agrees.defineFunction (agrees : Agrees functions [frame] machine) (function : Function) :
    Agrees (Bindings.put function.name function functions) [frame]
      { machine with scopes := machine.scopes.defineFunction 0 function } := by
  have isRoot := agrees.current_eq_zero
  have found' (number : Nat) (scope : Scope)
      (found : (machine.scopes.defineFunction 0 function).scopes[number]? = some scope) :
      ∃ earlier, machine.scopes.scopes[number]? = some earlier ∧
        scope.bindings = earlier.bindings ∧ scope.structs = earlier.structs ∧
        scope.functions = if number = 0 then
          Bindings.put function.name function earlier.functions else earlier.functions := by
    simp only [Scopes.defineFunction, Scopes.getElem?_modify] at found
    split at found
    · rename_i isZero
      obtain ⟨earlier, foundEarlier, rfl⟩ := Option.map_eq_some_iff.mp found
      exact ⟨earlier, foundEarlier, rfl, rfl, (if_pos isZero.symm).symm⟩
    · rename_i notZero
      exact ⟨scope, found, rfl, rfl, (if_neg (Ne.symm notZero)).symm⟩
  constructor
  · exact agrees.wellFormed.modify _ fun _ => rfl
  · intro number scope found
    obtain ⟨earlier, foundEarlier, _, sameStructs, newFunctions⟩ := found' number scope found
    have defined := agrees.defined number earlier foundEarlier
    refine ⟨sameStructs.trans defined.1, ?_⟩
    rw [newFunctions, defined.2]
    split <;> rfl
  · have chain := agrees.chain
    rw [isRoot] at chain
    have atRoot : Chain (machine.scopes.defineFunction 0 function) 0 [frame] := by
      cases chain with
      | @root scope _ found covers =>
        have changed : (machine.scopes.defineFunction 0 function).scopes[0]? = some { scope with
            functions := Bindings.put function.name function scope.functions } := by
          rw [Scopes.defineFunction, Scopes.getElem?_modify, if_pos rfl, found, Option.map_some]
        exact .root changed covers
      | inner _ notRoot => exact absurd rfl notRoot
    rw [← isRoot] at atRoot
    exact isRoot ▸ atRoot
  · intro number scope name binding found bound
    obtain ⟨earlier, foundEarlier, sameBindings, _⟩ := found' number scope found
    exact agrees.typed number earlier name binding foundEarlier (sameBindings ▸ bound)

theorem defineMembers_ends (agrees : Agrees functions [frame] machine)
    (noStructs : ∀ stmt ∈ stmts, stmt.struct? = none) :
    (defineMembers 0 none stmts).Ends machine
      (fun _ final => Agrees (stmts.foldl Stmt.addTo functions) [frame] final)
      (fun _ _ => False) := by
  induction stmts generalizing functions machine with
  | nil => exact agrees
  | cons stmt _ ih =>
    have noneHere := noStructs stmt List.mem_cons_self
    have noneThere := fun other member => noStructs other (.tail _ member)
    unfold defineMembers
    simp only [List.foldl_cons, Stmt.addTo]
    cases defines : stmt.function? with
    | some function => exact ih (agrees.defineFunction function) noneThere
    | none =>
      rw [noneHere]
      exact ih agrees noneThere

theorem Agrees.start (world : World) (basePath : String) :
    Agrees [] [[]] (Machine.start world basePath) where
  wellFormed := (Machine.wellScoped_start world basePath).scopes
  defined := by
    intro number _ found
    cases number with
    | zero =>
      cases found
      exact ⟨rfl, rfl⟩
    | succ => cases found
  chain := .root rfl fun _ _ declared => declared
  typed := by
    intro number _ _ _ found bound
    cases number <;> cases found
    cases bound

/-! ### Activities that fit the rules -/

namespace Activity

inductive Fits (functions : List (String × Function)) : Activity → Machine → Prop where
  | eval (agrees : Agrees functions frames machine) (typed : HasType functions frames expr type) :
      Fits functions (.eval expr) machine
  | evalBinary (agrees : Agrees functions frames machine)
      (leftTyped : HasType functions frames left leftType)
      (rightTyped : HasType functions frames right rightType)
      (typed : operator.typed leftType rightType = .ok type) :
      Fits functions (.evalBinary operator left right) machine
  | evalCall (agrees : Agrees functions frames machine)
      (found : Bindings.get? name functions = some function)
      (typed : HaveTypes functions frames arguments (function.params.map Declared.type)) :
      Fits functions (.evalCall (.identifier name location) arguments) machine
  | callFunction (agrees : Agrees functions frames machine)
      (found : Bindings.get? name functions = some function)
      (typed : HaveTypes functions frames arguments (function.params.map Declared.type)) :
      Fits functions (.callFunction function arguments) machine
  | evalArguments {params : List Declared} (agrees : Agrees functions frames machine)
      (typed : HaveTypes functions frames arguments (params.map Declared.type))
      (areScalar : ∀ param ∈ params, param.type.isScalar = true) :
      Fits functions (.evalArguments (params.zip arguments)) machine
  | bindAll {params : List (Declared × Value)} (agrees : Agrees functions (frame :: outer) machine)
      (areScalar : ∀ param ∈ params, param.1.type.isScalar = true)
      (typed : ∀ param ∈ params, param.2.isOf param.1.type = true) :
      Fits functions (.bindAll params) machine
  | exec (agrees : Agrees functions frames machine)
      (typed : StmtTyped functions returns inLoop frames stmt) :
      Fits functions (.exec stmt) machine
  | execAll (agrees : Agrees functions frames machine)
      (typed : BodyTyped functions returns inLoop frames stmts) :
      Fits functions (.execAll stmts) machine
  | execBlock (agrees : Agrees functions frames machine)
      (typed : BodyTyped functions returns inLoop ([] :: frames) stmts) :
      Fits functions (.execBlock stmts) machine
  | execLoop (agrees : Agrees functions frames machine)
      (conditionTyped : HasType functions frames condition .bool)
      (bodyTyped : BodyTyped functions returns true ([] :: frames) body) :
      Fits functions (.execLoop condition body) machine
  | assignTarget (agrees : Agrees functions frames machine)
      (declared : typeIn frames name = some type) (isOf : value.isOf type = true) :
      Fits functions (.assignTarget (.identifier name location) value) machine
  | useAll (allTyped : machine.Typed)
      (noUses : ∀ stmt ∈ stmts, ∀ names selection newName location,
        stmt ≠ Stmt.use names selection newName location) :
      Fits functions (.useAll stmts) machine
  | defineMembers {stmts : List Stmt} (agrees : Agrees known [frame] machine)
      (noStructs : ∀ stmt ∈ stmts, stmt.struct? = none) :
      Fits functions (.defineMembers 0 none stmts) machine

variable {activity : Activity}

theorem Fits.typed (fits : activity.Fits functions machine) : machine.Typed := by
  cases fits with
  | useAll allTyped => exact allTyped
  | defineMembers agrees => exact agrees.typed
  | _ => exact Agrees.typed ‹_›

theorem fits_part_of_evalCall (agrees : Agrees functions frames machine)
    (found : Bindings.get? name functions = some function)
    (typed : HaveTypes functions frames arguments (function.params.map Declared.type))
    (begins : Begins fuel (.evalCall (.identifier name location) arguments) machine part begun) :
    part.Fits functions begun := by
  have isFunction := agrees.callable? found
  cases begins with
  | callStruct isStruct => simp [isFunction] at isStruct
  | callNamed isNamed =>
    rw [isFunction, Option.some.injEq, Callable.function.injEq] at isNamed
    subst isNamed
    exact .callFunction agrees found typed
  | callBuiltin isBuiltin => simp [isFunction] at isBuiltin
  | callOther notName => exact absurd rfl (notName name location)

section

variable (sound : ∀ fuel, Sound functions fuel)
include sound

theorem Fits.endsTyped (fits : activity.Fits functions machine) :
    (activity.run fuel).EndsTyped machine := by
  cases fits with
  | eval agrees typed => exact Exec.ends_discard.mpr ((sound fuel).eval agrees typed).endsTyped
  | evalBinary agrees leftTyped rightTyped typed =>
    exact Exec.ends_discard.mpr
      ((sound fuel).evalBinary agrees leftTyped rightTyped typed).endsTyped
  | evalCall agrees found typed =>
    exact Exec.ends_discard.mpr ((sound fuel).evalCall agrees found typed).endsTyped
  | callFunction agrees found typed =>
    exact Exec.ends_discard.mpr ((sound fuel).callFunction agrees found typed).endsTyped
  | evalArguments agrees typed areScalar =>
    exact Exec.ends_discard.mpr ((sound fuel).evalArguments agrees typed areScalar).endsTyped
  | bindAll agrees areScalar typed =>
    exact (agrees.bindAll areScalar typed).imp (fun _ _ ended => ended.1.typed)
      fun _ _ impossible => impossible.elim
  | exec agrees typed => exact ((sound fuel).exec agrees typed).endsTyped
  | execAll agrees typed => exact ((sound fuel).execAll agrees typed).endsTyped
  | execBlock agrees typed => exact ((sound fuel).execBlock agrees typed).endsTyped
  | @execLoop _ _ condition returns body agrees conditionTyped bodyTyped =>
    have keeps : (Noxy.execLoop fuel condition body).Keeps machine (fun _ => False) returns true
        fun _ _ => True := (sound fuel).execLoop agrees conditionTyped bodyTyped
    exact keeps.endsTyped
  | assignTarget agrees declared isOf =>
    exact (Sound.assignTarget_evaluates fuel agrees declared isOf).endsTyped
  | useAll allTyped noUses =>
    exact (useAll_ends fuel machine noUses).imp (fun _ _ same => same ▸ allTyped)
      fun _ _ ended => ended.1 ▸ allTyped
  | defineMembers agrees noStructs =>
    exact (defineMembers_ends agrees noStructs).imp (fun _ _ agreesFinal => agreesFinal.typed)
      fun _ _ impossible => impossible.elim

/-! ### What an activity begins -/

variable (agrees : Agrees functions frames machine)
include agrees

theorem agrees_of_eval (typed : HasType functions frames expr type)
    (ended : Noxy.eval fuel expr machine = .ok value evaluated) :
    Agrees functions frames evaluated ∧ value.isOf type = true := by
  obtain ⟨steady, isOf⟩ := Exec.Ends.of_ok ((sound fuel).eval agrees typed) ended
  exact ⟨agrees.steady steady, isOf⟩

theorem fits_part_of_eval (typed : HasType functions frames expr type)
    (begins : Begins fuel (.eval expr) machine part begun) : part.Fits functions begun := by
  cases typed with
  | int | float | string | bytes | bool | identifier => cases begins
  | binary left right typed =>
    cases begins
    exact .evalBinary agrees left right typed
  | unary typed | group typed =>
    cases begins
    exact .eval agrees typed
  | index object index =>
    cases begins with
    | indexObject => exact .eval agrees object
    | indexPosition objectEnded =>
      exact .eval (agrees_of_eval sound agrees object objectEnded).1 index
  | call found arguments =>
    cases begins
    exact .evalCall agrees found arguments

theorem fits_part_of_evalBinary (leftTyped : HasType functions frames left leftType)
    (rightTyped : HasType functions frames right rightType)
    (begins : Begins fuel (.evalBinary operator left right) machine part begun) :
    part.Fits functions begun := by
  cases begins with
  | leftOperand => exact .eval agrees leftTyped
  | rightOfAnd leftEnded | rightOfOr leftEnded | rightOperand leftEnded =>
    exact .eval (agrees_of_eval sound agrees leftTyped leftEnded).1 rightTyped

theorem fits_part_of_callFunction
    (functionsTyped : ∀ name function, Bindings.get? name functions = some function →
      FunctionTyped functions function) (found : Bindings.get? name functions = some function)
    (typed : HaveTypes functions frames arguments (function.params.map Declared.type))
    (begins : Begins fuel (.callFunction function arguments) machine part begun) :
    part.Fits functions begun := by
  have functionTyped := functionsTyped name function found
  -- the scope of the call begins in a machine that agrees with no variables
  have called {values : List Value} {final : Machine}
      (passed : Noxy.evalArguments fuel (function.params.zip arguments) machine =
        .ok values final) :
      Agrees functions [[], []] (Exec.entered 0 final) ∧ values.length = function.params.length ∧
        ∀ pair ∈ function.params.zip values, pair.2.isOf pair.1.type = true := by
    obtain ⟨steady, complete, allTyped⟩ :=
      Exec.Ends.of_ok ((sound fuel).evalArguments agrees typed functionTyped.params) passed
    exact ⟨(agrees.steady steady).enteredCall, complete, allTyped⟩
  cases begins with
  | arguments => exact .evalArguments agrees typed functionTyped.params
  | params _ passed =>
    obtain ⟨agreesInside, _, allTyped⟩ := called passed
    exact .bindAll agreesInside (Sound.areScalar_zip functionTyped) allTyped
  | body _ passed bound =>
    obtain ⟨agreesInside, complete, allTyped⟩ := called passed
    have ends := agreesInside.bindAll (Sound.areScalar_zip functionTyped) allTyped
    have agreesBody := (Exec.Ends.of_ok ends bound).1
    rw [List.map_fst_zip (Nat.le_of_eq complete.symm)] at agreesBody
    exact .execAll agreesBody functionTyped.body

theorem fits_part_of_evalArguments {params : List Declared}
    (typed : HaveTypes functions frames arguments (params.map Declared.type))
    (areScalar : ∀ param ∈ params, param.type.isScalar = true)
    (begins : Begins fuel (.evalArguments (params.zip arguments)) machine part begun) :
    part.Fits functions begun := by
  cases params with
  | nil => cases begins
  | cons param =>
    cases typed with
    | cons first rest =>
      rw [List.zip_cons_cons] at begins
      cases begins with
      | firstArgument => exact .eval agrees first
      | restOfArguments firstEnded isPassed =>
        rw [Sound.passed_scalar (areScalar param List.mem_cons_self)] at isPassed
        cases isPassed
        exact .evalArguments (agrees_of_eval sound agrees first firstEnded).1 rest
          fun other member => areScalar other (.tail _ member)

theorem fits_part_of_exec (typed : StmtTyped functions returns inLoop frames stmt)
    (begins : Begins fuel (.exec stmt) machine part begun) : part.Fits functions begun := by
  cases typed with
  | letDefault | returnNothing | breaking => cases begins
  | letVar _ typed | globalVar _ typed | expression typed | returnValue _ typed =>
    cases begins
    exact .eval agrees typed
  | assign target value =>
    cases begins with
    | assignedValue => exact .eval agrees value
    | assignedTarget valueEnded =>
      obtain ⟨agreesFinal, isOf⟩ := agrees_of_eval sound agrees value valueEnded
      exact .assignTarget agreesFinal target isOf
  | branch condition thenTyped elseTyped =>
    cases begins with
    | branchCondition => exact .eval agrees condition
    | thenBody ended => exact .execBlock (agrees_of_eval sound agrees condition ended).1 thenTyped
    | elseBody ended => exact .execBlock (agrees_of_eval sound agrees condition ended).1 elseTyped
  | loop condition bodyTyped =>
    cases begins
    exact .execLoop agrees condition bodyTyped

theorem fits_part_of_execLoop (conditionTyped : HasType functions frames condition .bool)
    (bodyTyped : BodyTyped functions returns true ([] :: frames) body)
    (begins : Begins fuel (.execLoop condition body) machine part begun) :
    part.Fits functions begun := by
  cases begins with
  | loopCondition => exact .eval agrees conditionTyped
  | loopBody ended =>
    exact .execBlock (agrees_of_eval sound agrees conditionTyped ended).1 bodyTyped
  | nextTurn ended _ bodyEnded =>
    have agreesTurned := (agrees_of_eval sound agrees conditionTyped ended).1
    have steady :=
      (Exec.Ends.of_ok ((sound fuel).execBlock agreesTurned bodyTyped) bodyEnded).1
    exact .execLoop (agreesTurned.steady steady) conditionTyped bodyTyped

end

theorem Fits.begins
    (functionsTyped : ∀ name function, Bindings.get? name functions = some function →
      FunctionTyped functions function)
    (fits : activity.Fits functions machine) (begins : Begins fuel activity machine part begun) :
    part.Fits functions begun := by
  have isSound := sound functionsTyped
  cases fits with
  | eval agrees typed => exact fits_part_of_eval isSound agrees typed begins
  | evalBinary agrees leftTyped rightTyped =>
    exact fits_part_of_evalBinary isSound agrees leftTyped rightTyped begins
  | evalCall agrees found typed => exact fits_part_of_evalCall agrees found typed begins
  | callFunction agrees found typed =>
    exact fits_part_of_callFunction isSound agrees functionsTyped found typed begins
  | evalArguments agrees typed areScalar =>
    exact fits_part_of_evalArguments isSound agrees typed areScalar begins
  | bindAll agrees areScalar typed =>
    cases begins with
    | restOfParams bound =>
      cases bound
      have isScalar := areScalar _ List.mem_cons_self
      exact .bindAll (agrees.declare _ _ ⟨isScalar, typed _ List.mem_cons_self⟩).1
        (fun param member => areScalar param (.tail _ member))
        fun param member => typed param (.tail _ member)
  | exec agrees typed => exact fits_part_of_exec isSound agrees typed begins
  | execAll agrees typed =>
    cases typed with
    | nil => cases begins
    | cons first rest =>
      cases begins with
      | firstStmt => exact .exec agrees first
      | restOfStmts firstEnded =>
        exact .execAll (Exec.Ends.of_ok ((isSound fuel).exec agrees first) firstEnded).2 rest
  | execBlock agrees typed =>
    cases begins
    exact .execAll agrees.enteredBlock typed
  | execLoop agrees conditionTyped bodyTyped =>
    exact fits_part_of_execLoop isSound agrees conditionTyped bodyTyped begins
  | assignTarget => cases begins
  | useAll allTyped noUses =>
    cases begins with
    | firstUse | restAfterUse => exact absurd rfl (noUses _ List.mem_cons_self _ _ _ _)
    | restOfUses => exact .useAll allTyped fun other member => noUses other (.tail _ member)
  | defineMembers agrees noStructs =>
    cases begins with
    | @restOfDefinitions _ _ first _ _ _ firstDefined =>
      have noneHere : ∀ stmt ∈ [first], stmt.struct? = none := fun stmt member =>
        noStructs stmt (List.mem_singleton.mp member ▸ List.mem_cons_self)
      have agreesFirst := Exec.Ends.of_ok (defineMembers_ends agrees noneHere) firstDefined
      exact .defineMembers agreesFirst fun other member => noStructs other (.tail _ member)

theorem Fits.reaches
    (functionsTyped : ∀ name function, Bindings.get? name functions = some function →
      FunctionTyped functions function) (fits : activity.Fits functions machine)
    (reaches : Reaches fuel activity machine fuel' part begun) : part.Fits functions begun := by
  induction reaches with
  | here => exact fits
  | inside begins _ ih => exact ih (fits.begins functionsTyped begins)

end Activity

/-! ### Accepted programs -/

theorem Stmt.plain_of_isScalarMember {stmt : Stmt}
    (isScalar : stmt.isScalarMember callable = true) :
    stmt.struct? = none ∧ ∀ names selection newName location,
      stmt ≠ .use names selection newName location := by
  cases stmt with
  | struct => cases isScalar
  | use => cases isScalar
  | _ => exact ⟨rfl, fun _ _ _ _ isUse => nomatch isUse⟩

section Scalars

variable {program : Program}

variable (isScalar : program.isScalar = true)
include isScalar

theorem Program.imports_end :
    (useAll fuel program).Ends (.start world basePath)
      (fun _ final => final = .start world basePath)
      (fun signal final => final = .start world basePath ∧ signal = .failure .exhausted) :=
  useAll_ends fuel _ fun stmt member =>
    (Stmt.plain_of_isScalarMember (List.all_eq_true.mp isScalar stmt member)).2

theorem Program.definitions_end :
    (defineMembers 0 none program).Ends (.start world basePath)
      (fun _ final => Agrees program.functions [[]] final) (fun _ _ => False) :=
  defineMembers_ends (.start world basePath) fun stmt member =>
    (Stmt.plain_of_isScalarMember (List.all_eq_true.mp isScalar stmt member)).1

theorem Program.fits_of_begins
    (accepted : program.check checkedIn checkedBase .fresh = .ok () checker)
    (begins : program.Begins fuel (.start world basePath) activity begun) :
    activity.Fits program.functions begun := by
  have plain := fun stmt member =>
    Stmt.plain_of_isScalarMember (List.all_eq_true.mp isScalar stmt member)
  cases begins with
  | imports =>
    exact .useAll (Agrees.start world basePath).typed fun stmt member => (plain stmt member).2
  | definitions imported =>
    rw [(program.imports_end isScalar).of_ok imported]
    exact .defineMembers (.start world basePath) fun stmt member => (plain stmt member).1
  | actions imported defined =>
    rw [(program.imports_end isScalar).of_ok imported] at defined
    exact .execAll ((program.definitions_end isScalar).of_ok defined)
      (program.typed_of_check isScalar accepted).1

end Scalars

theorem Activity.typed_final {activity : Activity} (ends : (activity.run fuel).EndsTyped machine) :
    (activity.final fuel machine).Typed := by
  unfold Exec.EndsTyped Exec.Ends at ends
  unfold Activity.final
  cases ended : activity.run fuel machine <;> rw [ended] at ends <;> exact ends

/--
Scalar programs that a fresh checker accepts are safe.  At every moment of the run, each variable of
each scope holds a value of the type it was declared with; and the run ends early only if a divisor
is zero, an index is out of bounds or the fuel is spent.
-/
theorem scalar_type_safety (program : Program) (isScalar : program.isScalar = true)
    {checkedIn : World} {checkedBase : String} {checker : Checker}
    (accepted : program.check checkedIn checkedBase .fresh = .ok () checker)
    (world : World) (basePath : String) (fuel : Nat) :
    (∀ moment, program.IsMoment fuel (.start world basePath) moment → moment.Typed) ∧
      (program.run fuel).Ends (.start world basePath)
        (fun _ final => final.Typed)
        (fun signal final => final.Typed ∧ ∃ cause, signal = .failure cause ∧ cause.OfScalars) := by
  obtain ⟨actionsTyped, functionsTyped⟩ := program.typed_of_check isScalar accepted
  constructor
  · rintro moment ⟨activity, begun, fuel', part, started, begins, reaches, isMoment⟩
    have partFits := (Program.fits_of_begins isScalar accepted begins).reaches
      functionsTyped reaches
    rcases isMoment with rfl | rfl
    · exact partFits.typed
    · exact Activity.typed_final (partFits.endsTyped (sound functionsTyped))
  · simp only [Program.run, Exec.ends_bind]
    refine (Program.imports_end isScalar).imp ?_ ?_
    · rintro _ _ rfl
      refine (Program.definitions_end isScalar).imp (fun _ defined agrees => ?_)
        fun _ _ impossible => impossible.elim
      refine Exec.Ends.imp ((sound functionsTyped fuel).execAll agrees actionsTyped) ?_ ?_
      · exact fun _ _ ended => ended.1.typed
      · rintro signal final ⟨steady, allowed⟩
        refine ⟨steady.typed, ?_⟩
        cases signal with
        | failure cause => exact ⟨cause, rfl, allowed⟩
        | breaking => cases allowed
        | returning value =>
          obtain ⟨_, isNone, _⟩ := allowed
          cases isNone
        | exit code => exact allowed.elim
    · rintro _ _ ⟨rfl, rfl⟩
      exact ⟨(Agrees.start world basePath).typed, _, rfl, .exhausted⟩

/-- A scalar program: it computes the factorial of 3, counts down from it in a loop that declares
its own variable of the same name and another type, and reads a byte. -/
def Program.countdown : Program :=
  let here : Location := ⟨1, 1, "main.nx"⟩
  let named (name : String) : Expr := .identifier name here
  let number (value : Nat) : Expr := .int value here
  let operation (left : Expr) (operator : BinaryOperator) (right : Expr) : Expr :=
    .binary left operator right here
  let factorial (argument : Expr) : Expr := .call (named "factorial") [argument] here
  [ .function "factorial" [⟨"n", .int⟩] .int
      [ .branch (operation (named "n") .less (number 2))
          [.returning (some (number 1)) here]
          [ .returning (some (operation (named "n") .multiply
              (factorial (operation (named "n") .subtract (number 1))))) here ]
          here ]
      here,
    .letVar "x" .int (some (factorial (number 3))) here,
    .globalVar "content" .bytes (.bytes [97, 98] here) here,
    .loop (operation (named "x") .greater (number 1))
      [ .assign (named "x") (operation (named "x") .subtract (number 1)) here,
        .letVar "x" .string (some (operation (.string "a" here) .add (.string "b" here))) here ]
      here,
    .letVar "second" .int (some (.index (named "content") (named "x") here)) here ]

/-- This program is scalar and accepted, and it keeps to its types. -/
theorem scalar_type_safety_countdown :
    Program.countdown.isScalar = true ∧
      (∃ checker, Program.countdown.check (.start .empty [] [] [] 0) "." .fresh = .ok () checker) ∧
      (∀ moment, Program.countdown.IsMoment 100 (.start (.start .empty [] [] [] 0) ".") moment →
        moment.Typed) ∧
      (Program.countdown.run 100).Ends (.start (.start .empty [] [] [] 0) ".")
        (fun _ final => final.Typed)
        (fun signal final => final.Typed ∧ ∃ cause, signal = .failure cause ∧ cause.OfScalars) := by
  have isScalar : Program.countdown.isScalar = true := by decide +kernel
  have accepted : ∃ checker,
      Program.countdown.check (.start .empty [] [] [] 0) "." .fresh = .ok () checker := ⟨_, rfl⟩
  obtain ⟨checker, isAccepted⟩ := accepted
  exact ⟨isScalar, ⟨checker, isAccepted⟩,
    scalar_type_safety Program.countdown isScalar isAccepted (.start .empty [] [] [] 0) "." 100⟩

example : (Program.countdown.run 100).Ends (.start (.start .empty [] [] [] 0) ".")
    (fun _ final => (final.scopes.binding? 0 "second").any (·.value.int? = some 98) = true)
    (fun _ _ => False) := by
  decide +kernel

end Noxy
