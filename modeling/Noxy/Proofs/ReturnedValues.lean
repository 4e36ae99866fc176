import Noxy.Proofs.Checked
import Noxy.Proofs.Origin
import Noxy.Proofs.TypeSafety

/-!
# What calls return

A call that ends gives the value of a `return` in the body of its function, or null if the body
ended without one.
-/

namespace Noxy

variable {fuel : Nat} {value : Value} {function : Function} {machine final : Machine}

open Exec

/-! ### Which activities return -/

namespace Activity

def executes : Activity → Bool
  | exec _ => true
  | execAll _ => true
  | execBlock _ => true
  | execLoop _ _ => true
  | _ => false

theorem executes_of_begins (begins : Begins fuel activity machine part begun)
    (other : activity.executes = false)
    (notCall : ∀ function arguments, activity ≠ .callFunction function arguments) :
    part.executes = false := by
  cases begins with
  | body => exact absurd rfl (notCall _ _)
  | _ => first | rfl | cases other

theorem callFunction_not_returning
    (evaluates : ∀ machine, ¬ (Noxy.evalArguments fuel (function.params.zip arguments)).Signals
      machine (.returning value)) :
    ¬ (Noxy.callFunction (fuel + 1) function arguments).Signals machine (.returning value) := by
  intro signals
  rw [Noxy.callFunction] at signals
  split at signals
  · obtain ⟨_, ended⟩ := signals
    cases ended
  · rcases signals.of_bind with signals | ⟨_, _, _, signals⟩
    · exact evaluates machine signals
    · exact (signals_asCall.mp signals).2 value rfl

theorem not_returning {activity : Activity} (other : activity.executes = false) :
    ¬ (activity.run fuel).Signals machine (.returning value) := by
  induction fuel generalizing activity machine with
  | zero => exact fun signals => Bool.noConfusion (isTame_of_run_zero signals)
  | succ _ ih =>
    intro signals
    by_cases isCall : ∃ function arguments, activity = .callFunction function arguments
    · obtain ⟨function, arguments, rfl⟩ := isCall
      refine callFunction_not_returning (fun _ signals => ?_) signals.of_discard
      have evaluates : (Activity.evalArguments (function.params.zip arguments)).executes = false :=
        rfl
      exact ih evaluates (Signals.bind signals)
    · cases traced signals with
      | tame isTame => cases isTame
      | own raises =>
        cases raises with
        | returning => cases other
        | returningNothing => cases other
      | part begins partSignals =>
        have notCall (function : Function) (arguments : List Expr) :
            activity ≠ .callFunction function arguments :=
          fun same => isCall ⟨function, arguments, same⟩
        exact ih (executes_of_begins begins other notCall) partSignals

end Activity

/-! ### Which statements return -/

inductive Activity.WorksOn : Activity → Checker → Site → Prop where
  | exec : WorksOn (.exec stmt) known (.stmt stmt)
  | execAll : WorksOn (.execAll stmts) known (.body stmts)
  | execBlock : WorksOn (.execBlock stmts) known (.body stmts)
  | execLoop : WorksOn (.execLoop condition body) known (.stmt (.loop condition body location))

namespace Activity

theorem WorksOn.begins (works : activity.WorksOn known site) (accepted : site.Accepted known)
    (begins : Begins fuel activity machine part begun) (executes : part.executes = true) :
    ∃ inner partSite, part.WorksOn inner partSite ∧ Visits known site inner partSite ∧
      inner.returns = known.returns := by
  cases works with
  | exec =>
    obtain ⟨_, checked⟩ := accepted
    cases begins with
    | thenBody => exact ⟨_, _, .execBlock, .inside .thenBody .here, rfl⟩
    | elseBody =>
      obtain ⟨_, _, _, thenChecked, _⟩ := Stmt.ok_of_check_branch checked
      refine ⟨_, _, .execBlock, .inside (.elseBody thenChecked) .here, ?_⟩
      exact (Stmt.checkAll_passes thenChecked rfl).1.returns
    | loop => exact ⟨_, _, .execLoop, .here, rfl⟩
    | _ => cases executes
  | execAll =>
    obtain ⟨_, checked⟩ := accepted
    cases begins with
    | firstStmt => exact ⟨_, _, .exec, .inside .first .here, rfl⟩
    | restOfStmts =>
      obtain ⟨middle, first, _⟩ := Stmt.ok_of_checkAll_cons checked
      refine ⟨middle, _, .execAll, .inside (.rest first) .here, ?_⟩
      exact (Stmt.check_passes first).1.returns
  | execBlock =>
    cases begins with
    | block => exact ⟨_, _, .execAll, .here, rfl⟩
  | execLoop =>
    cases begins with
    | loopCondition => cases executes
    | loopBody => exact ⟨_, _, .execBlock, .inside .loopBody .here, rfl⟩
    | nextTurn => exact ⟨_, _, .execLoop, .here, rfl⟩

theorem WorksOn.exists_return (works : activity.WorksOn known site) (accepted : site.Accepted known)
    (signals : (activity.run fuel).Signals machine (.returning value)) :
    ∃ inner returned location fuel' begun,
      Visits known site inner (.stmt (.returning returned location)) ∧
      inner.returns = known.returns ∧
      Reaches fuel activity machine (fuel' + 1) (.exec (.returning returned location)) begun ∧
      (Activity.exec (.returning returned location)).Raises fuel' begun (.returning value) := by
  induction fuel generalizing activity machine known site with
  | zero => cases isTame_of_run_zero signals
  | succ fuel ih =>
    cases traced signals with
    | tame isTame => cases isTame
    | own raises =>
      cases raises with
      | returning evaluated =>
        cases works
        exact ⟨_, _, _, fuel, machine, .here, rfl, .here, .returning evaluated⟩
      | returningNothing =>
        cases works
        exact ⟨_, _, _, fuel, machine, .here, rfl, .here, .returningNothing⟩
    | @part part begun begins partSignals =>
      cases executes : part.executes with
      | false => exact absurd partSignals (not_returning executes)
      | true =>
        obtain ⟨_, _, partWorks, visits, sameReturns⟩ :=
          works.begins accepted begins executes
        obtain ⟨last, returned, location, fuel', started, visitsLast, sameLast, reaches,
          raises⟩ := ih partWorks (visits.accepted accepted) partSignals
        exact ⟨last, returned, location, fuel', started, visits.trans visitsLast,
          sameLast.trans sameReturns, .inside begins reaches, raises⟩

end Activity

/-! ### Calls -/

theorem Exec.ok_of_asCall (ended : asCall body machine = .ok value final) :
    (value = .null ∧ body machine = .ok () final) ∨ body.Signals machine (.returning value) := by
  unfold asCall at ended
  cases ending : body machine with
  | ok =>
    rw [ending] at ended
    cases ended
    exact .inl ⟨rfl, rfl⟩
  | error signal =>
    rw [ending] at ended
    cases signal <;> cases ended
    exact .inr ⟨_, ending⟩

theorem value_of_callFunction
    (ended : callFunction fuel function arguments machine = .ok value final) :
    ∃ fuel' begun, Reaches fuel (.callFunction function arguments) machine fuel'
        (.execAll function.body) begun ∧
      ((value = .null ∧ ∃ after, execAll fuel' function.body begun = .ok () after) ∨
        (execAll fuel' function.body).Signals begun (.returning value)) := by
  cases fuel with
  | zero => cases ended
  | succ fuel =>
    rw [callFunction] at ended
    split at ended
    · cases ended
    · rename_i isComplete
      have complete := not_not.mp isComplete
      obtain ⟨values, called, passed, ended⟩ := exists_of_bind_eq_ok ended
      have begins {begun : Machine}
          (bound : bindAll (function.params.zip values) (entered 0 called) = .ok () begun) :
          Reaches (fuel + 1) (.callFunction function arguments) machine fuel
            (.execAll function.body) begun :=
        .inside (.body complete passed bound) .here
      rcases ok_of_asCall ended with ⟨isNull, ended⟩ | signals
      · obtain ⟨_, ended, _⟩ := exists_of_inScope_eq_ok ended
        obtain ⟨_, begun, bound, ended⟩ := exists_of_bind_eq_ok ended
        exact ⟨fuel, begun, begins bound, .inl ⟨isNull, _, ended⟩⟩
      · rcases (signals_inScope.mp signals).of_bind with ⟨_, failed⟩ | ⟨_, begun, bound, signals⟩
        · have never : EndsIn (fun _ => False) _ := .bindAll (function.params.zip values)
          have never := never (entered 0 called)
          rw [Ends, failed] at never
          cases never
        · exact ⟨fuel, begun, begins bound, .inr signals⟩

/-- A call gave the value of a `return` in the body of the function, and the checker, which came to
the body in the state `known`, accepted the type of that value. -/
def Function.ReturnsChecked (function : Function) (known : Checker) (fuel : Nat)
    (arguments : List Expr) (machine : Machine) (value : Value) : Prop :=
  ∃ inner expr location type fuel' begun after,
    Visits known (.body function.body) inner (.stmt (.returning (some expr) location)) ∧
      inner.typeOf expr = .ok type ∧ function.returns.accepts type = true ∧
      Reaches fuel (.callFunction function arguments) machine (fuel' + 1)
        (.exec (.returning (some expr) location)) begun ∧
      eval fuel' expr begun = .ok value after

/-- The body of the call ends without a `return`. -/
def Function.EndsUnreturned (function : Function) (fuel : Nat) (arguments : List Expr)
    (machine : Machine) : Prop :=
  ∃ fuel' begun after, Reaches fuel (.callFunction function arguments) machine fuel'
    (.execAll function.body) begun ∧ execAll fuel' function.body begun = .ok () after

variable {known : Checker}

theorem Function.value_of_accepted (expected : known.returns = some function.returns)
    (notVoid : function.returns ≠ .void) (accepted : (Site.body function.body).Accepted known)
    (ended : callFunction fuel function arguments machine = .ok value final) :
    (value = .null ∧ Stmt.anyReturns function.body = false ∧
        function.EndsUnreturned fuel arguments machine) ∨
      function.ReturnsChecked known fuel arguments machine value := by
  obtain ⟨fuel', begun, reaches, ⟨isNull, after, bodyEnded⟩ | signals⟩ :=
    value_of_callFunction ended
  · refine .inl ⟨isNull, Bool.eq_false_iff.mpr fun returns => ?_,
      fuel', begun, after, reaches, bodyEnded⟩
    exact ((returning fuel').execAll _ begun returns).of_ok bodyEnded
  · obtain ⟨inner, _, location, last, started, visits, sameReturns, within, raises⟩ :=
      (Activity.WorksOn.execAll : (Activity.execAll function.body).WorksOn known _).exists_return
        accepted signals
    obtain ⟨_, checked⟩ := visits.accepted accepted
    have isTyped := Stmt.ok_of_check_returning (sameReturns.trans expected) checked
    cases raises with
    | returning evaluated =>
      obtain ⟨type, typed, isAccepted⟩ := isTyped
      exact .inr ⟨inner, _, location, type, last, started, _, visits, typed, isAccepted,
        reaches.trans within, evaluated⟩
    | returningNothing => exact absurd isTyped notVoid

theorem Visits.of_mem (member : stmt ∈ stmts) (accepted : (Site.body stmts).Accepted known) :
    ∃ inner, Visits known (.body stmts) inner (.stmt stmt) := by
  induction stmts generalizing known with
  | nil => cases member
  | cons _ _ ih =>
    rcases List.mem_cons.mp member with rfl | inRest
    · exact ⟨known, .inside .first .here⟩
    · obtain ⟨later, checked⟩ := accepted
      obtain ⟨_, isFirst, others⟩ := Stmt.ok_of_checkAll_cons checked
      obtain ⟨inner, visits⟩ := ih inRest ⟨later, others⟩
      exact ⟨inner, .inside (.rest isFirst) visits⟩

theorem Visits.of_function (member : stmt ∈ program) (isFunction : stmt.function? = some function)
    (accepted : (Site.body program).Accepted known) :
    ∃ inner, Visits known (.body program) inner (.body function.body) ∧
      inner.returns = some function.returns := by
  obtain ⟨_, visits⟩ := Visits.of_mem member accepted
  cases stmt with
  | function =>
    cases isFunction
    exact ⟨_, visits.trans (.inside .functionBody .here), rfl⟩
  | _ => cases isFunction

/--
In a program that a fresh checker accepts, a call of a function with a result that ends gives null
after a body that ended without a `return`, which is possible only if not every path through it ends
in one; or it gives the value of a `return` in the body whose type the checker accepted for the
result.  In a scalar program, whose functions return on every path, all calls that are made and end
give values of the types that their functions declare.
-/
theorem calls_give_returned_values
    (program : Program) {checkedIn : World} {checkedBase : String} {checker : Checker}
    (accepted : program.check checkedIn checkedBase .fresh = .ok () checker) :
    (∃ declared, declareAll checkedIn checkedBase program .fresh = .ok () declared ∧
      ∀ stmt ∈ program, ∀ function, stmt.function? = some function → function.returns ≠ .void →
        ∃ known, Visits declared (.body program) known (.body function.body) ∧
          known.returns = some function.returns ∧
          ∀ fuel arguments machine value final,
            callFunction fuel function arguments machine = .ok value final →
            (value = .null ∧ Stmt.anyReturns function.body = false ∧
                function.EndsUnreturned fuel arguments machine) ∨
              function.ReturnsChecked known fuel arguments machine value) ∧
    (program.isScalar = true →
      ∀ world basePath fuel activity begun fuel' function arguments started,
      program.Begins fuel (.start world basePath) activity begun →
      Reaches fuel activity begun fuel' (.callFunction function arguments) started →
      ∀ value final, callFunction fuel' function arguments started = .ok value final →
        value.isOf function.returns = true) := by
  constructor
  · obtain ⟨_, declared, isDeclared, checked⟩ := Check.ok_of_bind accepted
    refine ⟨declared, isDeclared, fun stmt member function isFunction notVoid => ?_⟩
    obtain ⟨known, visits, expected⟩ := Visits.of_function member isFunction ⟨checker, checked⟩
    refine ⟨known, visits, expected, fun fuel arguments machine value final ended => ?_⟩
    exact function.value_of_accepted expected notVoid (visits.accepted ⟨checker, checked⟩) ended
  · intro isScalar world basePath fuel activity begun fuel' function arguments started begins
      reaches value final ended
    obtain ⟨_, functionsTyped⟩ := program.typed_of_check isScalar accepted
    have fits := Program.fits_of_begins isScalar accepted begins
    cases fits.reaches functionsTyped reaches with
    | callFunction agrees found typed =>
      exact (((sound functionsTyped fuel').callFunction agrees found typed).of_ok ended).2

def Machine.countingDown : Machine :=
  (defineMembers 0 none Program.countdown).final (.start (.start .empty [] [] [] 0) ".")

def Function.factorial : Function :=
  (Bindings.get? "factorial" Program.countdown.functions).get rfl

/-- A scalar program: the factorial that it computes is an integer, as the function declares. -/
theorem calls_give_returned_values_countdown :
    Program.countdown.isScalar = true ∧
      (∃ checker, Program.countdown.check (.start .empty [] [] [] 0) "." .fresh = .ok () checker) ∧
      Program.countdown.Begins 100 (.start (.start .empty [] [] [] 0) ".")
        (.execAll (Program.countdown.filter Stmt.isAction)) .countingDown ∧
      Reaches 100 (.execAll (Program.countdown.filter Stmt.isAction)) .countingDown 96
        (.callFunction .factorial [.int 3 ⟨1, 1, "main.nx"⟩]) .countingDown ∧
      ∃ value final,
        callFunction 96 .factorial [.int 3 ⟨1, 1, "main.nx"⟩] .countingDown = .ok value final ∧
        value.int? = some 6 ∧ value.isOf Function.factorial.returns = true := by
  have isScalar : Program.countdown.isScalar = true := by decide +kernel
  have accepted : ∃ checker,
      Program.countdown.check (.start .empty [] [] [] 0) "." .fresh = .ok () checker := ⟨_, rfl⟩
  obtain ⟨checker, isAccepted⟩ := accepted
  have begins : Program.countdown.Begins 100 (.start (.start .empty [] [] [] 0) ".")
      (.execAll (Program.countdown.filter Stmt.isAction)) .countingDown := .actions rfl rfl
  have reaches : Reaches 100 (.execAll (Program.countdown.filter Stmt.isAction)) .countingDown 96
      (.callFunction .factorial [.int 3 ⟨1, 1, "main.nx"⟩]) .countingDown :=
    .inside .firstStmt (.inside .initializer (.inside .call (.inside (.callNamed rfl) .here)))
  refine ⟨isScalar, ⟨checker, isAccepted⟩, begins, reaches, _, _, rfl, rfl, ?_⟩
  exact (calls_give_returned_values Program.countdown isAccepted).2 isScalar
    (.start .empty [] [] [] 0) "." 100 _ _ 96 _ _ _ begins reaches _ _ rfl

def Program.unreturning : Program :=
  [.function "f" [] .int [] ⟨1, 1, "main.nx"⟩]

/-- The checker accepts this program, and the call of its function gives null. -/
theorem call_without_return_gives_null :
    (∃ checker, Program.unreturning.check (.start .empty [] [] [] 0) "." .fresh = .ok () checker) ∧
      ∃ final, (do
        Program.unreturning.run 10
        eval 10 (.call (.identifier "f" ⟨3, 1, "main.nx"⟩) [] ⟨3, 1, "main.nx"⟩))
          (.start (.start .empty [] [] [] 0) ".") = .ok .null final ∧
        Value.null.isOf .int = false :=
  ⟨⟨_, rfl⟩, _, rfl, rfl⟩

end Noxy
