import Noxy.Proofs.ReturnedValues

/-!
# Uncaught signals

A `break` ends the innermost loop that is being executed, also when the loop is one of a caller.
-/

namespace Noxy

open Exec

/-- What an activity reaches without an activity on the way that would catch the signal. -/
inductive ReachesUncaught (signal : Signal) : Nat → Activity → Machine → Nat → Activity → Machine →
    Prop where
  | here : ReachesUncaught signal fuel activity machine fuel activity machine
  | inside (begins : Begins fuel activity machine part begun)
      (passes : activity.catches signal = false)
      (reaches : ReachesUncaught signal fuel part begun fuel' activity' machine') :
      ReachesUncaught signal (fuel + 1) activity machine fuel' activity' machine'

theorem ReachesUncaught.reaches
    (reaches : ReachesUncaught signal fuel activity machine fuel' part begun) :
    Reaches fuel activity machine fuel' part begun := by
  induction reaches with
  | here => exact .here
  | inside begins _ _ ih => exact .inside begins ih

theorem ReachesUncaught.signals
    (reaches : ReachesUncaught signal fuel activity machine fuel' part begun)
    (signals : (part.run fuel').Signals begun signal) :
    (activity.run fuel).Signals machine signal := by
  induction reaches with
  | here => exact signals
  | inside begins passes _ ih => exact begins.signals passes (ih signals)

namespace Activity

variable {fuel : Nat} {activity : Activity} {machine begun : Machine}

theorem execLoop_not_breaking :
    ¬ (Noxy.execLoop fuel condition body).Signals machine .breaking := by
  induction fuel generalizing machine with
  | zero =>
    rintro ⟨_, ended⟩
    cases ended
  | succ fuel ih =>
    rw [execLoop_succ]
    intro signals
    rcases signals.of_bind with ⟨final, ended⟩ | ⟨goesOn, next, _, signals⟩
    · unfold proceeds at ended
      split at ended
      · cases ended
      · rename_i notBreaking
        exact notBreaking _ ended
    · cases goesOn with
      | true => exact ih signals
      | false =>
        obtain ⟨_, ended⟩ := signals
        cases ended

theorem not_catches_of_signals (signals : (activity.run fuel).Signals machine signal) :
    activity.catches signal = false := by
  cases activity with
  | callFunction =>
    cases signal with
    | returning => exact absurd signals (not_returning rfl)
    | _ => rfl
  | execLoop =>
    cases signal with
    | breaking => exact absurd signals execLoop_not_breaking
    | _ => rfl
  | _ => rfl

theorem uncaught_origin (signals : (activity.run fuel).Signals machine signal)
    (notTame : signal.isTame = false) :
    ∃ fuel' part begun, ReachesUncaught signal fuel activity machine (fuel' + 1) part begun ∧
      part.Raises fuel' begun signal := by
  induction fuel generalizing activity machine with
  | zero => exact absurd (isTame_of_run_zero signals) (Bool.eq_false_iff.mp notTame)
  | succ fuel ih =>
    cases traced signals with
    | tame isTame => exact absurd isTame (Bool.eq_false_iff.mp notTame)
    | own raises => exact ⟨fuel, activity, machine, .here, raises⟩
    | part begins partSignals =>
      obtain ⟨fuel', part, begun, reaches, raises⟩ := ih partSignals
      exact ⟨fuel', part, begun, .inside begins (not_catches_of_signals signals) reaches, raises⟩

/-- A `break` is executed and no loop that the activity began is being executed. -/
def BreaksOut (fuel : Nat) (activity : Activity) (machine : Machine) : Prop :=
  ∃ fuel' location begun,
    ReachesUncaught .breaking fuel activity machine (fuel' + 1) (.exec (.breaking location)) begun

theorem signals_breaking_iff :
    (activity.run fuel).Signals machine .breaking ↔ activity.BreaksOut fuel machine := by
  constructor
  · intro signals
    obtain ⟨fuel', _, begun, reaches, raises⟩ := uncaught_origin signals rfl
    cases raises with
    | breaking => exact ⟨fuel', _, begun, reaches⟩
  · rintro ⟨_, _, begun, reaches⟩
    exact reaches.signals ⟨begun, rfl⟩

end Activity

/-! ### Functions that break out -/

mutual

/-- Whether a statement has a `break` outside of its loops. -/
def Stmt.hasLooseBreak : Stmt → Bool
  | .breaking _ => true
  | .branch _ thenBody elseBody _ =>
    Stmt.anyHasLooseBreak thenBody || Stmt.anyHasLooseBreak elseBody
  | _ => false

def Stmt.anyHasLooseBreak : List Stmt → Bool
  | [] => false
  | stmt :: rest => stmt.hasLooseBreak || Stmt.anyHasLooseBreak rest

end

namespace Activity

def hasLooseBreak : Activity → Bool
  | .exec stmt => stmt.hasLooseBreak
  | .execAll stmts | .execBlock stmts => Stmt.anyHasLooseBreak stmts
  | _ => false

theorem hasLooseBreak_of_begins (begins : Begins fuel activity machine part begun)
    (passes : activity.catches .breaking = false) (loose : part.hasLooseBreak = true) :
    activity.hasLooseBreak = true ∨ ∃ function arguments,
      activity = .callFunction function arguments ∧ Stmt.anyHasLooseBreak function.body = true := by
  cases begins with
  | body => exact .inr ⟨_, _, rfl, loose⟩
  | thenBody | firstStmt => exact .inl (Bool.or_eq_true_iff.mpr (.inl loose))
  | elseBody | restOfStmts => exact .inl (Bool.or_eq_true_iff.mpr (.inr loose))
  | block => exact .inl loose
  | loopBody => cases passes
  | _ => cases loose

/-- A loose `break` is reached in the activity's own statements or in a function it calls. -/
theorem hasLooseBreak_of_reaches
    (reaches : ReachesUncaught .breaking fuel activity machine fuel' part begun)
    (loose : part.hasLooseBreak = true) :
    activity.hasLooseBreak = true ∨ ∃ fuel'' function arguments called,
      ReachesUncaught .breaking fuel activity machine fuel'' (.callFunction function arguments)
        called ∧ Stmt.anyHasLooseBreak function.body = true := by
  induction reaches with
  | here => exact .inl loose
  | inside begins passes _ ih =>
    rcases ih loose with inPart | ⟨fuel'', function, arguments, called, reaches, isLoose⟩
    · rcases hasLooseBreak_of_begins begins passes inPart with own |
        ⟨function, arguments, rfl, isLoose⟩
      · exact .inl own
      · exact .inr ⟨_, function, arguments, _, .here, isLoose⟩
    · exact .inr ⟨fuel'', function, arguments, called, .inside begins passes reaches, isLoose⟩

end Activity

theorem execLoop_of_breaking {final : Machine}
    (evaluated : eval fuel condition machine = .ok value turned)
    (isTrue : turned.heap.isTrue value = .ok true)
    (broken : execBlock fuel body turned = .error .breaking final) :
    execLoop (fuel + 1) condition body machine = .ok () final := by
  have turn : loopTurn fuel condition body machine = .error .breaking final := by
    rw [loopTurn, bind_of_ok evaluated, bind_of_ok (truth_eq_ok.mpr ⟨isTrue, rfl⟩), if_pos rfl]
    simp only [Bind.bind, EStateM.bind, broken]
  have stops : proceeds (loopTurn fuel condition body) machine = .ok false final := by
    rw [proceeds, turn]
  rw [execLoop_succ, bind_of_ok stops]
  rfl

/--
A call completes with a break exactly when a `break` is executed in it and none of the loops begun
in the call is being executed.  This takes a function with a `break` outside of its loops, the
called one or one that it calls in turn.  The break then ends the loop that the caller executes.
-/
theorem breaks_leave_calls (function : Function) (arguments : List Expr) (fuel : Nat)
    (machine : Machine) :
    ((callFunction fuel function arguments).Signals machine .breaking ↔
      (Activity.callFunction function arguments).BreaksOut fuel machine) ∧
    ((callFunction fuel function arguments).Signals machine .breaking →
      ∃ fuel' inner innerArguments called,
        ReachesUncaught .breaking fuel (.callFunction function arguments) machine fuel'
          (.callFunction inner innerArguments) called ∧
        Stmt.anyHasLooseBreak inner.body = true) ∧
    ∀ condition body loopFuel start value turned,
      eval loopFuel condition start = .ok value turned → turned.heap.isTrue value = .ok true →
      ReachesUncaught .breaking loopFuel (.execBlock body) turned fuel
        (.callFunction function arguments) machine →
      (callFunction fuel function arguments).Signals machine .breaking →
      ∃ final, execBlock loopFuel body turned = .error .breaking final ∧
        execLoop (loopFuel + 1) condition body start = .ok () final := by
  have breaks : (callFunction fuel function arguments).Signals machine .breaking ↔
      (Activity.callFunction function arguments).BreaksOut fuel machine :=
    ⟨fun signals => Activity.signals_breaking_iff.mp signals.bind,
      fun breaksOut => (Activity.signals_breaking_iff.mpr breaksOut).of_discard⟩
  refine ⟨breaks, fun signals => ?_, fun condition body loopFuel start value turned evaluated isTrue
    reaches signals => ?_⟩
  · obtain ⟨_, _, _, reaches⟩ := breaks.mp signals
    rcases Activity.hasLooseBreak_of_reaches reaches rfl with own | called
    · cases own
    · exact called
  · obtain ⟨final, broken⟩ := reaches.signals signals.bind
    exact ⟨final, broken, execLoop_of_breaking evaluated isTrue broken⟩

def Function.breakingOut : Function :=
  ⟨"f", [], .void, [.breaking ⟨2, 3, "main.nx"⟩], ⟨1, 1, "main.nx"⟩⟩

def Program.breakingOut : Program :=
  let here : Location := ⟨1, 1, "main.nx"⟩
  let count : Expr := .identifier "i" here
  [ .function "f" [] .void Function.breakingOut.body here,
    .letVar "i" .int (some (.int 0 here)) here,
    .loop (.binary count .less (.int 3 here) here)
      [ .assign count (.binary count .add (.int 1 here) here) here,
        .expression (.call (.identifier "f" here) [] here) here ]
      here ]

/-- The call in the first turn of this accepted program breaks, and `i` remains 1. -/
theorem call_breaks_loop_of_caller :
    (∃ checker,
      Program.breakingOut.check (.start .empty [] [] [] 0) "." .fresh = .ok () checker) ∧
      (∃ final, callFunction 5 .breakingOut [] (.start (.start .empty [] [] [] 0) ".") =
        .error .breaking final) ∧
      ∃ value final, (do
        Program.breakingOut.run 20
        eval 20 (.identifier "i" ⟨1, 1, "main.nx"⟩)) (.start (.start .empty [] [] [] 0) ".") =
          .ok value final ∧ value.int? = some 1 := by
  exact ⟨⟨_, rfl⟩, ⟨_, rfl⟩, _, _, rfl, rfl⟩

end Noxy
