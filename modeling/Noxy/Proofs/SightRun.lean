import Noxy.Proofs.KeptNames

/-!
# What a run can see

The parts of an activity work on what it mentions and on values that it has come across.
-/

namespace Noxy

open HasValues Exec

namespace Activity

def Allowed (hidden : Hidden) (machine : Machine) : Activity → Prop
  | eval expr => hidden.Allows expr.mentions
  | evalBinary _ left right => hidden.Allows left.mentions ∧ hidden.Allows right.mentions
  | evalAll exprs => hidden.Allows (Expr.listMentions exprs)
  | evalEntries entries done =>
    hidden.Allows (Expr.entryMentions entries) ∧ All (machine.heap.Sees hidden) done
  | evalParts parts => hidden.Allows (Expr.partMentions parts)
  | evalRef expr => hidden.Allows expr.mentions
  | evalCall callee arguments =>
    hidden.Allows callee.mentions ∧ hidden.Allows callee.calledName ∧
      hidden.Allows (Expr.listMentions arguments)
  | callValue callee arguments =>
    hidden.Allows callee.mentions ∧ hidden.Allows (Expr.listMentions arguments)
  | construct _ arguments => hidden.Allows (Expr.listMentions arguments)
  | callFunction function arguments =>
    machine.heap.Sees hidden (.function function) ∧ hidden.Allows (Expr.listMentions arguments)
  | evalArguments arguments => ∀ argument ∈ arguments, hidden.Allows argument.2.mentions
  | bindAll params =>
    ∀ param ∈ params, hidden.bindings param.1.name = false ∧
      All (machine.heap.Sees hidden) param.2
  | exec stmt => hidden.Allows stmt.mentions
  | execAll stmts => hidden.Allows (Stmt.listMentions stmts)
  | execBlock stmts => hidden.Allows (Stmt.listMentions stmts)
  | execLoop condition body =>
    hidden.Allows condition.mentions ∧ hidden.Allows (Stmt.listMentions body)
  | assignTarget target value =>
    hidden.Allows target.mentions ∧ All (machine.heap.Sees hidden) value
  | _ => False

end Activity

section Parts

variable {hidden : Hidden} {machine : Machine}

theorem Exec.Respects.of_ok [HasValues α] {step : Exec α} {value : α}
    (respects : Respects hidden machine step) (hides : machine.Hides hidden)
    (ended : step machine = .ok value begun) :
    machine.HiddenKept hidden begun ∧ All (begun.heap.Sees hidden) value :=
  (respects.ends hides).of_ok ended

theorem Machine.Hides.keptEntered (hides : machine.Hides hidden) (wellScoped : machine.WellScoped)
    (outer : Nat) : machine.HiddenKept hidden (Exec.entered outer machine) := by
  refine ⟨hides.entered outer, .refl hides.heap, fun _ => ?_⟩
  simp only [Scopes.definitions, getElem?_entered wellScoped.root_lt]

theorem Function.allowed_params {values : List Value}
    (seen : machine.heap.Sees hidden (.function function))
    (seenValues : All (machine.heap.Sees hidden) values) :
    ∀ param ∈ function.params.zip values, hidden.bindings param.1.name = false ∧
      All (machine.heap.Sees hidden) param.2 := by
  intro param member
  obtain ⟨isParam, isValue⟩ := List.of_mem_zip member
  have mentioned : Mention.ofVariable param.1.name ∈ function.mentions :=
    List.mem_append_left _ (List.mem_flatMap.mpr ⟨param.1, isParam, List.mem_cons_self⟩)
  exact ⟨Hidden.allows_ofVariable.mp (seen.1 _ mentioned), seenValues _ isValue⟩

theorem Begins.allowed (begins : Begins fuel activity machine part begun)
    (wellScoped : machine.WellScoped) (hides : machine.Hides hidden)
    (noImports : hidden.imports = false) (allowed : activity.Allowed hidden machine) :
    machine.HiddenKept hidden begun ∧ part.Allowed hidden begun := by
  have here := Machine.HiddenKept.refl hides
  have afterEval {expr : Expr} {value : Value} {later : Machine}
      (allowed : hidden.Allows expr.mentions) (ended : eval fuel expr machine = .ok value later) :
      machine.HiddenKept hidden later ∧ All (later.heap.Sees hidden) value :=
    (sighted hidden fuel (.eval allowed)).of_ok hides ended
  have called {function : Function} {arguments : List Expr} {values : List Value} {later : Machine}
      (allowed : machine.heap.Sees hidden (.function function) ∧
        hidden.Allows (Expr.listMentions arguments))
      (passed : evalArguments fuel (function.params.zip arguments) machine = .ok values later) :
      machine.HiddenKept hidden (entered 0 later) ∧
        (entered 0 later).heap.Sees hidden (.function function) ∧
        All ((entered 0 later).heap.Sees hidden) values := by
    have allowedEach : ∀ argument ∈ function.params.zip arguments,
        hidden.Allows argument.2.mentions := fun argument member =>
      allowed.2.of_subset (Expr.mentions_subset (List.of_mem_zip member).2)
    obtain ⟨kept, seen⟩ := (sighted hidden fuel (.evalArguments allowedEach)).of_ok hides passed
    have isScoped := (disciplined fuel (.evalArguments _)).wellScoped_of_ok wellScoped passed
    exact ⟨kept.trans (kept.hides.keptEntered isScoped 0), allowed.1, seen⟩
  cases begins
  all_goals simp only [Activity.Allowed, Expr.mentions, Expr.listMentions, Expr.entryMentions,
    Expr.partMentions, Stmt.mentions, Stmt.listMentions, Hidden.allows_append, Hidden.allows_cons,
    Hidden.allows_ofModules, noImports, Bool.false_eq_true, false_and] at allowed ⊢
  -- parts that begin where the activity does
  case binary | unary | call | elements | reference | parts | zeros | group | fieldObject | refField
      | refValue | restOfText | loop | expression | returnedValue | fieldValues =>
    exact ⟨here, allowed⟩
  case indexObject | leftOperand | firstOfAll | interpolation | methodObject | callee
      | branchCondition | firstStmt | loopCondition | targetField =>
    exact ⟨here, allowed.1⟩
  case refIndex | assignedValue => exact ⟨here, allowed.2⟩
  case entries => exact ⟨here, allowed, by simp⟩
  case entryKey => exact ⟨here, allowed.1.1⟩
  case targetObject => exact ⟨here, allowed.1.1⟩
  case callStruct | callBuiltin => exact ⟨here, allowed.2.2⟩
  case callOther => exact ⟨here, allowed.1, allowed.2.2⟩
  case initializer | globalInitializer => exact ⟨here, allowed.2.2⟩
  case firstArgument => exact ⟨here, allowed _ List.mem_cons_self⟩
  case callNamed name function location arguments isFunction =>
    have shown := allowed.2.1
    rw [Expr.calledName, Hidden.allows_cons, Hidden.allows_ofDefinition] at shown
    have seen := hides.callable? shown.1
    rw [isFunction, all_some] at seen
    exact ⟨here, seen, allowed.2.2⟩
  case arguments =>
    refine ⟨here, fun argument member => ?_⟩
    exact allowed.2.of_subset (Expr.mentions_subset (List.of_mem_zip member).2)
  -- parts that begin when an expression has been evaluated
  case indexPosition | rightOfAnd | rightOfOr | rightOperand | restOfAll | restOfParts | loopBody
      | callStructValue =>
    exact ⟨(afterEval allowed.1 ‹_›).1, allowed.2⟩
  case refObject => exact ⟨(afterEval allowed.2 ‹_›).1, allowed.1⟩
  case entryValue => exact ⟨(afterEval allowed.1.1 ‹_›).1, allowed.1.2.1⟩
  case targetIndex => exact ⟨(afterEval allowed.1.1 ‹_›).1, allowed.1.2⟩
  case methodArguments | elseBody => exact ⟨(afterEval allowed.1 ‹_›).1, allowed.2.2⟩
  case callMember => exact ⟨(afterEval allowed.1 ‹_›).1, allowed.1, allowed.2.2⟩
  case thenBody => exact ⟨(afterEval allowed.1 ‹_›).1, allowed.2.1⟩
  case callFunctionValue ended =>
    obtain ⟨kept, seen⟩ := afterEval allowed.1 ended
    exact ⟨kept, seen, allowed.2⟩
  case assignedTarget ended =>
    obtain ⟨kept, seen⟩ := afterEval allowed.2 ended
    exact ⟨kept, allowed.1, seen⟩
  -- parts that begin when other parts have ended
  case restOfEntries valueEnded keyEnded isKey =>
    obtain ⟨kept, seenKey⟩ := afterEval allowed.1.1 keyEnded
    obtain ⟨keptValue, seenValue⟩ :=
      (sighted hidden fuel (.eval allowed.1.2.1)).of_ok kept.hides valueEnded
    obtain ⟨keptKey, _⟩ := Respects.of_ok (.bind (.checkKey (keptValue.sees seenKey))
      fun _ _ _ _ => Builtin.keyOf_respects _) keptValue.hides isKey
    have keptAll := (kept.trans keptValue).trans keptKey
    exact ⟨keptAll, allowed.1.2.2, all_mapPut (keptKey.sees seenValue) (keptAll.sees allowed.2)⟩
  case restOfArguments ended isPassed =>
    obtain ⟨kept, seen⟩ := afterEval (allowed _ List.mem_cons_self) ended
    obtain ⟨keptCopy, _⟩ := (Respects.passed _ seen).of_ok kept.hides isPassed
    exact ⟨kept.trans keptCopy, fun other member => allowed other (List.mem_cons_of_mem _ member)⟩
  case restOfParams bound =>
    obtain ⟨shown, seen⟩ := allowed _ List.mem_cons_self
    obtain ⟨kept, _⟩ := (Respects.definition id shown seen).of_ok hides bound
    refine ⟨kept, fun other member => ?_⟩
    obtain ⟨shownOther, seenOther⟩ := allowed other (List.mem_cons_of_mem _ member)
    exact ⟨shownOther, kept.sees seenOther⟩
  case params passed =>
    obtain ⟨kept, seenFunction, seen⟩ := called allowed passed
    exact ⟨kept, Function.allowed_params seenFunction seen⟩
  case body passed bound =>
    obtain ⟨kept, seenFunction, seen⟩ := called allowed passed
    have params := Function.allowed_params seenFunction seen
    have respects := Respects.bindAll (fun param member => (params param member).1)
      fun param member => (params param member).2
    obtain ⟨keptParams, _⟩ := respects.of_ok kept.hides bound
    exact ⟨kept.trans keptParams, (Hidden.allows_append.mp allowed.1.1).2⟩
  case restOfStmts ended =>
    exact ⟨((sighted hidden fuel (.exec allowed.1)).of_ok hides ended).1, allowed.2⟩
  case block => exact ⟨hides.keptEntered wellScoped _, allowed⟩
  case nextTurn isTrue conditionEnded bodyEnded =>
    obtain ⟨kept, _⟩ := afterEval allowed.1 conditionEnded
    obtain ⟨keptBody, _⟩ := (sighted hidden fuel (.execBlock allowed.2)).of_ok kept.hides bodyEnded
    exact ⟨kept.trans keptBody, allowed⟩

theorem Activity.Allowed.isLoading {activity : Activity}
    (allowed : activity.Allowed hidden machine) :
    activity.isLoading = false := by
  cases activity <;> first | rfl | exact allowed.elim

structure Machine.Sealed (hidden : Hidden) (machine : Machine) : Prop where
  wellScoped : machine.WellScoped
  bare : machine.Bare
  hides : machine.Hides hidden

theorem Reaches.allowed (reaches : Reaches fuel activity machine fuel' part begun)
    (isSealed : machine.Sealed hidden) (noImports : hidden.imports = false)
    (allowed : activity.Allowed hidden machine) :
    begun.Sealed hidden ∧ begun.scopes.definitions = machine.scopes.definitions ∧
      part.Allowed hidden begun := by
  induction reaches with
  | here => exact ⟨isSealed, rfl, allowed⟩
  | inside begins _ ih =>
    obtain ⟨kept, allowedPart⟩ :=
      begins.allowed isSealed.wellScoped isSealed.hides noImports allowed
    have bare := begins.bare isSealed.wellScoped allowed.isLoading isSealed.bare
    obtain ⟨sealedLast, same, allowedLast⟩ :=
      ih ⟨begins.wellScoped isSealed.wellScoped, bare, kept.hides⟩ allowedPart
    exact ⟨sealedLast, same.trans (kept.definitions noImports), allowedLast⟩

end Parts

end Noxy
