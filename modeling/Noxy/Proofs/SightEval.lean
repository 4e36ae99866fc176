import Noxy.Proofs.SightScope

/-!
# What the evaluator can see

Code that mentions nothing hidden respects what is hidden: it leaves hidden objects alone, leads to
none of them, and does the same in a machine that lacks the hidden names.
-/

namespace Noxy

open HasValues Exec

attribute [local simp] Expr.mentions Stmt.mentions

/-- The steps of the evaluator on code that mentions nothing hidden. -/
inductive Harmless (hidden : Hidden) (machine : Machine) (fuel : Nat) :
    {α : Type} → [HasValues α] → Exec α → Prop where
  | eval {expr} : hidden.Allows expr.mentions → Harmless hidden machine fuel (eval fuel expr)
  | evalBinary {operator left right} : hidden.Allows left.mentions → hidden.Allows right.mentions →
      Harmless hidden machine fuel (evalBinary fuel operator left right)
  | evalAll {exprs} : hidden.Allows (Expr.listMentions exprs) →
      Harmless hidden machine fuel (evalAll fuel exprs)
  | evalEntries {entries done} : hidden.Allows (Expr.entryMentions entries) →
      All (machine.heap.Sees hidden) done →
      Harmless hidden machine fuel (evalEntries fuel entries done)
  | evalParts {parts} : hidden.Allows (Expr.partMentions parts) →
      Harmless hidden machine fuel (evalParts fuel parts)
  | evalRef {expr} : hidden.Allows expr.mentions →
      Harmless hidden machine fuel (evalRef fuel expr)
  | evalCall {callee arguments} : hidden.Allows callee.mentions → hidden.Allows callee.calledName →
      hidden.Allows (Expr.listMentions arguments) →
      Harmless hidden machine fuel (evalCall fuel callee arguments)
  | callValue {callee arguments} : hidden.Allows callee.mentions →
      hidden.Allows (Expr.listMentions arguments) →
      Harmless hidden machine fuel (callValue fuel callee arguments)
  | construct {struct arguments} : hidden.Allows (Expr.listMentions arguments) →
      Harmless hidden machine fuel (construct fuel struct arguments)
  | callFunction {function arguments} : hidden.Allows function.mentions →
      hidden.Allows (Expr.listMentions arguments) →
      Harmless hidden machine fuel (callFunction fuel function arguments)
  | evalArguments {arguments} : (∀ argument ∈ arguments, hidden.Allows argument.2.mentions) →
      Harmless hidden machine fuel (evalArguments fuel arguments)
  | exec {stmt} : hidden.Allows stmt.mentions → Harmless hidden machine fuel (exec fuel stmt)
  | execAll {stmts} : hidden.Allows (Stmt.listMentions stmts) →
      Harmless hidden machine fuel (execAll fuel stmts)
  | execBlock {stmts} : hidden.Allows (Stmt.listMentions stmts) →
      Harmless hidden machine fuel (execBlock fuel stmts)
  | execLoop {condition body} : hidden.Allows condition.mentions →
      hidden.Allows (Stmt.listMentions body) →
      Harmless hidden machine fuel (execLoop fuel condition body)
  | assignTarget {target value} : hidden.Allows target.mentions →
      All (machine.heap.Sees hidden) value →
      Harmless hidden machine fuel (assignTarget fuel target value)
  | execUse {names selection newName location} : hidden.imports = true →
      Harmless hidden machine fuel (execUse fuel names selection newName location)
  | loadModule {path} : hidden.imports = true →
      Harmless hidden machine fuel (loadModule fuel path)
  | loadMembers {module path members} : hidden.imports = true →
      All (machine.heap.Sees hidden) module →
      Harmless hidden machine fuel (loadMembers fuel module path members)
  | useAll {stmts} : hidden.Allows (Stmt.listMentions stmts) →
      Harmless hidden machine fuel (useAll fuel stmts)
  | evalGlobals {module stmts} : hidden.imports = true → All (machine.heap.Sees hidden) module →
      Harmless hidden machine fuel (evalGlobals fuel module stmts)

def Sighted (hidden : Hidden) (fuel : Nat) : Prop :=
  ∀ ⦃machine : Machine⦄ ⦃α : Type⦄ [HasValues α] ⦃step : Exec α⦄,
    Harmless hidden machine fuel step → Respects hidden machine step

namespace Sighted

variable {hidden : Hidden} {fuel : Nat} {machine : Machine} (ih : Sighted hidden fuel)
include ih

theorem eval (allowed : hidden.Allows expr.mentions) :
    Respects hidden machine (Noxy.eval (fuel + 1) expr) := by
  unfold Noxy.eval
  cases expr
  all_goals simp only [Expr.mentions, Hidden.allows_append, Hidden.allows_cons,
    Hidden.allows_ofVariable] at allowed
  case int | float | string | bytes | bool | null => exact .pure trivial
  case identifier =>
    exact .bind (.binding allowed.1) fun _ _ _ seen => .pure seen
  case binary => exact ih (.evalBinary allowed.1 allowed.2)
  case unary operator operand location =>
    cases operator with
    | negate => exact .bind (ih (.eval allowed)) fun _ _ _ _ => .made fun _ => Heap.all_negate _
    | invert =>
      exact .bind (ih (.eval allowed)) fun _ _ _ _ => .bind (.truth _) fun _ _ _ _ => .pure trivial
  case call => exact ih (.evalCall allowed.1 allowed.2.1 allowed.2.2)
  case index =>
    refine .bind (ih (.eval allowed.1)) fun _ _ _ seen => ?_
    refine .bind (ih (.eval allowed.2)) fun index _ kept _ => ?_
    exact .viewed fun hides => hides.indexed (kept.sees seen) index
  case field name _ =>
    exact .bind (ih (.eval allowed)) fun _ _ _ seen => .viewed fun hides => hides.selected seen name
  case array => exact .bind (ih (.evalAll allowed)) fun _ _ _ seen => .list seen
  case map =>
    exact .bind (ih (.evalEntries allowed (by simp))) fun _ _ _ seen => .alloc seen
  case ref => exact ih (.evalRef allowed)
  case template => exact .bind (ih (.evalParts allowed)) fun _ _ _ _ => .pure trivial
  case zeros =>
    refine .bind (ih (.eval allowed)) fun _ _ _ _ => ?_
    split
    · exact .bind (.ofExcept (Heap.all_zeros _)) fun _ _ _ seen => .alloc seen
    · exact .fail _
  case group => exact ih (.eval allowed)

theorem evalBinary {left : Expr} (allowedLeft : hidden.Allows left.mentions)
    (allowedRight : hidden.Allows right.mentions) :
    Respects hidden machine (Noxy.evalBinary (fuel + 1) operator left right) := by
  unfold Noxy.evalBinary
  refine .bind (ih (.eval allowedLeft)) fun _ _ _ seenLeft => ?_
  split
  · refine .bind (.truth _) fun _ _ _ _ => ?_
    split
    · exact .bind (ih (.eval allowedRight)) fun _ _ _ _ =>
        .bind (.truth _) fun _ _ _ _ => .pure trivial
    · exact .pure trivial
  · refine .bind (.truth _) fun _ _ _ _ => ?_
    split
    · exact .pure trivial
    · exact .bind (ih (.eval allowedRight)) fun _ _ _ _ =>
        .bind (.truth _) fun _ _ _ _ => .pure trivial
  · exact .bind (ih (.eval allowedRight)) fun _ _ kept seenRight => .made fun hides =>
      hides.binary _ (kept.sees seenLeft) seenRight

theorem evalRef (allowed : hidden.Allows expr.mentions) :
    Respects hidden machine (Noxy.evalRef (fuel + 1) expr) := by
  unfold Noxy.evalRef
  split
  · simp only [Expr.mentions, Hidden.allows_cons, Hidden.allows_ofVariable] at allowed
    exact .bind (.binding allowed.1) fun _ _ _ seen => .alloc seen
  · simp only [Expr.mentions] at allowed
    refine .bind (ih (.eval allowed)) fun _ _ _ seen => ?_
    refine .bind (.viewed fun hides => hides.dereference seen) fun _ _ _ seenBehind => ?_
    exact .alloc (Heap.all_targetOfPart seenBehind)
  · simp only [Expr.mentions, Hidden.allows_append] at allowed
    refine .bind (ih (.eval allowed.2)) fun _ _ _ seenIndex => ?_
    refine .bind (ih (.eval allowed.1)) fun _ _ kept seenObject => ?_
    refine .bind (.look _) fun _ _ keptLast _ => ?_
    have seenParts := And.intro (keptLast.sees seenObject) ((kept.trans keptLast).sees seenIndex)
    refine .alloc (Heap.all_targetOfPart ?_)
    split
    · exact seenParts
    · exact seenParts
  · exact .bind (ih (.eval allowed)) fun _ _ _ seen => .alloc seen

theorem evalCall (allowed : hidden.Allows callee.mentions)
    (allowedName : hidden.Allows callee.calledName)
    (allowedArguments : hidden.Allows (Expr.listMentions arguments)) :
    Respects hidden machine (Noxy.evalCall (fuel + 1) callee arguments) := by
  unfold Noxy.evalCall
  split
  · rename_i name location
    simp only [Expr.calledName, Hidden.allows_cons, Hidden.allows_ofDefinition] at allowedName
    refine .of_hides fun hides => .get_bind ?_ ?_
    · simp only [Machine.callable?_without allowedName.1]
    · have seen := hides.callable? allowedName.1
      cases found : machine.callable? name with
      | none => exact .fail _
      | some callable =>
        rw [found, all_some] at seen
        cases callable with
        | struct => exact ih (.construct allowedArguments)
        | function => exact ih (.callFunction seen.1 allowedArguments)
        | builtin =>
          exact .bind (ih (.evalAll allowedArguments)) fun _ _ _ seenValues =>
            Builtin.call_respects (find?_of_callable? found) seenValues
  · simp only [Expr.mentions] at allowed
    refine .bind (ih (.eval allowed)) fun object _ _ seen => ?_
    refine .bind (.look _) fun receiver _ kept _ => ?_
    split
    · split
      · rename_i receiver _ builtin found
        refine .bind (ih (.evalAll allowedArguments)) fun _ _ keptLast seenValues => ?_
        refine Builtin.call_respects found ?_
        split
        · exact (all_cons _ _).mpr ⟨(kept.trans keptLast).sees seen, seenValues⟩
        · exact seenValues
      · exact .fail _
    · exact ih (.callValue allowed allowedArguments)
  · exact ih (.callValue allowed allowedArguments)

theorem callBody (allowed : hidden.Allows function.mentions)
    (seen : All (machine.heap.Sees hidden) values) :
    Respects hidden machine (Noxy.callBody fuel function values) := by
  simp only [Function.mentions, Hidden.allows_append] at allowed
  refine .asCall (.inScope (.bind (.bindAll ?_ ?_) fun _ _ _ _ => ih (.execAll allowed.2)))
  · intro param member
    have isParam := (List.of_mem_zip member).1
    have mentioned : Mention.ofVariable param.1.name ∈ function.params.flatMap Declared.mentions :=
      List.mem_flatMap.mpr ⟨param.1, isParam, List.mem_cons_self⟩
    exact Hidden.allows_ofVariable.mp (allowed.1 _ mentioned)
  · intro param member
    exact seen param.2 (List.of_mem_zip member).2

theorem exec (allowed : hidden.Allows stmt.mentions) :
    Respects hidden machine (Noxy.exec (fuel + 1) stmt) := by
  cases stmt
  case' letVar name type initializer location => cases initializer
  case' returning value location => cases value
  all_goals simp only [Stmt.mentions, Hidden.allows_append, Hidden.allows_cons,
    Hidden.allows_ofVariable, Hidden.allows_ofModules] at allowed
  case letVar.none =>
    exact .bind ((Respects.defaults fuel).1 type machine allowed.2) fun _ _ _ seen =>
      .definition id allowed.1 seen
  case letVar.some =>
    exact .bind (ih (.eval allowed.2.2)) fun _ _ _ seen => .definition id allowed.1 seen
  case globalVar =>
    exact .bind (ih (.eval allowed.2.2)) fun _ _ _ seen => .define allowed.1 seen
  case assign =>
    exact .bind (ih (.eval allowed.2)) fun _ _ _ seen => ih (.assignTarget allowed.1 seen)
  case expression => exact .bind (ih (.eval allowed)) fun _ _ _ _ => .pure trivial
  case branch =>
    refine .bind (ih (.eval allowed.1)) fun _ _ _ _ => .bind (.truth _) fun _ _ _ _ => ?_
    split
    · exact ih (.execBlock allowed.2.1)
    · exact ih (.execBlock allowed.2.2)
  case loop => exact ih (.execLoop allowed.1 allowed.2)
  case returning.none | breaking => exact .throw trivial
  case returning.some => exact .bind (ih (.eval allowed)) fun _ _ _ seen => .throw seen
  case function | struct => exact .pure trivial
  case use => exact ih (.execUse allowed.1)

theorem execLoop (allowed : hidden.Allows condition.mentions)
    (allowedBody : hidden.Allows (Stmt.listMentions body)) :
    Respects hidden machine (Noxy.execLoop (fuel + 1) condition body) := by
  have turn : Respects hidden machine (loopTurn fuel condition body) := by
    refine .bind (ih (.eval allowed)) fun _ _ _ _ => .bind (.truth _) fun _ _ _ _ => ?_
    split
    · exact .bind (ih (.execBlock allowedBody)) fun _ _ _ _ => .pure trivial
    · exact .pure trivial
  rw [Noxy.execLoop_succ]
  refine .bind turn.proceeds fun _ _ _ _ => ?_
  split
  · exact ih (.execLoop allowed allowedBody)
  · exact .pure trivial

theorem assignTarget (allowed : hidden.Allows target.mentions)
    (seen : All (machine.heap.Sees hidden) value) :
    Respects hidden machine (Noxy.assignTarget (fuel + 1) target value) := by
  unfold Noxy.assignTarget
  split
  · simp only [Expr.mentions, Hidden.allows_cons, Hidden.allows_ofVariable] at allowed
    exact .assign allowed.1 seen
  · simp only [Expr.mentions, Hidden.allows_append] at allowed
    refine .bind (ih (.eval allowed.1)) fun _ _ kept seenObject => ?_
    refine .bind (ih (.eval allowed.2)) fun _ _ keptLast _ => ?_
    exact .changed fun _ _ made => Heap.indexAssignment_seen made (keptLast.sees seenObject)
      ((kept.trans keptLast).sees seen)
  · simp only [Expr.mentions] at allowed
    refine .bind (ih (.eval allowed)) fun _ _ kept seenObject => ?_
    exact .changed fun hides _ made => hides.fieldAssignment made seenObject (kept.sees seen)
  · exact .fail _

/-! ### Modules -/

theorem moduleBody (program : Program) (imports : hidden.imports = true)
    (seen : All (machine.heap.Sees hidden) module) :
    Respects hidden machine (Exec.inScope 0 (do
      Noxy.useAll fuel program
      let scope := (← get).current
      defineMembers scope (some module) program
      Noxy.evalGlobals fuel module program)) := by
  refine .inScope (.bind (ih (.useAll (Hidden.allows_of_imports imports _))) fun _ _ first _ => ?_)
  have seenFirst := first.heap.sees seen
  refine .get_bind (by rw [Machine.without_of_imports imports]) ?_
  refine .bind (.defineMembers imports program ((all_some _).mpr seenFirst)) fun _ _ second _ => ?_
  exact ih (.evalGlobals imports (second.sees seenFirst))

theorem loadModule (imports : hidden.imports = true) :
    Respects hidden machine (Noxy.loadModule (fuel + 1) path) := by
  unfold Noxy.loadModule
  refine .bind (.world _) fun world start _ _ => ?_
  split
  · refine .of_hides fun hides => .get_bind (by rw [Machine.without_of_imports imports]) ?_
    split
    · rename_i module isModule
      exact .pure (hides.modules imports _ (Bindings.mem_of_lookup isModule)).2
    · exact .fault _
  · rename_i resolved node found
    refine .of_hides fun hides => .get_bind (by rw [Machine.without_of_imports imports]) ?_
    split
    · rename_i module isModule
      exact .pure (hides.modules imports _ (Bindings.mem_of_lookup isModule)).2
    · refine .bind (.alloc (by simp)) fun _ _ _ seen => ?_
      refine .bind (.remember imports _ seen) fun _ _ kept _ => ?_
      have seenModule := kept.sees seen
      split
      · exact .bind (ih (.loadMembers imports seenModule)) fun _ _ keptLast _ =>
          .pure (keptLast.sees seenModule)
      · refine .bind (.readModule _ _) fun program _ keptRead _ => ?_
        exact .bind (ih.moduleBody program imports (keptRead.sees seenModule)) fun _ _ keptLast _ =>
          .pure ((keptRead.trans keptLast).sees seenModule)

theorem succ : Sighted hidden (fuel + 1) := by
  intro machine α _ step harmless
  cases harmless with
  | eval allowed => exact ih.eval allowed
  | evalBinary first second => exact ih.evalBinary first second
  | @evalAll exprs allowed =>
    cases exprs with
    | nil => exact .pure (by simp)
    | cons expr rest =>
      simp only [Expr.listMentions, Hidden.allows_append] at allowed
      refine .bind (ih (.eval allowed.1)) fun value _ _ seen => ?_
      refine .bind (ih (.evalAll allowed.2)) fun values _ kept seenValues => ?_
      exact .pure ((all_cons _ _).mpr ⟨kept.sees seen, seenValues⟩)
  | @evalEntries entries done allowed seen =>
    cases entries with
    | nil => exact .pure seen
    | cons entry rest =>
      simp only [Expr.entryMentions, Hidden.allows_append] at allowed
      refine .bind (ih (.eval allowed.1)) fun key first keptFirst seenKey => ?_
      refine .bind (ih (.eval allowed.2.1)) fun value second keptSecond seenValue => ?_
      refine .bind (.checkKey (keptSecond.sees seenKey)) fun _ third keptThird _ => ?_
      refine .bind (Builtin.keyOf_respects _) fun key fourth keptFourth _ => ?_
      refine ih (.evalEntries allowed.2.2 (all_mapPut ?_ ?_))
      · exact (keptThird.trans keptFourth).sees seenValue
      · exact (((keptFirst.trans keptSecond).trans keptThird).trans keptFourth).sees seen
  | @evalParts parts allowed =>
    cases parts with
    | nil => exact .pure (by simp)
    | cons part rest =>
      cases part with
      | text content =>
        simp only [Expr.partMentions] at allowed
        exact .bind (ih (.evalParts allowed)) fun _ _ _ _ => .pure (by simp)
      | interpolation expr format =>
        simp only [Expr.partMentions, Hidden.allows_append] at allowed
        exact .bind (ih (.eval allowed.1)) fun _ _ _ _ => .bind (.view _) fun _ _ _ _ =>
          .bind (ih (.evalParts allowed.2)) fun _ _ _ _ => .pure (by simp)
  | evalRef allowed => exact ih.evalRef allowed
  | evalCall first second third => exact ih.evalCall first second third
  | callValue allowed allowedArguments =>
    unfold Noxy.callValue
    refine .bind (ih (.eval allowed)) fun value _ _ seen => ?_
    split
    · exact ih (.callFunction seen.1 allowedArguments)
    · exact ih (.construct allowedArguments)
    · exact .bind (.look _) fun _ _ _ _ => .fail _
  | construct allowed =>
    unfold Noxy.construct
    split
    · exact .fail _
    · exact .bind (ih (.evalAll allowed)) fun _ _ _ seen => .struct (Respects.all_fieldsOf _ seen)
  | callFunction allowed allowedArguments =>
    unfold Noxy.callFunction
    split
    · exact .fail _
    · refine .bind (ih (.evalArguments ?_)) fun values _ _ seen => ih.callBody allowed seen
      intro argument member
      exact allowedArguments.of_subset (Expr.mentions_subset (List.of_mem_zip member).2)
  | @evalArguments arguments allowed =>
    cases arguments with
    | nil => exact .pure (by simp)
    | cons argument rest =>
      refine .bind (ih (.eval (allowed argument List.mem_cons_self))) fun value _ _ seen => ?_
      refine .bind (.passed _ seen) fun copy _ _ seenCopy => ?_
      refine .bind (ih (.evalArguments fun other member =>
        allowed other (List.mem_cons_of_mem _ member))) fun values _ kept seenValues => ?_
      exact .pure ((all_cons _ _).mpr ⟨kept.sees seenCopy, seenValues⟩)
  | exec allowed => exact ih.exec allowed
  | @execAll stmts allowed =>
    cases stmts with
    | nil => exact .pure trivial
    | cons stmt rest =>
      simp only [Stmt.listMentions, Hidden.allows_append] at allowed
      exact .bind (ih (.exec allowed.1)) fun _ _ _ _ => ih (.execAll allowed.2)
  | execBlock allowed =>
    exact .get_bind rfl (.inScope (ih (.execAll allowed)))
  | execLoop first second => exact ih.execLoop first second
  | assignTarget first second => exact ih.assignTarget first second
  | execUse imports =>
    refine .get_bind (by rw [Machine.without_of_imports imports]) ?_
    split
    · exact .fault _
    · exact .throw trivial
    · exact .bind (ih (.loadModule imports)) fun _ _ _ seen => .importSelection imports _ _ _ seen
  | loadModule allowed => exact ih.loadModule allowed
  | @loadMembers module path members imports seen =>
    cases members with
    | nil => exact .pure trivial
    | cons member rest =>
      refine .bind (ih (.loadModule imports)) fun value _ kept seenMember => ?_
      refine .bind (.setMember _ (kept.sees seen) seenMember) fun _ _ keptLast _ => ?_
      exact ih (.loadMembers imports ((kept.trans keptLast).sees seen))
  | @useAll stmts allowed =>
    cases stmts with
    | nil => exact .pure trivial
    | cons stmt rest =>
      simp only [Stmt.listMentions, Hidden.allows_append] at allowed
      unfold Noxy.useAll
      dsimp only
      split
      · have imports := Hidden.allows_ofModules.mp (allowed.1 _ List.mem_cons_self)
        exact .bind (ih (.execUse imports)) fun _ _ _ _ => ih (.useAll allowed.2)
      · exact ih (.useAll allowed.2)
  | @evalGlobals module stmts imports seen =>
    cases stmts with
    | nil => exact .pure trivial
    | cons stmt rest =>
      unfold Noxy.evalGlobals
      dsimp only
      split
      · rename_i name type initializer location
        have isAllowed := Hidden.allows_of_imports imports initializer.mentions
        refine .bind (ih (.eval isAllowed)) fun value _ first seenValue => ?_
        refine .bind (.definition id (hidden.noNames imports name).1 seenValue)
          fun _ _ second _ => ?_
        have kept := first.trans second
        refine .bind (.setMember _ (kept.sees seen) (second.sees seenValue)) fun _ _ third _ => ?_
        exact ih (.evalGlobals imports ((kept.trans third).sees seen))
      · exact ih (.evalGlobals imports seen)

end Sighted

theorem sighted (hidden : Hidden) (fuel : Nat) : Sighted hidden fuel := by
  induction fuel with
  | zero =>
    intro _ _ _ _ harmless
    cases harmless <;> exact .exhausted
  | succ _ ih => exact ih.succ

end Noxy
