import Noxy.Proofs.Checked

/-!
# What the checker covers

Where a program has no templates and no `return` outside of functions, the checker comes to every
expression that is executed, but for callees that are neither names nor members.
-/

namespace Noxy

/-! ### What is not looked at -/

mutual

def Expr.hasTemplate : Expr → Bool
  | .template _ _ => true
  | .binary left _ right _ => left.hasTemplate || right.hasTemplate
  | .unary _ operand _ => operand.hasTemplate
  | .call callee arguments _ => callee.hasTemplate || Expr.anyHasTemplate arguments
  | .index object position _ => object.hasTemplate || position.hasTemplate
  | .field object _ _ => object.hasTemplate
  | .array elements _ => Expr.anyHasTemplate elements
  | .map entries _ => Expr.entriesHaveTemplate entries
  | .ref value _ => value.hasTemplate
  | .zeros size _ => size.hasTemplate
  | .group inner _ => inner.hasTemplate
  | _ => false

def Expr.anyHasTemplate : List Expr → Bool
  | [] => false
  | expr :: rest => expr.hasTemplate || Expr.anyHasTemplate rest

def Expr.entriesHaveTemplate : List (Expr × Expr) → Bool
  | [] => false
  | (key, value) :: rest => key.hasTemplate || value.hasTemplate || Expr.entriesHaveTemplate rest

end

mutual

def Stmt.hasTemplate : Stmt → Bool
  | .letVar _ _ initializer _ => initializer.any Expr.hasTemplate
  | .globalVar _ _ initializer _ => initializer.hasTemplate
  | .assign target value _ => target.hasTemplate || value.hasTemplate
  | .expression expr _ => expr.hasTemplate
  | .branch condition thenBody elseBody _ =>
    condition.hasTemplate || Stmt.anyHasTemplate thenBody || Stmt.anyHasTemplate elseBody
  | .loop condition body _ => condition.hasTemplate || Stmt.anyHasTemplate body
  | .returning value _ => value.any Expr.hasTemplate
  | .function _ _ _ body _ => Stmt.anyHasTemplate body
  | _ => false

def Stmt.anyHasTemplate : List Stmt → Bool
  | [] => false
  | stmt :: rest => stmt.hasTemplate || Stmt.anyHasTemplate rest

end

mutual

def Stmt.mayReturn : Stmt → Bool
  | .returning _ _ => true
  | .branch _ thenBody elseBody _ => Stmt.anyMayReturn thenBody || Stmt.anyMayReturn elseBody
  | .loop _ body _ => Stmt.anyMayReturn body
  | _ => false

def Stmt.anyMayReturn : List Stmt → Bool
  | [] => false
  | stmt :: rest => stmt.mayReturn || Stmt.anyMayReturn rest

end

def Stmt.innerGlobals : Stmt → List String
  | .globalVar _ _ _ _ => []
  | stmt => stmt.globals

def Stmt.declares (name : String) : Stmt → Bool
  | .letVar other _ _ _ => other = name
  | .globalVar other _ _ _ => other = name
  | _ => false

theorem Stmt.innerGlobals_subset (stmt : Stmt) : stmt.innerGlobals ⊆ stmt.globals := by
  cases stmt with
  | globalVar => exact List.nil_subset _
  | _ => exact List.Subset.refl _

namespace Site

def hasTemplate : Site → Bool
  | body stmts => Stmt.anyHasTemplate stmts
  | stmt statement => statement.hasTemplate
  | expr expression => expression.hasTemplate

def mayReturn : Site → Bool
  | body stmts => Stmt.anyMayReturn stmts
  | stmt statement => statement.mayReturn
  | expr _ => false

def innerGlobals : Site → List String
  | body stmts => Stmt.globalsOf stmts
  | stmt statement => statement.innerGlobals
  | expr _ => []

/-- The checker accepts a site and looks at all of it.  The names that are declared as global
variables inside of it are among `inner`. -/
structure Covered (inner : String → Prop) (known : Checker) (site : Site) : Prop where
  accepted : site.Accepted known
  noTemplate : site.hasTemplate = false
  returns : known.returns = none → site.mayReturn = false
  globals : ∀ name ∈ site.innerGlobals, inner name

end Site

theorem Expr.hasTemplate_of_mem (none : Expr.anyHasTemplate exprs = false) (member : expr ∈ exprs) :
    expr.hasTemplate = false := by
  induction exprs with
  | nil => cases member
  | cons _ _ ih =>
    rw [Expr.anyHasTemplate, Bool.or_eq_false_iff] at none
    cases member with
    | head => exact none.1
    | tail _ inRest => exact ih none.2 inRest

theorem Expr.hasTemplate_of_entry (none : Expr.entriesHaveTemplate entries = false)
    (member : (key, value) ∈ entries) : key.hasTemplate = false ∧ value.hasTemplate = false := by
  induction entries with
  | nil => cases member
  | cons _ _ ih =>
    rw [Expr.entriesHaveTemplate, Bool.or_eq_false_iff, Bool.or_eq_false_iff] at none
    cases member with
    | head => exact none.1
    | tail _ inRest => exact ih none.2 inRest

theorem ExprPart.hasTemplate (isPart : ExprPart expr part) (none : expr.hasTemplate = false) :
    part.hasTemplate = false := by
  cases isPart with
  | left | indexed =>
    rw [Expr.hasTemplate, Bool.or_eq_false_iff] at none
    exact none.1
  | right | position =>
    rw [Expr.hasTemplate, Bool.or_eq_false_iff] at none
    exact none.2
  | operand | selected | referred | size | grouped =>
    rw [Expr.hasTemplate] at none
    exact none
  | receiver =>
    rw [Expr.hasTemplate, Bool.or_eq_false_iff, Expr.hasTemplate] at none
    exact none.1
  | argument member =>
    rw [Expr.hasTemplate, Bool.or_eq_false_iff] at none
    exact Expr.hasTemplate_of_mem none.2 member
  | element member =>
    rw [Expr.hasTemplate] at none
    exact Expr.hasTemplate_of_mem none member
  | key member =>
    rw [Expr.hasTemplate] at none
    exact (Expr.hasTemplate_of_entry none member).1
  | value member =>
    rw [Expr.hasTemplate] at none
    exact (Expr.hasTemplate_of_entry none member).2

/-! ### Covered sites -/

section Coverage

variable {inner : String → Prop} {part : Site}

theorem Contains.covered (contains : Contains known site last part)
    (covered : site.Covered inner known) : part.Covered inner last := by
  have accepted := contains.accepted covered.accepted
  have noTemplate := covered.noTemplate
  have returns := covered.returns
  have globals := covered.globals
  cases contains
  case part isPart => exact ⟨accepted, isPart.hasTemplate noTemplate, returns, nofun⟩
  all_goals simp only [Site.hasTemplate, Stmt.hasTemplate, Stmt.anyHasTemplate, Site.mayReturn,
    Stmt.mayReturn, Stmt.anyMayReturn, Site.innerGlobals, Stmt.innerGlobals, Stmt.globals,
    Stmt.globalsOf, Bool.or_eq_false_iff, List.forall_mem_append, Option.any_some]
      at noTemplate returns globals
  case first =>
    exact ⟨accepted, noTemplate.1, fun isNone => (returns isNone).1, fun name member =>
      globals.1 name (Stmt.innerGlobals_subset _ member)⟩
  case rest checked =>
    refine ⟨accepted, noTemplate.2, fun isNone => (returns ?_).2, globals.2⟩
    rw [← (Stmt.check_passes checked).1.returns, isNone]
  case thenBody => exact ⟨accepted, noTemplate.1.2, fun isNone => (returns isNone).1, globals.1⟩
  case elseBody checked =>
    refine ⟨accepted, noTemplate.2, fun isNone => (returns ?_).2, globals.2⟩
    rw [← (Stmt.checkAll_passes checked rfl).1.leave.returns, ← isNone]
    rfl
  case loopBody => exact ⟨accepted, noTemplate.2, returns, globals⟩
  case functionBody => exact ⟨accepted, noTemplate, nofun, globals⟩
  case returned expected => exact ⟨accepted, noTemplate, fun _ => rfl, nofun⟩
  case initializer | globalInitializer | expression =>
    exact ⟨accepted, noTemplate, fun _ => rfl, nofun⟩
  case target | loopCondition => exact ⟨accepted, noTemplate.1, fun _ => rfl, nofun⟩
  case assigned => exact ⟨accepted, noTemplate.2, fun _ => rfl, nofun⟩
  case branchCondition => exact ⟨accepted, noTemplate.1.1, fun _ => rfl, nofun⟩

theorem Stmt.checkAll_outermost (outside : known.inner = [])
    (checked : Stmt.checkAll stmts known = .ok () later) :
    later.inner = [] ∧ known.Grows later fun name => ∃ stmt ∈ stmts,
      stmt.declares name = true ∨ name ∈ stmt.innerGlobals := by
  induction stmts generalizing known with
  | nil =>
    cases checked
    exact ⟨outside, .refl _ (by simp)⟩
  | cons stmt _ ih =>
    obtain ⟨middle, first, others⟩ := ok_of_checkAll_cons checked
    obtain ⟨grows, isInner⟩ := check_passes first
    have stillOutside : middle.inner = [] := by
      rw [isInner, outside]
      cases stmt <;> rfl
    obtain ⟨atEnd, growsRest⟩ := ih stillOutside others
    refine ⟨atEnd, (grows.trans growsRest).congr fun name => ?_⟩
    have sameNames : stmt.declaredGlobally known.inner name ↔
        stmt.declares name = true ∨ name ∈ stmt.innerGlobals := by
      cases stmt <;> simp [declaredGlobally, declares, innerGlobals, globals, outside, eq_comm]
    simp [sameNames]

theorem Stmt.ok_of_checkAll_append
    (checked : Stmt.checkAll (first ++ second) known = .ok () later) :
    ∃ middle, Stmt.checkAll first known = .ok () middle ∧
      Stmt.checkAll second middle = .ok () later := by
  induction first generalizing known with
  | nil => exact ⟨known, rfl, checked⟩
  | cons _ _ ih =>
    obtain ⟨_, isFirst, others⟩ := ok_of_checkAll_cons checked
    obtain ⟨middle, isRest, isSecond⟩ := ih others
    refine ⟨middle, ?_, isSecond⟩
    simp only [checkAll, Bind.bind, EStateM.bind, isFirst, isRest]

theorem Stmt.hasTemplate_of_mem (none : Stmt.anyHasTemplate stmts = false) (member : stmt ∈ stmts) :
    stmt.hasTemplate = false := by
  induction stmts with
  | nil => cases member
  | cons _ _ ih =>
    rw [anyHasTemplate, Bool.or_eq_false_iff] at none
    cases member with
    | head => exact none.1
    | tail _ inRest => exact ih none.2 inRest

theorem Stmt.mayReturn_of_mem (none : Stmt.anyMayReturn stmts = false) (member : stmt ∈ stmts) :
    stmt.mayReturn = false := by
  induction stmts with
  | nil => cases member
  | cons _ _ ih =>
    rw [anyMayReturn, Bool.or_eq_false_iff] at none
    cases member with
    | head => exact none.1
    | tail _ inRest => exact ih none.2 inRest

end Coverage

namespace Program

def DeclaresInside (program : Program) (name : String) : Prop :=
  ∃ stmt ∈ program, name ∈ stmt.innerGlobals

/-- What the checker may take for a global variable when it looks at a statement of the program:
variables that the statements before it declare, and those that are declared inside of any
statement. -/
def Visible (program before : Program) (name : String) : Prop :=
  program.DeclaresInside name ∨ ∃ stmt ∈ before, stmt.declares name = true

theorem covered_at {program before after : Program} (isSplit : program = before ++ stmt :: after)
    (checked : Stmt.checkAll program declared = .ok () checker)
    (noTemplates : Stmt.anyHasTemplate program = false)
    (noReturns : Stmt.anyMayReturn program = false) (outside : declared.inner = [])
    (noGlobals : declared.outermost = []) :
    ∃ known, known.inner = [] ∧ known.functions = declared.functions ∧
      known.structs = declared.structs ∧
      (∀ name, (Bindings.get? name known.outermost).isSome = true →
        program.Visible before name) ∧
      (Site.stmt stmt).Covered program.DeclaresInside known := by
  have member : stmt ∈ program := isSplit ▸ List.mem_append_right _ List.mem_cons_self
  rw [isSplit] at checked
  obtain ⟨known, checkedBefore, checkedRest⟩ := Stmt.ok_of_checkAll_append checked
  obtain ⟨isOutside, grows⟩ := Stmt.checkAll_outermost outside checkedBefore
  obtain ⟨later, isChecked, _⟩ := Stmt.ok_of_checkAll_cons checkedRest
  refine ⟨known, isOutside, grows.functions, grows.structs, fun name declaredBefore => ?_,
    ⟨later, isChecked⟩, Stmt.hasTemplate_of_mem noTemplates member,
    fun _ => Stmt.mayReturn_of_mem noReturns member, fun _ isInner => ⟨stmt, member, isInner⟩⟩
  rcases (grows.outermost name).mp declaredBefore with isOld |
    ⟨other, isBefore, isDeclared | isInner⟩
  · rw [noGlobals] at isOld
    cases isOld
  · exact .inr ⟨other, isBefore, isDeclared⟩
  · exact .inl ⟨other, isSplit ▸ List.mem_append_left _ isBefore, isInner⟩

end Program

end Noxy
