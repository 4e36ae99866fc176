import Noxy.Program.Stmt

/-!
# What code mentions

The names that an expression or a statement looks up or binds, with what they are looked up as, and
whether it imports modules.
-/

namespace Noxy

inductive Mention where
  | ofVariable (name : String)
  | ofDefinition (name : String)
  | ofModules
  deriving DecidableEq

def Mention.name? : Mention → Option String
  | ofVariable name => some name
  | ofDefinition name => some name
  | ofModules => none

def Ty.mentions : Ty → List Mention
  | .array element _ => element.mentions
  | .map key value => key.mentions ++ value.mentions
  | .struct name _ => [.ofDefinition name]
  | .ref inner => inner.mentions
  | _ => []

def Declared.mentions (declared : Declared) : List Mention :=
  .ofVariable declared.name :: declared.type.mentions

def Expr.calledName : Expr → List Mention
  | .identifier name _ => [.ofDefinition name]
  | _ => []

mutual

def Expr.mentions : Expr → List Mention
  | .identifier name _ => [.ofVariable name]
  | .binary left _ right _ => left.mentions ++ right.mentions
  | .unary _ operand _ => operand.mentions
  | .call callee arguments _ =>
    callee.mentions ++ (callee.calledName ++ Expr.listMentions arguments)
  | .index object position _ => object.mentions ++ position.mentions
  | .field object _ _ => object.mentions
  | .array elements _ => Expr.listMentions elements
  | .map entries _ => Expr.entryMentions entries
  | .ref value _ => value.mentions
  | .template parts _ => Expr.partMentions parts
  | .zeros size _ => size.mentions
  | .group inner _ => inner.mentions
  | _ => []

def Expr.listMentions : List Expr → List Mention
  | [] => []
  | expr :: rest => expr.mentions ++ Expr.listMentions rest

def Expr.entryMentions : List (Expr × Expr) → List Mention
  | [] => []
  | (key, value) :: rest => key.mentions ++ (value.mentions ++ Expr.entryMentions rest)

def Expr.partMentions : List TemplatePart → List Mention
  | [] => []
  | .text _ :: rest => Expr.partMentions rest
  | .interpolation expr _ :: rest => expr.mentions ++ Expr.partMentions rest

end

mutual

def Stmt.mentions : Stmt → List Mention
  | .letVar name type none _ => .ofVariable name :: type.mentions
  | .letVar name type (some initializer) _ =>
    .ofVariable name :: (type.mentions ++ initializer.mentions)
  | .globalVar name type initializer _ =>
    .ofVariable name :: (type.mentions ++ initializer.mentions)
  | .assign target value _ => target.mentions ++ value.mentions
  | .expression expr _ => expr.mentions
  | .branch condition thenBody elseBody _ =>
    condition.mentions ++ (Stmt.listMentions thenBody ++ Stmt.listMentions elseBody)
  | .loop condition body _ => condition.mentions ++ Stmt.listMentions body
  | .returning none _ => []
  | .returning (some value) _ => value.mentions
  | .breaking _ => []
  | .function name params returns body _ =>
    .ofDefinition name ::
      (params.flatMap Declared.mentions ++ (returns.mentions ++ Stmt.listMentions body))
  | .struct name fields _ => .ofDefinition name :: fields.flatMap Declared.mentions
  | .use _ _ _ _ => [.ofModules]

def Stmt.listMentions : List Stmt → List Mention
  | [] => []
  | stmt :: rest => stmt.mentions ++ Stmt.listMentions rest

end

def Function.mentions (function : Function) : List Mention :=
  function.params.flatMap Declared.mentions ++ Stmt.listMentions function.body

def Struct.mentions (struct : Struct) : List Mention :=
  struct.fields.flatMap Declared.mentions

theorem Expr.mentions_subset (member : expr ∈ exprs) : expr.mentions ⊆ Expr.listMentions exprs := by
  induction exprs with
  | nil => cases member
  | cons _ _ ih =>
    rw [Expr.listMentions]
    cases member with
    | head => exact List.subset_append_left _ _
    | tail _ member => exact List.subset_append_of_subset_right _ (ih member)

theorem Stmt.mentions_subset (member : stmt ∈ stmts) : stmt.mentions ⊆ Stmt.listMentions stmts := by
  induction stmts with
  | nil => cases member
  | cons _ _ ih =>
    rw [Stmt.listMentions]
    cases member with
    | head => exact List.subset_append_left _ _
    | tail _ member => exact List.subset_append_of_subset_right _ (ih member)

theorem Stmt.listMentions_append (stmts others : List Stmt) :
    Stmt.listMentions (stmts ++ others) = Stmt.listMentions stmts ++ Stmt.listMentions others := by
  induction stmts with
  | nil => rfl
  | cons _ _ ih => rw [List.cons_append, Stmt.listMentions, ih, Stmt.listMentions,
      List.append_assoc]

theorem Stmt.listMentions_filter (keep : Stmt → Bool) (stmts : List Stmt) :
    Stmt.listMentions (stmts.filter keep) ⊆ Stmt.listMentions stmts := by
  induction stmts with
  | nil => exact List.Subset.refl _
  | cons _ _ ih =>
    rw [List.filter_cons, Stmt.listMentions]
    split
    · exact List.append_subset.mpr ⟨List.subset_append_left _ _,
        List.Subset.trans ih (List.subset_append_right _ _)⟩
    · exact List.Subset.trans ih (List.subset_append_right _ _)

theorem Stmt.function_mentions {stmt : Stmt} {function : Function}
    (isFunction : stmt.function? = some function) :
    .ofDefinition function.name ∈ stmt.mentions ∧ function.mentions ⊆ stmt.mentions := by
  cases stmt with
  | function =>
    cases isFunction
    refine ⟨List.mem_cons_self, ?_⟩
    intro _ member
    rcases List.mem_append.mp member with inParams | inBody
    · exact List.mem_cons_of_mem _ (List.mem_append_left _ inParams)
    · exact List.mem_cons_of_mem _
        (List.mem_append_right _ (List.mem_append_right _ inBody))
  | _ => cases isFunction

theorem Stmt.struct_mentions {stmt : Stmt} {struct : Struct}
    (isStruct : stmt.struct? = some struct) :
    .ofDefinition struct.name ∈ stmt.mentions ∧ struct.mentions ⊆ stmt.mentions := by
  cases stmt with
  | struct =>
    cases isStruct
    exact ⟨List.mem_cons_self, List.subset_cons_self _ _⟩
  | _ => cases isStruct

/-! ### Hidden things -/

/-- Objects and names that are kept out of sight. -/
structure Hidden where
  objects : Nat → Prop
  bindings : String → Bool
  definitions : String → Bool
  imports : Bool
  noNames : imports = true → ∀ name, bindings name = false ∧ definitions name = false
  functions : Function → Prop := fun _ => True
  anyFunction : imports = true → ∀ function, functions function := by exact fun _ _ => trivial

namespace Hidden

variable (hidden : Hidden)

def allows : Mention → Bool
  | .ofVariable name => !hidden.bindings name
  | .ofDefinition name => !hidden.definitions name
  | .ofModules => hidden.imports

/-- Nothing hidden is mentioned. -/
def Allows (mentions : List Mention) : Prop :=
  ∀ mention ∈ mentions, hidden.allows mention = true

variable {hidden}

@[simp]
theorem allows_nil : hidden.Allows [] :=
  nofun

@[simp]
theorem allows_cons :
    hidden.Allows (mention :: mentions) ↔
      hidden.allows mention = true ∧ hidden.Allows mentions :=
  List.forall_mem_cons

@[simp]
theorem allows_append :
    hidden.Allows (mentions ++ others) ↔ hidden.Allows mentions ∧ hidden.Allows others :=
  List.forall_mem_append

theorem Allows.of_subset (allowed : hidden.Allows others) (subset : mentions ⊆ others) :
    hidden.Allows mentions :=
  fun mention member => allowed mention (subset member)

@[simp]
theorem allows_ofVariable :
    hidden.allows (.ofVariable name) = true ↔ hidden.bindings name = false := by
  simp [allows]

@[simp]
theorem allows_ofDefinition :
    hidden.allows (.ofDefinition name) = true ↔ hidden.definitions name = false := by
  simp [allows]

@[simp]
theorem allows_ofModules : hidden.allows .ofModules = true ↔ hidden.imports = true :=
  Iff.rfl

theorem allows_of_imports (imports : hidden.imports = true) (mentions : List Mention) :
    hidden.Allows mentions := by
  intro mention _
  cases mention with
  | ofVariable name => exact allows_ofVariable.mpr (hidden.noNames imports name).1
  | ofDefinition name => exact allows_ofDefinition.mpr (hidden.noNames imports name).2
  | ofModules => exact imports

end Hidden

end Noxy
