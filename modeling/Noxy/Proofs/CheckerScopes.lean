import Noxy.Proofs.Composition
import Noxy.Proofs.Covered

/-!
# The scopes of the checker

Checking opens a scope for every body of an `if`, a loop or a function and closes it behind the
body. Where checking stops at a statement, the scopes of the bodies around it are still open.
-/

namespace Noxy

/-! ### Imports -/

/-- What an import takes from an interface. -/
def Interface.taken (interface : Interface) (number : Nat) (newName : Option String) :
    Selection → List (String × Member)
  | .whole => [(newName.getD interface.name, .global (.imported interface.name number))]
  | .all => interface.members
  | .names selected =>
    selected.filterMap fun name => (Bindings.get? name interface.members).map (name, ·)

/-- What a statement takes from modules in a state of the checker. -/
def Stmt.imports (world : World) (basePath : String) (known : Checker) :
    Stmt → List (String × Member)
  | .use names selection newName location =>
    match Modules.locate world basePath names with
    | .ok (some place) =>
      match interfaceOf world place (names.getLast?.getD "") location known with
      | .ok number later =>
        later.interfaces[number]?.elim [] fun interface => interface.taken number newName selection
      | .error _ _ => []
    | _ => []
  | _ => []

def Member.typed? : String × Member → Option (String × Ty)
  | (name, .global type) => some (name, type)
  | _ => none

/-- The variables and modules that the first pass over a program imports. -/
def Program.imports (world : World) (basePath : String) : Program → Checker → List (String × Ty)
  | [], _ => []
  | stmt :: rest, known =>
    (stmt.imports world basePath known).filterMap Member.typed? ++
      match declareAll world basePath [stmt] known with
      | .ok _ later => Program.imports world basePath rest later
      | .error _ _ => []

namespace Checker

def importAll (known : Checker) (members : List (String × Member)) : Checker :=
  members.foldl (fun known (name, member) => known.defineMember name member) known

/-- Nothing but the innermost and the outermost scope is different. -/
structure Level (known later : Checker) : Prop where
  depth : later.depth = known.depth
  outer : later.inner.tail = known.inner.tail
  returns : later.returns = known.returns

variable {known : Checker}

theorem Level.refl (known : Checker) : known.Level known :=
  ⟨rfl, rfl, rfl⟩

theorem Level.trans (first : known.Level later) (second : later.Level last) : known.Level last :=
  ⟨second.depth.trans first.depth, second.outer.trans first.outer,
    second.returns.trans first.returns⟩

theorem Level.outside (level : known.Level later) (outside : known.inner = []) :
    later.inner = [] := by
  have sameDepth := level.depth
  simpa [Checker.depth, outside] using sameDepth

theorem level_importAll (known : Checker) (members : List (String × Member)) :
    known.Level (known.importAll members) ∧ (known.inner = [] →
      (known.importAll members).outermost =
        Bindings.putAll (members.filterMap Member.typed?) known.outermost) := by
  induction members generalizing known with
  | nil => exact ⟨.refl known, fun _ => rfl⟩
  | cons item _ ih =>
    obtain ⟨name, member⟩ := item
    have first : known.Level (known.defineMember name member) := by
      cases member with
      | global =>
        rw [defineMember, define]
        cases inner : known.inner <;> constructor <;> simp [Checker.depth, defineGlobal, inner]
      | _ => exact ⟨rfl, rfl, rfl⟩
    obtain ⟨level, outermost⟩ := ih (known.defineMember name member)
    refine ⟨first.trans level, fun outside => (outermost (first.outside outside)).trans ?_⟩
    cases member <;> simp [Member.typed?, defineMember, define, outside] <;> rfl

end Checker

namespace Check

/-- The state that a step leaves is good, in view of whether the step succeeds. -/
def Leaves {α : Type} (step : Check α) (known : Checker) (good : Bool → Checker → Prop) : Prop :=
  match step known with
  | .ok _ later => good true later
  | .error _ later => good false later

variable {α β : Type} {next : α → Check β} {known : Checker} {good better : Bool → Checker → Prop}

theorem Leaves.of_ok (leaves : Leaves step known good) (ended : step known = .ok value later) :
    good true later := by
  rwa [Leaves, ended] at leaves

theorem Leaves.of_eq (same : step known = step' known') (leaves : Leaves step' known' good) :
    Leaves step known good := by
  rwa [Leaves, same]

theorem Leaves.imp (leaves : Leaves step known good)
    (implies : ∀ isOk later, good isOk later → better isOk later) : Leaves step known better := by
  unfold Leaves at leaves ⊢
  cases ended : step known <;> rw [ended] at leaves <;> exact implies _ _ leaves

theorem Leaves.bind (first : Leaves step known fun isOk later => isOk = false → good false later)
    (later : ∀ value middle, step known = .ok value middle → Leaves (next value) middle good) :
    Leaves (step >>= next) known good := by
  unfold Leaves at first ⊢
  rw [bind_apply]
  cases ended : step known with
  | ok value middle => exact later value middle ended
  | error =>
    rw [ended] at first
    exact first rfl

theorem leaves_get_bind {next : Checker → Check α} :
    Leaves (get >>= next) known good ↔ Leaves (next known) known good :=
  Iff.rfl

end Check

section FirstPass

variable {known : Checker}

theorem interfaceOf_leaves :
    Check.Leaves (interfaceOf world path title location) known fun _ later =>
      ∃ interfaces loaded, later = { known with interfaces := interfaces, loaded := loaded } := by
  unfold interfaceOf
  split
  · exact ⟨_, _, rfl⟩
  · rw [Check.leaves_get_bind]
    split
    · exact ⟨_, _, rfl⟩
    · rw [Check.leaves_get_bind]
      dsimp only
      split <;> exact ⟨_, _, rfl⟩

theorem importNames_leaves :
    Check.Leaves (importNames members path location selected) known fun isOk later =>
      ∃ taken, later = known.importAll taken ∧ (isOk = true → taken =
        selected.filterMap fun name => (Bindings.get? name members).map (name, ·)) := by
  induction selected generalizing known with
  | nil => exact ⟨[], rfl, fun _ => rfl⟩
  | cons name rest ih =>
    cases found : Bindings.get? name members with
    | none =>
      rw [importNames, found]
      exact ⟨[], rfl, nofun⟩
    | some member =>
      have afterFirst : importNames members path location (name :: rest) known =
          importNames members path location rest (known.defineMember name member) := by
        rw [importNames, found]
        rfl
      refine .of_eq afterFirst (ih.imp ?_)
      rintro _ _ ⟨taken, rfl, isTaken⟩
      exact ⟨(name, member) :: taken, rfl, fun isDone => by simp [found, isTaken isDone]⟩

theorem checkUse_leaves :
    Check.Leaves (checkUse world basePath names selection newName location) known
      fun isOk later => ∃ interfaces loaded taken,
        later = { known with interfaces := interfaces, loaded := loaded }.importAll taken ∧
          (isOk = true → taken =
            (Stmt.use names selection newName location).imports world basePath known) := by
  unfold checkUse
  cases located : Modules.locate world basePath names with
  | error => exact ⟨_, _, [], rfl, nofun⟩
  | ok found =>
    cases found with
    | none => exact ⟨_, _, [], rfl, nofun⟩
    | some =>
      refine .bind (interfaceOf_leaves.imp ?_) fun number _ read => ?_
      · rintro _ _ ⟨interfaces, loaded, rfl⟩ _
        exact ⟨interfaces, loaded, [], rfl, nofun⟩
      · obtain ⟨interfaces, loaded, rfl⟩ := interfaceOf_leaves.of_ok read
        rw [Check.leaves_get_bind]
        simp only [Stmt.imports, located, read]
        cases interfaces[number]? with
        | none => exact ⟨interfaces, loaded, [], rfl, fun _ => rfl⟩
        | some interface =>
          cases selection with
          | whole | all => exact ⟨interfaces, loaded, _, rfl, fun _ => rfl⟩
          | names selected =>
            refine (importNames_leaves).imp ?_
            rintro _ _ ⟨taken, rfl, isTaken⟩
            exact ⟨interfaces, loaded, taken, rfl, isTaken⟩

theorem declareAll_cons :
    declareAll world basePath (stmt :: rest) =
      (do declareAll world basePath [stmt]; declareAll world basePath rest) := by
  cases stmt <;> simp [declareAll]

theorem declareFirst_leaves (stmt : Stmt) :
    Check.Leaves (declareAll world basePath [stmt]) known fun isOk later =>
      known.Level later ∧ (isOk = true → known.inner = [] → later.outermost = Bindings.putAll
        ((stmt.imports world basePath known).filterMap Member.typed?) known.outermost) := by
  cases stmt with
  | use names selection newName location =>
    have isUse : declareAll world basePath [.use names selection newName location] =
        checkUse world basePath names selection newName location := by
      simp [declareAll]
    rw [isUse]
    refine checkUse_leaves.imp ?_
    rintro _ _ ⟨interfaces, loaded, taken, rfl, isTaken⟩
    obtain ⟨level, outermost⟩ :=
      { known with interfaces := interfaces, loaded := loaded }.level_importAll taken
    exact ⟨⟨level.depth, level.outer, level.returns⟩, fun isDone outside => by
      rw [← isTaken isDone]
      exact outermost outside⟩
  | _ => exact ⟨⟨rfl, rfl, rfl⟩, fun _ _ => rfl⟩

theorem declareAll_leaves (world : World) (basePath : String) (program : Program)
    (known : Checker) :
    Check.Leaves (declareAll world basePath program) known fun isOk later =>
      known.Level later ∧ (isOk = true → known.inner = [] → later.outermost = Bindings.putAll
        (Program.imports world basePath program known) known.outermost) := by
  induction program generalizing known with
  | nil => exact ⟨.refl known, fun _ _ => rfl⟩
  | cons stmt rest ih =>
    rw [declareAll_cons]
    refine .bind ((declareFirst_leaves stmt).imp fun _ _ first _ => ⟨first.1, nofun⟩)
      fun _ middle declared => ?_
    obtain ⟨level, outermost⟩ := (declareFirst_leaves stmt).of_ok declared
    refine (ih middle).imp fun isOk later next => ⟨level.trans next.1, fun isDone outside => ?_⟩
    rw [next.2 isDone (level.outside outside), outermost rfl outside, Program.imports, declared]
    exact List.foldl_append.symm

theorem error_of_declareAll {failure : Failure}
    (failed : declareAll world basePath program known = .error failure later) :
    ∃ stmt ∈ program, ∃ state, declareAll world basePath [stmt] state = .error failure later := by
  induction program generalizing known with
  | nil => cases failed
  | cons stmt _ ih =>
    rw [declareAll_cons] at failed
    rcases Check.error_of_bind failed with failed | ⟨_, _, _, failed⟩
    · exact ⟨stmt, List.mem_cons_self, known, failed⟩
    · obtain ⟨other, member, isFailed⟩ := ih failed
      exact ⟨other, List.mem_cons_of_mem _ member, isFailed⟩

end FirstPass

/-! ### Bodies -/

/-- The bodies of a statement, with the scopes in which they begin. -/
def Stmt.bodies : Stmt → List (Frame × List Stmt)
  | .branch _ thenBody elseBody _ => [([], thenBody), ([], elseBody)]
  | .loop _ body _ => [([], body)]
  | .function _ params _ body _ => [(Frame.withParams [] params, body)]
  | _ => []

def Stmt.declared (frame : Frame) : Stmt → Frame
  | .letVar name type _ _ => Bindings.put name type frame
  | _ => frame

/-- The statement stands in the body, which begins with the scope `frame`, or in a body inside it.
The scopes have what is declared up to the statement in the bodies around it, the innermost first.
-/
inductive Stands : Frame → List Stmt → Stmt → List Frame → Prop where
  | here : Stands frame (stmt :: rest) stmt [frame]
  | later (stands : Stands (first.declared frame) rest stmt scopes) :
      Stands frame (first :: rest) stmt scopes
  | inside (isBody : (start, body) ∈ first.bodies) (stands : Stands start body stmt scopes) :
      Stands frame (first :: rest) stmt (scopes ++ [frame])

namespace Stmt

variable {known : Checker} {failure : Failure}

theorem declaredInner_eq (stmt : Stmt) (inner : List Frame) :
    stmt.declaredInner inner = inner.modifyHead stmt.declared := by
  cases stmt <;> cases inner <;> rfl

theorem sizeOf_lt_of_mem_bodies {stmt : Stmt} (isBody : (start, body) ∈ stmt.bodies) :
    sizeOf body < sizeOf stmt := by
  cases stmt <;> simp_all [bodies] <;> grind

attribute [local simp] Check.bind_apply Check.pure_apply Check.get_apply Check.modify_apply
  Check.enter_apply Check.leave_apply Check.fail_apply Check.typeOf_apply Check.require_apply

/-- A statement is refused in the state in which it is checked, or one of its bodies is. -/
theorem error_of_check {stmt : Stmt} (failed : stmt.check known = .error failure later) :
    later = known ∨ ∃ start body inside, (start, body) ∈ stmt.bodies ∧
      inside.inner = start :: known.inner ∧ checkAll body inside = .error failure later := by
  cases stmt with
  | letVar _ type initializer =>
    cases initializer with
    | none => cases failed
    | some expr =>
      cases typed : known.typeOf expr with
      | error => simp_all [check]
      | ok actual => cases refused : type.initializerRefusal? actual <;> simp_all [check]
  | globalVar | assign | expression =>
    simp [check] at failed
    grind
  | branch _ thenBody elseBody =>
    have stopped : later = known ∨ checkAll thenBody known.enter = .error failure later ∨
        ∃ after, checkAll thenBody known.enter = .ok () after ∧
          checkAll elseBody after.leave.enter = .error failure later := by
      simp [check] at failed
      grind
    rcases stopped with same | failed | ⟨_, checked, failed⟩
    · exact .inl same
    · exact .inr ⟨[], thenBody, _, by simp [bodies], rfl, failed⟩
    · obtain ⟨_, _, inner⟩ := checkAll_passes checked rfl
      refine .inr ⟨[], elseBody, _, by simp [bodies], ?_, failed⟩
      rw [Checker.enter, Checker.leave, inner, List.tail_cons]
  | loop =>
    simp [check] at failed
    grind [bodies, Checker.enter]
  | returning value =>
    cases returns : known.returns <;> cases value <;>
      simp [check, checkReturn, returns] at failed <;>
      grind
  | function _ params returns =>
    have bound := defineParams_eq params { known with returns := some returns } [] known.inner
    simp [check, Checker.enter, bound] at failed
    grind [bodies, Checker.inFunction]
  | breaking | struct | use => cases failed

/-- Where the statements of a body are refused, the scopes of the bodies around the refused
statement are open. -/
theorem error_of_checkAll {stmts : List Stmt} {known later : Checker} (frame : Frame)
    (failed : checkAll stmts known = .error failure later)
    (begins : ∀ innermost ∈ known.inner.head?, innermost = frame) :
    ∃ stmt pushed top, Stands frame stmts stmt (pushed ++ [top]) ∧
      stmt.check later = .error failure later ∧
      later.inner = pushed ++ known.inner.modifyHead fun _ => top := by
  match stmts with
  | [] => cases failed
  | first :: rest =>
    have sameInner : known.inner.modifyHead (fun _ => frame) = known.inner := by
      cases inner : known.inner <;> simp_all
    simp only [checkAll] at failed
    rcases Check.error_of_bind failed with refused | ⟨_, _, checked, failed⟩
    · rcases error_of_check refused with rfl | ⟨start, _, _, isBody, isInside, failed⟩
      · exact ⟨first, [], frame, .here, refused, sameInner.symm⟩
      · have isSmaller := sizeOf_lt_of_mem_bodies isBody
        obtain ⟨stmt, pushed, top, stands, refused, inner⟩ :=
          error_of_checkAll start failed (by simp [isInside])
        refine ⟨stmt, pushed ++ [top], frame, .inside isBody stands, refused, ?_⟩
        simp [inner, isInside, sameInner]
    · have isInner := (check_passes checked).2
      rw [declaredInner_eq] at isInner
      obtain ⟨stmt, pushed, top, stands, refused, inner⟩ :=
        error_of_checkAll (first.declared frame) failed (by
          rw [isInner]
          cases inner : known.inner <;> simp_all)
      refine ⟨stmt, pushed, top, .later stands, refused, ?_⟩
      rw [inner, isInner, List.modifyHead_modifyHead]
      rfl
termination_by sizeOf stmts

theorem level_of_checkAll (checked : checkAll stmts known = .ok () later) : known.Level later := by
  cases inner : known.inner with
  | nil =>
    obtain ⟨isOutside, grows⟩ := checkAll_outermost inner checked
    exact ⟨by simp [Checker.depth, isOutside, inner], by rw [isOutside, inner], grows.returns⟩
  | cons =>
    obtain ⟨grows, _, isInner⟩ := checkAll_passes checked inner
    exact ⟨by simp [Checker.depth, isInner, inner], by simp [isInner, inner], grows.returns⟩

end Stmt

/-- The scopes after a program is checked. If it is accepted, they are as deep as before, and
nothing but the innermost and the outermost one is different. If it is refused, the scopes of the
bodies around the refused statement are open in addition. -/
theorem Program.check_keeps_scopes (world : World) (basePath : String) (program : Program)
    (known : Checker) :
    match program.check world basePath known with
    | .ok _ later =>
      known.Level later ∧ (known.inner = [] → ∀ name,
        (Bindings.get? name later.outermost).isSome = true ↔
          ((Bindings.get? name known.outermost).isSome = true ∨
            name ∈ (Program.imports world basePath program known).map Prod.fst) ∨
          ∃ stmt ∈ program, stmt.declares name = true ∨ name ∈ stmt.innerGlobals)
    | .error failure later =>
      (later.depth = known.depth ∧ ∃ stmt ∈ program, ∃ state,
        declareAll world basePath [stmt] state = .error failure later) ∨
      ∃ declared stmt pushed top, declareAll world basePath program known = .ok () declared ∧
        Stands (declared.inner.headD []) program stmt (pushed ++ [top]) ∧
        stmt.check later = .error failure later ∧
        later.inner = pushed ++ declared.inner.modifyHead (fun _ => top) ∧
        later.depth = known.depth + pushed.length := by
  have level := declareAll_leaves world basePath program known
  cases checked : program.check world basePath known with
  | ok _ later =>
    obtain ⟨_, declared, isDeclared, accepted⟩ := Check.ok_of_bind checked
    obtain ⟨level, outermost⟩ := level.of_ok isDeclared
    refine ⟨level.trans (Stmt.level_of_checkAll accepted), fun outside name => ?_⟩
    rw [← Bindings.isSome_get?_putAll, ← outermost rfl outside]
    exact (Stmt.checkAll_outermost (level.outside outside) accepted).2.outermost name
  | error failure later =>
    rcases Check.error_of_bind checked with failed | ⟨_, declared, isDeclared, refused⟩
    · rw [Check.Leaves, failed] at level
      exact .inl ⟨level.1.depth, error_of_declareAll failed⟩
    · obtain ⟨stmt, pushed, top, stands, refusedStmt, inner⟩ :=
        Stmt.error_of_checkAll (declared.inner.headD []) refused (by cases declared.inner <;> simp)
      refine .inr ⟨declared, stmt, pushed, top, isDeclared, stands, refusedStmt, inner, ?_⟩
      rw [← (level.of_ok isDeclared).1.depth]
      simp [Checker.depth, inner]
      omega

/-- A variable in the outermost scope, and a global one that is declared in a body. -/
def Program.globalInBody : Program :=
  let place : Location := ⟨1, 1, ""⟩
  [.letVar "x" .int none place,
    .branch (.bool true place) [.globalVar "y" .int (.int 1 place) place] [] place]

theorem Program.check_keeps_scopes_globalInBody :
    ∃ later, globalInBody.check (.start ⟨[], #[]⟩ [] [] [] 0) "." .fresh = .ok () later ∧
      Checker.fresh.Level later ∧ (Bindings.get? "y" later.outermost).isSome = true := by
  have checked : ∃ later, globalInBody.check (.start ⟨[], #[]⟩ [] [] [] 0) "." .fresh =
    .ok () later := ⟨_, rfl⟩
  obtain ⟨later, checked⟩ := checked
  have kept := check_keeps_scopes (.start ⟨[], #[]⟩ [] [] [] 0) "." globalInBody .fresh
  rw [checked] at kept
  exact ⟨later, checked, kept.1, (kept.2 rfl "y").mpr (.inr ⟨_, .tail _ (.head _), .inr (.head _)⟩)⟩

end Noxy
