import Noxy.Proofs.Discipline
import Noxy.Proofs.ModuleFrame
import Noxy.Proofs.Moments

/-!
# The course of an activity

An activity begins its parts one after another.
-/

namespace Noxy

variable {machine final : Machine}

abbrev Part :=
  Activity × Machine

namespace Exec

variable {α β : Type}

def andThen (step : Exec α) (machine : Machine) (parts : α → Machine → List Part) : List Part :=
  match step machine with
  | .ok value final => parts value final
  | .error _ _ => []

theorem mem_andThen {step : Exec α} :
    part ∈ step.andThen machine parts ↔
      ∃ value final, step machine = .ok value final ∧ part ∈ parts value final := by
  unfold andThen
  cases step machine <;> simp

theorem andThen_of_ok {step : Exec α} (ended : step machine = .ok value final)
    (parts : α → Machine → List Part) : step.andThen machine parts = parts value final := by
  rw [andThen, ended]

theorem andThen_of_error {step : Exec α} (ended : step machine = .error signal final)
    (parts : α → Machine → List Part) : step.andThen machine parts = [] := by
  rw [andThen, ended]

theorem view_eq_ok {read : Heap → Except Failure α} :
    view read machine = .ok value final ↔ read machine.heap = .ok value ∧ final = machine := by
  change ofExcept (read machine.heap) machine = _ ↔ _
  cases read machine.heap with
  | ok =>
    constructor
    · intro ended
      cases ended
      exact ⟨rfl, rfl⟩
    · rintro ⟨same, rfl⟩
      cases same
      rfl
  | error => exact ⟨nofun, nofun⟩

theorem truth_eq_ok :
    truth value machine = .ok holds final ↔
      machine.heap.isTrue value = .ok holds ∧ final = machine :=
  view_eq_ok

end Exec

def Machine.unloaded? (machine : Machine) (path : String) : Option (Path × Node) :=
  match machine.world.disk.find machine.world.workingDirectory path with
  | .error _ => none
  | .ok (resolved, node) =>
    if (machine.modules.lookup resolved).isNone then some (resolved, node) else none

theorem Machine.unloaded?_eq_some :
    machine.unloaded? path = some (resolved, node) ↔
      machine.world.disk.find machine.world.workingDirectory path = .ok (resolved, node) ∧
        machine.modules.lookup resolved = none := by
  unfold Machine.unloaded?
  cases machine.world.disk.find machine.world.workingDirectory path with
  | error => exact ⟨nofun, nofun⟩
  | ok place =>
    obtain ⟨other, _⟩ := place
    cases isNew : machine.modules.lookup other with
    | none =>
      simp only [isNew, Option.isNone_none, if_true, Option.some.injEq, Except.ok.injEq]
      constructor
      · intro same
        cases same
        exact ⟨rfl, isNew⟩
      · exact And.left
    | some =>
      simp only [isNew, Option.isNone_some, Bool.false_eq_true, if_false, Except.ok.injEq]
      constructor
      · exact nofun
      · rintro ⟨same, absent⟩
        cases same
        rw [isNew] at absent
        cases absent

namespace Activity

open Exec (entered)

def partsOfExpr (fuel : Nat) (machine : Machine) : Expr → List Part
  | .binary left operator right _ => [(.evalBinary operator left right, machine)]
  | .unary _ operand _ => [(.eval operand, machine)]
  | .call callee arguments _ => [(.evalCall callee arguments, machine)]
  | .index object index _ =>
    (.eval object, machine) :: (Noxy.eval fuel object).andThen machine fun _ next =>
      [(.eval index, next)]
  | .field object _ _ => [(.eval object, machine)]
  | .array elements _ => [(.evalAll elements, machine)]
  | .map entries _ => [(.evalEntries entries [], machine)]
  | .ref value _ => [(.evalRef value, machine)]
  | .template parts _ => [(.evalParts parts, machine)]
  | .zeros size _ => [(.eval size, machine)]
  | .group grouped _ => [(.eval grouped, machine)]
  | _ => []

def partsOfBinary (fuel : Nat) (machine : Machine) (operator : BinaryOperator) (left right : Expr) :
    List Part :=
  (.eval left, machine) :: (Noxy.eval fuel left).andThen machine fun value next =>
    match operator with
    | .and => (Exec.truth value).andThen next fun holds next =>
      if holds then [(.eval right, next)] else []
    | .or => (Exec.truth value).andThen next fun holds next =>
      if holds then [] else [(.eval right, next)]
    | _ => [(.eval right, next)]

def partsOfRef (fuel : Nat) (machine : Machine) : Expr → List Part
  | .identifier _ _ => []
  | .field object _ _ => [(.eval object, machine)]
  | .index object index _ =>
    (.eval index, machine) :: (Noxy.eval fuel index).andThen machine fun _ next =>
      [(.eval object, next)]
  | expr => [(.eval expr, machine)]

def partsOfCall (fuel : Nat) (machine : Machine) (callee : Expr) (arguments : List Expr) :
    List Part :=
  match callee with
  | .identifier name _ =>
    match machine.callable? name with
    | some (.struct struct) => [(.construct struct arguments, machine)]
    | some (.function function) => [(.callFunction function arguments, machine)]
    | some (.builtin _) => [(.evalAll arguments, machine)]
    | none => []
  | .field object name location =>
    (.eval object, machine) :: (Noxy.eval fuel object).andThen machine fun value next =>
      match next.heap.receiver? value with
      | some receiver =>
        match Builtin.find? (receiver.start ++ name) with
        | some _ => [(.evalAll arguments, next)]
        | none => []
      | none => [(.callValue (.field object name location) arguments, next)]
  | callee => [(.callValue callee arguments, machine)]

def partsOfStmt (fuel : Nat) (machine : Machine) : Stmt → List Part
  | .letVar _ _ (some initializer) _ => [(.eval initializer, machine)]
  | .globalVar _ _ initializer _ => [(.eval initializer, machine)]
  | .assign target value _ =>
    (.eval value, machine) :: (Noxy.eval fuel value).andThen machine fun assigned next =>
      [(.assignTarget target assigned, next)]
  | .expression expr _ => [(.eval expr, machine)]
  | .branch condition thenBody elseBody _ =>
    (.eval condition, machine) :: (Noxy.eval fuel condition).andThen machine fun value next =>
      (Exec.truth value).andThen next fun holds next =>
        [(.execBlock (if holds then thenBody else elseBody), next)]
  | .loop condition body _ => [(.execLoop condition body, machine)]
  | .returning (some value) _ => [(.eval value, machine)]
  | .use names selection newName location => [(.execUse names selection newName location, machine)]
  | _ => []

def partsOfTarget (fuel : Nat) (machine : Machine) : Expr → List Part
  | .index object index _ =>
    (.eval object, machine) :: (Noxy.eval fuel object).andThen machine fun _ next =>
      [(.eval index, next)]
  | .field object _ _ => [(.eval object, machine)]
  | _ => []

def partsOfModule (fuel : Nat) (machine : Machine) (module : Value) (path : String)
    (resolved : Path) : Node → List Part
  | .directory =>
    [(.loadMembers module path (Modules.members machine.world.disk resolved), machine)]
  | .file content =>
    (readModule path content).andThen machine fun program next =>
      (.useAll program, entered 0 next) ::
        (Noxy.useAll fuel program).andThen (entered 0 next) fun _ next =>
          (.defineMembers next.current (some module) program, next) ::
            (Noxy.defineMembers next.current (some module) program).andThen next fun _ next =>
              [(.evalGlobals module program, next)]

def parts (fuel : Nat) (activity : Activity) (machine : Machine) : List Part :=
  match activity with
  | eval expr => partsOfExpr fuel machine expr
  | evalBinary operator left right => partsOfBinary fuel machine operator left right
  | evalAll [] => []
  | evalAll (expr :: rest) =>
    (.eval expr, machine) :: (Noxy.eval fuel expr).andThen machine fun _ next =>
      [(.evalAll rest, next)]
  | evalEntries [] _ => []
  | evalEntries ((key, value) :: rest) done =>
    (.eval key, machine) :: (Noxy.eval fuel key).andThen machine fun keyValue next =>
      (.eval value, next) :: (Noxy.eval fuel value).andThen next fun entryValue next =>
        (do checkKey keyValue; Builtin.keyOf keyValue : Exec Key).andThen next fun mapKey next =>
          [(.evalEntries rest (Map.put mapKey entryValue done), next)]
  | evalParts [] => []
  | evalParts (.text _ :: rest) => [(.evalParts rest, machine)]
  | evalParts (.interpolation expr format :: rest) =>
    (.eval expr, machine) :: (Noxy.eval fuel expr).andThen machine fun value next =>
      (Exec.view fun heap => heap.formatted value format).andThen next fun _ next =>
        [(.evalParts rest, next)]
  | evalRef expr => partsOfRef fuel machine expr
  | evalCall callee arguments => partsOfCall fuel machine callee arguments
  | callValue callee arguments =>
    (.eval callee, machine) :: (Noxy.eval fuel callee).andThen machine fun value next =>
      match value with
      | .function function => [(.callFunction function arguments, next)]
      | .struct struct => [(.construct struct arguments, next)]
      | _ => []
  | construct struct arguments =>
    if arguments.length = struct.fields.length then [(.evalAll arguments, machine)] else []
  | callFunction function arguments =>
    if arguments.length = function.params.length then
      (.evalArguments (function.params.zip arguments), machine) ::
        (Noxy.evalArguments fuel (function.params.zip arguments)).andThen machine fun values next =>
          (.bindAll (function.params.zip values), entered 0 next) ::
            (Noxy.bindAll (function.params.zip values)).andThen (entered 0 next) fun _ next =>
              [(.execAll function.body, next)]
    else []
  | evalArguments [] => []
  | evalArguments ((param, argument) :: rest) =>
    (.eval argument, machine) :: (Noxy.eval fuel argument).andThen machine fun value next =>
      (passed param.type value).andThen next fun _ next => [(.evalArguments rest, next)]
  | bindAll [] => []
  | bindAll ((param, value) :: rest) =>
    (Exec.defineHere param.name param.type value).andThen machine fun _ next =>
      [(.bindAll rest, next)]
  | exec stmt => partsOfStmt fuel machine stmt
  | execAll [] => []
  | execAll (stmt :: rest) =>
    (.exec stmt, machine) :: (Noxy.exec fuel stmt).andThen machine fun _ next =>
      [(.execAll rest, next)]
  | execBlock stmts => [(.execAll stmts, entered machine.current machine)]
  | execLoop condition body =>
    (.eval condition, machine) :: (Noxy.eval fuel condition).andThen machine fun value next =>
      (Exec.truth value).andThen next fun holds next =>
        if holds then
          (.execBlock body, next) :: (Noxy.execBlock fuel body).andThen next fun _ next =>
            [(.execLoop condition body, next)]
        else []
  | assignTarget target _ => partsOfTarget fuel machine target
  | execUse names _ _ _ =>
    match Modules.locate machine.world machine.basePath names with
    | .ok (some path) => [(.loadModule path, machine)]
    | _ => []
  | loadModule path =>
    match machine.unloaded? path with
    | some (resolved, node) =>
      partsOfModule fuel (machine.remembering resolved path)
        (.object machine.heap.objects.size) path resolved node
    | none => []
  | loadMembers _ _ [] => []
  | loadMembers module path ((name, file) :: rest) =>
    (.loadModule (Modules.join path file), machine) ::
      (Noxy.loadModule fuel (Modules.join path file)).andThen machine fun member next =>
        (setMember module name member).andThen next fun _ next =>
          [(.loadMembers module path rest, next)]
  | useAll [] => []
  | useAll (.use names selection newName location :: rest) =>
    (.execUse names selection newName location, machine) ::
      (Noxy.execUse fuel names selection newName location).andThen machine fun _ next =>
        [(.useAll rest, next)]
  | useAll (_ :: rest) => [(.useAll rest, machine)]
  | defineMembers _ _ [] => []
  | defineMembers scope module (stmt :: rest) =>
    (Noxy.defineMembers scope module [stmt]).andThen machine fun _ next =>
      [(.defineMembers scope module rest, next)]
  | evalGlobals _ [] => []
  | evalGlobals module (.globalVar name type initializer _ :: rest) =>
    (.eval initializer, machine) :: (Noxy.eval fuel initializer).andThen machine fun value next =>
      (do Exec.defineHere name type value; setMember module name value : Exec Unit).andThen next
        fun _ next => [(.evalGlobals module rest, next)]
  | evalGlobals module (_ :: rest) => [(.evalGlobals module rest, machine)]

/-! ### The parts are those that the activity begins -/

theorem mem_parts_of_begins (begins : Begins fuel activity machine part begun) :
    (part, begun) ∈ activity.parts fuel machine := by
  cases begins with
  | directory found isNew =>
    simp only [parts, Machine.unloaded?_eq_some.mpr ⟨found, isNew⟩]
    exact List.mem_singleton_self _
  | moduleImports found isNew read =>
    simp only [parts, Machine.unloaded?_eq_some.mpr ⟨found, isNew⟩, partsOfModule,
      Exec.andThen_of_ok read]
    exact List.mem_cons_self
  | moduleDefinitions found isNew read imported =>
    simp only [parts, Machine.unloaded?_eq_some.mpr ⟨found, isNew⟩, partsOfModule,
      Exec.andThen_of_ok read, Exec.andThen_of_ok imported]
    exact List.mem_cons_of_mem _ List.mem_cons_self
  | moduleGlobals found isNew read imported defined =>
    simp only [parts, Machine.unloaded?_eq_some.mpr ⟨found, isNew⟩, partsOfModule,
      Exec.andThen_of_ok read, Exec.andThen_of_ok imported, Exec.andThen_of_ok defined]
    exact List.mem_cons_of_mem _ (List.mem_cons_of_mem _ List.mem_cons_self)
  | _ =>
    simp_all [parts, partsOfExpr, partsOfBinary, partsOfRef, partsOfCall, partsOfStmt,
      partsOfTarget, Exec.mem_andThen, Exec.truth_eq_ok, Exec.view_eq_ok]

/-- An activity and all that is reached from it, each with the fuel that is left to it. -/
def course : Nat → Activity → Machine → List (Nat × Part)
  | 0, activity, machine => [(0, activity, machine)]
  | fuel + 1, activity, machine =>
    (fuel + 1, activity, machine) ::
      (activity.parts fuel machine).flatMap fun part => part.1.course fuel part.2

end Activity

theorem Reaches.mem_course (reaches : Reaches fuel activity machine fuel' part begun) :
    (fuel', part, begun) ∈ activity.course fuel machine := by
  induction reaches with
  | @here fuel => cases fuel <;> exact List.mem_cons_self
  | inside begins _ ih =>
    exact List.mem_cons_of_mem _
      (List.mem_flatMap.mpr ⟨_, Activity.mem_parts_of_begins begins, ih⟩)

end Noxy
