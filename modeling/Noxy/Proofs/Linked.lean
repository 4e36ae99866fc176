import Noxy.Proofs.OwnSteps

/-!
# Activities as chains of their parts

Each part of an activity begins where the one before it ended, but for steps of the activity's own,
and the activity ends where such steps lead from the end of its last part.
-/

namespace Noxy

open Exec (entered left)

theorem Exec.Local.kept {machine : Machine} (isLocal : Local extent step)
    (wellScoped : machine.WellScoped) : machine.Kept extent (step.final machine) := by
  have keeps := (isLocal machine wellScoped).keeps
  unfold Exec.Ends at keeps
  unfold Exec.final
  cases ended : step machine with
  | ok => rwa [ended] at keeps
  | error => rwa [ended] at keeps

theorem Exec.Local.kept_of_ok {step : Exec α} {final : Machine} {value : α}
    (isLocal : Local extent step) (wellScoped : machine.WellScoped)
    (ended : step machine = .ok value final) : machine.Kept extent final :=
  Exec.final_of_ok ended ▸ isLocal.kept wellScoped

theorem defineMembers_cons (scope : Nat) (module : Option Value) (stmt : Stmt) (rest : List Stmt) :
    defineMembers scope module (stmt :: rest) = (do
      defineMembers scope module [stmt]
      defineMembers scope module rest) := by
  simp only [defineMembers]
  split <;> simp only [bind_assoc, pure_bind]

theorem evalGlobals_globalVar (fuel : Nat) (module : Value) (name : String) (type : Ty)
    (initializer : Expr) (location : Location) (rest : List Stmt) :
    evalGlobals (fuel + 1) module (.globalVar name type initializer location :: rest) = (do
      let value ← eval fuel initializer
      (do Exec.defineHere name type value; setMember module name value)
      evalGlobals fuel module rest) := by
  simp only [evalGlobals, bind_assoc]

theorem evalEntries_cons (fuel : Nat) (entry : Expr × Expr) (rest : List (Expr × Expr))
    (done : List (Key × Value)) :
    evalEntries (fuel + 1) (entry :: rest) done = (do
      let keyValue ← eval fuel entry.1
      let entryValue ← eval fuel entry.2
      let mapKey ← (do checkKey keyValue; Builtin.keyOf keyValue)
      evalEntries fuel rest (Map.put mapKey entryValue done)) := by
  simp only [evalEntries, bind_assoc]

theorem readModule_eq_ok :
    readModule path content machine = .ok program final ↔
      final = machine ∧ ∃ source, Modules.sourceText machine.world.disk content = .ok source ∧
        Program.parse source path = .ok program := by
  rw [readModule, Exec.world_bind]
  cases found : Modules.sourceText machine.world.disk content with
  | error =>
    constructor
    · rintro ⟨⟩
    · rintro ⟨_, _, ⟨⟩, _⟩
  | ok source =>
    simp only [Except.ok.injEq, exists_eq_left']
    cases parsed : Program.parse source path with
    | error =>
      constructor
      · rintro ⟨⟩
      · rintro ⟨_, ⟨⟩⟩
    | ok =>
      constructor
      · intro read
        cases read
        exact ⟨rfl, rfl⟩
      · rintro ⟨rfl, same⟩
        cases same
        rfl

def fillModule (fuel : Nat) (module : Value) (path : String) (members : List (String × String)) :
    Node → Exec Unit
  | .directory => loadMembers fuel module path members
  | .file content => do
    let program ← readModule path content
    Exec.inScope 0 (do
      useAll fuel program
      let scope := (← get).current
      defineMembers scope (some module) program
      evalGlobals fuel module program)

section Load

theorem loadModule_known (fuel : Nat)
    (found : machine.world.disk.find machine.world.workingDirectory path = .ok (resolved, node))
    (isKnown : machine.modules.lookup resolved = some module) :
    loadModule (fuel + 1) path machine = .ok module machine := by
  rw [loadModule, Exec.world_bind, id, found]
  simp only
  rw [Exec.get_bind, isKnown]
  rfl

theorem loadModule_new (fuel : Nat)
    (found : machine.world.disk.find machine.world.workingDirectory path = .ok (resolved, node))
    (isNew : machine.modules.lookup resolved = none) :
    loadModule (fuel + 1) path machine = (do
      fillModule fuel (.object machine.heap.objects.size) path
        (Modules.members machine.world.disk resolved) node
      return Value.object machine.heap.objects.size) (machine.remembering resolved path) := by
  rw [loadModule, Exec.world_bind, id, found]
  simp only
  rw [Exec.get_bind, isNew]
  cases node with
  | directory => rfl
  | file =>
    simp only [fillModule, bind_assoc]
    rfl

theorem loadModule_absent (fuel : Nat)
    (absent : machine.world.disk.find machine.world.workingDirectory path = .error error) :
    loadModule (fuel + 1) path machine =
      match machine.modules.lookup (Disk.normalize machine.world.workingDirectory path) with
      | some module => .ok module machine
      | none => Exec.fault (Modules.absence error path) machine := by
  rw [loadModule, Exec.world_bind, id, absent]
  simp only
  rw [Exec.get_bind]
  cases machine.modules.lookup (Disk.normalize machine.world.workingDirectory path) <;> rfl

end Load

namespace Activity

def Linked (fuel : Nat) (activity : Activity) (start : Machine) :
    Machine → List Part → Machine → Prop
  | machine, [], final => activity.Owns start machine final
  | machine, (part, begun) :: rest, final =>
    activity.Owns start machine begun ∧
      Linked fuel activity start (part.final fuel begun) rest final

def opened (activity : Activity) (machine : Machine) : Machine :=
  match activity with
  | loadModule path =>
    match machine.unloaded? path with
    | some (resolved, _) => machine.remembering resolved path
    | none => machine
  | _ => machine

theorem related_opened {related : Machine → Machine → Prop} (activity : Activity)
    (refl : related machine machine)
    (remembering : ∀ resolved path, related machine (machine.remembering resolved path)) :
    related machine (activity.opened machine) := by
  unfold opened
  split
  · split
    · exact remembering _ _
    · exact refl
  · exact refl

theorem final_eq_final_run (fuel : Nat) (activity : Activity) (machine : Machine) :
    activity.final fuel machine = (activity.run fuel).final machine := by
  unfold Activity.final Exec.final
  cases activity.run fuel machine <;> rfl

theorem final_of_discard {activity : Activity} (runs : activity.run fuel = discard step)
    (machine : Machine) : activity.final fuel machine = step.final machine := by
  rw [final_eq_final_run, runs, Exec.final_discard]

theorem final_of_run {activity : Activity} (runs : activity.run fuel = step) (machine : Machine) :
    activity.final fuel machine = step.final machine := by
  rw [final_eq_final_run, runs]

namespace Linked

variable {final : Machine} {parts : List Part} {α β : Type}

theorem append (linked : Linked fuel activity start machine parts middle)
    (owns : activity.Owns start middle final) : Linked fuel activity start machine parts final := by
  induction parts generalizing machine with
  | nil => exact linked.trans owns
  | cons _ _ ih => exact ⟨linked.1, ih linked.2⟩

theorem prepend (owns : activity.Owns start machine middle)
    (linked : Linked fuel activity start middle parts final) :
    Linked fuel activity start machine parts final := by
  cases parts with
  | nil => exact owns.trans linked
  | cons => exact ⟨owns.trans linked.1, linked.2⟩

theorem join (linked : Linked fuel activity start machine parts middle)
    (more : Linked fuel activity start middle rest final) :
    Linked fuel activity start machine (parts ++ rest) final := by
  induction parts generalizing machine with
  | nil => exact prepend linked more
  | cons _ _ ih => exact ⟨linked.1, ih linked.2⟩

theorem inScope (wellScoped : machine.WellScoped) (sameScope : machine.current = start.current)
    (linked : Linked fuel activity start (entered outer machine) parts
      (body.final (entered outer machine))) :
    Linked fuel activity start machine parts ((Exec.inScope outer body).final machine) := by
  rw [Exec.final_inScope]
  exact .prepend (.single .enter) (linked.append (.single (.leave wellScoped sameScope)))

end Linked

theorem loadModule_of_known (isKnown : machine.unloaded? path = none) :
    (∃ module, Noxy.loadModule (fuel + 1) path machine = .ok module machine) ∨
      ∃ cause, Noxy.loadModule (fuel + 1) path machine = Exec.fault cause machine := by
  cases found : machine.world.disk.find machine.world.workingDirectory path with
  | error =>
    rw [loadModule_absent fuel found]
    cases machine.modules.lookup (Disk.normalize machine.world.workingDirectory path) with
    | some module => exact .inl ⟨module, rfl⟩
    | none => exact .inr ⟨_, rfl⟩
  | ok place =>
    cases isRemembered : machine.modules.lookup place.1 with
    | some module => exact .inl ⟨module, loadModule_known fuel found isRemembered⟩
    | none =>
      rw [Machine.unloaded?_eq_some.mpr ⟨found, isRemembered⟩] at isKnown
      cases isKnown

end Activity

end Noxy
