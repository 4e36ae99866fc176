import Noxy.Proofs.Tame
import Noxy.Proofs.SightHeap

/-!
# Steps that leave modules alone

A module is an object with members, and the machine remembers it by the path it was loaded from.
-/

namespace Noxy

variable {change : Change}

structure Heap.KeepsModules (isOpen : Address → Prop) (heap later : Heap) : Prop where
  grown : heap.size ≤ later.size
  kept : ∀ address name members, heap.get? address = some (.module name members) →
    ∃ members', later.get? address = some (.module name members') ∧
      (¬ isOpen address → members' = members)

namespace Heap.KeepsModules

variable {isOpen isOpen' : Address → Prop} {heap : Heap}

theorem of_extends (extended : heap.Extends later) : heap.KeepsModules isOpen later where
  grown := extended.grown
  kept _ _ members found := ⟨members, extended.get? found, fun _ => rfl⟩

theorem refl (isOpen : Address → Prop) (heap : Heap) : heap.KeepsModules isOpen heap :=
  .of_extends (.refl heap)

theorem trans (first : heap.KeepsModules isOpen later) (second : later.KeepsModules isOpen last) :
    heap.KeepsModules isOpen last where
  grown := Nat.le_trans first.grown second.grown
  kept address name members found := by
    obtain ⟨members', found', same⟩ := first.kept address name members found
    obtain ⟨members'', found'', same'⟩ := second.kept address name members' found'
    exact ⟨members'', found'', fun isClosed => (same' isClosed).trans (same isClosed)⟩

theorem mono (keeps : heap.KeepsModules isOpen later)
    (covered : ∀ address, address < heap.size → isOpen address → isOpen' address) :
    heap.KeepsModules isOpen' later where
  grown := keeps.grown
  kept address name members found := by
    obtain ⟨members', found', same⟩ := keeps.kept address name members found
    exact ⟨members', found', fun isClosed =>
      same fun opened => isClosed (covered address (Heap.lt_size_of_get? found) opened)⟩

theorem get? (keeps : heap.KeepsModules isOpen later)
    (found : heap.get? address = some (.module name members)) (isClosed : ¬ isOpen address) :
    later.get? address = some (.module name members) := by
  obtain ⟨_, found', same⟩ := keeps.kept address name members found
  rw [found', same isClosed]

theorem apply
    (unchanged : ∀ name members, change.change (.module name members) = .module name members) :
    heap.KeepsModules isOpen (heap.apply change) where
  grown := Nat.le_of_eq (Heap.size_apply heap change).symm
  kept address name members found := by
    refine ⟨members, ?_, fun _ => rfl⟩
    rw [Heap.get?_apply, found]
    split
    · exact congrArg some (unchanged name members)
    · rfl

theorem apply_members (address : Address) (change : List (String × Value) → List (String × Value)) :
    heap.KeepsModules (· = address) (heap.apply ⟨address, Object.mapMembers change⟩) where
  grown := Nat.le_of_eq (Heap.size_apply _ _).symm
  kept other name members found := by
    rw [Heap.get?_apply, found]
    split
    · rename_i isOpen
      exact ⟨change members, rfl, fun isClosed => absurd isOpen.symm isClosed⟩
    · exact ⟨members, rfl, fun _ => rfl⟩

theorem number (heap : Heap) (value : Float) : heap.KeepsModules isOpen (heap.number value).2 := by
  unfold Heap.number
  split
  · exact ⟨Nat.le_refl _, fun _ _ members found => ⟨members, found, fun _ => rfl⟩⟩
  · exact .refl _ _

end Heap.KeepsModules

/-! ### Assignments -/

def Change.SparesModules (change : Change) : Prop :=
  ∀ name members, change.change (.module name members) = .module name members

theorem Heap.indexAssignment_sparesModules {heap : Heap}
    (made : heap.indexAssignment object index value = .ok change) : change.SparesModules := by
  obtain ⟨_, _, puts⟩ := puts_of_indexAssignment made
  cases puts <;> exact fun _ _ => rfl

theorem Heap.fieldAssignment_sparesModules {heap : Heap}
    (made : heap.fieldAssignment object name value = .ok change) : change.SparesModules := by
  unfold fieldAssignment at made
  rcases ok_of_bind made with ⟨_, _, made⟩
  split at made
  · split at made
    · unfold fieldChange at made
      split at made
      · cases made
        exact fun _ _ => rfl
      · cases made
    · cases made
  · cases made

def Heap.Assigns (heap : Heap) (change : Change) : Prop :=
  (∃ object index value, heap.indexAssignment object index value = .ok change) ∨
    ∃ object name value, heap.fieldAssignment object name value = .ok change

theorem Heap.Assigns.sparesModules {heap : Heap} (assigns : heap.Assigns change) :
    change.SparesModules := by
  rcases assigns with ⟨_, _, _, made⟩ | ⟨_, _, _, made⟩
  · exact indexAssignment_sparesModules made
  · exact fieldAssignment_sparesModules made

/-! ### Machines -/

def Exec.final {α : Type} (step : Exec α) (machine : Machine) : Machine :=
  match step machine with
  | .ok _ final => final
  | .error _ final => final

namespace Exec

variable {α β : Type} {step : Exec α} {machine final : Machine}

theorem final_of_ok (ended : step machine = .ok value final) : step.final machine = final := by
  rw [Exec.final, ended]

theorem final_of_error (ended : step machine = .error signal final) :
    step.final machine = final := by
  rw [Exec.final, ended]

theorem final_bind_of_ok (ended : step machine = .ok value final) :
    (step >>= next).final machine = (next value).final final := by
  rw [Exec.final, bind_of_ok ended, Exec.final]

theorem final_bind_of_error (ended : step machine = .error signal final) :
    (step >>= next).final machine = final := by
  simp only [Exec.final, bind, EStateM.bind, ended]

theorem final_get_bind (next : Machine → Exec β) (machine : Machine) :
    (get >>= next).final machine = (next machine).final machine :=
  rfl

theorem final_bind_pure (result : α → β) :
    (step >>= fun value => pure (result value)).final machine = step.final machine := by
  cases ended : step machine with
  | ok =>
    rw [final_bind_of_ok ended, final_of_ok ended]
    rfl
  | error => rw [final_bind_of_error ended, final_of_error ended]

theorem final_discard (step : Exec α) (machine : Machine) :
    (discard step).final machine = step.final machine :=
  final_bind_pure (fun _ => PUnit.unit)

theorem final_inScope (outer : Nat) (body : Exec α) (machine : Machine) :
    (inScope outer body).final machine = left machine (body.final (entered outer machine)) := by
  simp only [Exec.final, inScope, entered, left]
  cases body _ <;> rfl

theorem final_asCall (body : Exec Unit) (machine : Machine) :
    (asCall body).final machine = body.final machine := by
  simp only [Exec.final, asCall]
  cases body machine with
  | ok => rfl
  | error signal => cases signal <;> rfl

theorem final_proceeds (turn : Exec Bool) (machine : Machine) :
    (proceeds turn).final machine = turn.final machine := by
  simp only [Exec.final, proceeds]
  cases turn machine with
  | ok => rfl
  | error signal => cases signal <;> rfl

/-- A relation that holds of a step and of what comes after it holds of both together. -/
theorem related_bind {related : Machine → Machine → Prop} {next : α → Exec β}
    (trans : ∀ {first second third}, related first second → related second third →
      related first third) (first : related machine (step.final machine))
    (rest : ∀ value middle, step machine = .ok value middle →
      related middle ((next value).final middle)) :
    related machine ((step >>= next).final machine) := by
  cases ended : step machine with
  | ok value middle =>
    rw [final_bind_of_ok ended]
    rw [final_of_ok ended] at first
    exact trans first (rest value middle ended)
  | error =>
    rw [final_bind_of_error ended]
    rwa [final_of_error ended] at first

end Exec

structure Machine.Still (isOpen : Address → Prop) (machine later : Machine) : Prop where
  modules : later.modules = machine.modules
  heap : machine.heap.KeepsModules isOpen later.heap

namespace Machine.Still

variable {isOpen : Address → Prop} {machine : Machine}

theorem refl (isOpen : Address → Prop) (machine : Machine) : machine.Still isOpen machine :=
  ⟨rfl, .refl _ _⟩

theorem trans (first : machine.Still isOpen later) (second : later.Still isOpen last) :
    machine.Still isOpen last :=
  ⟨second.modules.trans first.modules, first.heap.trans second.heap⟩

theorem of_eq (sameModules : later.modules = machine.modules)
    (sameHeap : later.heap = machine.heap) : machine.Still isOpen later :=
  ⟨sameModules, sameHeap ▸ .refl _ _⟩

theorem apply (spares : change.SparesModules) :
    machine.Still isOpen { machine with heap := machine.heap.apply change } :=
  ⟨rfl, .apply spares⟩

end Machine.Still

namespace Exec

variable {α : Type} {isOpen : Address → Prop}

theorem final_view (read : Heap → Except Failure α) (machine : Machine) :
    (view read).final machine = machine := by
  change (ofExcept (read machine.heap)).final machine = machine
  cases read machine.heap <;> rfl

theorem Plain.still (plain : Plain step) (machine : Machine) :
    machine.Still isOpen (step.final machine) := by
  induction plain generalizing machine with
  | pure | throw | look | world => exact .refl _ _
  | bind _ _ first rest =>
    exact related_bind .trans (first machine) fun value middle _ => rest value middle
  | view =>
    rw [final_view]
    exact .refl _ _
  | alloc => exact ⟨rfl, .of_extends (.alloc _ _)⟩
  | number => exact ⟨rfl, .number _ _⟩
  | deepCopy => exact ⟨rfl, .of_extends (Heap.deepCopy_extends _ _)⟩
  | changeElements | changeEntries => exact .apply fun _ _ => rfl
  | replacePart value =>
    cases value with
    | object => exact .apply fun _ _ => rfl
    | _ => exact .refl _ _
  | write | changeWorld => exact .of_eq rfl rfl

end Exec

end Noxy
