import Noxy.Proofs.LoadedOnce

/-!
# Imports after a load that failed

A module is remembered before its contents are looked at, and it stays remembered if they turn out
to be wrong.
-/

namespace Noxy

open Exec

variable {path : String}

theorem execUse_remembered
    (located : Modules.locate machine.world machine.basePath names = .ok (some path))
    (known : machine.modules.lookup (machine.resolve path) = some module) :
    execUse (fuel + 2) names selection newName location machine =
      importSelection selection newName location module machine := by
  rw [execUse, get_bind, located]
  exact bind_of_ok (loadModule_remembered known)

/-! ### What an import selects -/

theorem Exec.forM_fails_iff {step : α → Exec Unit} {isBad : α → Prop}
    (fails : ∀ item machine, isBad item → ∃ cause last, step item machine = .error cause last)
    (passes : ∀ item machine, ¬ isBad item → ∃ last, step item machine = .ok () last)
    (items : List α) (machine : Machine) :
    (∃ cause last, items.forM step machine = .error cause last) ↔ ∃ item ∈ items, isBad item := by
  induction items generalizing machine with
  | nil =>
    simp only [List.not_mem_nil, false_and, exists_false, iff_false]
    rintro ⟨_, _, failed⟩
    cases failed
  | cons item rest ih =>
    have unfolded : (item :: rest).forM step = (do step item; rest.forM step) := rfl
    rw [unfolded, List.exists_mem_cons_iff]
    by_cases bad : isBad item
    · obtain ⟨cause, last, failed⟩ := fails item machine bad
      refine ⟨fun _ => .inl bad, fun _ => ⟨cause, last, ?_⟩⟩
      simp only [bind, EStateM.bind, failed]
    · obtain ⟨last, passed⟩ := passes item machine bad
      rw [bind_of_ok passed, ih last]
      exact (or_iff_right bad).symm

section Selecting

theorem importSelection_whole (isModule : machine.heap.get? address = some (.module name members))
    (newName : Option String) (location : Location) :
    importSelection .whole newName location (.object address) machine =
      .ok () (machine.withRoot
        (.bind (newName.getD name) ⟨.imported name 0, .object address, true⟩)) := by
  rw [importSelection, object?_bind, Heap.object?, isModule]
  rfl

theorem importSelection_fails_iff
    (isModule : machine.heap.get? address = some (.module name members))
    (selection : Selection) (newName : Option String) (location : Location) :
    (∃ cause last, importSelection selection newName location (.object address) machine =
        .error cause last) ↔
      ∃ wanted, selection = .names wanted ∧ ∃ name ∈ wanted, Bindings.get? name members = none := by
  rw [importSelection, object?_bind, Heap.object?, isModule]
  cases selection with
  | whole =>
    simp only [reduceCtorEq, false_and, exists_false, iff_false]
    rintro ⟨cause, last, failed⟩
    cases failed
  | all =>
    simp only [reduceCtorEq, false_and, exists_false, iff_false]
    rintro ⟨cause, last, failed⟩
    cases (importMembers_eq members machine).symm.trans failed
  | names wanted =>
    simp only [Selection.names.injEq, exists_eq_left']
    refine Exec.forM_fails_iff (fun wanted machine missing => ?_)
      (fun wanted machine present => ?_) wanted machine
    · simp only [missing]
      exact ⟨_, _, rfl⟩
    · obtain ⟨value, member⟩ := Option.ne_none_iff_exists'.mp present
      simp only [member]
      exact ⟨_, importMember_eq (wanted, value) machine⟩

end Selecting

/-! ### After a failure -/

namespace Agenda

theorem keeps_module (agenda : Agenda) (wellScoped : machine.WellScoped)
    (outside : ∀ item ∈ agenda, item.2.module? = none)
    (found : machine.heap.get? address = some (.module name members)) :
    (agenda.final machine).heap.get? address = some (.module name members) := by
  induction agenda generalizing machine with
  | nil => exact found
  | cons item _ ih =>
    have isOutside := outside item List.mem_cons_self
    refine ih (item.2.wellScoped_final wellScoped item.1)
      (fun other member => outside other (List.mem_cons_of_mem item member)) ?_
    refine (item.2.recalls_final wellScoped item.1).heap.get? found fun isOpen => ?_
    rw [Activity.IsOpen, isOutside] at isOpen
    cases isOpen

theorem Reaches.keeps_new {agenda : Agenda} (reaches : agenda.Reaches machine fuel part begun)
    (wellScoped : machine.WellScoped) (outside : ∀ item ∈ agenda, item.2.module? = none)
    (isNew : begun.heap.size ≤ address)
    (found : (part.final fuel begun).heap.get? address = some (.module name members)) :
    (agenda.final machine).heap.get? address = some (.module name members) := by
  induction agenda generalizing machine with
  | nil => cases reaches
  | cons item rest ih =>
    have afterItem := item.2.wellScoped_final wellScoped item.1
    have restOutside : ∀ other ∈ rest, other.2.module? = none :=
      fun other member => outside other (List.mem_cons_of_mem item member)
    rcases reaches with inItem | inRest
    · refine keeps_module rest afterItem restOutside (inItem.keeps_new wellScoped ?_ isNew found)
      intro _ isOpen
      rw [Activity.IsOpen, outside item List.mem_cons_self] at isOpen
      cases isOpen
    · exact ih inRest afterItem restOutside

end Agenda

theorem remembered_of_unloaded (wellScoped : machine.WellScoped)
    (unloaded : machine.unloaded? path = some (resolved, node)) :
    ((loadModule (fuel + 1) path).final machine).modules.lookup resolved =
        some (.object machine.heap.size) ∧
      ∃ members, ((loadModule (fuel + 1) path).final machine).heap.get? machine.heap.size =
        some (.module (Modules.moduleName path) members) := by
  have recalls := Activity.recalls_opened wellScoped fuel (.loadModule path)
  rw [Activity.final_of_discard rfl] at recalls
  simp only [Activity.opened, unloaded] at recalls
  have isNew := (Machine.unloaded?_eq_some.mp unloaded).2
  have made : (machine.remembering resolved path).heap.get? machine.heap.size =
      some (.module (Modules.moduleName path) []) := by
    rw [Machine.remembering, Heap.get?_alloc, if_pos rfl]
  obtain ⟨members, found, _⟩ := recalls.heap.kept _ _ _ made
  exact ⟨recalls.lookup (machine.lookup_remembering path isNew), members, found⟩

/--
Whatever was done with a machine: if the load of a new module failed in the course of it, then the
module is still as the failed load left it, and an import of it takes it without a look at its
contents.  Such an import fails if it selects a name that the module lacks; an import of the
module as a whole binds it.
-/
theorem import_after_failed_load {world : World} {basePath : String} {agenda : Agenda}
    {later : Machine} (outside : ∀ item ∈ agenda, item.2.module? = none)
    (isDone : agenda.final (.start world basePath) = later) {fuel : Nat}
    {moment failedAt : Machine} {resolved : Path} {node : Node} {signal : Signal}
    (reaches : agenda.Reaches (.start world basePath) (fuel + 1) (.loadModule path) moment)
    (unloaded : moment.unloaded? path = some (resolved, node))
    (failed : loadModule (fuel + 1) path moment = .error signal failedAt) :
    ∃ members,
      failedAt.heap.get? moment.heap.size =
        some (.module (Modules.moduleName path) members) ∧
      later.heap.get? moment.heap.size = some (.module (Modules.moduleName path) members) ∧
      ∀ names again, Modules.locate later.world later.basePath names = .ok (some again) →
        later.resolve again = resolved → ∀ selection newName location,
          (∀ more, execUse (more + 2) names selection newName location later =
            importSelection selection newName location (.object moment.heap.size) later) ∧
          ((∃ cause last, importSelection selection newName location
              (.object moment.heap.size) later = .error cause last) ↔
            ∃ wanted, selection = .names wanted ∧
              ∃ name ∈ wanted, Bindings.get? name members = none) ∧
          importSelection .whole newName location (.object moment.heap.size) later =
            .ok () (later.withRoot (.bind (newName.getD (Modules.moduleName path))
              ⟨.imported (Modules.moduleName path) 0, .object moment.heap.size, true⟩)) := by
  have wellScoped := Machine.wellScoped_start world basePath
  obtain ⟨inner, extended⟩ := reaches.modules wellScoped
  obtain ⟨known, members, found⟩ := remembered_of_unloaded inner unloaded
  rw [final_of_error failed] at known found
  rw [Activity.final_of_discard rfl, final_of_error failed] at extended
  have left : ((Activity.loadModule path).final (fuel + 1) moment).heap.get? moment.heap.size =
      some (.module (Modules.moduleName path) members) := by
    rw [Activity.final_of_discard rfl, final_of_error failed]
    exact found
  have kept := reaches.keeps_new wellScoped outside (Nat.le_refl _) left
  rw [isDone] at kept extended
  refine ⟨members, found, kept, ?_⟩
  rintro names again located rfl selection newName location
  have stillKnown : later.modules.lookup (later.resolve again) =
      some (.object moment.heap.size) :=
    lookup_of_extended extended known
  exact ⟨fun more => execUse_remembered located stillKnown,
    importSelection_fails_iff kept selection newName location,
    importSelection_whole kept newName location⟩

/-! ### A module with a wrong initial value -/

def brokenText : String :=
  "global x: int = y\nfunc f() -> int\nreturn 1\nend"

def brokenPlace (line column : Nat) : Location :=
  ⟨line, column, "m.nx"⟩

def brokenGlobal : Stmt :=
  .globalVar "x" .int (.identifier "y" (brokenPlace 1 17)) (brokenPlace 1 1)

def Function.unbroken : Function :=
  ⟨"f", [], .int, [.returning (some (.int 1 (brokenPlace 3 8))) (brokenPlace 3 1)], brokenPlace 2 1⟩

namespace Machine

def besideBroken : Machine :=
  besideText brokenText

def withBroken : Machine :=
  { besideBroken with
    heap := (Heap.empty.alloc (.module "m" [("f", .function .unbroken)])).2
    modules := [(["m.nx"], .object 0)] }

def boundBroken : Machine :=
  withBroken.withRoot (.bind "m" ⟨.imported "m" 0, .object 0, true⟩)

end Machine

theorem loadModule_broken :
    loadModule 8 "m.nx" .besideBroken =
      .error (.failure (.error (.runtime (.undefinedVariable "y") none))) .withBroken := by
  cbv

theorem execUse_broken :
    execUse 9 ["m"] .whole none (brokenPlace 1 1) .besideBroken =
      .error (.failure (.error (.runtime (.undefinedVariable "y") none))) .withBroken := by
  have located : Modules.locate Machine.besideBroken.world Machine.besideBroken.basePath ["m"] =
      .ok (some "m.nx") := locate_besideText brokenText
  rw [execUse, get_bind, located]
  simp only [bind, EStateM.bind, loadModule_broken]

/-- What was loaded before the failure can be imported, and a selection of more fails again. -/
theorem import_after_failed_load_broken :
    loadModule 8 "m.nx" .besideBroken =
        .error (.failure (.error (.runtime (.undefinedVariable "y") none))) .withBroken ∧
      ∀ selection newName location,
        (∀ more, execUse (more + 2) ["m"] selection newName location .withBroken =
          importSelection selection newName location (.object 0) .withBroken) ∧
        ((∃ cause last, importSelection selection newName location (.object 0) .withBroken =
            .error cause last) ↔
          ∃ wanted, selection = .names wanted ∧
            ∃ name ∈ wanted, Bindings.get? name [("f", Value.function .unbroken)] = none) := by
  have isDone : Agenda.final [(9, .execUse ["m"] .whole none (brokenPlace 1 1))]
      .besideBroken = .withBroken :=
    (Activity.final_of_run rfl _).trans (final_of_error execUse_broken)
  have unloaded : Machine.besideBroken.unloaded? "m.nx" = some (["m.nx"], .file 0) :=
    Machine.unloaded?_eq_some.mpr ⟨find_besideText brokenText, rfl⟩
  obtain ⟨members, isModule, _, imports⟩ := import_after_failed_load
    (by decide) isDone (.inl (.inside (.located (locate_besideText brokenText)) .here)) unloaded
    loadModule_broken
  have found : Machine.withBroken.heap.get? 0 = some (.module "m" [("f", .function .unbroken)]) :=
    rfl
  obtain ⟨_, rfl⟩ := Object.module.inj (Option.some.inj (isModule.symm.trans found))
  refine ⟨loadModule_broken, fun selection newName location => ?_⟩
  obtain ⟨taken, fails, _⟩ :=
    imports ["m"] "m.nx" (locate_besideText brokenText) (by cbv) selection newName location
  exact ⟨taken, fails⟩

/-- The module can be imported after its load failed, without the variable that its text defines. -/
theorem failed_import_succeeds_later :
    Program.parse brokenText "m.nx" = .ok [brokenGlobal, Function.unbroken.stmt] ∧
      execUse 9 ["m"] .whole none (brokenPlace 1 1) .besideBroken =
        .error (.failure (.error (.runtime (.undefinedVariable "y") none))) .withBroken ∧
      execUse 9 ["m"] .whole none (brokenPlace 1 1) .withBroken = .ok () .boundBroken ∧
      Machine.boundBroken.heap.get? 0 = some (.module "m" [("f", .function .unbroken)]) :=
  ⟨by cbv, execUse_broken, by cbv, rfl⟩

end Noxy
