import Noxy.Proofs.FailedImports

/-!
# What an import does to the global scope

While a module is loaded, its own definitions go to a scope of its own, but three things reach the
global scope: the imports of the module, `global` statements in functions that its initial values
call, and assignments there to variables that only the global scope has.
-/

namespace Noxy

variable {activity : Activity} {machine : Machine}

open Exec

theorem Machine.getElem?_withRoot (found : machine.scopes.scopes[0]? = some root)
    (change : Scope → Scope) :
    (machine.withRoot change).scopes.scopes[0]? = some (change root) := by
  simp only [Machine.withRoot, Scopes.getElem?_modify, if_true, found, Option.map_some]

def Machine.KeepsRoot (names : Bound → Prop) (machine later : Machine) : Prop :=
  ∀ scope, machine.scopes.scopes[0]? = some scope →
    ∃ scope', later.scopes.scopes[0]? = some scope' ∧
      ∀ bound, ¬ names bound → scope.SameAt scope' bound

namespace Machine.KeepsRoot

variable {names names' : Bound → Prop}

theorem of_eq (same : later.scopes.scopes[0]? = machine.scopes.scopes[0]?) :
    machine.KeepsRoot names later :=
  fun scope found => ⟨scope, same.trans found, fun bound _ => .refl scope bound⟩

theorem refl (names : Bound → Prop) (machine : Machine) : machine.KeepsRoot names machine :=
  of_eq rfl

theorem trans (first : machine.KeepsRoot names later) (second : later.KeepsRoot names last) :
    machine.KeepsRoot names last := by
  intro scope found
  obtain ⟨scope', found', same⟩ := first scope found
  obtain ⟨scope'', found'', same'⟩ := second scope' found'
  exact ⟨scope'', found'', fun bound other => (same bound other).trans (same' bound other)⟩

theorem mono (keeps : machine.KeepsRoot names later)
    (covered : ∀ bound, names bound → names' bound) : machine.KeepsRoot names' later := by
  intro scope found
  obtain ⟨scope', found', same⟩ := keeps scope found
  exact ⟨scope', found', fun bound other => same bound fun named => other (covered bound named)⟩

end Machine.KeepsRoot

namespace Activity

/--
What an activity binds or assigns in the global scope when a module is being loaded: `global`
statements, assignments to variables of the global scope, and imports.
-/
def WritesGlobally (activity : Activity) (machine : Machine) (bound : Bound) : Prop :=
  match activity with
  | exec (.globalVar name _ _ _) => bound = .var name
  | assignTarget (.identifier name _) _ =>
    machine.scopes.owner? machine.current name = some 0 ∧ bound = .var name
  | execUse names selection newName _ =>
    ∃ path fuel module loaded,
      Modules.locate machine.world machine.basePath names = .ok (some path) ∧
      Noxy.loadModule fuel path machine = .ok module loaded ∧
      loaded.heap.Imports selection newName module bound
  | _ => False

def Inside (activity : Activity) (machine : Machine) : Prop :=
  match activity with
  | execUse _ _ _ _ | loadModule _ | loadMembers _ _ _ | useAll _ => True
  | defineMembers scope _ _ => scope ≠ 0
  | _ => machine.current ≠ 0

theorem current_ne_of_begins (wellScoped : machine.WellScoped)
    (begins : Begins fuel activity machine part begun) (notRoot : machine.current ≠ 0) :
    begun.current ≠ 0 := by
  let isInner (machine : Machine) : Prop :=
    machine.current ≠ 0 ∧ 0 < machine.scopes.scopes.size
  have own {first second : Machine} (own : activity.Own machine first second)
      (inner : isInner first) :
      isInner second := by
    cases own with
    | plain isPlain =>
      obtain ⟨sameScopes, sameCurrent⟩ := isPlain.final_scopes first
      exact ⟨sameCurrent ▸ inner.1, sameScopes ▸ inner.2⟩
    | allocate | assign | setMember => exact inner
    | bind => exact ⟨inner.1, by simpa using inner.2⟩
    | enter => exact ⟨Nat.ne_of_gt inner.2, by simp [entered, Scopes.child]⟩
    | leave before sameScope =>
      refine ⟨fun isRoot => notRoot (sameScope ▸ isRoot), ?_⟩
      simpa [left, Scopes.shrink] using ⟨before.root_lt, inner.2⟩
  have inner : isInner machine := ⟨notRoot, wellScoped.root_lt⟩
  have opened : isInner (activity.opened machine) :=
    @related_opened machine (fun _ later => isInner later) activity inner fun _ _ => inner
  obtain ⟨_, between⟩ := relates_along (fun first second => isInner first → isInner second)
    (fun _ => id) (fun first second inner => second (first inner)) wellScoped own
    (fun part _ _ isScoped inner =>
      have settled := settled_final isScoped fuel part
      ⟨settled.current ▸ inner.1, settled.wellScoped.root_lt⟩)
  exact ((between part begun begins).1 opened).1

theorem Inside.begins (inside : activity.Inside machine) (wellScoped : machine.WellScoped)
    (begins : Begins fuel activity machine part begun) : part.Inside begun := by
  have same := current_ne_of_begins wellScoped begins
  have afterImports {path : String} {resolved : Path} {content : Nat} {program : Program}
      {entering left : Machine}
      (read : readModule path content (machine.remembering resolved path) = .ok program entering)
      (imported : Noxy.useAll fuel program (entered 0 entering) = .ok () left) :
      left.current ≠ 0 ∧ left.WellScoped := by
    have inner := wellScoped.read read
    cases (readModule_eq_ok.mp read).1
    have kept := (disciplined fuel (.useAll program)).kept_of_ok inner imported
    refine ⟨?_, kept.wellScoped inner⟩
    rw [kept.current]
    exact Nat.ne_of_gt wellScoped.root_lt
  cases begins with
  | directory | moduleImports | located | firstMember | restOfMembers | firstUse | restAfterUse
  | restOfUses | use => trivial
  | moduleDefinitions _ _ read imported => exact (afterImports read imported).1
  | moduleGlobals _ _ read imported defined =>
    obtain ⟨notRoot, inner⟩ := afterImports read imported
    have sameCurrent := (inner.settled_of_defined defined).current
    exact fun isRoot => notRoot (sameCurrent.symm.trans isRoot)
  | restOfDefinitions => exact inside
  | _ => exact same inside

theorem Inside.writesGlobally (inside : activity.Inside machine)
    (writes : activity.Writes machine 0 bound) : activity.WritesGlobally machine bound := by
  unfold Writes at writes
  split at writes
  case h_1 | h_2 | h_6 | h_7 => exact absurd writes.1.symm inside
  case h_3 | h_5 => exact writes.2
  case h_4 => exact writes
  case h_8 => exact writes.elim

theorem Own.keepsRoot_unwritten (own : activity.Own start machine later) :
    machine.KeepsRoot (activity.Writes start 0) later := by
  intro scope found
  obtain ⟨scope', found', changed⟩ := own.changes_root found
  exact ⟨scope', found', changed.same⟩

theorem Own.keepsRoot (inside : activity.Inside start) (own : activity.Own start machine later) :
    machine.KeepsRoot (activity.WritesGlobally start) later :=
  own.keepsRoot_unwritten.mono fun _ => inside.writesGlobally

theorem keepsRoot_final_zero (wellScoped : machine.WellScoped) (inside : activity.Inside machine) :
    machine.KeepsRoot (fun _ => False) (activity.final 0 machine) := by
  refine relates_final_zero (Machine.KeepsRoot _) (.refl _) .trans
    (fun activity machine => activity.Inside machine ∧ machine.WellScoped)
    (fun {other _ _ _} allowed direct own => ?_)
    (fun allowed _ begins =>
      ⟨allowed.1.begins allowed.2 begins, begins.wellScoped allowed.2⟩) wellScoped
        ⟨inside, wellScoped⟩
  cases other with
  | bindAll | defineMembers => exact own.keepsRoot allowed.1
  | _ => cases direct

/-- A part writes the name into the global scope. -/
def Touches (fuel : Nat) (activity : Activity) (machine : Machine) (bound : Bound) : Prop :=
  ∃ fuel' part begun,
    Reaches fuel activity machine fuel' part begun ∧ part.WritesGlobally begun bound

theorem keepsRoot_final (fuel : Nat)
    (wellScoped : machine.WellScoped) (inside : activity.Inside machine) :
    machine.KeepsRoot (activity.Touches fuel machine) (activity.final fuel machine) := by
  induction fuel generalizing activity machine with
  | zero => exact (keepsRoot_final_zero wellScoped inside).mono fun _ => False.elim
  | succ fuel ih =>
    have opened : machine.KeepsRoot (activity.Touches (fuel + 1) machine)
        (activity.opened machine) :=
      activity.related_opened (.refl _ _) fun _ _ => .of_eq rfl
    refine opened.trans (relates_along (Machine.KeepsRoot _) (.refl _) .trans wellScoped
      (fun own => ?_) fun part begun begins isScoped => ?_).1
    · exact (own.keepsRoot inside).mono fun bound writes => ⟨_, _, _, .here, writes⟩
    · refine (ih isScoped (inside.begins wellScoped begins)).mono ?_
      rintro bound ⟨fuel', other, moment, reaches, writes⟩
      exact ⟨fuel', other, moment, .inside begins reaches, writes⟩

end Activity

/--
The import of a new module as a whole binds its name in the global scope to the new module.  Every
other variable, function and struct of the global scope is what it was, unless it is written there
in the course of loading the module.
-/
theorem use_binds_module {machine final : Machine} {fuel : Nat} {names : List String}
    {newName : Option String} {location : Location} {path : String} {place : Path × Node}
    (wellScoped : machine.WellScoped)
    (located : Modules.locate machine.world machine.basePath names = .ok (some path))
    (unloaded : machine.unloaded? path = some place)
    (used : execUse (fuel + 1) names .whole newName location machine = .ok () final) :
    ∃ root root', machine.scopes.scopes[0]? = some root ∧ final.scopes.scopes[0]? = some root' ∧
      Bindings.get? (newName.getD (Modules.moduleName path)) root'.bindings =
        some ⟨.imported (Modules.moduleName path) 0, .object machine.heap.size, true⟩ ∧
      ∀ bound, bound ≠ .var (newName.getD (Modules.moduleName path)) →
        root.SameAt root' bound ∨ (Activity.loadModule path).Touches fuel machine bound := by
  rw [execUse, get_bind, located] at used
  obtain ⟨module, loaded, isLoaded, imported⟩ := exists_of_bind_eq_ok used
  cases fuel with
  | zero => cases isLoaded
  | succ fuel =>
    obtain ⟨resolved, node⟩ := place
    obtain ⟨found, isNew⟩ := Machine.unloaded?_eq_some.mp unloaded
    have inside : (Activity.loadModule path).Inside machine := trivial
    have keeps := Activity.keepsRoot_final (fuel + 1) wellScoped inside
    obtain ⟨_, members, isModule⟩ := remembered_of_unloaded wellScoped unloaded
    rw [Activity.final_of_discard rfl, final_of_ok isLoaded] at keeps
    rw [final_of_ok isLoaded] at isModule
    rw [loadModule_new fuel found isNew] at isLoaded
    obtain ⟨_, _, _, isObject⟩ := exists_of_bind_eq_ok isLoaded
    cases isObject
    cases (importSelection_whole isModule newName location).symm.trans imported
    have present : 0 < machine.scopes.scopes.size := wellScoped.root_lt
    obtain ⟨root', found', same⟩ := keeps _ (Array.getElem?_eq_getElem present)
    refine ⟨_, _, Array.getElem?_eq_getElem present, Machine.getElem?_withRoot found' _,
      Bindings.get?_put_self _ _ _, ?_⟩
    intro bound other
    by_cases touched : (Activity.loadModule path).Touches (fuel + 1) machine bound
    · exact .inr touched
    · exact .inl ((same bound touched).trans ((root'.changed_bind _ _).same bound other))

/-! ### A module that imports another one -/

def Machine.besideNested : Machine :=
  .start (.start ⟨[(["m.nx"], .file 0), (["n.nx"], .file 1)],
    #["use n".toUTF8.data.toList, []]⟩ [] [] [] 0) "."

def nestedPlace : Location :=
  ⟨1, 1, "<main>"⟩

theorem passes_nested :
    passes (execUse 12 ["m"] .whole none nestedPlace) .besideNested
      (fun _ final => (final.scopes.binding? 0 "n").isSome) = true := by
  decide +kernel

theorem locate_nested :
    Modules.locate Machine.besideNested.world Machine.besideNested.basePath ["m"] =
      .ok (some "m.nx") := by
  decide +kernel

theorem unloaded?_nested : Machine.besideNested.unloaded? "m.nx" = some (["m.nx"], .file 0) := by
  have found : Machine.besideNested.world.disk.find Machine.besideNested.world.workingDirectory
      "m.nx" = .ok (["m.nx"], .file 0) := by
    decide +kernel
  exact Machine.unloaded?_eq_some.mpr ⟨found, rfl⟩

/-- The import binds the module that it names. -/
theorem use_binds_module_nested :
    ∃ final root', execUse 12 ["m"] .whole none nestedPlace .besideNested = .ok () final ∧
      final.scopes.scopes[0]? = some root' ∧
      Bindings.get? "m" root'.bindings = some ⟨.imported "m" 0, .object 0, true⟩ := by
  have isNamed : Modules.moduleName "m.nx" = "m" := by cbv
  obtain ⟨_, final, used, _⟩ := exists_of_passes passes_nested
  obtain ⟨_, root', _, found', isBound, _⟩ :=
    use_binds_module (Machine.wellScoped_start _ _) locate_nested unloaded?_nested used
  rw [isNamed] at isBound
  exact ⟨final, root', used, found', isBound⟩

/-- The import binds more than the module that it names. -/
theorem use_binds_inner_module :
    Machine.besideNested.scopes.binding? 0 "n" = none ∧
      ∃ final, execUse 12 ["m"] .whole none nestedPlace .besideNested = .ok () final ∧
        (final.scopes.binding? 0 "n").isSome = true := by
  obtain ⟨_, final, used, isBound⟩ := exists_of_passes passes_nested
  exact ⟨rfl, final, used, isBound⟩

end Noxy
