import Noxy.Proofs.ModuleRecord
import Noxy.Proofs.Paths
import Noxy.Proofs.Sufficiency

/-!
# Modules are loaded once

Whatever modules import each other, in circles or not, the contents of each are looked at at most
once in all that is done with one machine, and whoever imports a module gets the same one.
-/

namespace Noxy

open Exec Relation

/-! ### One activity after another -/

/-- Activities and their fuel, one after another. -/
abbrev Agenda :=
  List (Nat × Activity)

namespace Agenda

def final : Agenda → Machine → Machine
  | [], machine => machine
  | (fuel, activity) :: rest, machine => final rest (activity.final fuel machine)

def loads : Agenda → Machine → List Path
  | [], _ => []
  | (fuel, activity) :: rest, machine =>
    activity.loads fuel machine ++ loads rest (activity.final fuel machine)

def Reaches : Agenda → Machine → Nat → Activity → Machine → Prop
  | [], _, _, _, _ => False
  | (fuel, activity) :: rest, machine, fuel', part, begun =>
    Noxy.Reaches fuel activity machine fuel' part begun ∨
      Reaches rest (activity.final fuel machine) fuel' part begun

end Agenda

theorem Reaches.modules (reaches : Reaches fuel activity machine fuel' part begun)
    (wellScoped : machine.WellScoped) :
    begun.WellScoped ∧
      (part.final fuel' begun).modules <+: (activity.final fuel machine).modules := by
  induction reaches with
  | here => exact ⟨wellScoped, List.prefix_refl _⟩
  | inside begins _ ih =>
    obtain ⟨inner, recalled⟩ := ih (begins.wellScoped wellScoped)
    exact ⟨inner, recalled.trans (Activity.recalls_begun wellScoped begins).2.modules⟩

namespace Agenda

section

variable (agenda : Agenda) {machine : Machine} (wellScoped : machine.WellScoped)
include wellScoped

theorem wellScoped_final : (agenda.final machine).WellScoped := by
  induction agenda generalizing machine with
  | nil => exact wellScoped
  | cons item _ ih => exact ih (item.2.wellScoped_final wellScoped item.1)

theorem modules_extended : machine.modules <+: (agenda.final machine).modules := by
  induction agenda generalizing machine with
  | nil => exact List.prefix_refl _
  | cons item _ ih =>
    exact (item.2.recalls_final wellScoped item.1).modules.trans
      (ih (item.2.wellScoped_final wellScoped item.1))

end

theorem Reaches.modules {agenda : Agenda} (reaches : agenda.Reaches machine fuel part begun)
    (wellScoped : machine.WellScoped) :
    begun.WellScoped ∧ (part.final fuel begun).modules <+: (agenda.final machine).modules := by
  induction agenda generalizing machine with
  | nil => cases reaches
  | cons item rest ih =>
    have afterItem := item.2.wellScoped_final wellScoped item.1
    rcases reaches with inItem | inRest
    · obtain ⟨inner, recalled⟩ := inItem.modules wellScoped
      exact ⟨inner, recalled.trans (modules_extended rest afterItem)⟩
    · exact ih inRest afterItem

theorem Reaches.lookup {agenda : Agenda} {final : Machine}
    (reaches : agenda.Reaches machine fuel (.loadModule path) moment)
    (wellScoped : machine.WellScoped) (loaded : loadModule fuel path moment = .ok module final) :
    (agenda.final machine).modules.lookup (moment.resolve path) = some module := by
  obtain ⟨inner, extended⟩ := reaches.modules wellScoped
  rw [Activity.final_of_discard rfl, final_of_ok loaded] at extended
  exact lookup_of_extended extended (lookup_of_loadModule inner loaded)

end Agenda

/-! ### Loading ends -/

def Exec.machineAfter {α : Type} : EStateM.Result Signal Machine α → Machine
  | .ok _ final => final
  | .error _ final => final

/-- With enough fuel the step ends, and the working directory is then the given one. -/
def Exec.HaltsIn {α : Type} (place : Path) (step : Nat → Exec α) (machine : Machine) : Prop :=
  ∃ result, Yields step machine result ∧ (machineAfter result).world.workingDirectory = place

namespace Exec.HaltsIn

variable {α β : Type} {step : Nat → Exec α} {place : Path}

theorem of_succ (halts : HaltsIn place (fun fuel => step (fuel + 1)) machine) :
    HaltsIn place step machine := by
  obtain ⟨result, ⟨notSpent, fuel, ended⟩, stays⟩ := halts
  exact ⟨result, ⟨notSpent, fuel + 1, ended⟩, stays⟩

theorem congr (halts : HaltsIn place step' machine')
    (same : ∀ fuel, step fuel machine = step' fuel machine') : HaltsIn place step machine := by
  obtain ⟨result, ⟨notSpent, fuel, ended⟩, stays⟩ := halts
  exact ⟨result, ⟨notSpent, fuel, (same fuel).trans ended⟩, stays⟩

theorem bind {next : α → Nat → Exec β} (grows : Grows step)
    (growsNext : ∀ value, Grows (next value)) (first : HaltsIn place step machine)
    (rest : ∀ value final, Yields step machine (.ok value final) →
      final.world.workingDirectory = place → HaltsIn place (next value) final) :
    HaltsIn place (fun fuel => step fuel >>= fun value => next value fuel) machine := by
  obtain ⟨result, yields, stays⟩ := first
  cases result with
  | ok value final =>
    obtain ⟨result', yields', stays'⟩ := rest value final yields stays
    exact ⟨result', (yields_bind grows growsNext).mpr (.inl ⟨value, final, yields, yields'⟩),
      stays'⟩
  | error signal final =>
    exact ⟨_, (yields_bind grows growsNext).mpr (.inr ⟨signal, final, yields, rfl⟩), stays⟩

theorem of_bind {next : α → Nat → Exec β} (grows : Grows step)
    (growsNext : ∀ value, Grows (next value)) (first : HaltsIn place step machine)
    (same : ∀ fuel, whole fuel start = (step fuel >>= fun value => next value fuel) machine)
    (rest : ∀ value final, Yields step machine (.ok value final) →
      final.world.workingDirectory = place → HaltsIn place (next value) final) :
    HaltsIn place whole start :=
  (bind grows growsNext first rest).congr same

theorem inScope (halts : HaltsIn place step (entered outer machine)) :
    HaltsIn place (fun fuel => Exec.inScope outer (step fuel)) machine := by
  obtain ⟨result, ⟨notSpent, fuel, ended⟩, stays⟩ := halts
  have left : Exec.inScope outer (step fuel) machine = ending (left machine) result := by
    rw [inScope_eq, ended]
  refine ⟨_, ⟨?_, fuel, left⟩, ?_⟩
  · rintro ⟨_, isSpent⟩
    cases result with
    | ok => cases isSpent
    | error _ last =>
      cases isSpent
      exact notSpent ⟨last, rfl⟩
  · cases result <;> exact stays

end Exec.HaltsIn

def Arises : Part → Part → Prop :=
  ReflTransGen fun whole part => ∃ fuel, Begins fuel whole.1 whole.2 part.1 part.2

/--
The initial values of the global variables in the modules that an activity loads can be found, and
finding one does not change the working directory.  It may change anything else, also the files.
-/
def Activity.Initializes (activity : Activity) (machine : Machine) : Prop :=
  ∀ module name type initializer location rest moment,
    Arises (activity, machine)
      (.evalGlobals module (.globalVar name type initializer location :: rest), moment) →
    HaltsIn moment.world.workingDirectory (fun fuel => Noxy.eval fuel initializer) moment

theorem Activity.Initializes.part {activity part : Activity}
    (initializes : activity.Initializes machine)
    (begins : ∃ fuel, Begins fuel activity machine part begun) : part.Initializes begun :=
  fun module name type initializer location rest moment arises =>
    initializes module name type initializer location rest moment (.head begins arises)

def Machine.missing (tree : Finset Path) (machine : Machine) : Finset Path :=
  tree.filter fun place => machine.modules.lookup place = none

theorem Machine.Recalls.missing_subset {machine : Machine} (recalls : machine.Recalls isOpen later)
    (tree : Finset Path) : later.missing tree ⊆ machine.missing tree := by
  intro place isMissing
  obtain ⟨inTree, absent⟩ := Finset.mem_filter.mp isMissing
  refine Finset.mem_filter.mpr ⟨inTree, ?_⟩
  cases known : machine.modules.lookup place with
  | none => rfl
  | some =>
    rw [recalls.lookup known] at absent
    cases absent

theorem Machine.card_missing_remembering {machine : Machine} (path : String)
    (inTree : resolved ∈ tree) (isNew : machine.modules.lookup resolved = none) :
    ((machine.remembering resolved path).missing tree).card < (machine.missing tree).card := by
  have recalls : machine.Recalls (fun _ => False) (machine.remembering resolved path) :=
    .remembering machine resolved path
  refine Finset.card_lt_card ⟨recalls.missing_subset tree, fun all => ?_⟩
  have absent := (Finset.mem_filter.mp (all (Finset.mem_filter.mpr ⟨inTree, isNew⟩))).2
  rw [machine.lookup_remembering path isNew] at absent
  cases absent

/-! #### Steps that need no fuel -/

abbrev Exec.Prompt {α : Type} (step : Exec α) : Prop :=
  LeavesWorld (· ≠ .failure .exhausted) step

namespace Exec.Prompt

theorem pure (value : α) : Prompt (pure value) :=
  fun _ => rfl

theorem raise {failure : Failure} (notSpent : failure ≠ .exhausted) :
    Prompt (throw (.failure failure) : Exec α) :=
  fun _ => ⟨fun isSpent => notSpent (Signal.failure.inj isSpent), rfl⟩

theorem readModule (path : String) (content : Nat) : Prompt (readModule path content) := by
  refine .bind (fun _ => rfl) fun disk => ?_
  split
  · exact raise (by simp)
  · rename_i source _
    cases parsed : Program.parse source path with
    | ok => exact fun _ => rfl
    | error =>
      refine fun _ => ⟨fun isSpent => ?_, rfl⟩
      cases isSpent
      exact Program.parse_ne_exhausted parsed rfl

theorem halts (isPrompt : Prompt step) (isHere : machine.world.workingDirectory = place) :
    HaltsIn place (fun _ => step) machine := by
  have isPrompt := isPrompt machine
  unfold Ends at isPrompt
  cases ended : step machine with
  | ok _ final =>
    rw [ended] at isPrompt
    refine ⟨_, ⟨?_, 0, ended⟩, isPrompt ▸ isHere⟩
    rintro ⟨_, isSpent⟩
    cases isSpent
  | error signal final =>
    rw [ended] at isPrompt
    refine ⟨_, ⟨?_, 0, ended⟩, isPrompt.2 ▸ isHere⟩
    rintro ⟨_, isSpent⟩
    cases isSpent
    exact isPrompt.1 rfl

end Exec.Prompt

/-! #### The measure of loading -/

structure Activity.Loadable (place : Path) (bound : Nat) (activity : Activity)
    (machine : Machine) : Prop where
  wellScoped : machine.WellScoped
  isHere : machine.world.workingDirectory = place
  few : (machine.missing (Disk.places place)).card < bound
  initializes : activity.Initializes machine

theorem Activity.Loadable.part {activity part : Activity}
    (loadable : activity.Loadable place bound machine)
    (begins : ∃ fuel, Begins fuel activity machine part begun)
    (isHere : begun.world.workingDirectory = place) : part.Loadable place bound begun where
  wellScoped := begins.choose_spec.wellScoped loadable.wellScoped
  isHere := isHere
  few := by
    obtain ⟨recalls, _⟩ := Activity.recalls_begun loadable.wellScoped begins.choose_spec
    exact Nat.lt_of_le_of_lt (Finset.card_le_card (recalls.missing_subset _)) loadable.few
  initializes := loadable.initializes.part begins

def LoadingEnds (place : Path) (bound : Nat) : Prop :=
  ∀ path machine, (Activity.loadModule path).Loadable place bound machine →
    HaltsIn place (fun fuel => loadModule fuel path) machine

theorem grows_fillModule : Grows fun fuel => fillModule fuel module path members node := by
  intro fuel
  cases node with
  | directory => exact fueled (.loadMembers _ _ _) fuel
  | file =>
    exact .after _ fun program => .inScope (.bind (fueled (.useAll _) fuel) fun _ =>
      .after _ fun _ => .after _ fun _ => fueled (.evalGlobals _ _) fuel)

theorem halts_evalGlobals (initializes : (Activity.evalGlobals module stmts).Initializes machine)
    (isHere : machine.world.workingDirectory = place) :
    HaltsIn place (fun fuel => evalGlobals fuel module stmts) machine := by
  induction stmts generalizing machine with
  | nil => exact .of_succ ((Prompt.pure ()).halts isHere)
  | cons stmt rest ih =>
    by_cases isGlobal : ∃ name type initializer location,
        stmt = .globalVar name type initializer location
    · obtain ⟨name, type, initializer, location, rfl⟩ := isGlobal
      refine .of_succ (.of_bind (fueled (.eval initializer))
        (fun value fuel => .after (do Exec.defineHere name type value; setMember module name value)
          fun _ => fueled (.evalGlobals _ _) fuel)
        (isHere ▸ initializes _ _ _ _ _ _ _ .refl) (fun _ => by rw [evalGlobals_globalVar]) ?_)
      rintro value evaluated ⟨_, _, ended⟩ isHere
      have isPrompt : Prompt (do Exec.defineHere name type value; setMember module name value) :=
        .bind (fun _ => rfl) fun _ => .setMember _ _ _
      refine .bind (fun _ => .refl _) (fun _ => fueled (.evalGlobals _ _))
        (isPrompt.halts isHere) ?_
      rintro ⟨⟩ _ ⟨_, _, isSet⟩ isHere
      exact ih (initializes.part ⟨_, .restAfterGlobal ended isSet⟩) isHere
    · have notGlobal : ∀ name type initializer location,
          stmt ≠ .globalVar name type initializer location :=
        fun name type initializer location same =>
          isGlobal ⟨name, type, initializer, location, same⟩
      refine .of_succ
        ((ih (initializes.part ⟨0, .restOfGlobals notGlobal⟩) isHere).congr fun _ => ?_)
      cases stmt with
      | globalVar => exact absurd rfl (notGlobal _ _ _ _)
      | _ => rfl

section Loading

variable {place : Path} {bound : Nat} (ends : LoadingEnds place bound)
include ends

theorem LoadingEnds.execUse
    (loadable : (Activity.execUse names selection newName location).Loadable place bound machine) :
    HaltsIn place (fun fuel => execUse fuel names selection newName location) machine := by
  refine .of_succ ?_
  cases located : Modules.locate machine.world machine.basePath names with
  | error fault =>
    have isPrompt : Prompt (Exec.fault fault : Exec Unit) := .raise (by simp)
    refine (isPrompt.halts loadable.isHere).congr fun _ => ?_
    rw [Noxy.execUse, get_bind, located]
  | ok path? =>
    cases path? with
    | none =>
      have isPrompt : Prompt (throw (.failure (.error (.runtime
          (.moduleNotFound (".".intercalate names)) (some location)))) : Exec Unit) :=
        .raise (by simp)
      refine (isPrompt.halts loadable.isHere).congr fun _ => ?_
      rw [Noxy.execUse, get_bind, located]
    | some path =>
      refine .of_bind (fueled (.loadModule path)) (fun _ _ => .refl _)
        (ends _ _ (loadable.part ⟨0, .located located⟩ loadable.isHere))
        (fun _ => by rw [Noxy.execUse, get_bind, located]) fun module loaded _ isHere => ?_
      exact Prompt.halts (.importSelection _ _ _ module fun _ _ => by simp) isHere

theorem LoadingEnds.useAll (loadable : (Activity.useAll stmts).Loadable place bound machine) :
    HaltsIn place (fun fuel => useAll fuel stmts) machine := by
  induction stmts generalizing machine with
  | nil => exact .of_succ ((Prompt.pure ()).halts loadable.isHere)
  | cons stmt rest ih =>
    by_cases isUse : ∃ names selection newName location,
        stmt = .use names selection newName location
    · obtain ⟨names, selection, newName, location, rfl⟩ := isUse
      refine .of_succ (.of_bind (fueled (.execUse _ _ _ _)) (fun _ => fueled (.useAll _))
        (ends.execUse (loadable.part ⟨0, .firstUse⟩ loadable.isHere)) (fun _ => rfl) ?_)
      rintro ⟨⟩ _ ⟨_, _, used⟩ isHere
      exact ih (loadable.part ⟨_, .restAfterUse used⟩ isHere)
    · have notUse : ∀ names selection newName location,
          stmt ≠ .use names selection newName location :=
        fun names selection newName location same =>
          isUse ⟨names, selection, newName, location, same⟩
      refine .of_succ
        ((ih (loadable.part ⟨0, .restOfUses notUse⟩ loadable.isHere)).congr fun _ => ?_)
      cases stmt with
      | use => exact absurd rfl (notUse _ _ _ _)
      | _ => rfl

theorem LoadingEnds.loadMembers
    (loadable : (Activity.loadMembers module path members).Loadable place bound machine) :
    HaltsIn place (fun fuel => loadMembers fuel module path members) machine := by
  induction members generalizing machine with
  | nil => exact .of_succ ((Prompt.pure ()).halts loadable.isHere)
  | cons entry rest ih =>
    obtain ⟨name, file⟩ := entry
    refine .of_succ (.of_bind (fueled (.loadModule _))
      (fun member fuel => .after (setMember module name member) fun _ =>
        fueled (.loadMembers _ _ _) fuel)
      (ends _ _ (loadable.part ⟨0, .firstMember⟩ loadable.isHere)) (fun _ => rfl) ?_)
    rintro member afterMember ⟨_, _, loaded⟩ isHere
    refine .bind (fun _ => .refl _) (fun _ => fueled (.loadMembers _ _ _))
      (Prompt.halts (.setMember module name member) isHere) ?_
    rintro ⟨⟩ _ ⟨_, _, isSet⟩ isHere
    exact ih (loadable.part ⟨_, .restOfMembers loaded isSet⟩ isHere)

theorem LoadingEnds.fillModule
    (loadable : (Activity.loadModule path).Loadable place (bound + 1) machine)
    (found : machine.world.disk.find machine.world.workingDirectory path = .ok (resolved, node))
    (isNew : machine.modules.lookup resolved = none) :
    HaltsIn place (fun fuel => fillModule fuel (.object machine.heap.objects.size) path
      (Modules.members machine.world.disk resolved) node) (machine.remembering resolved path) := by
  have fewer : ((machine.remembering resolved path).missing (Disk.places place)).card < bound := by
    rw [loadable.isHere] at found
    exact Nat.lt_of_lt_of_le (Machine.card_missing_remembering path (Disk.mem_places found) isNew)
      (Nat.le_of_lt_succ loadable.few)
  cases node with
  | directory =>
    have begins : Begins 0 _ machine _ (machine.remembering resolved path) :=
      .directory found isNew
    exact ends.loadMembers ⟨begins.wellScoped loadable.wellScoped, loadable.isHere, fewer,
      loadable.initializes.part ⟨_, begins⟩⟩
  | file content =>
    refine .bind (fun _ => .refl _) (fun program fuel => .inScope (.bind
      (fueled (.useAll _) fuel) fun _ => .after _ fun _ => .after _ fun _ =>
        fueled (.evalGlobals _ _) fuel)) ((Prompt.readModule path content).halts loadable.isHere) ?_
    rintro program _ ⟨_, _, read⟩ isHere
    cases (readModule_eq_ok.mp read).1
    have imports : Begins 0 (.loadModule path) machine (.useAll program)
      (entered 0 (machine.remembering resolved path)) := .moduleImports found isNew read
    refine .inScope (.bind (fueled (.useAll _))
      (fun _ fuel => .after _ fun _ => .after _ fun _ => fueled (.evalGlobals _ _) fuel)
      (ends.useAll ⟨imports.wellScoped loadable.wellScoped, isHere, fewer,
        loadable.initializes.part ⟨_, imports⟩⟩) ?_)
    rintro ⟨⟩ afterImports ⟨_, fuel, imported⟩ isHere
    refine .of_bind (fun _ => .refl _) (fun _ => fueled (.evalGlobals _ _)) (Prompt.halts
      (.defineMembers afterImports.current (some (.object machine.heap.objects.size)) program)
      isHere) (fun _ => rfl) ?_
    rintro ⟨⟩ _ ⟨_, _, defined⟩ isHere
    exact halts_evalGlobals (loadable.initializes.part
      ⟨_, .moduleGlobals found isNew read imported defined⟩) isHere

theorem LoadingEnds.succ : LoadingEnds place (bound + 1) := by
  intro path machine loadable
  refine .of_succ ?_
  cases found : machine.world.disk.find machine.world.workingDirectory path with
  | error error =>
    cases known : machine.modules.lookup (Disk.normalize machine.world.workingDirectory path) with
    | some module =>
      refine ((Prompt.pure module).halts loadable.isHere).congr fun fuel => ?_
      rw [loadModule_absent fuel found, known]
      rfl
    | none =>
      have isPrompt : Prompt (Exec.fault (Modules.absence error path) : Exec Value) :=
        .raise (by simp)
      refine (isPrompt.halts loadable.isHere).congr fun fuel => ?_
      rw [loadModule_absent fuel found, known]
  | ok found' =>
    obtain ⟨resolved, _⟩ := found'
    cases known : machine.modules.lookup resolved with
    | some module =>
      refine ((Prompt.pure module).halts loadable.isHere).congr fun fuel => ?_
      rw [loadModule_known fuel found known]
      rfl
    | none =>
      have halts := ends.fillModule loadable found known
      exact halts.of_bind grows_fillModule (fun _ _ => .refl _) (loadModule_new · found known)
        fun _ _ _ isHere => (Prompt.pure _).halts isHere

end Loading

def selfText : String :=
  "use m\nglobal x: int = 1"

def selfPlace (line column : Nat) : Location :=
  ⟨line, column, "m.nx"⟩

def selfUse : Stmt :=
  .use ["m"] .whole none (selfPlace 1 1)

def selfGlobal : Stmt :=
  .globalVar "x" .int (.int 1 (selfPlace 2 17)) (selfPlace 2 1)

namespace Machine

def besideSelf : Machine :=
  besideText selfText

def openedSelf : Machine :=
  entered 0 (besideSelf.remembering ["m.nx"] "m.nx")

end Machine

theorem parse_selfText : Program.parse selfText "m.nx" = .ok [selfUse, selfGlobal] := by
  cbv

set_option maxRecDepth 1024 in
theorem sourceText_self : Modules.sourceText Machine.besideSelf.world.disk 0 = .ok selfText := by
  cbv

theorem readModule_self :
    readModule "m.nx" 0 (Machine.besideSelf.remembering ["m.nx"] "m.nx") =
      .ok [selfUse, selfGlobal] (Machine.besideSelf.remembering ["m.nx"] "m.nx") :=
  readModule_eq_ok.mpr ⟨rfl, selfText, sourceText_self, parse_selfText⟩

inductive SelfCourse : Activity → Machine → Prop where
  | use (isStart : machine = .besideSelf ∨ machine = .openedSelf) :
      SelfCourse (.execUse ["m"] .whole none (selfPlace 1 1)) machine
  | load (isStart : machine = .besideSelf ∨ machine = .openedSelf) :
      SelfCourse (.loadModule "m.nx") machine
  | uses : SelfCourse (.useAll [selfUse, selfGlobal]) .openedSelf
  | otherUses (noUse : ∀ stmt ∈ stmts, stmt = selfGlobal) : SelfCourse (.useAll stmts) machine
  | definitions : SelfCourse (.defineMembers scope module stmts) machine
  | globals (areOwn : ∀ stmt ∈ stmts, stmt = selfUse ∨ stmt = selfGlobal) :
      SelfCourse (.evalGlobals module stmts) machine
  | number : SelfCourse (.eval (.int value location)) machine

theorem SelfCourse.begins (inCourse : SelfCourse activity machine)
    (begins : Begins fuel activity machine part begun) : SelfCourse part begun := by
  have isFound := find_besideText selfText
  cases inCourse with
  | use isStart =>
    cases begins with
    | located found =>
      rcases isStart with rfl | rfl <;> cases (locate_besideText selfText).symm.trans found
      · exact .load (.inl rfl)
      · exact .load (.inr rfl)
  | load isStart =>
    rcases isStart with rfl | rfl
    · cases begins with
      | directory found => cases isFound.symm.trans found
      | moduleImports found _ read =>
        cases isFound.symm.trans found
        cases readModule_self.symm.trans read
        exact .uses
      | moduleDefinitions => exact .definitions
      | moduleGlobals found _ read =>
        cases isFound.symm.trans found
        cases readModule_self.symm.trans read
        exact .globals (by simp)
    · cases begins with
      | directory found => cases isFound.symm.trans found
      | moduleImports found isNew | moduleDefinitions found isNew | moduleGlobals found isNew =>
        cases isFound.symm.trans found
        cases isNew
  | uses =>
    cases begins with
    | firstUse => exact .use (.inr rfl)
    | restAfterUse => exact .otherUses (by simp)
    | restOfUses notUse => exact absurd rfl (notUse _ _ _ _)
  | otherUses noUse =>
    cases begins with
    | firstUse | restAfterUse => cases noUse _ List.mem_cons_self
    | restOfUses => exact .otherUses (List.forall_mem_cons.mp noUse).2
  | definitions =>
    cases begins with
    | restOfDefinitions => exact .definitions
  | globals areOwn =>
    cases begins with
    | globalOfModule =>
      rcases areOwn _ List.mem_cons_self with isUse | isGlobal
      · cases isUse
      · cases isGlobal
        exact .number
    | restAfterGlobal | restOfGlobals => exact .globals (List.forall_mem_cons.mp areOwn).2
  | number => cases begins

theorem SelfCourse.arises (arises : Arises whole part) (inCourse : SelfCourse whole.1 whole.2) :
    SelfCourse part.1 part.2 := by
  induction arises with
  | refl => exact inCourse
  | tail _ step ih =>
    obtain ⟨_, begins⟩ := step
    exact ih.begins begins

end Noxy
