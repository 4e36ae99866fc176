import Noxy.Proofs.Composition
import Noxy.Proofs.LoadedOnce
import Noxy.Proofs.Paths

/-!
# What a loaded module contains

A module is filled step by step, while other modules are loaded, so what it holds in the end is a
matter of the whole run.
-/

namespace Noxy

variable {program : Program}

open Exec

/-! ### Bindings side by side -/

namespace Bindings

variable {α β : Type}

theorem get?_putAll (nodup : (entries.map Prod.fst).Nodup) (bindings : List (String × α)) :
    get? name (putAll entries bindings) = (get? name entries).or (get? name bindings) := by
  induction entries generalizing bindings with
  | nil => rfl
  | cons entry _ ih =>
    obtain ⟨bound, value⟩ := entry
    obtain ⟨isOnce, nodup⟩ := List.nodup_cons.mp nodup
    have step := ih nodup (put bound value bindings)
    rw [get?_put] at step
    by_cases same : bound = name
    · subst same
      rw [if_pos rfl, get?_eq_none_iff.mpr isOnce] at step
      simpa [putAll, get?] using step
    · rw [if_neg same] at step
      simpa [putAll, get?, same] using step

theorem get?_putAll_nil (nodup : (entries.map Prod.fst).Nodup) (name : String) :
    get? name (putAll entries []) = get? name entries := by
  rw [get?_putAll nodup, get?, Option.or_none]

def Parallel (related : String → α → β → Prop) (left : List (String × α))
    (right : List (String × β)) : Prop :=
  List.Forall₂ (fun entry entry' => entry.1 = entry'.1 ∧ related entry.1 entry.2 entry'.2)
    left right

theorem Parallel.imp {left : List (String × α)} (parallel : Parallel related left right)
    (implies : ∀ name value value', related name value value' → related' name value value') :
    Parallel related' left right :=
  List.Forall₂.imp (fun _ _ both => ⟨both.1, implies _ _ _ both.2⟩) parallel

theorem Parallel.names {left : List (String × α)} (parallel : Parallel related left right) :
    left.map Prod.fst = right.map Prod.fst := by
  induction parallel with
  | nil => rfl
  | cons first _ ih => rw [List.map_cons, List.map_cons, first.1, ih]

theorem Parallel.get? {left : List (String × α)} (parallel : Parallel related left right)
    (name : String) :
    Option.Rel (related name) (Bindings.get? name left) (Bindings.get? name right) := by
  induction parallel with
  | nil => exact .none
  | @cons entry entry' _ _ first _ ih =>
    obtain ⟨bound, _⟩ := entry
    obtain ⟨_, _⟩ := entry'
    obtain ⟨rfl, isRelated⟩ := first
    by_cases same : bound = name
    · subst same
      simpa [Bindings.get?] using isRelated
    · simpa [Bindings.get?, same] using ih

end Bindings

/-! ### Where modules come from -/

theorem Activity.loaded_of_mem_modules (wellScoped : machine.WellScoped) (activity : Activity)
    (member : entry ∈ (activity.final fuel machine).modules) :
    entry ∈ machine.modules ∨ ∃ fuel' path begun node,
      Reaches fuel activity machine fuel' (.loadModule path) begun ∧
        begun.unloaded? path = some (entry.1, node) ∧ entry.2 = .object begun.heap.size := by
  induction fuel generalizing activity machine entry with
  | zero => exact .inl ((still_final_zero wellScoped activity).modules ▸ member)
  | succ fuel ih =>
    have sources := (relates_along
      (fun before after => ∀ entry ∈ after.modules, entry ∈ before.modules ∨
        ∃ fuel' path begun node,
          Reaches (fuel + 1) activity machine fuel' (.loadModule path) begun ∧
            begun.unloaded? path = some (entry.1, node) ∧ entry.2 = .object begun.heap.size)
      (fun _ _ => .inl)
      (fun first second entry member => (second entry member).elim (first entry) .inr) wellScoped
      (fun own entry member => .inl (own.still.modules ▸ member))
      (fun part _ begins isScoped entry member => by
        rcases ih isScoped part member with before | ⟨_, _, _, _, reaches, rest⟩
        · exact .inl before
        · exact .inr ⟨_, _, _, _, .inside begins reaches, rest⟩)).1 entry member
    rcases sources with atStart | isLoaded
    · cases activity with
      | loadModule path =>
        simp only [opened] at atStart
        split at atStart
        · rename_i resolved node unloaded
          rcases List.mem_append.mp atStart with before | isNew
          · exact .inl before
          · cases List.mem_singleton.mp isNew
            exact .inr ⟨_, path, machine, node, .here, unloaded, rfl⟩
        · exact .inl atStart
      | _ => exact .inl atStart
    · exact .inr isLoaded

/-! ### Members of a module -/

def Stmt.definition? : Stmt → Option (String × Value)
  | .function name params returns body location =>
    some (name, .function ⟨name, params, returns, body, location⟩)
  | .struct name fields location => some (name, .struct ⟨name, fields, location⟩)
  | _ => none

def Stmt.globalName? : Stmt → Option String
  | .globalVar name _ _ _ => some name
  | _ => none

theorem Activity.get?_final {activity : Activity} (wellScoped : machine.WellScoped)
    (outside : activity.module? = none)
    (found : machine.heap.get? address = some (.module title members)) :
    (activity.final fuel machine).heap.get? address = some (.module title members) := by
  refine (activity.recalls_final wellScoped fuel).heap.get? found fun isOpen => ?_
  rw [IsOpen, outside] at isOpen
  cases isOpen

section Filling

variable {final : Machine}

theorem get?_of_setMember (found : machine.heap.get? address = some (.module title members))
    (isSet : setMember (.object address) name value machine = .ok () final) :
    final.heap.get? address = some (.module title (Bindings.put name value members)) := by
  cases isSet
  rw [Heap.get?_apply, if_pos rfl, found]
  rfl

theorem get?_of_defineMembers (found : machine.heap.get? address = some (.module title members))
    (defined : defineMembers scope (some (.object address)) stmts machine = .ok () final) :
    final.heap.get? address =
      some (.module title (Bindings.putAll (stmts.filterMap Stmt.definition?) members)) := by
  induction stmts generalizing machine members with
  | nil =>
    cases defined
    exact found
  | cons stmt _ ih =>
    cases stmt
    case function | struct =>
      obtain ⟨_, _, defines, more⟩ := exists_of_bind_eq_ok defined
      obtain ⟨_, _, isSet, others⟩ := exists_of_bind_eq_ok more
      cases defines
      exact ih (get?_of_setMember (by exact found) isSet) others
    all_goals exact ih found defined

theorem get?_of_evalGlobals (wellScoped : machine.WellScoped)
    (found : machine.heap.get? address = some (.module title members))
    (evaluated : evalGlobals fuel (.object address) stmts machine = .ok () final) :
    ∃ globals, globals.map Prod.fst = stmts.filterMap Stmt.globalName? ∧
      final.heap.get? address = some (.module title (Bindings.putAll globals members)) := by
  induction fuel generalizing stmts machine members with
  | zero => cases evaluated
  | succ fuel ih =>
    cases stmts with
    | nil =>
      cases evaluated
      exact ⟨[], rfl, found⟩
    | cons stmt rest =>
      cases stmt
      case globalVar name type initializer location =>
        rw [evalGlobals_globalVar] at evaluated
        obtain ⟨value, _, ended, more⟩ := exists_of_bind_eq_ok evaluated
        obtain ⟨_, begun, isBound, others⟩ := exists_of_bind_eq_ok more
        have begins : Begins fuel (.evalGlobals (.object address)
            (.globalVar name type initializer location :: rest)) machine
            (.evalGlobals (.object address) rest) begun :=
          .restAfterGlobal ended isBound
        have kept : ((Activity.eval initializer).final fuel machine).heap.get? address = _ :=
          Activity.get?_final wellScoped rfl found
        rw [Activity.final_of_discard rfl, final_of_ok ended] at kept
        obtain ⟨_, _, isDefined, isSet⟩ := exists_of_bind_eq_ok isBound
        cases isDefined
        obtain ⟨globals, names, isFilled⟩ := ih (begins.wellScoped wellScoped)
          (get?_of_setMember (by exact kept) isSet) others
        refine ⟨(name, value) :: globals, ?_, isFilled⟩
        rw [List.map_cons, names]
        rfl
      all_goals
        have others : evalGlobals fuel (.object address) rest machine = .ok () final := evaluated
        have filled := ih wellScoped found others
        exact filled

theorem get?_of_loadMembers {list : List (String × String)} (wellScoped : machine.WellScoped)
    (found : machine.heap.get? address = some (.module title members))
    (places : ∀ fuel' entry begun, entry ∈ list →
      Reaches fuel (.loadMembers (.object address) path list) machine fuel'
        (.loadModule (Modules.join path entry.2)) begun →
      begun.resolve (Modules.join path entry.2) = place ++ [entry.2])
    (loaded : loadMembers fuel (.object address) path list machine = .ok () final) :
    ∃ modules, Bindings.Parallel
        (fun _ file module => final.modules.lookup (place ++ [file]) = some module) list modules ∧
      final.heap.get? address = some (.module title (Bindings.putAll modules members)) := by
  induction fuel generalizing list machine members with
  | zero => cases loaded
  | succ fuel ih =>
    cases list with
    | nil =>
      cases loaded
      exact ⟨[], .nil, found⟩
    | cons entry rest =>
      obtain ⟨name, file⟩ := entry
      obtain ⟨member, afterMember, isLoaded, more⟩ := exists_of_bind_eq_ok loaded
      obtain ⟨_, begun, isSet, others⟩ := exists_of_bind_eq_ok more
      have begins : Begins fuel (.loadMembers (.object address) path ((name, file) :: rest))
          machine (.loadMembers (.object address) path rest) begun :=
        .restOfMembers isLoaded isSet
      have first : Begins fuel (.loadMembers (.object address) path ((name, file) :: rest))
          machine (.loadModule (Modules.join path file)) machine :=
        .firstMember
      have kept : ((Activity.loadModule (Modules.join path file)).final fuel machine).heap.get?
          address = _ :=
        Activity.get?_final wellScoped rfl found
      rw [Activity.final_of_discard rfl, final_of_ok isLoaded] at kept
      obtain ⟨modules, parallel, isFilled⟩ := ih (begins.wellScoped wellScoped)
        (get?_of_setMember kept isSet)
        (fun fuel' entry moment member reaches =>
          places fuel' entry moment (List.mem_cons_of_mem _ member) (.inside begins reaches))
        others
      have remembered := lookup_of_loadModule wellScoped isLoaded
      rw [places fuel (name, file) machine List.mem_cons_self (.inside first .here)] at remembered
      have sameModules : begun.modules = afterMember.modules := by
        cases isSet
        rfl
      have isFinal : (Activity.loadMembers (.object address) path rest).final fuel begun = final :=
        (Activity.final_of_run rfl begun).trans (final_of_ok others)
      have recalls := (Activity.loadMembers (.object address) path rest).recalls_final
        (begins.wellScoped wellScoped) fuel
      rw [isFinal] at recalls
      rw [← sameModules] at remembered
      exact ⟨(name, member) :: modules, .cons ⟨rfl, recalls.lookup remembered⟩ parallel, isFilled⟩

end Filling

/-! ### What programs make -/

def Member.Describes : Member → Value → Prop
  | .function defined, value => ∃ other, value = .function other ∧ other.unfiled = defined.unfiled
  | .struct defined, value => ∃ other, value = .struct other ∧ other.unfiled = defined.unfiled
  | .global _, _ => True

def Program.Makes (program : Program) (members : List (String × Value)) : Prop :=
  ∀ name, Option.Rel Member.Describes
    (Bindings.get? name (Interface.membersOf program)) (Bindings.get? name members)

/-- No name is given to two members. -/
def Program.NamesApart (program : Program) : Prop :=
  ((program.filterMap Stmt.member?).map Prod.fst).Nodup

instance (program : Program) : Decidable program.NamesApart :=
  inferInstanceAs (Decidable (List.Nodup _))

namespace Program

theorem get?_membersOf (apart : program.NamesApart) :
    Bindings.get? name (Interface.membersOf program) =
      Bindings.get? name (program.filterMap Stmt.member?) :=
  Bindings.get?_putAll_nil apart name

theorem sublist_names
    (isPart : ∀ stmt name, part stmt = some name → stmt.member?.map Prod.fst = some name) :
    (program.filterMap part).Sublist ((program.filterMap Stmt.member?).map Prod.fst) := by
  rw [List.map_filterMap]
  induction program with
  | nil => exact .slnil
  | cons stmt _ ih =>
    cases isNamed : part stmt with
    | some name =>
      rw [List.filterMap_cons_some isNamed, List.filterMap_cons, isPart stmt name isNamed]
      exact ih.cons_cons name
    | none =>
      rw [List.filterMap_cons_none isNamed, List.filterMap_cons]
      split
      · exact ih
      · exact ih.cons _

theorem sublist_globals :
    (program.filterMap Stmt.globalName?).Sublist
      ((program.filterMap Stmt.member?).map Prod.fst) :=
  sublist_names (fun stmt _ isNamed => by cases stmt <;> cases isNamed; rfl)

theorem sublist_definitions :
    ((program.filterMap Stmt.definition?).map Prod.fst).Sublist
      ((program.filterMap Stmt.member?).map Prod.fst) := by
  rw [List.map_filterMap (f := Stmt.definition?)]
  exact sublist_names (fun stmt _ isNamed => by cases stmt <;> cases isNamed <;> rfl)

theorem rel_parts (apart : program.NamesApart)
    (names : globals.map Prod.fst = program.filterMap Stmt.globalName?) :
    Option.Rel Member.Describes (Bindings.get? name (program.filterMap Stmt.member?))
      ((Bindings.get? name globals).or
        (Bindings.get? name (program.filterMap Stmt.definition?))) := by
  induction program generalizing globals with
  | nil =>
    cases List.map_eq_nil_iff.mp names
    exact .none
  | cons stmt rest ih =>
    cases stmt
    case function defined _ _ _ _ | struct defined _ _ =>
      obtain ⟨isOnce, apart⟩ := List.nodup_cons.mp apart
      rw [List.filterMap_cons, List.filterMap_cons]
      simp only [Stmt.member?, Stmt.definition?, Bindings.get?]
      by_cases same : defined = name
      · have notGlobal : Bindings.get? name globals = none := by
          rw [Bindings.get?_eq_none_iff, names, ← same]
          exact fun member => isOnce ((sublist_globals).subset member)
        rw [if_pos same, if_pos same, notGlobal]
        exact .some ⟨_, rfl, rfl⟩
      · rw [if_neg same, if_neg same]
        exact ih apart names
    case globalVar declared _ _ _ =>
      obtain ⟨_, apart⟩ := List.nodup_cons.mp apart
      obtain ⟨_, _, rfl, isFirst, names⟩ := List.map_eq_cons_iff.mp names
      rw [List.filterMap_cons, List.filterMap_cons]
      simp only [Stmt.member?, Stmt.definition?, Bindings.get?, isFirst]
      by_cases same : declared = name
      · rw [if_pos same, if_pos same]
        exact .some trivial
      · rw [if_neg same, if_neg same]
        exact ih apart names
    all_goals exact ih apart names

end Program

theorem Program.makes_of_parts (apart : program.NamesApart)
    (names : globals.map Prod.fst = program.filterMap Stmt.globalName?) :
    program.Makes
      (Bindings.putAll globals (Bindings.putAll (program.filterMap Stmt.definition?) [])) := by
  intro name
  have globalsApart : (globals.map Prod.fst).Nodup := by
    rw [names]
    exact apart.sublist (sublist_globals)
  rw [get?_membersOf apart, Bindings.get?_putAll globalsApart,
    Bindings.get?_putAll_nil (apart.sublist sublist_definitions)]
  exact rel_parts apart names

/-! ### What a load leaves in its module -/

section Loaded

variable {final : Machine}

theorem get?_remembering (machine : Machine) (place : Path) :
    (machine.remembering place path).heap.get? machine.heap.size =
      some (.module (Modules.moduleName path) []) := by
  rw [Machine.remembering, Heap.get?_alloc, if_pos rfl]

theorem get?_of_loadFile (wellScoped : machine.WellScoped)
    (unloaded : machine.unloaded? path = some (place, .file content))
    (loaded : loadModule (fuel + 1) path machine = .ok module final) :
    ∃ source program globals, Modules.sourceText machine.world.disk content = .ok source ∧
      Program.parse source path = .ok program ∧
      globals.map Prod.fst = program.filterMap Stmt.globalName? ∧
      final.heap.get? machine.heap.size = some (.module (Modules.moduleName path)
        (Bindings.putAll globals (Bindings.putAll (program.filterMap Stmt.definition?) []))) := by
  obtain ⟨found, isNew⟩ := Machine.unloaded?_eq_some.mp unloaded
  rw [loadModule_new fuel found isNew] at loaded
  obtain ⟨_, _, isFilled, isModule⟩ := exists_of_bind_eq_ok loaded
  cases isModule
  obtain ⟨program, _, read, inScope⟩ := exists_of_bind_eq_ok isFilled
  obtain ⟨rfl, source, isSource, parsed⟩ := readModule_eq_ok.mp read
  obtain ⟨_, body, rfl⟩ := exists_of_inScope_eq_ok inScope
  obtain ⟨_, afterImports, imported, rest⟩ := exists_of_bind_eq_ok body
  rw [get_bind] at rest
  obtain ⟨_, begun, defined, evaluated⟩ := exists_of_bind_eq_ok rest
  have imports : Begins fuel (.loadModule path) machine (.useAll program)
      (entered 0 (machine.remembering place path)) :=
    .moduleImports found isNew read
  have globals : Begins fuel (.loadModule path) machine
      (.evalGlobals (.object machine.heap.objects.size) program) begun :=
    .moduleGlobals found isNew read imported defined
  have kept : ((Activity.useAll program).final fuel
      (entered 0 (machine.remembering place path))).heap.get? machine.heap.size = _ :=
    Activity.get?_final (imports.wellScoped wellScoped) rfl (get?_remembering machine place)
  have isImported : (Activity.useAll program).final fuel
      (entered 0 (machine.remembering place path)) = afterImports :=
    (Activity.final_of_run rfl _).trans (final_of_ok imported)
  rw [isImported] at kept
  obtain ⟨values, names, isFinal⟩ := get?_of_evalGlobals (globals.wellScoped wellScoped)
    (get?_of_defineMembers kept defined) evaluated
  exact ⟨source, program, values, isSource, parsed, names, isFinal⟩

theorem get?_of_loadDirectory (wellScoped : machine.WellScoped)
    (unloaded : machine.unloaded? path = some (place, .directory))
    (places : ∀ fuel' entry begun, entry ∈ Modules.members machine.world.disk place →
      Reaches (fuel + 1) (.loadModule path) machine fuel'
        (.loadModule (Modules.join path entry.2)) begun →
      begun.resolve (Modules.join path entry.2) = place ++ [entry.2])
    (loaded : loadModule (fuel + 1) path machine = .ok module final) :
    ∃ modules, Bindings.Parallel
        (fun _ file module => final.modules.lookup (place ++ [file]) = some module)
        (Modules.members machine.world.disk place) modules ∧
      final.heap.get? machine.heap.size =
        some (.module (Modules.moduleName path) (Bindings.putAll modules [])) := by
  obtain ⟨found, isNew⟩ := Machine.unloaded?_eq_some.mp unloaded
  rw [loadModule_new fuel found isNew] at loaded
  obtain ⟨_, _, isFilled, isModule⟩ := exists_of_bind_eq_ok loaded
  cases isModule
  have begins : Begins fuel (.loadModule path) machine
      (.loadMembers (.object machine.heap.size) path (Modules.members machine.world.disk place))
      (machine.remembering place path) :=
    .directory found isNew
  exact get?_of_loadMembers (begins.wellScoped wellScoped) (get?_remembering machine place)
    (fun fuel' entry begun member reaches =>
      places fuel' entry begun member (.inside begins reaches)) isFilled

end Loaded

/-! ### Names of a file without its name -/

def Member.unfiled : Member → Member
  | .function defined => .function defined.unfiled
  | .struct defined => .struct defined.unfiled
  | .global type => .global type

theorem Stmt.member?_unfiled (stmt : Stmt) :
    stmt.unfiled.member? = stmt.member?.map fun entry => (entry.1, entry.2.unfiled) := by
  cases stmt <;> rfl

theorem Program.filterMap_member?_unfiled (program : Program) :
    (Stmt.listUnfiled program).filterMap Stmt.member? =
      Bindings.mapValues Member.unfiled (program.filterMap Stmt.member?) := by
  induction program with
  | nil => rfl
  | cons stmt _ ih =>
    rw [Stmt.listUnfiled, Stmt.listMoved, List.filterMap_cons, Stmt.member?_unfiled,
      List.filterMap_cons, ih]
    cases stmt.member? <;> rfl

theorem Program.namesApart_unfiled :
    (NamesApart (Stmt.listUnfiled program)) ↔ program.NamesApart := by
  rw [NamesApart, filterMap_member?_unfiled, Bindings.mapValues, List.map_map]
  rfl

/-! ### What a machine holds after a run -/

/-- No name is given twice in a file or directory below a place. -/
structure Disk.NamesApart (disk : Disk) (place : Path) : Prop where
  files : ∀ rest content source program, disk.node? (place ++ rest) = some (.file content) →
    Modules.sourceText disk content = .ok source → Program.parse source = .ok program →
    program.NamesApart
  directories : ∀ rest, disk.node? (place ++ rest) = some .directory →
    ((Modules.members disk (place ++ rest)).map Prod.fst).Nodup

namespace Disk

def fileHasNamesApart (disk : Disk) (content : Nat) : Bool :=
  ((Modules.sourceText disk content).toOption.bind fun source =>
    (Program.parse source).toOption).all fun program => decide program.NamesApart

def hasNamesApart (disk : Disk) : Bool :=
  disk.nodes.all fun entry =>
    decide (((Modules.members disk entry.1.dropLast).map Prod.fst).Nodup) &&
      match entry.2 with
      | .directory => true
      | .file content => disk.fileHasNamesApart content

theorem namesApart_of_hasNamesApart {disk : Disk} (isSo : disk.hasNamesApart = true)
    (place : Path) :
    disk.NamesApart place where
  files rest content source program isFile isSource parsed := by
    unfold node? at isFile
    split at isFile
    · cases isFile
    · have member : (place ++ rest, Node.file content) ∈ disk.nodes := Bindings.mem_of_lookup isFile
      have inFile := (Bool.and_eq_true_iff.mp (List.all_eq_true.mp isSo _ member)).2
      simp only [fileHasNamesApart, isSource, parsed, Except.toOption, Option.bind_some,
        Option.all_some, decide_eq_true_eq] at inFile
      exact inFile
  directories rest _ := by
    cases children : disk.children (place ++ rest) with
    | nil =>
      rw [Modules.members, children]
      exact List.nodup_nil
    | cons name others =>
      have isChild : name ∈ disk.children (place ++ rest) := by
        rw [children]
        exact List.mem_cons_self
      obtain ⟨entry, member, isName⟩ := List.mem_filterMap.mp isChild
      have inDirectory := (Bool.and_eq_true_iff.mp (List.all_eq_true.mp isSo entry member)).1
      dsimp only at isName
      split at isName
      · rename_i isThere
        rw [isThere] at inDirectory
        exact of_decide_eq_true inDirectory
      · cases isName

end Disk

/-- A module has the members that its node gives it. -/
def Machine.Holds (machine : Machine) (disk : Disk) (place : Path)
    (members : List (String × Value)) : Node → Prop
  | .file content => ∃ source file program, Modules.sourceText disk content = .ok source ∧
      Program.parse source file = .ok program ∧ program.Makes members
  | .directory => ∀ name, Option.Rel
      (fun file module => machine.modules.lookup (place ++ [file]) = some module)
      (Bindings.get? name (Modules.members disk place)) (Bindings.get? name members)

def Machine.Reflects (machine : Machine) (disk : Disk) (place : Path) : Prop :=
  ∀ rest module, machine.modules.lookup (place ++ rest) = some module →
    ∃ address title members node, module = .object address ∧
      machine.heap.get? address = some (.module title members) ∧
      disk.node? (place ++ rest) = some node ∧
      machine.Holds disk (place ++ rest) members node

theorem Machine.resolve_eq_normalize (machine : Machine) (path : String) :
    machine.resolve path = Disk.normalize machine.world.workingDirectory path := by
  unfold Machine.resolve
  split
  · rename_i found
    exact (Disk.find_place found).1
  · rfl

theorem Activity.reflects_final (wellScoped : machine.WellScoped)
    (grounded : activity.Grounded machine) (fresh : machine.modules = [])
    (wellNamed : machine.world.disk.WellNamed) (apart : machine.world.disk.NamesApart place)
    (sameFiles : ∀ fuel' path begun,
      Reaches fuel activity machine fuel' (.loadModule path) begun →
      begun.world.disk = machine.world.disk ∧
        begun.world.workingDirectory = machine.world.workingDirectory)
    (noneFails : ∀ fuel' path begun rest node,
      Reaches fuel activity machine fuel' (.loadModule path) begun →
      begun.unloaded? path = some (place ++ rest, node) →
      ∃ module final, Noxy.loadModule fuel' path begun = .ok module final) :
    (activity.final fuel machine).Reflects machine.world.disk place := by
  intro rest module known
  rcases activity.loaded_of_mem_modules wellScoped (Bindings.mem_of_lookup known)
    with before | isLoaded
  · rw [fresh] at before
    cases before
  obtain ⟨fuel', path, begun, node, reaches, unloaded, isModule⟩ := isLoaded
  obtain ⟨_, final, loaded⟩ := noneFails fuel' path begun rest node reaches unloaded
  obtain ⟨sameDisk, sameDirectory⟩ := sameFiles fuel' path begun reaches
  obtain ⟨inner, later⟩ := reaches.modules wellScoped
  obtain ⟨found, _⟩ := Machine.unloaded?_eq_some.mp unloaded
  obtain ⟨isPlace, isNode, notEmpty⟩ := Disk.find_place found
  rw [sameDisk] at isNode
  have isFinal : (Activity.loadModule path).final fuel' begun = final :=
    (final_of_discard rfl begun).trans (final_of_ok loaded)
  rw [isFinal] at later
  have stays {title : String} {members : List (String × Value)}
      (atEnd : final.heap.get? begun.heap.size = some (.module title members)) :
      (activity.final fuel machine).heap.get? begun.heap.size = some (.module title members) :=
    reaches.keeps_new wellScoped grounded (Nat.le_refl _) (isFinal ▸ atEnd)
  cases fuel' with
  | zero => cases loaded
  | succ fuel' =>
    cases node with
    | file content =>
      obtain ⟨source, program, _, isSource, parsed, names, atEnd⟩ :=
        get?_of_loadFile inner unloaded loaded
      rw [sameDisk] at isSource
      have isApart : program.NamesApart := Program.namesApart_unfiled.mp
        (apart.files rest content source _ isNode isSource (Program.parse_unfiled parsed))
      exact ⟨_, _, _, _, isModule, stays atEnd, isNode, source, path, program, isSource, parsed,
        Program.makes_of_parts isApart names⟩
    | directory =>
      have places (fuel'' : Nat) (entry : String × String) (moment : Machine)
          (member : entry ∈ Modules.members begun.world.disk (place ++ rest))
          (within : Reaches (fuel' + 1) (.loadModule path) begun fuel''
            (.loadModule (Modules.join path entry.2)) moment) :
          moment.resolve (Modules.join path entry.2) = place ++ rest ++ [entry.2] := by
        rw [sameDisk] at member
        rw [Machine.resolve_eq_normalize, (sameFiles _ _ _ (reaches.trans within)).2,
          Disk.normalize_member wellNamed member notEmpty, ← sameDirectory, ← isPlace]
      obtain ⟨_, parallel, atEnd⟩ :=
        get?_of_loadDirectory inner unloaded places loaded
      rw [sameDisk] at parallel
      have isApart := apart.directories rest isNode
      refine ⟨_, _, _, _, isModule, stays atEnd, isNode, fun name => ?_⟩
      rw [Bindings.get?_putAll_nil (parallel.names ▸ isApart)]
      exact (parallel.imp fun _ _ _ => lookup_of_extended later).get? name

end Noxy
