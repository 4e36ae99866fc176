import Noxy.Proofs.ModuleContents

/-!
# Interfaces agree with loaded modules

The checker reads the interface of a module off its files; the machine loads the module by executing
them.
-/

namespace Noxy

open Exec

/-! ### Types that can be written -/

def Member.inner? : Member → Option Nat
  | .global (.imported _ number) => some number
  | _ => none

theorem Program.inner?_of_parse (parsed : Program.parse source file = .ok program)
    (member : entry ∈ program.filterMap Stmt.member?) : entry.2.inner? = none := by
  obtain ⟨stmt, inProgram, isEntry⟩ := List.mem_filterMap.mp member
  have isWritable := isWritable_of_parse parsed inProgram
  cases stmt with
  | globalVar _ type =>
    cases isEntry
    cases type <;> first | rfl | cases isWritable
  | function | struct =>
    cases isEntry
    rfl
  | _ => cases isEntry

/-! ### Agreement -/

def Interface.member? (known : Array Interface) (number : Nat) (name : String) : Option Member :=
  known[number]?.bind fun interface => Bindings.get? name interface.members

def Heap.member? (heap : Heap) (module : Value) (name : String) : Option Value :=
  match module with
  | .object address =>
    match heap.get? address with
    | some (.module _ members) => Bindings.get? name members
    | _ => none
  | _ => none

theorem Heap.member?_of_get? {heap : Heap}
    (found : heap.get? address = some (.module title members)) (name : String) :
    heap.member? (.object address) name = Bindings.get? name members := by
  simp only [Heap.member?, found]

/--
An interface agrees with a module if both have members of the same names, those of the module are of
the kinds that the interface says, and the modules among them agree with their interfaces in turn.
-/
inductive Interface.Agrees (known : Array Interface) (heap : Heap) : Nat → Value → Prop where
  | intro {number : Nat} {module : Value} (isKnown : number < known.size)
      (isModule : ∃ address title members,
        module = .object address ∧ heap.get? address = some (.module title members))
      (alike : ∀ name, Option.Rel Member.Describes
        (Interface.member? known number name) (heap.member? module name))
      (within : ∀ name member inner part, Interface.member? known number name = some member →
        member.inner? = some inner → heap.member? module name = some part →
        Interface.Agrees known heap inner part) :
      Interface.Agrees known heap number module

namespace Interface

def Extends (known later : Array Interface) : Prop :=
  known.toList <+: later.toList

theorem Extends.push (known : Array Interface) (interface : Interface) :
    Extends known (known.push interface) := by
  rw [Extends, Array.toList_push]
  exact List.prefix_append _ _

theorem Extends.member? (extended : Extends known later) {number : Nat}
    (isKnown : number < known.size) (name : String) :
    Interface.member? later number name = Interface.member? known number name := by
  obtain ⟨_, same⟩ := extended
  have unchanged : later[number]? = known[number]? := by
    rw [← Array.getElem?_toList, ← Array.getElem?_toList, ← same, List.getElem?_append_left]
    exact isKnown
  rw [Interface.member?, Interface.member?, unchanged]

theorem Agrees.extend {number : Nat} (extended : Extends known later)
    (agrees : Agrees known heap number module) : Agrees later heap number module := by
  induction agrees with
  | intro isKnown isModule alike _ ih =>
    refine .intro (Nat.lt_of_lt_of_le isKnown extended.length_le) isModule (fun name => ?_) ?_
    · rw [extended.member? isKnown]
      exact alike name
    · intro name member inner part isMember
      rw [extended.member? isKnown] at isMember
      exact ih name member inner part isMember

theorem member?_push (known : Array Interface) (offered : List (String × Member)) (name : String) :
    member? (known.push ⟨title, offered⟩) known.size name = Bindings.get? name offered := by
  rw [member?, Array.getElem?_push_size]
  rfl

end Interface

/-! ### Definitions in a file -/

theorem Bindings.mapValues_putAll (change : α → β) (entries bindings : List (String × α)) :
    mapValues change (putAll entries bindings) =
      putAll (mapValues change entries) (mapValues change bindings) := by
  induction entries generalizing bindings with
  | nil => rfl
  | cons entry _ ih =>
    have step := ih (put entry.1 entry.2 bindings)
    rw [mapValues_put] at step
    exact step

theorem Interface.membersOf_unfiled (program : Program) :
    membersOf (Stmt.listUnfiled program) =
      Bindings.mapValues Member.unfiled (membersOf program) := by
  have asPuts (program : Program) :
      membersOf program = Bindings.putAll (program.filterMap Stmt.member?) [] := rfl
  rw [asPuts, asPuts, Program.filterMap_member?_unfiled, Bindings.mapValues_putAll]
  rfl

theorem Member.Describes.congr {member other : Member} (same : member.unfiled = other.unfiled)
    (describes : member.Describes value) : other.Describes value := by
  cases member with
  | function =>
    cases other with
    | function =>
      obtain ⟨found, rfl, isSame⟩ := describes
      exact ⟨found, rfl, isSame.trans (Member.function.inj same)⟩
    | _ => cases same
  | struct =>
    cases other with
    | struct =>
      obtain ⟨found, rfl, isSame⟩ := describes
      exact ⟨found, rfl, isSame.trans (Member.struct.inj same)⟩
    | _ => cases same
  | global =>
    cases other with
    | global => trivial
    | _ => cases same

theorem Program.Makes.congr {program other : Program}
    (same : Stmt.listUnfiled program = Stmt.listUnfiled other) (makes : program.Makes members) :
    other.Makes members := by
  intro name
  have sameMember : (Bindings.get? name (Interface.membersOf program)).map Member.unfiled =
      (Bindings.get? name (Interface.membersOf other)).map Member.unfiled := by
    rw [← Bindings.get?_mapValues, ← Bindings.get?_mapValues, ← Interface.membersOf_unfiled,
      ← Interface.membersOf_unfiled, same]
  have made := makes name
  generalize Bindings.get? name (Interface.membersOf program) = member at made sameMember
  generalize Bindings.get? name members = value at made ⊢
  cases made with
  | none =>
    rw [Option.map_eq_none_iff.mp sameMember.symm]
    exact .none
  | some describes =>
    obtain ⟨_, found, isSame⟩ := Option.map_eq_some_iff.mp sameMember.symm
    rw [found]
    exact .some (describes.congr isSame.symm)

namespace Interface

theorem program_eq_ok (read : program disk path content = .ok statements) :
    ∃ source, Modules.sourceText disk content = .ok source ∧
      Program.parse source path = .ok statements := by
  unfold program at read
  split at read
  · cases read
  · rename_i source isSource
    exact ⟨source, isSource, read⟩

theorem agrees_of_file {machine : Machine} (reflects : machine.Reflects disk place)
    (isFile : disk.node? (place ++ rest) = some (.file content))
    (read : program disk path content = .ok statements)
    (known : machine.modules.lookup (place ++ rest) = some module) (others : Array Interface) :
    Agrees (others.push ⟨title, membersOf statements⟩) machine.heap others.size module := by
  obtain ⟨address, name, members, _, rfl, found, isNode, holds⟩ := reflects rest module known
  cases isFile.symm.trans isNode
  obtain ⟨_, _, program, isSource, parsed, makes⟩ := holds
  obtain ⟨_, isSource', parsed'⟩ := program_eq_ok read
  cases isSource.symm.trans isSource'
  have same : Stmt.listUnfiled program = Stmt.listUnfiled statements :=
    Except.ok.inj ((Program.parse_unfiled parsed).symm.trans (Program.parse_unfiled parsed'))
  refine .intro (by simp) ⟨address, name, members, rfl, found⟩ (fun name => ?_) ?_
  · rw [member?_push, Heap.member?_of_get? found]
    exact makes.congr same name
  · intro name member _ _ isMember isInner
    rw [member?_push] at isMember
    have isMade : (name, member) ∈ statements.filterMap Stmt.member? :=
      (Bindings.mem_putAll (Bindings.mem_of_get? isMember)).resolve_right nofun
    rw [Program.inner?_of_parse parsed' isMade] at isInner
    cases isInner

def Offers (machine : Machine) (known : Array Interface) (directory : Path) (name file : String)
    (member : Member) : Prop :=
  ∃ inner, member = .global (.imported name inner) ∧
    ∀ module, machine.modules.lookup (directory ++ [file]) = some module →
      Agrees known machine.heap inner module

theorem agrees_of_directory (reflects : machine.Reflects disk place) (apart : disk.NamesApart place)
    (isDirectory : disk.node? (place ++ rest) = some .directory)
    (parallel : Bindings.Parallel (Offers machine others (place ++ rest))
      (Modules.members disk (place ++ rest)) entries)
    (known : machine.modules.lookup (place ++ rest) = some module) :
    Agrees (others.push ⟨title, Bindings.putAll entries []⟩) machine.heap others.size module := by
  obtain ⟨address, heading, members, _, rfl, found, isNode, holds⟩ := reflects rest module known
  cases isDirectory.symm.trans isNode
  have entriesApart : (entries.map Prod.fst).Nodup :=
    parallel.names ▸ apart.directories rest isDirectory
  have offered (name : String) : member? (others.push ⟨title, Bindings.putAll entries []⟩)
      others.size name = Bindings.get? name entries := by
    rw [member?_push, Bindings.get?_putAll_nil entriesApart]
  have listed (name : String) := parallel.get? name
  refine .intro (by simp) ⟨address, heading, members, rfl, found⟩ (fun name => ?_) ?_
  · rw [offered, Heap.member?_of_get? found]
    have left := listed name
    have right := holds name
    generalize Bindings.get? name (Modules.members disk (place ++ rest)) = file at left right
    generalize Bindings.get? name entries = member at left ⊢
    generalize Bindings.get? name members = value at right ⊢
    cases left with
    | none =>
      cases right
      exact .none
    | some offers =>
      obtain ⟨_, rfl, _⟩ := offers
      cases right
      exact .some trivial
  · intro name _ _ part isMember isInner isPart
    rw [offered] at isMember
    rw [Heap.member?_of_get? found] at isPart
    have left := listed name
    have right := holds name
    rw [isMember] at left
    rw [isPart] at right
    generalize Bindings.get? name (Modules.members disk (place ++ rest)) = file at left right
    cases left with
    | some offers =>
      obtain ⟨_, rfl, agrees⟩ := offers
      cases right with
      | some remembered =>
        cases isInner
        exact (agrees part remembered).extend (.push _ _)

theorem agrees_of_load (reflects : machine.Reflects disk place) (apart : disk.NamesApart place) :
    (∀ rest path title known number later,
      load disk depth (place ++ rest) path title known = .ok (number, later) →
      Extends known later ∧ ∀ module, machine.modules.lookup (place ++ rest) = some module →
        Agrees later machine.heap number module) ∧
    ∀ rest path list members known offered later,
      loadMembers disk depth (place ++ rest) path list members known = .ok (offered, later) →
      Extends known later ∧ ∃ entries, offered = Bindings.putAll entries members ∧
        Bindings.Parallel (Offers machine later (place ++ rest)) list entries := by
  induction depth with
  | zero => exact ⟨nofun, nofun⟩
  | succ depth ih =>
    obtain ⟨ihLoad, ihMembers⟩ := ih
    constructor
    · intro rest path title known number later read
      unfold load at read
      split at read
      · rename_i content isFile
        obtain ⟨statements, isProgram, ended⟩ := ok_of_bind read
        cases ended
        exact ⟨.push _ _, fun module remembered =>
          agrees_of_file reflects isFile isProgram remembered known⟩
      · rename_i isDirectory
        obtain ⟨⟨offered, others⟩, isRead, ended⟩ := ok_of_bind read
        cases ended
        obtain ⟨extended, entries, rfl, parallel⟩ := ihMembers _ _ _ _ _ _ _ isRead
        exact ⟨extended.trans (Extends.push _ _), fun module remembered =>
          agrees_of_directory reflects apart isDirectory parallel remembered⟩
      · rename_i isNothing
        cases read
        refine ⟨.push _ _, fun module remembered => ?_⟩
        obtain ⟨_, _, _, _, _, _, isNode, _⟩ := reflects rest module remembered
        cases isNothing.symm.trans isNode
    · intro rest path list members known offered later read
      cases list with
      | nil =>
        cases read
        exact ⟨List.prefix_refl _, [], rfl, .nil⟩
      | cons entry others =>
        obtain ⟨name, file⟩ := entry
        unfold loadMembers at read
        obtain ⟨⟨number, middle⟩, isRead, more⟩ := ok_of_bind read
        rw [List.append_assoc] at isRead
        obtain ⟨extended, agrees⟩ := ihLoad _ _ _ _ _ _ isRead
        obtain ⟨extended', entries, rfl, parallel⟩ := ihMembers _ _ _ _ _ _ _ more
        refine ⟨extended.trans extended', (name, .global (.imported name number)) :: entries,
          rfl, .cons ⟨rfl, number, rfl, fun module remembered => ?_⟩ parallel⟩
        rw [List.append_assoc] at remembered
        exact (agrees module remembered).extend extended'

end Interface

/--
The checker and a fresh machine see the same modules at a path.  If the interface of what is there
can be read and the module can be loaded, no name is given twice, the files stay as they are and no
load below the path is left by a `break`, then the interface agrees with the module: they have the
same members at every depth.
-/
theorem interface_agrees_with_module {world : World} {basePath path file title : String}
    {place : Path}
    {node : Node} {fuel depth number : Nat} {known later : Array Interface} {module : Value}
    {final : Machine} (found : world.disk.find world.workingDirectory path = .ok (place, node))
    (read : Interface.load world.disk depth place file title known = .ok (number, later))
    (loaded : loadModule fuel path (.start world basePath) = .ok module final)
    (wellNamed : world.disk.WellNamed) (apart : world.disk.NamesApart place)
    (sameFiles : ∀ fuel' path' begun,
      Reaches fuel (.loadModule path) (.start world basePath) fuel' (.loadModule path') begun →
      begun.world.disk = world.disk ∧ begun.world.workingDirectory = world.workingDirectory)
    (notLeft : ∀ fuel' path' begun rest node signal last,
      Reaches fuel (.loadModule path) (.start world basePath) fuel' (.loadModule path') begun →
      begun.unloaded? path' = some (place ++ rest, node) →
      loadModule fuel' path' begun = .error signal last → signal.endsRun = true) :
    Interface.Agrees later final.heap number module := by
  have wellScoped := Machine.wellScoped_start world basePath
  have grounded : (Activity.loadModule path).Grounded (.start world basePath) := by
    intro _ isOpen
    cases isOpen
  -- A load that ends with a signal would end the outermost one too, and that gives a module.
  have noneFails (fuel' : Nat) (path' : String) (begun : Machine) (rest : Path) (node : Node)
      (reaches : Reaches fuel (.loadModule path) (.start world basePath) fuel' (.loadModule path')
        begun)
      (unloaded : begun.unloaded? path' = some (place ++ rest, node)) :
      ∃ module final, loadModule fuel' path' begun = .ok module final := by
    cases ended : loadModule fuel' path' begun with
    | ok part last => exact ⟨part, last, rfl⟩
    | error signal last =>
      have endsRun := notLeft fuel' path' begun rest node signal last reaches unloaded ended
      have signals : (loadModule fuel' path').Signals begun signal := ⟨last, ended⟩
      obtain ⟨_, failed⟩ := (reaches.signals endsRun signals.bind).of_discard
      cases loaded.symm.trans failed
  have reflects := Activity.reflects_final wellScoped grounded rfl wellNamed apart
    sameFiles noneFails
  have isFinal : (Activity.loadModule path).final fuel (.start world basePath) = final :=
    (Activity.final_of_discard rfl _).trans (final_of_ok loaded)
  rw [isFinal] at reflects
  have remembered := lookup_of_loadModule wellScoped loaded
  have isPlace : (Machine.start world basePath).resolve path = place :=
    (Machine.resolve_eq_normalize _ path).trans (Disk.find_place found).1.symm
  rw [isPlace, ← List.append_nil place] at remembered
  rw [← List.append_nil place] at read
  exact ((Interface.agrees_of_load reflects apart).1 _ _ _ _ _ _ read).2 module remembered

/-! ### A directory with a module -/

def plainText : String :=
  "func f() -> int\nreturn 1\nend\nglobal x: int = 2"

def Disk.plain : Disk :=
  ⟨[(["d"], .directory), (["d", "a.nx"], .file 0)], #[plainText.toUTF8.data.toList]⟩

namespace Machine

def besidePlain : Machine :=
  .start (.start .plain [] [] [] 0) "."

end Machine

theorem names_plain : Disk.plain.WellNamed ∧ Disk.plain.hasNamesApart = true := by
  unfold Disk.WellNamed
  decide +kernel

theorem places_plain : Disk.plain.find [] "d" = .ok (["d"], .directory) := by
  decide +kernel

deriving instance DecidableEq for Disk

/-- A load ends with a module, and it begins with the files as they are. -/
def loadsPlain : Nat × Part → Bool
  | (fuel, .loadModule path, begun) =>
    passes (loadModule fuel path) begun (fun _ _ => true) &&
      (begun.world.disk = .plain && begun.world.workingDirectory = [])
  | _ => true

theorem runs_plain :
    passes (loadModule 9 "d") .besidePlain (fun _ _ => true) = true ∧
      (Interface.load .plain 9 ["d"] "d" "d" #[]).isOk = true ∧
      ((Activity.loadModule "d").course 9 .besidePlain).all loadsPlain = true := by
  decide +kernel

theorem loadsPlain_of_reaches
    (reaches : Reaches 9 (.loadModule "d") .besidePlain fuel (.loadModule path) begun) :
    passes (loadModule fuel path) begun (fun _ _ => true) = true ∧
      begun.world.disk = .plain ∧ begun.world.workingDirectory = [] := by
  simpa [loadsPlain] using List.all_eq_true.mp runs_plain.2.2 _ reaches.mem_course

/-- The interface of the directory agrees with its module. -/
theorem interface_agrees_with_module_plain :
    ∃ number later module final,
      Interface.load .plain 9 ["d"] "d" "d" #[] = .ok (number, later) ∧
      loadModule 9 "d" .besidePlain = .ok module final ∧
      Interface.Agrees later final.heap number module := by
  obtain ⟨passes, isRead, _⟩ := runs_plain
  cases read : Interface.load .plain 9 ["d"] "d" "d" #[] with
  | error cause =>
    rw [read] at isRead
    cases isRead
  | ok result =>
    obtain ⟨module, final, loaded, _⟩ := exists_of_passes passes
    refine ⟨result.1, result.2, module, final, rfl, loaded, ?_⟩
    refine interface_agrees_with_module places_plain read loaded names_plain.1
      (Disk.namesApart_of_hasNamesApart names_plain.2 _)
      (fun _ _ _ reaches => (loadsPlain_of_reaches reaches).2) ?_
    intro fuel' path' begun rest node signal last reaches _ failed
    obtain ⟨_, _, ended, _⟩ := exists_of_passes (loadsPlain_of_reaches reaches).1
    cases ended.symm.trans failed

/-! ### A load that is left by a `break` -/

def catchingText : String :=
  "func g()\nwhile true do\nuse d.b\nend\nend\nglobal y: int = g()"

def leavingText : String :=
  "func s()\nbreak\nend\nglobal x: int = s()"

def Disk.leaving : Disk :=
  ⟨[(["d"], .directory), (["d", "a.nx"], .file 0), (["d", "b.nx"], .file 1)],
    #[catchingText.toUTF8.data.toList, leavingText.toUTF8.data.toList]⟩

def Machine.besideLeaving : Machine :=
  .start (.start .leaving [] [] [] 0) "."

theorem runs_leaving :
    Disk.leaving.hasNamesApart = true ∧
      passes (loadModule 40 "d") .besideLeaving (fun module final =>
        (final.heap.member? module "b").any fun part => (final.heap.member? part "x").isNone) =
          true ∧
      (Interface.load .leaving 9 ["d"] "d" "d" #[]).toOption.any (fun read =>
        ((Interface.member? read.2 read.1 "b").bind Member.inner?).any fun inner =>
          (Interface.member? read.2 inner "x").isSome) = true := by
  decide +kernel

theorem Interface.not_agrees {number : Nat} {name : String}
    (isThere : ((member? known number outer).bind Member.inner?).any (fun inner =>
      (member? known inner name).isSome) = true)
    (isMissing : (heap.member? module outer).any (fun part => (heap.member? part name).isNone) =
      true) : ¬ Agrees known heap number module := by
  intro agrees
  obtain ⟨inner, isInner, hasName⟩ := (Option.any_eq_true _ _).mp isThere
  obtain ⟨member, isMember, isNumber⟩ := Option.bind_eq_some_iff.mp isInner
  obtain ⟨part, isPart, lacksName⟩ := (Option.any_eq_true _ _).mp isMissing
  cases agrees with
  | intro _ _ _ within =>
    cases within outer member inner part isMember isNumber isPart with
    | intro _ _ alike =>
      have related := alike name
      obtain ⟨_, found⟩ := Option.isSome_iff_exists.mp hasName
      rw [Option.isNone_iff_eq_none.mp lacksName, found] at related
      cases related

/-- The interface of the directory does not agree with its module, though no name is given twice. -/
theorem interface_differs_from_module :
    Disk.leaving.NamesApart ["d"] ∧ ∃ number later module final,
      Interface.load .leaving 9 ["d"] "d" "d" #[] = .ok (number, later) ∧
      loadModule 40 "d" .besideLeaving = .ok module final ∧
      ¬ Interface.Agrees later final.heap number module := by
  obtain ⟨apart, passes, reads⟩ := runs_leaving
  obtain ⟨module, final, loaded, isMissing⟩ := exists_of_passes passes
  obtain ⟨result, isRead, isThere⟩ := (Option.any_eq_true _ _).mp reads
  refine ⟨Disk.namesApart_of_hasNamesApart apart _, result.1, result.2, module, final,
    ?_, loaded, Interface.not_agrees isThere isMissing⟩
  cases read : Interface.load .leaving 9 ["d"] "d" "d" #[] with
  | error cause =>
    rw [read] at isRead
    cases isRead
  | ok other =>
    rw [read] at isRead
    cases isRead
    rfl

end Noxy
