import Noxy.Proofs.Origin

/-!
# The record of modules

The machine remembers the modules that were loaded, each by its path, in the order in which loading
them began.
-/

namespace Noxy

variable {machine : Machine} {fuel : Nat} {activity part : Activity}

/-! ### Scopes of the machines that are reached -/

theorem Machine.WellScoped.root_lt (wellScoped : machine.WellScoped) :
    0 < machine.scopes.scopes.size :=
  Nat.lt_of_le_of_lt (Nat.zero_le _) wellScoped.current

variable {α : Type} {final : Machine}

theorem Exec.Local.wellScoped_of_ok (isLocal : Local extent step) (wellScoped : machine.WellScoped)
    (ended : step machine = .ok value final) : final.WellScoped :=
  (isLocal.kept_of_ok wellScoped ended).wellScoped wellScoped

theorem Exec.Plain.final_scopes (isPlain : Plain step) (machine : Machine) :
    (step.final machine).scopes = machine.scopes ∧
      (step.final machine).current = machine.current := by
  have keeps := isPlain.keeps_scopes machine
  unfold Ends at keeps
  unfold Exec.final
  cases ended : step machine with
  | ok => rwa [ended] at keeps
  | error => rwa [ended] at keeps

theorem Exec.Plain.wellScoped_of_ok (isPlain : Plain step) (wellScoped : machine.WellScoped)
    (ended : step machine = .ok value final) : final.WellScoped :=
  (isPlain.isLocal : Local .expression step).wellScoped_of_ok wellScoped ended

theorem Machine.WellScoped.modify (wellScoped : machine.WellScoped) (number : Nat)
    (keepsOuter : ∀ scope, (change scope).outer = scope.outer) :
    { machine with scopes := machine.scopes.modify number change }.WellScoped where
  scopes := wellScoped.scopes.modify number keepsOuter
  current := by simpa only [Scopes.modify, Array.size_modify] using wellScoped.current

structure Machine.Settled (machine later : Machine) : Prop where
  current : later.current = machine.current
  wellScoped : later.WellScoped

theorem Machine.Kept.settled (kept : machine.Kept extent later) (wellScoped : machine.WellScoped) :
    machine.Settled later :=
  ⟨kept.current, kept.wellScoped wellScoped⟩

theorem Machine.Settled.bind {next : α → Exec β} (first : machine.Settled (step.final machine))
    (rest : ∀ (value : α) (final : Machine), final.WellScoped →
      final.Settled ((next value).final final)) :
    machine.Settled ((step >>= next).final machine) := by
  cases ended : step machine with
  | ok value final =>
    rw [Exec.final_bind_of_ok ended]
    rw [Exec.final_of_ok ended] at first
    have settled := rest value final first.wellScoped
    exact ⟨settled.current.trans first.current, settled.wellScoped⟩
  | error =>
    rw [Exec.final_bind_of_error ended]
    rwa [Exec.final_of_error ended] at first

theorem Machine.WellScoped.defineMembers (wellScoped : machine.WellScoped)
    (scope : Nat) (module : Option Value) (stmts : List Stmt) :
    machine.Settled ((defineMembers scope module stmts).final machine) := by
  have member (name : String) (value : Value) (machine : Machine)
      (wellScoped : machine.WellScoped) :
      machine.Settled ((module.forM fun module => setMember module name value).final machine) := by
    have isLocal : Exec.Local .expression
        (module.forM fun module => setMember module name value) := local_memberOf module name value
    exact (isLocal.kept wellScoped).settled wellScoped
  induction stmts generalizing machine with
  | nil => exact ⟨rfl, wellScoped⟩
  | cons _ _ ih =>
    unfold Noxy.defineMembers
    split
    case h_1 | h_2 =>
      refine .bind ?_ fun _ _ defined => .bind (member _ _ _ defined) fun _ _ => ih
      exact ⟨rfl, wellScoped.modify scope fun _ => rfl⟩
    · exact ih wellScoped

theorem Machine.WellScoped.settled_of_defined (wellScoped : machine.WellScoped)
    (defined : Noxy.defineMembers scope module stmts machine = .ok () final) :
    machine.Settled final :=
  Exec.final_of_ok defined ▸ wellScoped.defineMembers scope module stmts

theorem Machine.WellScoped.read (wellScoped : machine.WellScoped)
    (read : readModule path content (machine.remembering resolved path) = .ok program final) :
    (Exec.entered 0 final).WellScoped := by
  have inside := (readModule_plain _ _).wellScoped_of_ok
    (⟨wellScoped.scopes, wellScoped.current⟩ : (machine.remembering resolved path).WellScoped) read
  exact Exec.wellScoped_entered inside inside.root_lt

theorem Begins.wellScoped (begins : Begins fuel activity machine part begun)
    (wellScoped : machine.WellScoped) : begun.WellScoped := by
  have afterEval {expr : Expr} {value : Value} {machine final : Machine}
      (wellScoped : machine.WellScoped) (ended : eval fuel expr machine = .ok value final) :
      final.WellScoped :=
    (disciplined fuel (.eval expr)).wellScoped_of_ok wellScoped ended
  cases begins with
  | indexPosition ended | rightOfAnd ended | rightOfOr ended | rightOperand ended
  | restOfAll ended | entryValue ended | restOfParts ended | refObject ended
  | methodArguments ended | callMember ended | callFunctionValue ended | callStructValue ended
  | assignedTarget ended | thenBody ended | elseBody ended | loopBody ended | targetIndex ended =>
    exact afterEval wellScoped ended
  | restOfEntries keyEnded valueEnded isKey =>
    have afterValue := afterEval (afterEval wellScoped keyEnded) valueEnded
    exact (Exec.Plain.bind (checkKey_plain _) fun _ => Builtin.keyOf_plain _).wellScoped_of_ok
      afterValue isKey
  | params _ passed =>
    have called := (disciplined fuel (.evalArguments _)).wellScoped_of_ok wellScoped passed
    exact Exec.wellScoped_entered called called.root_lt
  | body _ passed bound =>
    have called := (disciplined fuel (.evalArguments _)).wellScoped_of_ok wellScoped passed
    exact (local_bindAll _).wellScoped_of_ok (Exec.wellScoped_entered called called.root_lt) bound
  | restOfArguments ended isPassed =>
    exact (passed_plain _ _).wellScoped_of_ok (afterEval wellScoped ended) isPassed
  | restOfParams bound => exact (Exec.local_defineHere _ _ _).wellScoped_of_ok wellScoped bound
  | restOfStmts ended => exact (disciplined fuel (.exec _)).wellScoped_of_ok wellScoped ended
  | block => exact Exec.wellScoped_entered wellScoped wellScoped.current
  | nextTurn ended _ bodyEnded =>
    exact (disciplined fuel (.execBlock _)).wellScoped_of_ok (afterEval wellScoped ended) bodyEnded
  | directory => exact ⟨wellScoped.scopes, wellScoped.current⟩
  | moduleImports _ _ read => exact wellScoped.read read
  | moduleDefinitions _ _ read imported =>
    exact (disciplined fuel (.useAll _)).wellScoped_of_ok (wellScoped.read read) imported
  | moduleGlobals _ _ read imported defined =>
    have afterImports :=
      (disciplined fuel (.useAll _)).wellScoped_of_ok (wellScoped.read read) imported
    exact (afterImports.settled_of_defined defined).wellScoped
  | restOfMembers loaded isSet =>
    exact (local_setMember _ _ _ : Exec.Local .expression _).wellScoped_of_ok
      ((disciplined fuel (.loadModule _)).wellScoped_of_ok wellScoped loaded) isSet
  | restAfterUse used =>
    exact (disciplined fuel (.execUse _ _ _ _)).wellScoped_of_ok wellScoped used
  | restOfDefinitions defined => exact (wellScoped.settled_of_defined defined).wellScoped
  | restAfterGlobal evaluated isSet =>
    exact ((Exec.local_defineHere _ _ _).bind fun _ => local_setMember _ _ _).wellScoped_of_ok
      (afterEval wellScoped evaluated) isSet
  | _ => exact wellScoped

/-! ### What activities do to modules -/

namespace Activity

theorem settled_final (wellScoped : machine.WellScoped) (fuel : Nat)
    (activity : Activity) : machine.Settled (activity.final fuel machine) := by
  have value {α : Type} {extent : Extent} {family : Nat → Exec α}
      (runs : ∀ fuel, activity.run fuel = discard (family fuel)) (calls : Calls extent family) :
      machine.Settled (activity.final fuel machine) := by
    rw [final_of_discard (runs fuel)]
    exact ((disciplined fuel calls).kept wellScoped).settled wellScoped
  have effect {extent : Extent} {family : Nat → Exec Unit}
      (runs : ∀ fuel, activity.run fuel = family fuel) (calls : Calls extent family) :
      machine.Settled (activity.final fuel machine) := by
    rw [final_of_run (runs fuel)]
    exact ((disciplined fuel calls).kept wellScoped).settled wellScoped
  cases activity with
  | bindAll =>
    rw [final_of_run rfl]
    exact ((local_bindAll _).kept wellScoped).settled wellScoped
  | defineMembers scope module stmts =>
    rw [final_of_run rfl]
    exact wellScoped.defineMembers scope module stmts
  | exec | execAll | execBlock | execLoop | assignTarget | execUse | loadMembers | useAll
  | evalGlobals => exact effect (fun _ => rfl) (by constructor)
  | _ => exact value (fun _ => rfl) (by constructor)

theorem wellScoped_final (wellScoped : machine.WellScoped) (fuel : Nat)
    (activity : Activity) : (activity.final fuel machine).WellScoped :=
  (settled_final wellScoped fuel activity).wellScoped

theorem Own.still (own : activity.Own start machine later) :
    machine.Still activity.IsOpen later := by
  cases own with
  | plain isPlain => exact isPlain.still machine
  | allocate extended => exact ⟨rfl, .of_extends extended⟩
  | assign assigns => exact .apply assigns.sparesModules
  | setMember isOpen =>
    exact ⟨rfl, (Heap.KeepsModules.apply_members _ _).mono fun _ _ same => same ▸ isOpen⟩
  | bind | enter | leave => exact .of_eq rfl rfl

theorem Own.changes_root (own : activity.Own start machine later)
    (found : machine.scopes.scopes[0]? = some root) : ∃ root',
      later.scopes.scopes[0]? = some root' ∧ root.Changed (activity.Writes start 0) root' := by
  have same (isSame : later.scopes.scopes[0]? = machine.scopes.scopes[0]?) : ∃ root',
      later.scopes.scopes[0]? = some root' ∧ root.Changed (activity.Writes start 0) root' :=
    ⟨root, isSame.trans found, rfl, fun bound _ => .refl root bound, fun _ isBound => isBound⟩
  cases own with
  | plain isPlain => exact same (by rw [(isPlain.final_scopes machine).1])
  | allocate | assign | setMember => exact same rfl
  | bind number change binds =>
    by_cases isRoot : number = 0
    · subst isRoot
      exact ⟨change root, by simp [Scopes.getElem?_modify, found], binds root⟩
    · exact same (Scopes.getElem?_modify_of_ne isRoot _ _)
  | enter => exact same (Exec.getElem?_entered (Scopes.lt_size_of_found found))
  | leave before => exact same (by rw [Exec.left, Scopes.getElem?_shrink, if_pos before.root_lt])

section

variable (related : Machine → Machine → Prop) (refl : ∀ machine, related machine machine)
  (trans : ∀ {first second third}, related first second → related second third →
    related first third)
include refl trans

theorem Linked.relates {parts : List Part}
    (step : ∀ {machine later}, activity.Own start machine later → related machine later)
    (part : ∀ part begun, (part, begun) ∈ parts → related begun (part.final fuel begun))
    (linked : Linked fuel activity start machine parts final) :
    related machine final ∧ ∀ part begun, (part, begun) ∈ parts →
      related machine begun ∧ related (part.final fuel begun) final := by
  have steps {machine later : Machine} (owns : activity.Owns start machine later) :
      related machine later := by
    induction owns with
    | refl => exact refl _
    | tail _ own ih => exact trans ih (step own)
  induction parts generalizing machine with
  | nil => exact ⟨steps linked, fun _ _ member => absurd member List.not_mem_nil⟩
  | cons first _ ih =>
    obtain ⟨first, begun⟩ := first
    obtain ⟨atEnd, inRest⟩ :=
      ih (fun part' begun member => part part' begun (List.mem_cons_of_mem _ member)) linked.2
    have toEnd := trans (steps linked.1) (part first begun List.mem_cons_self)
    refine ⟨trans toEnd atEnd, fun other moment member => ?_⟩
    rcases List.mem_cons.mp member with same | member
    · cases same
      exact ⟨steps linked.1, atEnd⟩
    · exact ⟨trans toEnd (inRest other moment member).1, (inRest other moment member).2⟩

/-- What holds of the steps of an activity and of its parts holds from its beginning to its end. -/
theorem relates_along (wellScoped : machine.WellScoped)
    (step : ∀ {before later}, activity.Own machine before later → related before later)
    (parts : ∀ part begun, Begins fuel activity machine part begun → begun.WellScoped →
      related begun (part.final fuel begun)) :
    related (activity.opened machine) (activity.final (fuel + 1) machine) ∧
      ∀ part begun, Begins fuel activity machine part begun →
        related (activity.opened machine) begun ∧
          related (part.final fuel begun) (activity.final (fuel + 1) machine) := by
  have chain : Linked fuel activity machine _ _ _ := linked wellScoped activity
  obtain ⟨toEnd, between⟩ := chain.relates related refl trans step fun part begun member =>
    have begins := begins_of_mem_parts member
    parts part begun begins (begins.wellScoped wellScoped)
  exact ⟨toEnd, fun part begun begins => between part begun (mem_parts_of_begins begins)⟩

def IsDirect : Activity → Prop
  | bindAll _ | defineMembers _ _ _ => True
  | _ => False

theorem relates_final_zero (allowed : Activity → Machine → Prop)
    (step : ∀ {activity start machine later}, allowed activity start → IsDirect activity →
      activity.Own start machine later → related machine later)
    (part : ∀ {activity part machine begun}, allowed activity machine → IsDirect activity →
      Begins 0 activity machine part begun → allowed part begun) (wellScoped : machine.WellScoped)
    (isAllowed : allowed activity machine) : related machine (activity.final 0 machine) := by
  cases activity with
  | bindAll params =>
    induction params generalizing machine with
    | nil => exact refl _
    | cons _ _ ih =>
      refine (relates_along related refl trans wellScoped (step isAllowed trivial)
        fun _ _ (begins : Begins 0 _ _ _ _) isScoped => ?_).1
      have partAllowed := part isAllowed trivial begins
      cases begins
      exact ih isScoped partAllowed
  | defineMembers _ _ stmts =>
    induction stmts generalizing machine with
    | nil => exact refl _
    | cons _ _ ih =>
      refine (relates_along related refl trans wellScoped (step isAllowed trivial)
        fun _ _ (begins : Begins 0 _ _ _ _) isScoped => ?_).1
      have partAllowed := part isAllowed trivial begins
      cases begins
      exact ih isScoped partAllowed
  | _ => exact refl _

end

end Activity

structure Machine.Recalls (isOpen : Address → Prop) (machine later : Machine) : Prop where
  modules : machine.modules <+: later.modules
  heap : machine.heap.KeepsModules isOpen later.heap

namespace Machine.Recalls

variable {isOpen isOpen' : Address → Prop}

theorem of_still (still : machine.Still isOpen later) : machine.Recalls isOpen later :=
  ⟨still.modules ▸ List.prefix_refl _, still.heap⟩

theorem refl (isOpen : Address → Prop) (machine : Machine) : machine.Recalls isOpen machine :=
  .of_still (.refl _ _)

theorem trans (first : machine.Recalls isOpen later) (second : later.Recalls isOpen last) :
    machine.Recalls isOpen last :=
  ⟨first.modules.trans second.modules, first.heap.trans second.heap⟩

theorem mono (recalls : machine.Recalls isOpen later)
    (covered : ∀ address, address < machine.heap.size → isOpen address → isOpen' address) :
    machine.Recalls isOpen' later :=
  ⟨recalls.modules, recalls.heap.mono covered⟩

theorem remembering (machine : Machine) (resolved : Path) (path : String) :
    machine.Recalls isOpen (machine.remembering resolved path) :=
  ⟨List.prefix_append _ _, .of_extends (.alloc _ _)⟩

theorem opened (activity : Activity) (machine : Machine) :
    machine.Recalls isOpen (activity.opened machine) :=
  activity.related_opened (refl _ _) (remembering machine)

end Machine.Recalls

namespace Activity

def MayFill (activity : Activity) (machine : Machine) (address : Address) : Prop :=
  activity.IsOpen address ∨ address = machine.heap.size ∧ ∃ path, activity = .loadModule path

theorem isOpen_of_begins (begins : Begins fuel activity machine part begun)
    (isOpen : part.IsOpen address) : activity.MayFill machine address := by
  cases begins
  case directory | moduleDefinitions | moduleGlobals =>
    cases isOpen
    exact .inr ⟨rfl, _, rfl⟩
  case restOfMembers | restOfDefinitions | restAfterGlobal | restOfGlobals => exact .inl isOpen
  all_goals cases isOpen

theorem still_final_zero (wellScoped : machine.WellScoped) (activity : Activity) :
    machine.Still activity.IsOpen (activity.final 0 machine) := by
  refine relates_final_zero _ (.refl _) .trans (fun other _ => other.IsOpen = activity.IsOpen)
    (fun same _ own => same ▸ own.still) (fun {whole _ _ _} same direct begins => ?_) wellScoped rfl
  cases whole with
  | bindAll | defineMembers =>
    cases begins
    exact same
  | _ => cases direct

theorem recalls_of_mayFill (recalls : machine.Recalls (activity.MayFill machine) later) :
    machine.Recalls activity.IsOpen later :=
  recalls.mono fun _ isOld mayFill => mayFill.resolve_right fun isNew => Nat.ne_of_lt isOld isNew.1

theorem recalls_along (wellScoped : machine.WellScoped)
    (parts : ∀ part begun, Begins fuel activity machine part begun →
      begun.Recalls part.IsOpen (part.final fuel begun)) :
    (activity.opened machine).Recalls (activity.MayFill machine)
        (activity.final (fuel + 1) machine) ∧
      ∀ part begun, Begins fuel activity machine part begun →
        (activity.opened machine).Recalls (activity.MayFill machine) begun ∧
          (part.final fuel begun).Recalls (activity.MayFill machine)
            (activity.final (fuel + 1) machine) := by
  refine relates_along (Machine.Recalls _) (.refl _) .trans wellScoped
    (fun own => .mono (.of_still own.still) fun _ _ => .inl) fun part begun begins _ => ?_
  exact (parts part begun begins).mono fun _ _ => isOpen_of_begins begins

theorem recalls_final (wellScoped : machine.WellScoped) (fuel : Nat)
    (activity : Activity) : machine.Recalls activity.IsOpen (activity.final fuel machine) := by
  induction fuel generalizing activity machine with
  | zero => exact .of_still (still_final_zero wellScoped activity)
  | succ fuel ih =>
    refine recalls_of_mayFill ((Machine.Recalls.opened activity machine).trans
      (recalls_along wellScoped fun part begun begins => ?_).1)
    exact ih (begins.wellScoped wellScoped) part

theorem recalls_begun (wellScoped : machine.WellScoped)
    (begins : Begins fuel activity machine part begun) :
    machine.Recalls activity.IsOpen begun ∧
      (part.final fuel begun).Recalls (activity.MayFill machine)
        (activity.final (fuel + 1) machine) := by
  obtain ⟨before, after⟩ := (recalls_along wellScoped fun part begun begins =>
    recalls_final (begins.wellScoped wellScoped) fuel part).2 part begun begins
  exact ⟨recalls_of_mayFill ((Machine.Recalls.opened activity machine).trans before), after⟩

/-! ### What a load leaves is kept -/

def Grounded (activity : Activity) (machine : Machine) : Prop :=
  ∀ address, activity.IsOpen address → address < machine.heap.size

theorem lt_size_of_begins (wellScoped : machine.WellScoped)
    (begins : Begins fuel (.loadModule path) machine part begun) :
    machine.heap.size < begun.heap.size := by
  have isNew : ∃ resolved node, machine.unloaded? path = some (resolved, node) := by
    cases begins with
    | directory found isNew | moduleImports found isNew | moduleDefinitions found isNew
    | moduleGlobals found isNew => exact ⟨_, _, Machine.unloaded?_eq_some.mpr ⟨found, isNew⟩⟩
  obtain ⟨_, _, unloaded⟩ := isNew
  have grown := ((recalls_along wellScoped fun part begun begins =>
    recalls_final (begins.wellScoped wellScoped) fuel part).2 part begun begins).1.heap.grown
  simp only [opened, unloaded] at grown
  exact Nat.lt_of_lt_of_le (Heap.size_alloc _ _ ▸ Nat.lt_succ_self _) grown

theorem MayFill.lt_size (mayFill : activity.MayFill machine address)
    (grounded : activity.Grounded machine) (wellScoped : machine.WellScoped)
    (begins : Begins fuel activity machine part begun) : address < begun.heap.size := by
  rcases mayFill with isOpen | ⟨rfl, _, rfl⟩
  · exact Nat.lt_of_lt_of_le (grounded address isOpen)
      (recalls_begun wellScoped begins).1.heap.grown
  · exact lt_size_of_begins wellScoped begins

end Activity

theorem Reaches.heap_grown (reaches : Reaches fuel activity machine fuel' part begun)
    (wellScoped : machine.WellScoped) : machine.heap.size ≤ begun.heap.size := by
  induction reaches with
  | here => exact Nat.le_refl _
  | inside begins _ ih =>
    exact Nat.le_trans (Activity.recalls_begun wellScoped begins).1.heap.grown
      (ih (begins.wellScoped wellScoped))

theorem Reaches.keeps_new (reaches : Reaches fuel activity machine fuel' part begun)
    (wellScoped : machine.WellScoped) (grounded : activity.Grounded machine)
    (isNew : begun.heap.size ≤ address)
    (found : (part.final fuel' begun).heap.get? address = some (.module name members)) :
    (activity.final fuel machine).heap.get? address = some (.module name members) := by
  induction reaches with
  | here => exact found
  | inside begins reaches ih =>
    have inner := begins.wellScoped wellScoped
    have groundedPart : Activity.Grounded _ _ := fun _ isOpen =>
      (Activity.isOpen_of_begins begins isOpen).lt_size grounded wellScoped begins
    refine (Activity.recalls_begun wellScoped begins).2.heap.get?
      (ih inner groundedPart isNew found) fun mayFill => ?_
    exact Nat.not_lt_of_le ((reaches.heap_grown inner).trans isNew)
      (mayFill.lt_size grounded wellScoped begins)

namespace Activity

/-! ### Loads -/

theorem Owns.modules (owns : activity.Owns start machine later) :
    later.modules = machine.modules := by
  induction owns with
  | refl => rfl
  | tail _ own ih => exact own.still.modules.trans ih

def loaded? (activity : Activity) (machine : Machine) : Option Path :=
  match activity with
  | loadModule path => (machine.unloaded? path).map Prod.fst
  | _ => none

/-- The places of the modules whose contents are looked at in the course of an activity, in the
order in which that begins.  A place is listed as often as it happens. -/
def loads : Nat → Activity → Machine → List Path
  | 0, _, _ => []
  | fuel + 1, activity, machine =>
    (activity.loaded? machine).toList ++
      (activity.parts fuel machine).flatMap fun part => part.1.loads fuel part.2

theorem Linked.modules {parts : List Part} (linked : Linked fuel activity start machine parts final)
    (each : ∀ part begun, (part, begun) ∈ parts → (part.final fuel begun).modules.map Prod.fst =
      begun.modules.map Prod.fst ++ part.loads fuel begun) :
    final.modules.map Prod.fst = machine.modules.map Prod.fst ++
      parts.flatMap fun part => part.1.loads fuel part.2 := by
  induction parts generalizing machine with
  | nil =>
    rw [Owns.modules linked]
    exact (List.append_nil _).symm
  | cons first _ ih =>
    obtain ⟨first, begun⟩ := first
    rw [ih linked.2 fun part begun member => each part begun (List.mem_cons_of_mem _ member),
      each first begun List.mem_cons_self, linked.1.modules, List.flatMap_cons, List.append_assoc]

theorem recalls_opened (wellScoped : machine.WellScoped) (fuel : Nat) (activity : Activity) :
    (activity.opened machine).Recalls (activity.MayFill machine)
      (activity.final (fuel + 1) machine) :=
  (recalls_along wellScoped fun part _ begins =>
    recalls_final (begins.wellScoped wellScoped) fuel part).1

end Activity

theorem lookup_of_extended (extended : modules <+: later) {resolved : Path}
    (known : modules.lookup resolved = some module) : later.lookup resolved = some module := by
  obtain ⟨_, rfl⟩ := extended
  rw [List.lookup_append, known]
  rfl

theorem Machine.Recalls.lookup (recalls : machine.Recalls isOpen later)
    (known : machine.modules.lookup resolved = some module) :
    later.modules.lookup resolved = some module :=
  lookup_of_extended recalls.modules known

def Machine.resolve (machine : Machine) (path : String) : Path :=
  match machine.world.disk.find machine.world.workingDirectory path with
  | .ok (resolved, _) => resolved
  | .error _ => Disk.normalize machine.world.workingDirectory path

theorem loadModule_remembered
    (known : machine.modules.lookup (machine.resolve path) = some module) :
    loadModule (fuel + 1) path machine = .ok module machine := by
  unfold Machine.resolve at known
  cases found : machine.world.disk.find machine.world.workingDirectory path with
  | error =>
    rw [found] at known
    rw [loadModule_absent fuel found, known]
  | ok =>
    rw [found] at known
    exact loadModule_known fuel found known

theorem Machine.lookup_remembering (path : String)
    (isNew : machine.modules.lookup resolved = none) :
    (machine.remembering resolved path).modules.lookup resolved =
      some (.object machine.heap.objects.size) := by
  rw [Machine.remembering, List.lookup_append, isNew]
  simp

theorem lookup_of_loadModule (wellScoped : machine.WellScoped)
    (loaded : loadModule fuel path machine = .ok module final) :
    final.modules.lookup (machine.resolve path) = some module := by
  cases fuel with
  | zero => cases loaded
  | succ fuel =>
    cases known : machine.modules.lookup (machine.resolve path) with
    | some =>
      cases (loadModule_remembered known).symm.trans loaded
      exact known
    | none =>
      rw [Machine.resolve] at known ⊢
      cases found : machine.world.disk.find machine.world.workingDirectory path with
      | error =>
        rw [found] at known
        rw [loadModule_absent fuel found, known] at loaded
        cases loaded
      | ok =>
        rw [found] at known
        have unloaded := Machine.unloaded?_eq_some.mpr ⟨found, known⟩
        have recalls := Activity.recalls_opened wellScoped fuel (.loadModule path)
        rw [Activity.final_of_discard rfl, Exec.final_of_ok loaded] at recalls
        simp only [Activity.opened, unloaded] at recalls
        rw [loadModule_new fuel found known] at loaded
        obtain ⟨_, _, _, isModule⟩ := Exec.exists_of_bind_eq_ok loaded
        cases isModule
        exact recalls.lookup (machine.lookup_remembering path known)

end Noxy
