import Noxy.Proofs.Tame
import Noxy.Proofs.Scopes

/-!
# What a step leaves alone

A step may see the scopes on the chain of the current one and no others, and of those that were
there before it may change only some.
-/

namespace Noxy

variable {number : Nat}

/-! ### Exchanging the contents of scopes -/

def Scope.coveredBy : Option Scope → Scope → Scope
  | none, scope => scope
  | some other, scope => { other with outer := scope.outer }

namespace Scopes

variable {α : Type} {cover : Nat → Option Scope} {scopes : Scopes}

def covered (cover : Nat → Option Scope) (scopes : Scopes) : Scopes :=
  ⟨scopes.scopes.mapIdx fun number scope => scope.coveredBy (cover number)⟩

@[simp]
theorem size_covered (cover : Nat → Option Scope) (scopes : Scopes) :
    (scopes.covered cover).scopes.size = scopes.scopes.size := by
  simp [covered]

theorem getElem?_covered (cover : Nat → Option Scope) (scopes : Scopes) :
    (scopes.covered cover).scopes[number]? =
      (scopes.scopes[number]?).map (Scope.coveredBy (cover number)) := by
  simp [covered]

theorem getElem?_covered_of_none (visible : cover number = none) :
    (scopes.covered cover).scopes[number]? = scopes.scopes[number]? := by
  rw [getElem?_covered, visible]
  cases scopes.scopes[number]? <;> rfl

structure Shields (scopes : Scopes) (cover : Nat → Option Scope) : Prop where
  root : cover 0 = none
  outwards : ∀ number scope outer, scopes.scopes[number]? = some scope →
    cover number = none → scope.outer = some outer → cover outer = none
  fresh : ∀ number, scopes.scopes.size ≤ number → cover number = none

theorem Shields.outer_visible (shields : scopes.Shields cover) (number outer : Nat)
    (visible : cover number = none)
    (inside : scopes.scopes[number]?.bind Scope.outer = some outer) : cover outer = none := by
  obtain ⟨scope, found, isOuter⟩ := Option.bind_eq_some_iff.mp inside
  exact shields.outwards number scope outer found visible isOuter

theorem Shields.find_covered (shields : scopes.Shields cover) (find : Scope → Option α)
    (visible : cover number = none) :
    (scopes.covered cover).find find number = scopes.find find number := by
  refine find_congr ?_ fun met member => ?_
  · rw [chain, size_covered]
    exact chainFrom_congr shields.outer_visible
      (fun met shown => by rw [getElem?_covered_of_none shown]) _ visible
  · rw [getElem?_covered_of_none (shown_of_mem_chain shields.outer_visible visible member)]

theorem Shields.find_visible (shields : scopes.Shields cover) {find : Scope → Option α}
    (visible : cover number = none) (found : scopes.find find number = some (owner, value)) :
    cover owner = none := by
  rw [find_eq] at found
  obtain ⟨_, member, isFound⟩ := List.exists_of_findSome?_eq_some found
  obtain ⟨_, _, isPair⟩ := Option.map_eq_some_iff.mp isFound
  cases isPair
  exact shown_of_mem_chain shields.outer_visible visible member

theorem covered_modify (scopes : Scopes) (visible : cover number = none) (change : Scope → Scope) :
    (scopes.modify number change).covered cover = (scopes.covered cover).modify number change := by
  apply ext_getElem?
  intro other
  simp only [getElem?_covered, getElem?_modify]
  by_cases same : number = other
  · subst same
    simp only [visible, if_true]
    cases scopes.scopes[number]? <;> rfl
  · simp [same]

theorem covered_child (fresh : cover scopes.scopes.size = none) :
    (scopes.child outer).2.covered cover = ((scopes.covered cover).child outer).2 := by
  apply ext_getElem?
  intro other
  simp only [getElem?_covered, getElem?_child, size_covered]
  split
  · rename_i isNew
    rw [isNew, fresh]
    rfl
  · rfl

theorem covered_shrink :
    (scopes.shrink count).covered cover = (scopes.covered cover).shrink count := by
  apply ext_getElem?
  intro _
  simp only [getElem?_covered, getElem?_shrink]
  split <;> rfl

theorem Shields.child (shields : scopes.Shields cover) (visible : cover outer = none) :
    (scopes.child outer).2.Shields cover where
  root := shields.root
  outwards := by
    intro number scope outer' found visible' inside
    rw [getElem?_child] at found
    split at found
    · obtain rfl := Option.some.inj found
      exact Option.some.inj inside ▸ visible
    · exact shields.outwards number scope outer' found visible' inside
  fresh := by
    intro number present
    refine shields.fresh number ?_
    simp only [Scopes.child, Array.size_push] at present
    omega

end Scopes

/-! ### Changing scopes -/

def Scope.declarations (scope : Scope) : Scope :=
  { scope with
    bindings := Bindings.mapValues (fun binding => { binding with value := .null })
      scope.bindings }

/--
What a step may change in the scopes that were there before it, other than the global one: nothing,
the values of variables, or what the current scope declares and the values of variables.
-/
inductive Extent where
  | expression
  | block
  | statement

/-- How much of a scope may change. -/
def Extent.Allows (extent : Extent) (current number : Nat) (before after : Option Scope) : Prop :=
  match extent with
  | .expression => after = before
  | .block => after.map Scope.declarations = before.map Scope.declarations
  | .statement => number ≠ current → after.map Scope.declarations = before.map Scope.declarations

theorem Extent.Allows.refl (extent : Extent) (current number : Nat) (scope : Option Scope) :
    extent.Allows current number scope scope := by
  cases extent with
  | expression | block => rfl
  | statement => exact fun _ => rfl

theorem Extent.Allows.trans {extent : Extent} (earlier : extent.Allows current number first second)
    (later : extent.Allows current number second third) :
    extent.Allows current number first third := by
  cases extent with
  | expression | block => exact Eq.trans later earlier
  | statement => exact fun other => (later other).trans (earlier other)

namespace Machine

/--
The machine after a step has the current scope of the one before it and all of its scopes, each
inside the same outer scope.  What happened to scopes other than the global one is within an extent.
-/
structure Kept (extent : Extent) (before after : Machine) : Prop where
  current : after.current = before.current
  outers : ∀ number : Nat, (after.scopes.scopes[number]?).map Scope.outer =
    (before.scopes.scopes[number]?).map Scope.outer
  contents : ∀ number : Nat, number ≠ 0 →
    extent.Allows before.current number before.scopes.scopes[number]? after.scopes.scopes[number]?

namespace Kept

theorem refl (extent : Extent) (machine : Machine) : Kept extent machine machine where
  current := rfl
  outers _ := rfl
  contents _ _ := .refl extent _ _ _

theorem trans (earlier : Kept extent before middle) (later : Kept extent middle after) :
    Kept extent before after where
  current := later.current.trans earlier.current
  outers number := (later.outers number).trans (earlier.outers number)
  contents number notRoot := by
    have allowed := later.contents number notRoot
    rw [earlier.current] at allowed
    exact (earlier.contents number notRoot).trans allowed

theorem of_scopes_eq (sameScopes : after.scopes = before.scopes)
    (sameCurrent : after.current = before.current) : Kept extent before after where
  current := sameCurrent
  outers number := by rw [sameScopes]
  contents number _ := by
    rw [sameScopes]
    exact .refl extent _ _ _

theorem lift (kept : Kept .expression before after) : Kept extent before after where
  current := kept.current
  outers := kept.outers
  contents number notRoot := by
    have same : after.scopes.scopes[number]? = before.scopes.scopes[number]? :=
      kept.contents number notRoot
    rw [same]
    exact .refl extent _ _ _

theorem asStatement (kept : Kept .block before after) : Kept .statement before after where
  current := kept.current
  outers := kept.outers
  contents number notRoot _ := kept.contents number notRoot

variable (kept : Kept extent before after)
include kept

theorem size_eq : after.scopes.scopes.size = before.scopes.scopes.size := by
  have outside (number : Nat) : after.scopes.scopes.size ≤ number ↔
      before.scopes.scopes.size ≤ number := by
    rw [← Array.getElem?_eq_none_iff, ← Array.getElem?_eq_none_iff,
      ← Option.map_eq_none_iff (f := Scope.outer), kept.outers, Option.map_eq_none_iff]
  have first := outside after.scopes.scopes.size
  have second := outside before.scopes.scopes.size
  omega

theorem exists_before (found : after.scopes.scopes[number]? = some scope) :
    ∃ earlier, before.scopes.scopes[number]? = some earlier ∧ earlier.outer = scope.outer := by
  have outers := kept.outers number
  rw [found, Option.map_some] at outers
  exact Option.map_eq_some_iff.mp outers.symm

theorem wellFormed (wellFormed : before.scopes.WellFormed) : after.scopes.WellFormed where
  root := by
    obtain ⟨_, found, noOuter⟩ := wellFormed.root
    have outers := kept.outers 0
    rw [found, Option.map_some] at outers
    obtain ⟨scope, found', sameOuter⟩ := Option.map_eq_some_iff.mp outers
    exact ⟨scope, found', sameOuter.trans noOuter⟩
  nested := by
    intro number _ found notRoot
    obtain ⟨earlier, found', sameOuter⟩ := kept.exists_before found
    rw [← sameOuter]
    exact wellFormed.nested number earlier found' notRoot

theorem shields (shields : before.scopes.Shields cover) : after.scopes.Shields cover where
  root := shields.root
  outwards := by
    intro number _ outer found visible inside
    obtain ⟨earlier, found', sameOuter⟩ := kept.exists_before found
    exact shields.outwards number earlier outer found' visible (sameOuter.trans inside)
  fresh := by
    intro number outside
    rw [kept.size_eq] at outside
    exact shields.fresh number outside

end Kept

/-- The scopes are nested, and the current one is among them. -/
structure WellScoped (machine : Machine) : Prop where
  scopes : machine.scopes.WellFormed
  current : machine.current < machine.scopes.scopes.size

theorem Kept.wellScoped (kept : Kept extent before after) (wellScoped : before.WellScoped) :
    after.WellScoped where
  scopes := kept.wellFormed wellScoped.scopes
  current := by
    rw [kept.current, kept.size_eq]
    exact wellScoped.current

theorem wellScoped_start (world : World) (basePath : String) :
    (start world basePath).WellScoped where
  scopes := Scopes.wellFormed_single
  current := Nat.zero_lt_one

def covered (cover : Nat → Option Scope) (machine : Machine) : Machine :=
  { machine with scopes := machine.scopes.covered cover }

theorem covered_self {machine : Machine} (own : ∀ number scope, cover number = some scope →
      machine.scopes.scopes[number]? = some scope) : machine.covered cover = machine := by
  have same : machine.scopes.covered cover = machine.scopes := by
    apply Scopes.ext_getElem?
    intro number
    rw [Scopes.getElem?_covered]
    cases given : cover number with
    | none => cases machine.scopes.scopes[number]? <;> rfl
    | some scope =>
      rw [own number scope given]
      rfl
  rw [covered, same]

theorem covered_congr {machine : Machine}
    (agree : ∀ number < machine.scopes.scopes.size, cover number = cover' number) :
    machine.covered cover = machine.covered cover' := by
  have same : machine.scopes.covered cover = machine.scopes.covered cover' := by
    apply Scopes.ext_getElem?
    intro number
    simp only [Scopes.getElem?_covered]
    cases found : machine.scopes.scopes[number]? with
    | none => rfl
    | some => rw [agree number (Scopes.lt_size_of_found found)]
  rw [covered, covered, same]

/-- The machine with other scopes inside the global one. -/
def withLocals (contents : Nat → Scope) (machine : Machine) : Machine :=
  machine.covered fun number => if number = 0 then none else some (contents number)

end Machine

namespace Exec

open Machine

variable {α β : Type} {extent : Extent} {machine : Machine}

/--
Started in a machine, a step changes scopes only within an extent, and it sees none of those that
are off the chain of the current one.
-/
structure LocalAt (extent : Extent) (step : Exec α) (machine : Machine) : Prop where
  keeps : Ends step machine
    (fun _ final => machine.Kept extent final) (fun _ final => machine.Kept extent final)
  blind : ∀ cover, machine.scopes.Shields cover → cover machine.current = none →
    step (machine.covered cover) = ending (Machine.covered cover) (step machine)

def Local (extent : Extent) (step : Exec α) : Prop :=
  ∀ machine : Machine, machine.WellScoped → LocalAt extent step machine

theorem LocalAt.bind (first : LocalAt extent step machine)
    (rest : ∀ value final, machine.Kept extent final → LocalAt extent (next value) final) :
    LocalAt extent (step >>= next) machine where
  keeps := by
    rw [ends_bind]
    refine first.keeps.imp ?_ (fun _ _ kept => kept)
    intro value final kept
    exact (rest value final kept).keeps.imp (fun _ _ => kept.trans) fun _ _ => kept.trans
  blind := by
    intro cover shields visible
    refine bind_commutes (first.blind cover shields visible) ?_
    refine first.keeps.imp ?_ (fun _ _ _ => trivial)
    intro value final kept
    exact (rest value final kept).blind cover (kept.shields shields) (kept.current ▸ visible)

theorem Local.bind (first : Local extent step) (rest : ∀ value, Local extent (next value)) :
    Local extent (step >>= next) := by
  intro machine wellScoped
  exact (first machine wellScoped).bind fun value final kept =>
    rest value final (kept.wellScoped wellScoped)

theorem Local.lift (isLocal : Local .expression step) : Local extent step := by
  intro machine wellScoped
  exact
    { keeps := (isLocal machine wellScoped).keeps.imp
        (fun _ _ kept => kept.lift) (fun _ _ kept => kept.lift)
      blind := (isLocal machine wellScoped).blind }

theorem Local.asStatement (isLocal : Local .block step) : Local .statement step := by
  intro machine wellScoped
  exact
    { keeps := (isLocal machine wellScoped).keeps.imp
        (fun _ _ kept => kept.asStatement) (fun _ _ kept => kept.asStatement)
      blind := (isLocal machine wellScoped).blind }

theorem Plain.isLocal (plain : Plain step) : Local extent step := by
  intro machine _
  have keeps := plain.keeps_scopes machine
  constructor
  · exact keeps.imp (fun _ _ same => .of_scopes_eq same.1 same.2)
      (fun _ _ same => .of_scopes_eq same.1 same.2)
  · intro cover _ _
    have commutes := plain.commutes (machine.scopes.covered cover) machine.current machine
    refine Eq.trans commutes ?_
    unfold Ends at keeps
    cases ended : step machine <;> rw [ended] at keeps <;>
      simp only [ending, rescoped, covered, keeps.1, ← keeps.2]

theorem LocalAt.get_bind
    (same : ∀ cover, machine.scopes.Shields cover → cover machine.current = none →
      next (machine.covered cover) = next machine) (rest : LocalAt extent (next machine) machine) :
    LocalAt extent (get >>= next) machine where
  keeps := rest.keeps
  blind := by
    intro cover shields visible
    change next (machine.covered cover) (machine.covered cover) = _
    rw [same cover shields visible]
    exact rest.blind cover shields visible

theorem Local.get_bind
    (same : ∀ machine cover, machine.scopes.Shields cover → cover machine.current = none →
      next (machine.covered cover) = next machine) (rest : ∀ machine, Local extent (next machine)) :
    Local extent (get >>= next) := by
  intro machine wellScoped
  exact .get_bind (same machine) (rest machine machine wellScoped)

theorem LocalAt.unchanged (isLocal : LocalAt extent step machine) (hidden : Nat → Prop)
    [DecidablePred hidden] (shields : machine.scopes.Shields
      fun number => if hidden number then machine.scopes.scopes[number]? else none)
    (visible : ¬ hidden machine.current) :
    Ends step machine
      (fun _ final => ∀ number, hidden number →
        final.scopes.scopes[number]? = machine.scopes.scopes[number]?)
      (fun _ final => ∀ number, hidden number →
        final.scopes.scopes[number]? = machine.scopes.scopes[number]?) := by
  have own (number : Nat) (scope : Scope)
      (given : (if hidden number then machine.scopes.scopes[number]? else none) = some scope) :
      machine.scopes.scopes[number]? = some scope := by
    split at given
    · exact given
    · cases given
  have blind := isLocal.blind _ shields (if_neg visible)
  rw [covered_self own] at blind
  have same (final : Machine)
      (result : final = final.covered
          (fun number => if hidden number then machine.scopes.scopes[number]? else none) ∧
        machine.Kept extent final)
      (number : Nat) (isHidden : hidden number) :
      final.scopes.scopes[number]? = machine.scopes.scopes[number]? := by
    have contents := congrArg (fun machine => machine.scopes.scopes[number]?) result.1
    have outers := result.2.outers number
    simp only [covered, Scopes.getElem?_covered, if_pos isHidden] at contents
    rw [contents]
    cases found : machine.scopes.scopes[number]? with
    | none =>
      rw [found, Option.map_none, Option.map_eq_none_iff] at outers
      rw [outers]
      rfl
    | some =>
      rw [found, Option.map_some] at outers
      obtain ⟨_, present, sameOuter⟩ := Option.map_eq_some_iff.mp outers
      rw [present, Option.map_some]
      simp [Scope.coveredBy, sameOuter]
  exact ((ends_of_eq_ending blind).and isLocal.keeps).imp
    (fun _ => same) fun _ => same

/-! ### Scopes that are entered and left -/

theorem inScope_eq (outer : Nat) (body : Exec α) :
    inScope outer body machine = ending (left machine) (body (entered outer machine)) := by
  simp only [inScope, entered]
  cases body _ <;> rfl

theorem exists_of_inScope_eq_ok (ended : inScope outer body machine = .ok value final) :
    ∃ inner, body (entered outer machine) = .ok value inner ∧ final = left machine inner := by
  rw [inScope_eq] at ended
  cases isBody : body (entered outer machine) <;> rw [isBody] at ended <;> cases ended
  exact ⟨_, rfl, rfl⟩

theorem wellScoped_entered
    (wellScoped : machine.WellScoped) (present : outer < machine.scopes.scopes.size) :
    (entered outer machine).WellScoped where
  scopes := wellScoped.scopes.child present
  current := by simp [entered, Scopes.child]

theorem getElem?_entered (present : number < machine.scopes.scopes.size) :
    (entered outer machine).scopes.scopes[number]? = machine.scopes.scopes[number]? := by
  have old : number ≠ machine.scopes.scopes.size := by omega
  simp [entered, Scopes.getElem?_child, old]

theorem kept_left (kept : (entered outer machine).Kept extent' final)
    (contents : ∀ number : Nat, number ≠ 0 → number < machine.scopes.scopes.size →
      extent.Allows machine.current number
        machine.scopes.scopes[number]? final.scopes.scopes[number]?) :
    machine.Kept extent (left machine final) where
  current := rfl
  outers number := by
    simp only [left, Scopes.getElem?_shrink]
    split
    · rename_i present
      rw [kept.outers, getElem?_entered present]
    · rename_i outside
      rw [Array.getElem?_eq_none (Nat.le_of_not_lt outside)]
  contents number notRoot := by
    simp only [left, Scopes.getElem?_shrink]
    split
    · exact contents number notRoot ‹_›
    · rename_i outside
      rw [Array.getElem?_eq_none (Nat.le_of_not_lt outside)]
      exact .refl extent _ _ _

theorem inScope_blind (isLocal : LocalAt extent body (entered outer machine))
    (shields : machine.scopes.Shields cover) (visible : cover outer = none) :
    inScope outer body (machine.covered cover) =
      ending (Machine.covered cover) (inScope outer body machine) := by
  have fresh : cover machine.scopes.scopes.size = none := shields.fresh _ (Nat.le_refl _)
  have sameStart :
      entered outer (machine.covered cover) = (entered outer machine).covered cover := by
    simp [entered, covered, Scopes.covered_child fresh, Scopes.size_covered]
  have sameEnd (final : Machine) :
      left (machine.covered cover) (final.covered cover) = (left machine final).covered cover := by
    simp [left, covered, Scopes.covered_shrink, Scopes.size_covered]
  rw [inScope_eq, inScope_eq, sameStart, isLocal.blind cover (shields.child visible) fresh]
  cases body (entered outer machine) <;> simp only [ending, sameEnd]

theorem shields_locals (wellScoped : machine.WellScoped) {contents : Nat → Option Scope}
    (given : ∀ number < machine.scopes.scopes.size, contents number ≠ none) :
    machine.scopes.Shields fun number =>
      if number ≠ 0 ∧ number < machine.scopes.scopes.size then contents number else none where
  root := by simp
  outwards := by
    intro number _ _ found visible inside
    have present := Scopes.lt_size_of_found found
    have isRoot : number = 0 := by
      refine Decidable.byContradiction fun notRoot => ?_
      rw [if_pos ⟨notRoot, present⟩] at visible
      exact given number present visible
    obtain ⟨_, rootFound, noOuter⟩ := wellScoped.scopes.root
    rw [isRoot, rootFound] at found
    rw [← Option.some.inj found, noOuter] at inside
    cases inside
  fresh := by
    intro number _
    have notOld : ¬ number < machine.scopes.scopes.size := by omega
    simp [notOld]

theorem Local.inRoot (isLocal : Local .statement body) : Local .expression (inScope 0 body) := by
  intro machine wellScoped
  have rootPresent : 0 < machine.scopes.scopes.size := Nat.zero_lt_of_lt wellScoped.current
  have bodyLocal := isLocal _ (wellScoped_entered wellScoped rootPresent)
  have unchanged := bodyLocal.unchanged
    (fun number => number ≠ 0 ∧ number < machine.scopes.scopes.size)
    ((shields_locals wellScoped fun _ present => by
      simpa [getElem?_entered present] using by omega).child
        (by simp))
    (by simp [entered])
  constructor
  · rw [ends_inScope]
    have kept (final : Machine)
        (result : (entered 0 machine).Kept .statement final ∧
          ∀ number, number ≠ 0 ∧ number < machine.scopes.scopes.size →
            final.scopes.scopes[number]? = (entered 0 machine).scopes.scopes[number]?) :
        machine.Kept .expression (left machine final) := by
      refine kept_left result.1 fun number notRoot present => ?_
      exact (result.2 number ⟨notRoot, present⟩).trans (getElem?_entered present)
    exact (bodyLocal.keeps.and unchanged).imp (fun _ => kept) fun _ => kept
  · intro _ shields _
    exact inScope_blind bodyLocal shields shields.root

theorem Local.inCurrent (isLocal : Local .statement body) :
    Local .block (get >>= fun machine => inScope machine.current body) := by
  intro machine wellScoped
  have bodyLocal := isLocal _ (wellScoped_entered wellScoped wellScoped.current)
  constructor
  · simp only [ends_bind, ends_get, ends_inScope]
    have kept (final : Machine)
        (result : (entered machine.current machine).Kept .statement final) :
        machine.Kept .block (left machine final) := by
      refine kept_left result fun number notRoot present => ?_
      have contents := result.contents number notRoot (Nat.ne_of_lt present)
      rwa [getElem?_entered present] at contents
    exact bodyLocal.keeps.imp (fun _ => kept) fun _ => kept
  · intro _ shields visible
    exact inScope_blind bodyLocal shields visible

theorem asCall_commutes (commutes : body (change machine) = ending change (body machine)) :
    Exec.asCall body (change machine) = ending change (Exec.asCall body machine) := by
  simp only [Exec.asCall, commutes]
  cases body machine with
  | ok => rfl
  | error signal => cases signal <;> rfl

theorem Local.asCall (isLocal : Local extent body) : Local extent (asCall body) := by
  intro machine wellScoped
  have bodyLocal := isLocal machine wellScoped
  constructor
  · rw [ends_asCall]
    refine bodyLocal.keeps.imp (fun _ _ kept => kept) ?_
    intro signal _ kept
    cases signal <;> exact kept
  · intro cover shields visible
    exact asCall_commutes (bodyLocal.blind cover shields visible)

theorem Local.proceeds (isLocal : Local extent turn) : Local extent (proceeds turn) := by
  intro machine wellScoped
  have turnLocal := isLocal machine wellScoped
  constructor
  · rw [ends_proceeds]
    refine turnLocal.keeps.imp (fun _ _ kept => kept) ?_
    intro signal final kept
    cases signal <;> exact kept
  · intro cover shields visible
    simp only [Exec.proceeds, turnLocal.blind cover shields visible]
    cases turn machine with
    | ok => rfl
    | error signal => cases signal <;> rfl

/-! ### Steps on scopes -/

def changeScope (number : Nat) (change : Scope → Scope) : Exec Unit :=
  modify fun machine => { machine with scopes := machine.scopes.modify number change }

theorem localAt_changeScope (change : Scope → Scope)
    (keepsOuter : ∀ scope, (change scope).outer = scope.outer)
    (sees : ∀ cover, machine.scopes.Shields cover → cover machine.current = none →
      cover number = none)
    (allowed : number ≠ 0 → ∀ scope,
      extent.Allows machine.current number scope (scope.map change)) :
    LocalAt extent (changeScope number change) machine where
  keeps := by
    rw [changeScope, ends_modify]
    refine ⟨rfl, ?_, ?_⟩
    · intro other
      rw [Scopes.getElem?_modify]
      split
      · cases machine.scopes.scopes[other]? with
        | none => rfl
        | some scope => exact congrArg some (keepsOuter scope)
      · rfl
    · intro other notRoot
      rw [Scopes.getElem?_modify]
      split
      · rename_i same
        exact same ▸ allowed (same ▸ notRoot) _
      · exact .refl extent _ _ _
  blind := by
    intro cover shields visible
    have commutes := machine.scopes.covered_modify (sees cover shields visible) change
    change EStateM.Result.ok () _ = EStateM.Result.ok () _
    rw [covered, covered, commutes]

theorem local_changeRoot (keepsOuter : ∀ scope, (change scope).outer = scope.outer) :
    Local extent (changeScope 0 change) := by
  intro _ _
  exact localAt_changeScope change keepsOuter (fun _ shields _ => shields.root)
    (fun notRoot => absurd rfl notRoot)

theorem localAt_changeCurrent (isCurrent : number = machine.current)
    (change : Scope → Scope) (keepsOuter : ∀ scope, (change scope).outer = scope.outer) :
    LocalAt .statement (changeScope number change) machine :=
  localAt_changeScope change keepsOuter (fun _ _ visible => isCurrent ▸ visible)
    (fun _ _ other => absurd isCurrent other)

theorem local_defineHere (name : String) (type : Ty) (value : Value) :
    Local .statement (defineHere name type value) := by
  intro machine _
  have isCurrent : machine.current = machine.current := rfl
  have isLocal := localAt_changeCurrent isCurrent
    (fun scope => { scope with bindings := Bindings.put name ⟨type, value, false⟩ scope.bindings })
    (fun _ => rfl)
  exact ⟨isLocal.keeps, isLocal.blind⟩

theorem local_binding (name : String) : Local extent (binding name) := by
  refine Local.get_bind ?_ fun machine => ?_
  · intro _ _ shields visible
    simp [covered, Scopes.binding?, shields.find_covered _ visible]
  · split
    · exact Plain.isLocal (.pure _)
    · exact Plain.isLocal (fail_plain _)

theorem declarations_assigned (scope : Scope) (name : String) (value : Value) :
    Scope.declarations { scope with bindings := scope.bindings.map fun (other, binding) =>
      if other = name then (other, { binding with value := value }) else (other, binding) } =
    scope.declarations := by
  simp only [Scope.declarations, Bindings.mapValues, List.map_map]
  congr 1
  apply List.map_congr_left
  intro entry _
  by_cases same : entry.1 = name <;> simp [same]

theorem local_assign (name : String) (value : Value) : Local .block (assign name value) := by
  intro machine wellScoped
  refine LocalAt.get_bind ?_ ?_
  · intro cover shields visible
    simp [covered, Scopes.owner?, shields.find_covered _ visible]
  · dsimp only
    split
    · rename_i owner owned
      obtain ⟨_, search, rfl⟩ := Option.map_eq_some_iff.mp owned
      refine localAt_changeScope (fun scope => { scope with
        bindings := scope.bindings.map fun (other, binding) =>
          if other = name then (other, { binding with value := value }) else (other, binding) })
        (fun _ => rfl) ?_ ?_
      · intro _ shields visible
        exact shields.find_visible visible search
      · intro _ scope
        cases scope with
        | none => rfl
        | some scope => exact congrArg some (declarations_assigned scope name value)
    · exact Plain.isLocal (fail_plain _) machine wellScoped

theorem local_apply (change : Change) : Local extent (apply change) := by
  intro _ _
  exact ⟨.of_scopes_eq rfl rfl, fun _ _ _ => rfl⟩

theorem Local.forM {items : List β} (each : ∀ item, Local extent (step item)) :
    Local extent (items.forM step) := by
  induction items with
  | nil => exact Plain.isLocal (.pure _)
  | cons item _ ih => exact (each item).bind fun _ => ih

end Exec

end Noxy
