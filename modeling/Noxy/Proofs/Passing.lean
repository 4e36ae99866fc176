import Noxy.Proofs.SightEval

/-!
# Parameters that are passed by value

A parameter whose type is a struct or an array without `ref` gets a copy of its argument.
-/

namespace Noxy

open HasValues Exec

def Hidden.ofObjects (objects : Address → Prop) : Hidden where
  objects := objects
  bindings _ := false
  definitions _ := false
  imports := true
  noNames _ _ := ⟨rfl, rfl⟩

def Hidden.or (hidden : Hidden) (objects : Address → Prop) : Hidden :=
  { hidden with objects := fun address => hidden.objects address ∨ objects address }

/-- A value that is passed for a parameter of a type. -/
structure Passing where
  type : Ty
  value : Value
  heap : Heap

namespace Passing

def isCopied (passing : Passing) : Bool :=
  match passing.type with
  | .struct _ _ => true
  | .array _ _ =>
    match passing.heap.object? passing.value with
    | some (.list _) => true
    | _ => false
  | _ => false

/-- What the parameter gets. -/
def outcome (passing : Passing) : Value × Heap :=
  if passing.isCopied then passing.heap.deepCopy passing.value else (passing.value, passing.heap)

/-- The objects made by copying. -/
def Made (passing : Passing) (address : Address) : Prop :=
  passing.heap.size ≤ address ∧ address < passing.outcome.2.size

/-- What is passed uncopied is good. -/
def Shares (passing : Passing) (good : Value → Prop) : Prop :=
  if passing.isCopied then ∃ depth, passing.heap.Spans good depth passing.value
  else good passing.value

theorem outcome_extends (passing : Passing) : passing.heap.Extends passing.outcome.2 := by
  unfold outcome
  split
  · exact Heap.deepCopy_extends _ _
  · exact .refl _

theorem Shares.copies {passing : Passing} (shares : passing.Shares good) :
    passing.heap.Copies good passing.outcome := by
  unfold Shares at shares
  unfold outcome
  split
  · rename_i isCopied
    rw [if_pos isCopied] at shares
    obtain ⟨depth, spans⟩ := shares
    exact Heap.copyWithin_copies spans.within_depth
  · rename_i notCopied
    rw [if_neg notCopied] at shares
    exact .unchanged shares

end Passing

theorem passed_eq :
    passed type value machine =
      .ok (Passing.outcome ⟨type, value, machine.heap⟩).1
        { machine with heap := (Passing.outcome ⟨type, value, machine.heap⟩).2 } := by
  cases type with
  | array =>
    simp only [passed]
    rw [object?_bind]
    cases found : machine.heap.object? value with
    | none =>
      simp only [Passing.outcome, Passing.isCopied, found]
      rfl
    | some object => cases object <;> simp only [Passing.outcome, Passing.isCopied, found] <;> rfl
  | _ => rfl

def passings : Nat → List (Declared × Expr) → Exec (List Passing)
  | 0, _ => Exec.exhausted
  | _ + 1, [] => pure []
  | fuel + 1, (param, argument) :: rest => do
    let value ← eval fuel argument
    let heap ← Exec.look id
    let _ ← passed param.type value
    let others ← passings fuel rest
    return ⟨param.type, value, heap⟩ :: others

def Machine.passing (machine : Machine) (type : Ty) (value : Value) : Machine :=
  { machine with heap := (Passing.outcome ⟨type, value, machine.heap⟩).2 }

section Course

theorem evalArguments_cons (ended : eval fuel argument machine = .ok value after) :
    evalArguments (fuel + 1) ((param, argument) :: rest) machine =
      (evalArguments fuel rest >>= fun values =>
        pure ((Passing.outcome ⟨param.type, value, after.heap⟩).1 :: values))
        (after.passing param.type value) :=
  (bind_of_ok ended).trans (bind_of_ok passed_eq)

theorem passings_cons (ended : eval fuel argument machine = .ok value after) :
    passings (fuel + 1) ((param, argument) :: rest) machine =
      (passings fuel rest >>= fun others => pure (⟨param.type, value, after.heap⟩ :: others))
        (after.passing param.type value) :=
  (bind_of_ok ended).trans (look_bind.trans (bind_of_ok passed_eq))

end Course

theorem evalArguments_eq :
    evalArguments fuel arguments =
      (passings fuel arguments >>= fun course =>
        pure (course.map fun passing => passing.outcome.1)) := by
  induction arguments generalizing fuel with
  | nil => cases fuel <;> rfl
  | cons argument rest ih =>
    cases fuel with
    | zero => rfl
    | succ fuel =>
      funext machine
      cases ended : eval fuel argument.2 machine with
      | error => simp only [evalArguments, passings, bind, EStateM.bind, ended]
      | ok value final =>
        rw [evalArguments_cons ended, ih]
        simp only [bind, EStateM.bind]
        rw [passings_cons ended]
        simp only [bind, EStateM.bind]
        cases passings fuel rest (final.passing argument.1.type value) <;> rfl

theorem evalArguments_of_passings {entered : Machine}
    (evaluated : passings fuel arguments machine = .ok course entered) :
    evalArguments fuel arguments machine =
      .ok (course.map fun passing => passing.outcome.1) entered := by
  rw [evalArguments_eq]
  exact bind_of_ok evaluated

/-! ### Nothing else leads to a copy -/

theorem Passing.sees [HasValues α] (passing : Passing) {data : α}
    (seen : All (passing.heap.Sees (.ofObjects objects)) data) :
    All (passing.outcome.2.Sees (.ofObjects fun address => objects address ∨ passing.Made address))
      data := by
  refine imp (fun value seenValue => ?_) seen
  cases value with
  | object =>
    refine ⟨Nat.lt_of_lt_of_le seenValue.1 passing.outcome_extends.grown, ?_⟩
    rintro (isHidden | isMade)
    · exact seenValue.2 isHidden
    · exact Nat.not_le.mpr seenValue.1 isMade.1
  | function => exact ⟨Hidden.allows_of_imports rfl _, trivial⟩
  | struct => exact Hidden.allows_of_imports rfl _
  | _ => trivial

theorem Machine.Hides.passing {machine : Machine} (hides : machine.Hides (.ofObjects objects))
    (type : Ty) (value : Value) :
    (machine.passing type value).Hides
      (.ofObjects fun address =>
        objects address ∨ Passing.Made ⟨type, value, machine.heap⟩ address) := by
  let passing : Passing := ⟨type, value, machine.heap⟩
  have extended : machine.heap.Extends passing.outcome.2 := passing.outcome_extends
  have scopes := hides.scopes
  rw [Machine.without_of_imports rfl] at scopes
  refine ⟨⟨fun address isHidden => ?_, fun address object found notHidden => ?_⟩, ?_, fun _ => ?_⟩
  · rcases isHidden with isHidden | isMade
    · exact Nat.lt_of_lt_of_le (hides.heap.exist address isHidden) extended.grown
    · exact isMade.2
  · rcases Nat.lt_or_ge address machine.heap.size with isOld | isNew
    · have foundBefore := (extended.same address isOld).symm.trans found
      exact passing.sees
        (hides.heap.objects address object foundBefore fun isHidden => notHidden (.inl isHidden))
    · exact absurd (.inr ⟨isNew, Heap.lt_size_of_get? found⟩) notHidden
  · rw [Machine.without_of_imports rfl]
    exact passing.sees scopes
  · exact passing.sees (hides.modules rfl)

def MadeFor (course : List Passing) (address : Address) : Prop :=
  ∃ passing ∈ course, passing.Made address

@[simp]
theorem madeFor_nil (address : Address) : MadeFor [] address ↔ False := by
  simp [MadeFor]

@[simp]
theorem madeFor_cons :
    MadeFor (passing :: course) address ↔ passing.Made address ∨ MadeFor course address := by
  simp [MadeFor]

section Course

variable {entered : Machine} {objects : Address → Prop}

theorem passings_kept (hides : machine.Hides (.ofObjects objects))
    (evaluated : passings fuel arguments machine = .ok course entered) :
    machine.HiddenKept (.ofObjects objects) entered := by
  have respects : Respects (.ofObjects objects) machine (evalArguments fuel arguments) :=
    sighted _ fuel (.evalArguments fun _ _ => Hidden.allows_of_imports rfl _)
  exact ((respects.ends hides).of_ok (evalArguments_of_passings evaluated)).1

theorem passings_hides (hides : machine.Hides (.ofObjects objects))
    (evaluated : passings fuel arguments machine = .ok course entered) :
    entered.Hides (.ofObjects fun address => objects address ∨ MadeFor course address) ∧
      ∀ passing ∈ course, passing.outcome.2.size ≤ entered.heap.size ∧
        ∀ address, passing.Made address →
          entered.heap.get? address = passing.outcome.2.get? address := by
  induction arguments generalizing fuel machine course objects with
  | nil =>
    cases fuel with
    | zero => cases evaluated
    | succ =>
      cases evaluated
      exact ⟨by simpa only [madeFor_nil, or_false] using hides, nofun⟩
  | cons argument _ ih =>
    cases fuel with
    | zero => cases evaluated
    | succ fuel =>
      cases ended : eval fuel argument.2 machine with
      | error =>
        simp only [passings, bind, EStateM.bind, ended, reduceCtorEq] at evaluated
      | ok value =>
        rw [passings_cons ended] at evaluated
        obtain ⟨_, _, evaluatedRest, returned⟩ := exists_of_bind_eq_ok evaluated
        cases returned
        have respects : Respects (.ofObjects objects) machine (eval fuel argument.2) :=
          sighted _ fuel (.eval (Hidden.allows_of_imports rfl _))
        have hidesMiddle := ((respects.ends hides).of_ok ended).1.hides
        -- From here on, what was made for this argument is hidden, too.
        have hidesNext := hidesMiddle.passing argument.1.type value
        obtain ⟨hidesLast, each⟩ := ih hidesNext evaluatedRest
        have kept := passings_kept hidesNext evaluatedRest
        refine ⟨?_, List.forall_mem_cons.mpr ⟨⟨kept.heap.grown, ?_⟩, each⟩⟩
        · simpa only [madeFor_cons, or_assoc] using hidesLast
        · exact fun address isMade => kept.heap.same address (.inr isMade)

end Course

/-! ### What a call leaves as it is -/

/--
When the body of a call starts, the function has no way to the hidden objects: it mentions nothing
that leads to them, and they are not among the values that the parameters share with the arguments.
-/
structure CannotReach (hidden : Hidden) (function : Function) (course : List Passing)
    (entered : Machine) : Prop where
  notMade : ∀ address, hidden.objects address → ¬ MadeFor course address
  hides : (entered.withLocals fun _ => default).Hides (hidden.or (MadeFor course))
  allowed : hidden.Allows function.mentions
  shares : ∀ passing ∈ course, passing.Shares (entered.heap.Sees hidden)

theorem Heap.Sees.of_or [HasValues α] {heap : Heap} {hidden : Hidden} {objects : Address → Prop}
    {data : α} (seen : All (heap.Sees (hidden.or objects)) data) : All (heap.Sees hidden) data := by
  refine imp (fun value seenValue => ?_) seen
  cases value with
  | object => exact ⟨seenValue.1, fun isHidden => seenValue.2 (.inl isHidden)⟩
  | _ => exact seenValue

namespace CannotReach

variable {hidden : Hidden} {entered : Machine}

theorem sees_of_owns (apart : CannotReach hidden function course entered)
    (member : passing ∈ course) (grown : passing.outcome.2.size ≤ entered.heap.size) [HasValues α]
    {data : α}
    (owns : All (passing.outcome.2.Owns passing.heap.size (entered.heap.Sees hidden)) data) :
    All (entered.heap.Sees hidden) data := by
  refine imp (fun _ owned => ?_) owns
  rcases owned with seen | ⟨address, rfl, isNew, isThere⟩
  · exact seen
  · exact ⟨Nat.lt_of_lt_of_le isThere grown, fun isHidden =>
      apart.notMade address isHidden ⟨passing, member, isNew, isThere⟩⟩

theorem hides_start (apart : CannotReach hidden function course entered)
    (each : ∀ passing ∈ course, passing.outcome.2.size ≤ entered.heap.size ∧
      ∀ address, passing.Made address →
        entered.heap.get? address = passing.outcome.2.get? address) :
    (entered.withLocals fun _ => default).Hides hidden := by
  obtain ⟨⟨exist, objects⟩, scopes, modules⟩ := apart.hides
  refine ⟨⟨fun address isHidden => exist address (.inl isHidden), ?_⟩, ?_, ?_⟩
  · intro address object found notHidden
    by_cases isMade : MadeFor course address
    · obtain ⟨passing, member, madeHere⟩ := isMade
      obtain ⟨grown, same⟩ := each passing member
      have owns := (apart.shares passing member).copies.made address madeHere.1
      rw [← same address madeHere] at owns
      exact apart.sees_of_owns member grown (owns object found)
    · exact Heap.Sees.of_or (objects address object found (not_or.mpr ⟨notHidden, isMade⟩))
  · exact Heap.Sees.of_or scopes
  · exact fun imports => Heap.Sees.of_or (modules imports)

end CannotReach

theorem callFunction_eq {entered : Machine} (arity : arguments.length = function.params.length)
    (evaluated : passings fuel (function.params.zip arguments) machine = .ok course entered) :
    callFunction (fuel + 1) function arguments machine =
      callBody fuel function (course.map fun passing => passing.outcome.1) entered := by
  unfold callFunction
  rw [if_neg (not_not.mpr arity)]
  exact bind_of_ok (evalArguments_of_passings evaluated)

/--
When the body of a call starts, nothing but the parameters leads to the copies that they got, and
each copy leads to itself and to the values that it shares with its argument.  However the call
ends, the objects are as they were that the function had no other way to than the arguments that
were copied.
-/
theorem call_isolates_arguments
    (fuel : Nat) (function : Function) (arguments : List Expr) (machine entered : Machine)
    (course : List Passing)
    (wellScoped : machine.WellScoped) (closed : machine.Hides (.ofObjects fun _ => False))
    (arity : arguments.length = function.params.length)
    (evaluated : passings fuel (function.params.zip arguments) machine = .ok course entered) :
    entered.Hides (.ofObjects (MadeFor course)) ∧
      (∀ passing ∈ course, ∀ good, passing.Shares good →
        All (passing.outcome.2.Owns passing.heap.size good) passing.outcome.1 ∧
        ∀ address, passing.Made address →
          All (passing.outcome.2.Owns passing.heap.size good) (entered.heap.get? address)) ∧
      ∀ hidden, CannotReach hidden function course entered →
        Ends (callFunction (fuel + 1) function arguments) machine
          (fun _ final => ∀ address, hidden.objects address →
            final.heap.get? address = entered.heap.get? address)
          (fun _ final => ∀ address, hidden.objects address →
            final.heap.get? address = entered.heap.get? address) := by
  obtain ⟨hides, each⟩ := passings_hides closed evaluated
  refine ⟨by simpa only [false_or] using hides, ?_, ?_⟩
  · intro passing member good shares
    refine ⟨shares.copies.result, fun address isMade => ?_⟩
    rw [(each passing member).2 address isMade]
    exact shares.copies.made address isMade.1
  · intro hidden apart
    have kept := (disciplined fuel (.evalArguments _) machine wellScoped).keeps.of_ok
      (evalArguments_of_passings evaluated)
    have seen : All ((entered.withLocals fun _ => default).heap.Sees hidden)
        (course.map fun passing => passing.outcome.1) := by
      intro value member
      obtain ⟨passing, isPassed, rfl⟩ := List.mem_map.mp member
      exact apart.sees_of_owns isPassed (each passing isPassed).1
        (apart.shares passing isPassed).copies.result
    have ends := ((sighted hidden fuel).callBody apart.allowed seen).ends (apart.hides_start each)
    rw [Ends, callBody_withLocals fuel function _ (kept.wellScoped wellScoped)] at ends
    rw [Ends, callFunction_eq arity evaluated]
    cases ended : callBody fuel function (course.map fun passing => passing.outcome.1) entered with
    | ok value final =>
      rw [ended] at ends
      exact ends.1.heap.same
    | error signal final =>
      rw [ended] at ends
      exact ends.1.heap.same

/-! ### A struct instance and a map -/

def passingPlace : Location :=
  ⟨1, 1, "main.nx"⟩

def Machine.holding (type : Ty) (value : Value) (objects : Array Object) : Machine :=
  { Machine.start (.start .empty [] [] [] 0) "." with
    heap := ⟨objects, 0⟩
    scopes := ⟨#[⟨none, [("x", ⟨type, value, false⟩)], [], []⟩]⟩ }

theorem Machine.wellScoped_holding : (holding type value objects).WellScoped where
  scopes :=
    { root := ⟨_, rfl, rfl⟩
      nested := by
        intro number _ found notRoot
        cases number with
        | zero => exact absurd rfl notRoot
        | succ => cases found }
  current := Nat.zero_lt_one

def Stmt.setFirst (array : Expr) (number : Nat) : Stmt :=
  .assign (.index array (.int 0 passingPlace) passingPlace) (.int number passingPlace) passingPlace

def Function.moving : Function :=
  ⟨"f", [⟨"p", .struct "P" none⟩, ⟨"b", .array .int none⟩], .void,
    [.setFirst (.field (.identifier "p" passingPlace) "a" passingPlace) 2,
      .setFirst (.identifier "b" passingPlace) 3], passingPlace⟩

def Function.movingArguments : List Expr :=
  [.identifier "x" passingPlace, .field (.identifier "x" passingPlace) "a" passingPlace]

def Machine.holdingPoint : Machine :=
  .holding (.struct "P" none) (.object 1) #[.list #[.int 1], .struct "P" [("a", .object 0)]]

def Machine.betweenPoints : Machine :=
  .holding (.struct "P" none) (.object 1)
    #[.list #[.int 1], .struct "P" [("a", .object 0)],
      .list #[.int 1], .struct "P" [("a", .object 2)]]

def Machine.passingPoint : Machine :=
  .holding (.struct "P" none) (.object 1)
    #[.list #[.int 1], .struct "P" [("a", .object 0)],
      .list #[.int 1], .struct "P" [("a", .object 2)], .list #[.int 1]]

def movingCourse : List Passing :=
  [⟨.struct "P" none, .object 1, Machine.holdingPoint.heap⟩,
    ⟨.array .int none, .object 0, Machine.betweenPoints.heap⟩]

def Hidden.ofPoint : Hidden where
  objects := (· < 2)
  bindings name := name == "x"
  definitions _ := false
  imports := false
  noNames := nofun

theorem passings_moving :
    passings 9 (Function.moving.params.zip Function.movingArguments) .holdingPoint =
      .ok movingCourse .passingPoint := by
  rfl

theorem Heap.Hides.of_forall_mem {hidden : Hidden} {objects : List Object} {marks : Nat}
    (exist : ∀ address, hidden.objects address → address < objects.length)
    (each : ∀ object ∈ objects, All (Heap.Sees hidden ⟨objects.toArray, marks⟩) object) :
    Heap.Hides hidden ⟨objects.toArray, marks⟩ where
  exist := exist
  objects _ object found _ := each object (by simpa using Array.mem_of_getElem? found)

theorem holdingPoint_closed : Machine.holdingPoint.Hides (.ofObjects fun _ => False) where
  heap := by
    refine .of_forall_mem nofun
      (List.forall_mem_cons.mpr ⟨by simp, List.forall_mem_singleton.mpr ?_⟩)
    exact List.forall_mem_singleton.mpr ⟨trivial, Nat.zero_lt_two, id⟩
  scopes := by
    rw [Machine.without_of_imports rfl]
    refine Array.forall_mem_singleton.mpr ⟨?_, nofun, nofun⟩
    exact List.forall_mem_singleton.mpr ⟨trivial, Nat.one_lt_two, id⟩
  modules := nofun

theorem madeFor_movingCourse (address : Nat) :
    MadeFor movingCourse address ↔ 2 ≤ address ∧ address < 5 := by
  have first : Passing.outcome ⟨.struct "P" none, .object 1, Machine.holdingPoint.heap⟩ =
      (.object 3, Machine.betweenPoints.heap) := rfl
  have second : Passing.outcome ⟨.array .int none, .object 0, Machine.betweenPoints.heap⟩ =
      (.object 4, Machine.passingPoint.heap) := rfl
  have sizes : Machine.holdingPoint.heap.size = 2 ∧ Machine.betweenPoints.heap.size = 4 ∧
      Machine.passingPoint.heap.size = 5 := ⟨rfl, rfl, rfl⟩
  simp only [movingCourse, madeFor_cons, madeFor_nil, or_false, Passing.Made, first, second, sizes]
  change (2 ≤ address ∧ address < 4 ∨ 4 ≤ address ∧ address < 5) ↔ _
  omega

theorem cannotReach_moving : CannotReach .ofPoint .moving movingCourse .passingPoint where
  notMade address isHidden isMade :=
    absurd isHidden (Nat.not_lt.mpr ((madeFor_movingCourse address).mp isMade).1)
  hides := by
    refine ⟨⟨fun address isHidden => ?_, fun address object found notHidden => ?_⟩, ?_, nofun⟩
    · rcases isHidden with isHidden | isMade
      · exact Nat.lt_trans isHidden (show 2 < 5 by decide)
      · exact ((madeFor_movingCourse address).mp isMade).2
    · -- Every object is hidden or was made for a parameter.
      refine absurd ?_ notHidden
      have isThere : address < 5 := Heap.lt_size_of_get? found
      rcases Nat.lt_or_ge address 2 with isHidden | isNew
      · exact .inl isHidden
      · exact .inr ((madeFor_movingCourse address).mpr ⟨isNew, isThere⟩)
    · exact Array.forall_mem_singleton.mpr ⟨nofun, nofun, nofun⟩
  allowed := by
    rw [Hidden.Allows]
    decide
  shares := by
    have spansArray (heap : Heap) (isArray : heap.get? 0 = some (.list #[.int 1])) :
        heap.Spans (Machine.passingPoint.heap.Sees .ofPoint) 1 (.object 0) :=
      .copied isArray rfl (List.forall_mem_singleton.mpr (.ended trivial trivial))
    refine List.forall_mem_cons.mpr ⟨?_, List.forall_mem_singleton.mpr ?_⟩
    · have isPoint : Machine.holdingPoint.heap.get? 1 = some (.struct "P" [("a", .object 0)]) := rfl
      exact ⟨2, .copied isPoint rfl (List.forall_mem_singleton.mpr (spansArray _ rfl))⟩
    · exact ⟨1, spansArray _ rfl⟩

/-- The call changes neither the struct instance nor the array inside it. -/
theorem call_isolates_arguments_point :
    Machine.holdingPoint.WellScoped ∧
      Machine.holdingPoint.Hides (.ofObjects fun _ => False) ∧
      Function.movingArguments.length = Function.moving.params.length ∧
      passings 9 (Function.moving.params.zip Function.movingArguments) .holdingPoint =
        .ok movingCourse .passingPoint ∧
      CannotReach .ofPoint .moving movingCourse .passingPoint ∧
      ∃ value final,
        callFunction 10 .moving Function.movingArguments .holdingPoint = .ok value final ∧
        ∀ address < 2, final.heap.get? address = Machine.holdingPoint.heap.get? address := by
  have wellScoped : Machine.holdingPoint.WellScoped := Machine.wellScoped_holding
  have isolates := (call_isolates_arguments 9 .moving Function.movingArguments .holdingPoint
    .passingPoint movingCourse wellScoped holdingPoint_closed rfl passings_moving).2.2 .ofPoint
    cannotReach_moving
  refine ⟨wellScoped, holdingPoint_closed, rfl, passings_moving, cannotReach_moving, _, _, rfl, ?_⟩
  intro address isHidden
  have same := isolates.of_ok rfl address isHidden
  cases address with
  | zero => exact same
  | succ address =>
    obtain rfl : address = 0 := Nat.lt_one_iff.mp (Nat.lt_of_succ_lt_succ isHidden)
    exact same

def Function.resetting : Function :=
  ⟨"f", [⟨"m", .map .string .int⟩], .void,
    [.assign (.index (.identifier "m" passingPlace) (.string "a" passingPlace) passingPlace)
      (.int 2 passingPlace) passingPlace], passingPlace⟩

/-- A map is not copied: after the call, its caller finds what the function put into it. -/
theorem call_changes_map :
    ∃ value final, value.int? = some 2 ∧
      (do
        let _ ← callFunction 10 .resetting [.identifier "x" passingPlace]
        eval 10 (.index (.identifier "x" passingPlace) (.string "a" passingPlace) passingPlace))
        (.holding (.map .string .int) (.object 0) #[.map [(.string "a", .int 1)]]) =
      .ok value final := by
  exact ⟨_, _, rfl, rfl⟩

end Noxy
