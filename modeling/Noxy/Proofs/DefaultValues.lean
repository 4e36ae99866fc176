import Noxy.Proofs.OwnSteps

/-!
# Default values

What a variable starts with when it is declared without a value.
-/

namespace Noxy

open Exec

def Ty.zero? : Ty → Option Value
  | int => some (.int 0)
  | float => some (.float 0)
  | string => some (.string "")
  | bool => some (.bool false)
  | bytes => some (.bytes [])
  | array _ _ => none
  | map _ _ => none
  | struct _ _ => none
  | _ => some .null

/-- What a new value of the type consists of: the types of its parts, and the object they make. -/
def Ty.composition? (structs : String → Option Struct) :
    Ty → Option (List Ty × (List Value → Object))
  | array _ none => some ([], fun _ => .list #[])
  | array element (some size) =>
    some (List.replicate size element, fun values => .array values.toArray element)
  | map _ _ => some ([], fun _ => .map [])
  | struct name _ => (structs name).map fun definition =>
    (definition.fields.map Declared.type, fun values =>
      .struct name (fieldsOf definition.fields values))
  | _ => none

/-- The values are those that variables of the types start with.  The objects in them are listed,
each as often as it occurs. -/
inductive Heap.Defaults (heap : Heap) (structs : String → Option Struct) :
    List Ty → List Value → List Address → Prop where
  | nil : Defaults heap structs [] [] []
  | zero (isZero : type.zero? = some value) (others : Defaults heap structs types values made) :
      Defaults heap structs (type :: types) (value :: values) made
  | object (isObject : type.composition? structs = some (within, build))
      (found : heap.get? address = some (build parts))
      (each : Defaults heap structs within parts made)
      (others : Defaults heap structs types values made') :
      Defaults heap structs (type :: types) (.object address :: values) (made ++ address :: made')

/-- Nothing is changed but that there are new objects, among them those at the addresses. -/
structure Machine.Creates (machine : Machine) (made : List Address) (later : Machine) : Prop where
  same : later = { machine with heap := later.heap }
  extended : machine.heap.Extends later.heap
  isNew : ∀ address ∈ made, machine.heap.size ≤ address ∧ address < later.heap.size
  once : made.Nodup

variable {machine middle final : Machine} {made made' : List Address}

namespace Machine.Creates

theorem refl (machine : Machine) : machine.Creates [] machine :=
  ⟨rfl, .refl _, by simp, List.nodup_nil⟩

theorem trans (first : machine.Creates made middle) (second : middle.Creates made' final) :
    machine.Creates (made ++ made') final where
  same := second.same.trans
    (congrArg (fun moment : Machine => { moment with heap := final.heap }) first.same)
  extended := first.extended.trans second.extended
  isNew address member := by
    rcases List.mem_append.mp member with isFirst | isSecond
    · exact (first.isNew address isFirst).imp_right (Nat.lt_of_lt_of_le · second.extended.grown)
    · exact (second.isNew address isSecond).imp_left (Nat.le_trans first.extended.grown)
  once := List.nodup_append.mpr ⟨first.once, second.once, fun address isFirst other isSecond =>
    Nat.ne_of_lt (Nat.lt_of_lt_of_le (first.isNew address isFirst).2
      (second.isNew other isSecond).1)⟩

theorem alloc (machine : Machine) (object : Object) :
    machine.Creates [machine.heap.size] { machine with heap := (machine.heap.alloc object).2 } where
  same := rfl
  extended := .alloc machine.heap object
  isNew address member := by
    rw [List.mem_singleton.mp member, Heap.size_alloc]
    exact ⟨Nat.le_refl _, Nat.lt_succ_self _⟩
  once := List.nodup_singleton _

end Machine.Creates

namespace Heap.Defaults

variable {heap later : Heap} {structs : String → Option Struct} {type : Ty} {types : List Ty}
  {value : Value} {values : List Value}

theorem extend (defaults : heap.Defaults structs types values made)
    (extended : heap.Extends later) :
    later.Defaults structs types values made := by
  induction defaults with
  | nil => exact .nil
  | zero isZero _ ih => exact .zero isZero ih
  | object isObject found _ _ ih ih' => exact .object isObject (extended.get? found) ih ih'

theorem cons (first : heap.Defaults structs [type] [value] made)
    (rest : heap.Defaults structs types values made') :
    heap.Defaults structs (type :: types) (value :: values) (made ++ made') := by
  cases first with
  | zero isZero others =>
    cases others
    exact .zero isZero rest
  | object isObject found each others =>
    cases others
    rw [List.append_assoc, List.singleton_append]
    exact .object isObject found each rest

end Heap.Defaults

theorem defaults_of_alloc {type : Ty} {within : List Ty} {build : List Value → Object}
    {values : List Value} {value : Value}
    (isObject : type.composition? machine.struct? = some (within, build))
    (parts : ∃ made, middle.heap.Defaults machine.struct? within values made ∧
      machine.Creates made middle)
    (ended : Exec.alloc (build values) middle = .ok value final) :
    ∃ made, final.heap.Defaults machine.struct? [type] [value] made ∧
      machine.Creates made final := by
  obtain ⟨made, defaults, creates⟩ := parts
  cases ended
  have created := Machine.Creates.alloc middle (build values)
  refine ⟨_, .object isObject ?_ (defaults.extend created.extended) .nil, creates.trans created⟩
  exact (Heap.get?_alloc _ _ _).trans (if_pos rfl)

theorem defaultValue_creates (fuel : Nat) :
    (∀ type machine value final, defaultValue fuel type machine = .ok value final →
      ∃ made, final.heap.Defaults machine.struct? [type] [value] made ∧
        machine.Creates made final) ∧
    ∀ types machine values final, defaultValues fuel types machine = .ok values final →
      ∃ made, final.heap.Defaults machine.struct? types values made ∧
        machine.Creates made final := by
  induction fuel with
  | zero => constructor <;> (intro _ _ _ _ ended; cases ended)
  | succ fuel ih =>
    constructor
    · intro type machine value final ended
      cases type with
      | array element size =>
        cases size with
        | none => exact defaults_of_alloc rfl ⟨[], .nil, .refl machine⟩ ended
        | some size =>
          obtain ⟨values, middle, parts, ended⟩ := exists_of_bind_eq_ok ended
          exact defaults_of_alloc rfl (ih.2 _ _ _ _ parts) ended
      | map key value => exact defaults_of_alloc rfl ⟨[], .nil, .refl machine⟩ ended
      | struct name home =>
        rw [defaultValue, get_bind] at ended
        cases isDefined : machine.struct? name with
        | none =>
          rw [isDefined] at ended
          cases ended
        | some definition =>
          rw [isDefined] at ended
          obtain ⟨values, middle, parts, ended⟩ := exists_of_bind_eq_ok ended
          have isObject : (Ty.struct name home).composition? machine.struct? =
              some (definition.fields.map Declared.type, fun values =>
                .struct name (fieldsOf definition.fields values)) := by
            rw [Ty.composition?, isDefined]
            rfl
          exact defaults_of_alloc isObject (ih.2 _ _ _ _ parts) ended
      | _ =>
        cases ended
        exact ⟨[], .zero rfl .nil, .refl machine⟩
    · intro types machine values final ended
      cases types with
      | nil =>
        cases ended
        exact ⟨[], .nil, .refl machine⟩
      | cons type rest =>
        obtain ⟨value, middle, first, ended⟩ := exists_of_bind_eq_ok ended
        obtain ⟨others, last, isRest, ended⟩ := exists_of_bind_eq_ok ended
        cases ended
        obtain ⟨made, defaults, creates⟩ := ih.1 _ _ _ _ first
        obtain ⟨made', defaults', creates'⟩ := ih.2 _ _ _ _ isRest
        have sameStructs : middle.struct? = machine.struct? := by
          rw [creates.same]
          rfl
        rw [sameStructs] at defaults'
        exact ⟨_, (defaults.extend creates'.extended).cons defaults', creates.trans creates'⟩

/-- A default value that is made conforms to its type at every level, and its objects are all new
and occur once, so that writing to one of them changes no other of them and no older object. -/
theorem default_values_unshared (machine : Machine) (type : Ty) {fuel : Nat} {value : Value}
    (ended : defaultValue fuel type machine = .ok value final) :
    ∃ made, final.heap.Defaults machine.struct? [type] [value] made ∧
      machine.Creates made final ∧ ∀ change : Change, change.address ∈ made →
        (∀ address ∈ made, address ≠ change.address →
          (final.heap.apply change).get? address = final.heap.get? address) ∧
        ∀ address < machine.heap.size,
          (final.heap.apply change).get? address = machine.heap.get? address := by
  obtain ⟨made, defaults, creates⟩ := (defaultValue_creates fuel).1 _ _ _ _ ended
  have untouched (change : Change) {address : Address} (isOther : address ≠ change.address) :
      (final.heap.apply change).get? address = final.heap.get? address := by
    rw [Heap.apply, Heap.modify, Heap.get?, Array.getElem?_modify, if_neg isOther.symm]
    rfl
  refine ⟨made, defaults, creates, fun change isMade => ⟨fun _ _ => untouched change, ?_⟩⟩
  intro address isOld
  have isOther := Nat.ne_of_lt (Nat.lt_of_lt_of_le isOld (creates.isNew _ isMade).1)
  rw [untouched change isOther, creates.extended.same address isOld]

theorem default_values_unshared_square :
    let machine := Machine.start (.start .empty [] [] [] 0) "."
    let type := Ty.array (.array .int (some 2)) (some 2)
    ∃ value final made, defaultValue 9 type machine = .ok value final ∧
      final.heap.Defaults machine.struct? [type] [value] made ∧ machine.Creates made final := by
  intro machine type
  have ended : defaultValue 9 type machine = .ok _ _ := rfl
  obtain ⟨made, defaults, creates, _⟩ := default_values_unshared machine type ended
  exact ⟨_, _, made, ended, defaults, creates⟩

end Noxy
