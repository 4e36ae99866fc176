import Noxy.Proofs.Origin
import Noxy.Proofs.ScalarChecking

/-!
# Assignment

What can be read through a variable can be assigned through it, and is read back then.
-/

namespace Noxy

open Exec

/-! ### Variables -/

namespace Scopes

variable {scopes : Scopes} {owner : Nat} {name : String} {value : Value}

theorem binding?_assignIn_of_ne (different : other ≠ name) (number : Nat) :
    (scopes.assignIn owner name value).binding? number other = scopes.binding? number other := by
  refine congrArg (Option.map Prod.snd) (find_modify (fun _ => by rfl) owner
    (fun scope => ?_) number)
  simp [Bindings.get?_assigned, different]

theorem binding?_assignIn {number : Nat} {binding : Variable}
    (isOwner : scopes.owner? number name = some owner)
    (bound : scopes.binding? number name = some binding) :
    (scopes.assignIn owner name value).binding? number name =
      some { binding with value := value } := by
  obtain ⟨_, isFound, rfl⟩ := Option.map_eq_some_iff.mp isOwner
  rw [binding?, isFound] at bound
  cases bound
  obtain ⟨meets, isBound⟩ := find_eq_some_iff.mp isFound
  exact meets.binding?_assignIn isBound value

end Scopes

section Variables

variable {fuel : Nat} {name : String} {location : Location} {machine final : Machine}
  {value : Value} {binding : Variable}

theorem bound_of_eval_identifier
    (read : eval (fuel + 1) (.identifier name location) machine = .ok value final) :
    final = machine ∧ ∃ binding, machine.scopes.binding? machine.current name = some binding ∧
      binding.value = value := by
  obtain ⟨_, _, isBinding, returned⟩ := exists_of_bind_eq_ok read
  cases bound : machine.scopes.binding? machine.current name with
  | some =>
    cases (binding_of_some bound).symm.trans isBinding
    cases returned
    exact ⟨rfl, _, rfl, rfl⟩
  | none =>
    rw [Exec.binding, get_bind] at isBinding
    simp only [bound] at isBinding
    cases isBinding

/-- What a variable holds depends on the scopes only. -/
theorem eval_identifier_of_scopes
    (read : eval (fuel + 1) (.identifier name location) machine = .ok value machine) :
    eval (fuel + 1) (.identifier name location) { machine with heap := heap } =
      .ok value { machine with heap := heap } := by
  obtain ⟨_, _, bound, rfl⟩ := bound_of_eval_identifier read
  exact eval_identifier bound

end Variables

/-! ### Parts of objects -/

inductive Place where
  | field (name : String)
  | item (index : Value)

def Object.elements? : Object → Option (Array Value)
  | .list elements | .array elements _ => some elements
  | _ => none

/-- `before.Replaces value place after`: the part of an object at a place is replaced by a value,
and all its other parts stay as they are. -/
inductive Object.Replaces (value : Value) : Place → Object → Object → Prop where
  | field (isField : fields[slot]? = some (name, old)) :
      Replaces value (.field name) (.struct structName fields)
        (.struct structName (fields.set slot (name, value)))
  | element (hasElements : object.elements? = some elements)
      (isIndex : index.int? = some (Int.ofNat position)) (inside : position < elements.size) :
      Replaces value (.item index) object (object.mapElements (·.setIfInBounds position value))
  | entry (isKey : index.key? = some key) (isEntry : entries[slot]? = some (other, old))
      (isSame : other.same key = true) :
      Replaces value (.item index) (.map entries) (.map (entries.set slot (other, value)))

/-- The machine after a value was stored in a part of an object, and nothing else was changed. -/
def Machine.Stores (machine : Machine) (address : Address) (place : Place) (value : Value)
    (final : Machine) : Prop :=
  ∃ before after, machine.heap.get? address = some before ∧
    Object.Replaces value place before after ∧
    final = { machine with heap := machine.heap.modify address fun _ => after }

theorem Bindings.exists_put (found : get? name bindings = some old) :
    ∃ number, bindings[number]? = some (name, old) ∧
      put name value bindings = bindings.set number (name, value) := by
  induction bindings with
  | nil => cases found
  | cons entry _ ih =>
    obtain ⟨bound, _⟩ := entry
    by_cases same : bound = name
    · refine ⟨0, ?_, ?_⟩ <;> simp_all [get?, put]
    · simp only [get?, same, if_false] at found
      obtain ⟨number, isEntry, isPut⟩ := ih found
      exact ⟨number + 1, isEntry, by simp [put, same, isPut]⟩

theorem Map.exists_put (found : get? key entries = some old) :
    ∃ number other, entries[number]? = some (other, old) ∧ other.same key = true ∧
      put key value entries = entries.set number (other, value) := by
  induction entries with
  | nil => cases found
  | cons entry _ ih =>
    obtain ⟨bound, _⟩ := entry
    by_cases same : bound.same key = true
    · refine ⟨0, bound, ?_, same, ?_⟩ <;> simp_all [get?, put]
    · simp only [get?, same] at found
      obtain ⟨number, other, isEntry, isSame, isPut⟩ := ih found
      exact ⟨number + 1, other, isEntry, isSame, by simp [put, same, isPut]⟩

theorem Map.get?_put_self (key : Key) (value : Value) (found : get? key entries = some old) :
    get? key (put key value entries) = some value := by
  induction entries with
  | nil => cases found
  | cons entry _ ih =>
    obtain ⟨bound, _⟩ := entry
    by_cases same : bound.same key = true
    · simp [get?, put, same]
    · simp only [get?, same] at found
      simp [get?, put, same, ih found]

namespace Heap

/-- The targets of the references that lead from a value to what it refers to. -/
inductive Passes (heap : Heap) : Value → Target → Prop where
  | first (isRef : heap.object? value = some (.ref target)) : Passes heap value target
  | later (isRef : heap.object? value = some (.ref earlier))
      (read : heap.targetValue earlier = .ok next) (passes : Passes heap next target) :
      Passes heap value target

variable {heap : Heap} {address : Address} {object : Object} {index value old : Value}

theorem apply_eq_modify (found : heap.get? address = some object) (change : Object → Object) :
    heap.apply ⟨address, change⟩ = heap.modify address fun _ => change object := by
  have sameObjects : heap.objects.modify address change =
      heap.objects.modify address fun _ => change object := by
    refine Array.ext_getElem? fun other => ?_
    rw [Array.getElem?_modify, Array.getElem?_modify]
    split
    · rename_i same
      cases same
      rw [show heap.objects[address]? = some object from found]
      rfl
    · rfl
  rw [apply, modify, sameObjects]
  rfl

theorem get?_modify_self (found : heap.get? address = some object) (after : Object) :
    (heap.modify address fun _ => after).get? address = some after := by
  rw [get?, modify, Array.getElem?_modify, if_pos rfl]
  rw [show heap.objects[address]? = some object from found]
  rfl

theorem get?_modify_of_ne (different : address ≠ other) :
    (heap.modify address fun _ => after).get? other = heap.get? other := by
  rw [get?, modify, Array.getElem?_modify, if_neg different]
  rfl

theorem dereference_object (found : heap.get? address = some object)
    (notRef : ∀ target, object ≠ .ref target) :
    heap.dereference (.object address) = .ok (.object address) := by
  rw [dereference, depth, follow]
  simp only [object?, found]
  cases object with
  | ref target => exact absurd rfl (notRef target)
  | _ => rfl

/-! ### Elements and entries -/

/-- An assignment by an index succeeds, replaces one part of an object, and is read back. -/
def AssignsItem (heap : Heap) (address : Address) (index value : Value) (object : Object) : Prop :=
  ∃ change after, heap.indexAssignment (.object address) index value = .ok change ∧
    heap.apply change = heap.modify address (fun _ => after) ∧
    Object.Replaces value (.item index) object after ∧
    (heap.modify address fun _ => after).indexed (.object address) index = .ok value

theorem boundedPosition_eq_ok {length : Nat} :
    boundedPosition index length cause = .ok position ↔
      (0 ≤ index.int?.getD 0 ∧ index.int?.getD 0 < length) ∧
        position = (index.int?.getD 0).toNat := by
  unfold boundedPosition
  by_cases inside : 0 ≤ index.int?.getD 0 ∧ index.int?.getD 0 < length
  · simp only [inside, and_self, if_true, true_and]
    exact ⟨fun same => by cases same; rfl, fun same => by rw [same]; rfl⟩
  · simp only [inside, if_false, false_and, iff_false]
    cases indexText index <;> nofun

theorem checkIndex_eq_ok :
    heap.checkIndex container index = .ok () ↔
      index.int?.isSome = true ∨ heap.isMap container = true := by
  rw [checkIndex, ← Bool.or_eq_true_iff]
  split
  · simp_all
  · simp_all

section Elements

variable (hasElements : object.elements? = some elements)
include hasElements

theorem elements?_mapElements (change : Array Value → Array Value) :
    (object.mapElements change).elements? = some (change elements) := by
  cases object <;> cases hasElements <;> rfl

variable (found : heap.get? address = some object)
include found

theorem indexed_elements (index : Value) :
    heap.indexed (.object address) index = (do
      heap.checkIndex (.object address) index
      let position ← boundedPosition index elements.size (.indexOutside · elements.size)
      return elements.getD position .null) := by
  cases object <;> cases hasElements <;>
    simp [indexed, dereference_object found (by simp), object?, found, Bind.bind, Except.bind]

theorem indexAssignment_elements (index value : Value) :
    heap.indexAssignment (.object address) index value = (do
      heap.checkIndex (.object address) index
      let position ← boundedPosition index elements.size .indexOutOfRange
      return elementChange address position value) := by
  cases object <;> cases hasElements <;> simp [indexAssignment, found]

theorem isMap_elements : heap.isMap (.object address) = false := by
  cases object <;> cases hasElements <;> simp [isMap, object?, found]

theorem exists_elementAssignment (read : heap.indexed (.object address) index = .ok old) :
    heap.AssignsItem address index value object := by
  rw [indexed_elements hasElements found] at read
  obtain ⟨_, checked, read⟩ := Typed.ok_of_bind read
  obtain ⟨_, isPosition, _⟩ := Typed.ok_of_bind read
  obtain ⟨inside, rfl⟩ := boundedPosition_eq_ok.mp isPosition
  have isInt : index.int?.isSome = true := by
    simpa [isMap_elements hasElements found] using checkIndex_eq_ok.mp checked
  obtain ⟨number, isNumber⟩ := Option.isSome_iff_exists.mp isInt
  rw [isNumber, Option.getD_some] at inside
  have isIndex : index.int? = some (Int.ofNat number.toNat) := by
    rw [isNumber, Int.ofNat_eq_natCast, Int.toNat_of_nonneg inside.1]
  have isBelow : number.toNat < elements.size := by omega
  have bounded (cause : String → RuntimeCause) :
      boundedPosition index elements.size cause = .ok number.toNat :=
    boundedPosition_eq_ok.mpr (by rw [isNumber]; exact ⟨inside, rfl⟩)
  refine ⟨elementChange address number.toNat value,
    object.mapElements (·.setIfInBounds number.toNat value), ?_, apply_eq_modify found _,
    .element hasElements isIndex isBelow, ?_⟩
  · rw [indexAssignment_elements hasElements found, checked, bounded]
    rfl
  · have later := get?_modify_self found (object.mapElements (·.setIfInBounds number.toNat value))
    rw [indexed_elements (elements?_mapElements hasElements _) later,
      checkIndex_eq_ok.mpr (.inl isInt), Array.size_setIfInBounds, bounded]
    simp [Bind.bind, Except.bind, Pure.pure, Except.pure, isBelow]

end Elements

theorem exists_entryAssignment (found : heap.get? address = some (.map entries))
    (read : heap.indexed (.object address) index = .ok old) (value : Value) :
    heap.AssignsItem address index value (.map entries) := by
  have isMap {heap : Heap} {entries : List (Key × Value)}
      (found : heap.get? address = some (.map entries)) :
      heap.checkIndex (.object address) index = .ok () :=
    checkIndex_eq_ok.mpr (.inr (by simp [isMap, object?, found]))
  simp only [indexed, isMap found, dereference_object found (by simp), object?, found, Bind.bind,
    Except.bind] at read
  cases isKey : index.key? with
  | none => simp [isKey, throw, throwThe, MonadExceptOf.throw] at read
  | some key =>
    cases isEntry : Map.get? key entries with
    | none =>
      simp only [isKey, isEntry] at read
      cases isText : heap.plain index <;>
        simp [isText, throw, throwThe, MonadExceptOf.throw] at read
    | some =>
      obtain ⟨_, _, atSlot, isSame, isPut⟩ := Map.exists_put isEntry
      refine ⟨⟨address, Object.mapEntries (Map.put key value)⟩, .map (Map.put key value entries),
        ?_, apply_eq_modify found _, by rw [isPut]; exact .entry isKey atSlot isSame, ?_⟩
      · simp [indexAssignment, isMap found, found, entryChange, isKey, Bind.bind, Except.bind]
      · have later := get?_modify_self found (.map (Map.put key value entries))
        simp [indexed, isMap later, dereference_object later (by simp), object?, later, isKey,
          Map.get?_put_self key value isEntry, Bind.bind, Except.bind, Pure.pure, Except.pure]

/-- Whatever can be indexed can be assigned to by the same index. -/
theorem exists_indexAssignment (found : heap.get? address = some object)
    (notRef : ∀ target, object ≠ .ref target)
    (read : heap.indexed (.object address) index = .ok old) :
    heap.AssignsItem address index value object := by
  cases object with
  | list => exact exists_elementAssignment rfl found read
  | array => exact exists_elementAssignment rfl found read
  | map => exact exists_entryAssignment found read value
  | ref target => exact absurd rfl (notRef target)
  | struct | module =>
    simp only [indexed, dereference_object found (by simp), object?, found, Bind.bind,
      Except.bind] at read
    split at read <;> cases read

/-! ### Fields -/

section Fields

variable {structName name : String} {fields : List (String × Value)} {target : Target}
  {last : Value}

theorem object?_modify_of_ne (different : other ≠ .object address) (after : Object) :
    (heap.modify address fun _ => after).object? other = heap.object? other := by
  cases other with
  | object => exact get?_modify_of_ne (fun same => different (by rw [same]))
  | _ => rfl

section

variable (found : heap.get? address = some (.struct structName fields))
include found

theorem className_modify (changed : List (String × Value)) (other : Value) :
    (heap.modify address fun _ => .struct structName changed).className other =
      heap.className other := by
  cases other with
  | object number =>
    by_cases same : address = number
    · cases same
      rw [className, className, get?_modify_self found, found]
    · rw [className, className, get?_modify_of_ne same]
  | _ => rfl

theorem targetValue_modify (different : target ≠ .field (.object address) name)
    (read : heap.targetValue target = .ok next) :
    (heap.modify address fun _ => .struct structName (Bindings.put name value fields)).targetValue
      target = .ok next := by
  have named := className_modify found (Bindings.put name value fields)
  have later := get?_modify_self found (.struct structName (Bindings.put name value fields))
  have other {container : Value} (isOther : container ≠ .object address) :
      (heap.modify address fun _ => .struct structName (Bindings.put name value fields)).object?
        container = heap.object? container :=
    object?_modify_of_ne isOther _
  cases target with
  | value => exact read
  | field container selected =>
    by_cases isObject : container = .object address
    · cases isObject
      have isOther : name ≠ selected := fun same => different (by rw [same])
      simp only [targetValue, object?, later, found, fieldOf,
        Bindings.get?_put_of_ne isOther] at read ⊢
      exact read
    · simp only [targetValue, other isObject, entryOrNull, named] at read ⊢
      exact read
  | key container key =>
    by_cases isObject : container = .object address
    · cases isObject
      simp only [targetValue, object?, later, found] at read ⊢
      cases key <;> exact read
    · simp only [targetValue, other isObject, entryOrNull, named] at read ⊢
      exact read
  | index container =>
    by_cases isObject : container = .object address
    · cases isObject
      simp only [targetValue, item, object?, later, found, notSubscriptable, named] at read ⊢
      exact read
    · cases container with
      | object =>
        simp only [targetValue, item, listItem, checkBounds, other isObject, notSubscriptable,
          named] at read ⊢
        exact read
      | _ =>
        simp only [targetValue, item, notSubscriptable, named] at read ⊢
        exact read

/-- What a value refers to remains, unless the field that is assigned leads there. -/
theorem follow_modify (avoids : ¬ heap.Passes next (.field (.object address) name)) {depth : Nat}
    (followed : heap.follow depth next = .ok last) :
    (heap.modify address fun _ => .struct structName (Bindings.put name value fields)).follow
      depth next = .ok last := by
  induction depth generalizing next with
  | zero => cases followed
  | succ _ ih =>
    by_cases isObject : next = .object address
    · cases isObject
      rw [follow, object?, found] at followed
      rw [follow, object?, get?_modify_self found]
      exact followed
    · rw [follow] at followed
      rw [follow, object?_modify_of_ne isObject]
      cases isRef : heap.object? next with
      | none =>
        rw [isRef] at followed
        exact followed
      | some object =>
        rw [isRef] at followed
        cases object with
        | ref target =>
          obtain ⟨_, read, followed⟩ := Typed.ok_of_bind followed
          have different : target ≠ .field (.object address) name :=
            fun same => avoids (same ▸ .first isRef)
          have rest := ih (fun passes => avoids (.later isRef read passes)) followed
          simp only [targetValue_modify found different read]
          exact rest
        | _ => exact followed

end

theorem exists_fieldAssignment {object : Value}
    (leads : heap.dereference object = .ok (.object address))
    (found : heap.get? address = some (.struct structName fields))
    (read : heap.selected object name = .ok old) (value : Value) :
    ∃ change after, heap.fieldAssignment object name value = .ok change ∧
      heap.apply change = heap.modify address (fun _ => after) ∧
      Object.Replaces value (.field name) (.struct structName fields) after ∧
      (¬ heap.Passes object (.field (.object address) name) →
        (heap.modify address fun _ => after).selected object name = .ok value) := by
  have isField : Bindings.get? name fields = some old := by
    simp only [selected, leads, Bind.bind, Except.bind, Value.isNull, object?, found,
      fieldOf] at read
    cases isField : Bindings.get? name fields with
    | none => simp [isField] at read
    | some previous => simpa [isField] using read
  obtain ⟨slot, atSlot, isPut⟩ := Bindings.exists_put isField
  refine ⟨⟨address, Object.mapFields (Bindings.put name value)⟩,
    .struct structName (Bindings.put name value fields), ?_, apply_eq_modify found _,
    by rw [isPut]; exact .field atSlot, fun avoids => ?_⟩
  · simp [fieldAssignment, leads, found, fieldChange, isField, Bind.bind, Except.bind]
  · have later := get?_modify_self found (.struct structName (Bindings.put name value fields))
    have leads' : (heap.modify address fun _ =>
        .struct structName (Bindings.put name value fields)).dereference object =
          .ok (.object address) := by
      have sameDepth : (heap.modify address fun _ =>
          .struct structName (Bindings.put name value fields)).depth = heap.depth :=
        congrArg (· + 2) Array.size_modify
      rw [dereference, sameDepth]
      exact follow_modify found avoids leads
    simp [selected, leads', Value.isNull, object?, later, fieldOf, Bind.bind, Except.bind]

end Fields

end Heap

/-! ### Reading back -/

/--
A variable that can be read can be assigned, and so can a field of a struct to which a variable
leads, and an element or entry of a list, array or map that a variable holds.  The value is read
back then, and nothing else is changed.  A field is not always read back where the variable leads to
the struct through a reference to this very field.  Elements to which a variable leads through a
reference can be read, and so can members of modules, but assigning them fails and changes nothing.
-/
theorem readable_places_are_assignable (fuel : Nat) (machine : Machine) (value : Value) :
    (∀ name location old last,
      eval (fuel + 1) (.identifier name location) machine = .ok old last →
      ∃ final, assignTarget (fuel + 1) (.identifier name location) value machine = .ok () final ∧
        eval (fuel + 1) (.identifier name location) final = .ok value final ∧
        final = { machine with scopes := final.scopes } ∧
        ∀ number other, other ≠ name →
          final.scopes.binding? number other = machine.scopes.binding? number other) ∧
    (∀ owner here name location object address structName fields old last,
      eval (fuel + 1) (.identifier owner here) machine = .ok object machine →
      machine.heap.dereference object = .ok (.object address) →
      machine.heap.get? address = some (.struct structName fields) →
      eval (fuel + 2) (.field (.identifier owner here) name location) machine = .ok old last →
      ∃ final, assignTarget (fuel + 2) (.field (.identifier owner here) name location) value
          machine = .ok () final ∧
        machine.Stores address (.field name) value final ∧
        (¬ machine.heap.Passes object (.field (.object address) name) →
          eval (fuel + 2) (.field (.identifier owner here) name location) final =
            .ok value final)) ∧
    (∀ owner here index there location address object indexValue old last,
      eval (fuel + 1) (.identifier owner here) machine = .ok (.object address) machine →
      eval (fuel + 1) (.identifier index there) machine = .ok indexValue machine →
      machine.heap.get? address = some object → (∀ target, object ≠ .ref target) →
      eval (fuel + 2) (.index (.identifier owner here) (.identifier index there) location) machine =
        .ok old last →
      ∃ final, assignTarget (fuel + 2)
          (.index (.identifier owner here) (.identifier index there) location) value machine =
            .ok () final ∧
        machine.Stores address (.item indexValue) value final ∧
        eval (fuel + 2) (.index (.identifier owner here) (.identifier index there) location) final =
          .ok value final) ∧
    (∀ owner here index there location address target indexValue old last,
      eval (fuel + 1) (.identifier owner here) machine = .ok (.object address) machine →
      eval (fuel + 1) (.identifier index there) machine = .ok indexValue machine →
      machine.heap.get? address = some (.ref target) →
      eval (fuel + 2) (.index (.identifier owner here) (.identifier index there) location) machine =
        .ok old last →
      assignTarget (fuel + 2)
          (.index (.identifier owner here) (.identifier index there) location) value machine =
        .error (.failure (.error (.runtime (.notIndexable "environment.NoxyRef") none))) machine) ∧
    ∀ owner here name location object address moduleName members,
      eval (fuel + 1) (.identifier owner here) machine = .ok object machine →
      machine.heap.dereference object = .ok (.object address) →
      machine.heap.get? address = some (.module moduleName members) →
      assignTarget (fuel + 2) (.field (.identifier owner here) name location) value machine =
        .error (.failure (.error (.runtime (.noFields "environment.NoxyModule") none)))
            machine := by
  refine ⟨?name, ?field, ?item, ?referred, ?member⟩
  case name =>
    intro name location old last read
    obtain ⟨_, binding, bound, _⟩ := bound_of_eval_identifier read
    obtain ⟨found, isFound, _⟩ := Option.map_eq_some_iff.mp bound
    have isOwner : machine.scopes.owner? machine.current name = some found.1 := by
      rw [Scopes.owner?, isFound]
      rfl
    refine ⟨{ machine with scopes := machine.scopes.assignIn found.1 name value },
      assign_of_owner isOwner, ?_, rfl,
      fun number other different => Scopes.binding?_assignIn_of_ne different number⟩
    change eval _ _ _ = .ok ({ binding with value := value } : Variable).value _
    exact eval_identifier (Scopes.binding?_assignIn isOwner bound)
  case field =>
    intro owner here name location object address structName fields old last held leads found read
    obtain ⟨_, _, isHeld, read⟩ := exists_of_bind_eq_ok read
    cases held.symm.trans isHeld
    obtain ⟨change, after, isChange, isApplied, replaces, readBack⟩ :=
      Heap.exists_fieldAssignment leads found (view_eq_ok.mp read).1 value
    refine ⟨{ machine with heap := machine.heap.modify address fun _ => after }, ?_,
      ⟨_, after, found, replaces, rfl⟩, fun avoids => ?_⟩
    · refine (bind_of_ok held).trans ((bind_of_ok (view_eq_ok.mpr ⟨isChange, rfl⟩)).trans ?_)
      rw [← isApplied]
      rfl
    · refine (bind_of_ok (eval_identifier_of_scopes held)).trans ?_
      exact view_eq_ok.mpr ⟨readBack avoids, rfl⟩
  case item =>
    intro owner here index there location address object indexValue old last held indexHeld found
      notRef read
    obtain ⟨_, _, isHeld, read⟩ := exists_of_bind_eq_ok read
    cases held.symm.trans isHeld
    obtain ⟨_, _, isIndex, read⟩ := exists_of_bind_eq_ok read
    cases indexHeld.symm.trans isIndex
    obtain ⟨change, after, isChange, isApplied, replaces, readBack⟩ :=
      Heap.exists_indexAssignment found notRef (view_eq_ok.mp read).1
    refine ⟨{ machine with heap := machine.heap.modify address fun _ => after }, ?_,
      ⟨_, after, found, replaces, rfl⟩, ?_⟩
    · refine (bind_of_ok held).trans ((bind_of_ok indexHeld).trans
        ((bind_of_ok (view_eq_ok.mpr ⟨isChange, rfl⟩)).trans ?_))
      rw [← isApplied]
      rfl
    · refine (bind_of_ok (eval_identifier_of_scopes held)).trans
        ((bind_of_ok (eval_identifier_of_scopes indexHeld)).trans ?_)
      exact view_eq_ok.mpr ⟨readBack, rfl⟩
  case referred =>
    intro owner here index there location address target indexValue old last held indexHeld found
      read
    obtain ⟨_, _, isHeld, read⟩ := exists_of_bind_eq_ok read
    cases held.symm.trans isHeld
    obtain ⟨_, _, isIndex, read⟩ := exists_of_bind_eq_ok read
    cases indexHeld.symm.trans isIndex
    obtain ⟨_, isChecked, _⟩ := Typed.ok_of_bind (view_eq_ok.mp read).1
    have fails : machine.heap.indexAssignment (.object address) indexValue value =
        .error (.error (.runtime (.notIndexable "environment.NoxyRef") none)) := by
      simp [Heap.indexAssignment, isChecked, found, Heap.fullClassName, Heap.className, Bind.bind,
        Except.bind, throw, throwThe, MonadExceptOf.throw]
    refine (bind_of_ok held).trans ((bind_of_ok indexHeld).trans ?_)
    change (Exec.ofExcept (machine.heap.indexAssignment (.object address) indexValue value) >>=
      Exec.apply) machine = _
    rw [fails]
    rfl
  case member =>
    intro owner here name location object address moduleName members held leads found
    have fails : machine.heap.fieldAssignment object name value =
        .error (.error (.runtime (.noFields "environment.NoxyModule") none)) := by
      simp [Heap.fieldAssignment, leads, found, Heap.fullClassName, Heap.className, Bind.bind,
        Except.bind, throw, throwThe, MonadExceptOf.throw]
    refine (bind_of_ok held).trans ?_
    change (Exec.ofExcept (machine.heap.fieldAssignment object name value) >>= Exec.apply)
      machine = _
    rw [fails]
    rfl

/-- A module `m` with a member, a node whose field leads back to it, with `r` a reference to this
field, and a list `a` with a reference `q` to it. -/
def Machine.unassignable : Machine :=
  { Machine.start (.start .empty [] [] [] 0) "." with
    heap := ⟨#[.module "m" [("x", .int 1)], .struct "Node" [("next", .object 1)],
      .ref (.field (.object 1) "next"), .list #[.int 1], .ref (.value (.object 3))], 0⟩
    scopes := ⟨#[⟨none, [("m", ⟨.imported "m" 0, .object 0, true⟩),
      ("r", ⟨.ref (.struct "Node" none), .object 2, false⟩),
      ("q", ⟨.ref (.array .int none), .object 4, false⟩), ("i", ⟨.int, .int 0, false⟩),
      ("a", ⟨.array .int none, .object 3, false⟩)], [], []⟩]⟩ }

theorem readable_places_not_assignable : let here : Location := ⟨1, 1, "main.nx"⟩
    let item : Expr := .index (.identifier "q" here) (.identifier "i" here) here
    let member : Expr := .field (.identifier "m" here) "x" here
    let field : Expr := .field (.identifier "r" here) "next" here
    (∃ value, eval 5 item .unassignable = .ok value .unassignable) ∧
      assignTarget 5 item (.int 5) .unassignable =
        .error (.failure (.error (.runtime (.notIndexable "environment.NoxyRef") none)))
          .unassignable ∧
      (∃ value, eval 5 member .unassignable = .ok value .unassignable) ∧
      assignTarget 5 member (.int 5) .unassignable =
        .error (.failure (.error (.runtime (.noFields "environment.NoxyModule") none)))
          .unassignable ∧
      (∃ value, eval 5 field .unassignable = .ok value .unassignable) ∧
      ∃ final, assignTarget 5 field .null .unassignable = .ok () final ∧
        eval 5 field final = .error (.failure (.error (.runtime .fieldOfNull none))) final :=
  ⟨⟨_, rfl⟩, rfl, ⟨_, rfl⟩, rfl, ⟨_, rfl⟩, _, rfl, rfl⟩

theorem readable_places_are_assignable_counter : let here : Location := ⟨1, 1, "main.nx"⟩
    let field : Expr := .field (.identifier "r" here) "next" here
    let item : Expr := .index (.identifier "a" here) (.identifier "i" here) here
    (∃ final, assignTarget 4 (.identifier "i" here) (.int 5) .unassignable = .ok () final ∧
      eval 4 (.identifier "i" here) final = .ok (.int 5) final) ∧
    (∃ final, assignTarget 5 field (.int 5) .unassignable = .ok () final ∧
      Machine.unassignable.Stores 1 (.field "next") (.int 5) final) ∧
    ∃ final, assignTarget 5 item (.int 5) .unassignable = .ok () final ∧
      eval 5 item final = .ok (.int 5) final := by
  intro here field item
  obtain ⟨names, fields, items, _⟩ := readable_places_are_assignable 3 .unassignable (.int 5)
  obtain ⟨_, assigned, read, _⟩ := names "i" here _ _ rfl
  obtain ⟨_, fieldAssigned, stores, _⟩ := fields "r" here "next" here _ _ _ _ _ _ rfl rfl rfl rfl
  obtain ⟨_, itemAssigned, _, itemRead⟩ := items "a" here "i" here here _ _ _ _ _ rfl rfl rfl
    (fun _ => Object.noConfusion) rfl
  exact ⟨⟨_, assigned, read⟩, ⟨_, fieldAssigned, stores⟩, _, itemAssigned, itemRead⟩

end Noxy
