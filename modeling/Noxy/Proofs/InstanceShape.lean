import Noxy.Proofs.RunFrame

/-!
# Struct instances keep their shape

The shape of a struct instance is its name with the names of its fields in order.
-/

namespace Noxy

variable {name : String} {address : Address} {value : Value} {machine final : Machine}

open Exec

/-! ### Names of fields -/

namespace Bindings

variable {α : Type}

theorem map_fst_put :
    (put name value bindings).map Prod.fst =
      if name ∈ bindings.map Prod.fst then bindings.map Prod.fst
      else bindings.map Prod.fst ++ [name] := by
  induction bindings with
  | nil => simp [put]
  | cons entry _ ih =>
    obtain ⟨bound, _⟩ := entry
    by_cases same : bound = name
    · simp [put, same]
    · simp only [put, same, if_false, List.map_cons, ih, List.mem_cons, Ne.symm same, false_or]
      split <;> rfl

theorem map_fst_put_of_isSome (isBound : (get? name bindings).isSome = true) :
    (put name value bindings).map Prod.fst = bindings.map Prod.fst := by
  rw [map_fst_put, if_pos]
  by_contra isFree
  rw [get?_eq_none_iff.mpr isFree] at isBound
  cases isBound

end Bindings

def Struct.fieldNames (struct : Struct) : List String :=
  (struct.fields.map Declared.name).eraseDups

theorem map_fst_foldl_put (entries : List (Declared × Value)) (names : List String)
    (done : List (String × Value)) (sameNames : done.map Prod.fst = names.eraseDups) :
    (entries.foldl (fun done (field, value) => Bindings.put field.name value done) done).map
        Prod.fst = (names ++ entries.map fun entry => entry.1.name).eraseDups := by
  induction entries generalizing names done with
  | nil => simpa using sameNames
  | cons entry _ ih =>
    obtain ⟨field, _⟩ := entry
    rw [List.foldl_cons, ih (names ++ [field.name])]
    · simp
    · rw [Bindings.map_fst_put, sameNames, List.eraseDups_append]
      by_cases isOld : field.name ∈ names <;> simp [List.removeAll, isOld, List.eraseDups_cons]

variable {fuel : Nat}

theorem map_fst_fieldsOf {struct : Struct} (complete : values.length = struct.fields.length) :
    (fieldsOf struct.fields values).map Prod.fst = struct.fieldNames := by
  have declared : (struct.fields.zip values).map Prod.fst = struct.fields :=
    List.map_fst_zip (Nat.le_of_eq complete.symm)
  rw [fieldsOf, map_fst_foldl_put _ [] [] rfl, List.nil_append, Struct.fieldNames]
  nth_rewrite 2 [← declared]
  rw [List.map_map]
  rfl

/-! ### Shapes -/

namespace Heap

def shape? (heap : Heap) (address : Address) : Option (String × List String) :=
  (heap.get? address).bind Object.shape?

/-- Instances keep their struct and their fields. -/
structure KeepsShapes (heap later : Heap) : Prop where
  grown : heap.size ≤ later.size
  same : ∀ address, address < heap.size → later.shape? address = heap.shape? address

namespace KeepsShapes

variable {heap : Heap}

theorem of_extends (extended : heap.Extends later) : heap.KeepsShapes later where
  grown := extended.grown
  same address isOld := by rw [shape?, extended.same address isOld, ← shape?]

theorem refl (heap : Heap) : heap.KeepsShapes heap :=
  .of_extends (.refl heap)

theorem trans (first : heap.KeepsShapes later) (second : later.KeepsShapes last) :
    heap.KeepsShapes last where
  grown := Nat.le_trans first.grown second.grown
  same address isOld :=
    (second.same address (Nat.lt_of_lt_of_le isOld first.grown)).trans (first.same address isOld)

theorem apply (same : ∀ object, heap.get? change.address = some object →
      (change.change object).shape? = object.shape?) : heap.KeepsShapes (heap.apply change) where
  grown := Nat.le_of_eq (size_apply heap change).symm
  same address isOld := by
    rw [shape?, shape?, get?_apply]
    split
    · rename_i isThere
      subst isThere
      cases found : heap.get? change.address with
      | none => rfl
      | some object => exact same object found
    · rfl

theorem number (heap : Heap) (value : Float) : heap.KeepsShapes (heap.number value).2 := by
  unfold Heap.number
  split
  · exact ⟨Nat.le_refl _, fun _ _ => rfl⟩
  · exact .refl _

end KeepsShapes

end Heap

namespace Object

variable (object : Object)

@[simp]
theorem shape?_mapElements (change : Array Value → Array Value) :
    (object.mapElements change).shape? = object.shape? := by
  cases object <;> rfl

@[simp]
theorem shape?_mapEntries (change : List (Key × Value) → List (Key × Value)) :
    (object.mapEntries change).shape? = object.shape? := by
  cases object <;> rfl

@[simp]
theorem shape?_mapMembers (change : List (String × Value) → List (String × Value)) :
    (object.mapMembers change).shape? = object.shape? := by
  cases object <;> rfl

end Object

/-! ### Steps -/

namespace Heap

variable {heap : Heap}

theorem Puts.keepsShapes (puts : Puts address value change) :
    heap.KeepsShapes (heap.apply change) := by
  cases puts with
  | element => exact .apply fun object _ => object.shape?_mapElements _
  | entry => exact .apply fun object _ => object.shape?_mapEntries _

theorem fieldChange_keepsShapes {struct : String}
    (found : heap.get? address = some (.struct struct fields))
    (made : fieldChange address struct fields name value = .ok change) :
    heap.KeepsShapes (heap.apply change) := by
  unfold fieldChange at made
  split at made
  · rename_i isThere
    cases made
    refine .apply fun _ isObject => ?_
    cases found.symm.trans isObject
    exact congrArg (fun names => some (struct, names)) (Bindings.map_fst_put_of_isSome isThere)
  · cases made

theorem fieldAssignment_keepsShapes (made : heap.fieldAssignment object name value = .ok change) :
    heap.KeepsShapes (heap.apply change) := by
  unfold fieldAssignment at made
  rcases ok_of_bind made with ⟨behind, _, made⟩
  split at made
  · split at made
    · rename_i found
      exact fieldChange_keepsShapes found made
    · cases made
  · cases made

theorem itemChange_keepsShapes (made : heap.itemChange object index value = .ok change) :
    heap.KeepsShapes (heap.apply change) := by
  unfold itemChange at made
  split at made
  · split at made
    · rcases ok_of_bind made with ⟨position, _, made⟩
      cases made
      exact (Puts.element position).keepsShapes
    · rcases ok_of_bind made with ⟨_, _, made⟩
      rcases ok_of_bind made with ⟨position, _, made⟩
      cases made
      exact (Puts.element position).keepsShapes
    · exact (puts_of_entryChange made).keepsShapes
    · cases made
  · cases made

theorem targetChange_keepsShapes (isRef : heap.get? address = some (.ref target))
    (made : heap.targetChange address target value = .ok (some change)) :
    heap.KeepsShapes (heap.apply change) := by
  have mapped {result : Except Failure Change} (made : some <$> result = .ok (some change)) :
      result = .ok change := by
    cases result with
    | error => cases made
    | ok =>
      cases made
      rfl
  unfold targetChange at made
  split at made
  · cases made
    refine .apply fun _ isObject => ?_
    cases isRef.symm.trans isObject
    rfl
  · split at made
    · rename_i found
      exact fieldChange_keepsShapes found (mapped made)
    · exact (puts_of_entryChange (mapped made)).keepsShapes
    · cases made
  · cases made
  · split at made
    · cases made
    · exact itemChange_keepsShapes (mapped made)
    · cases made
  · split at made
    · cases made
    · exact itemChange_keepsShapes (mapped made)

theorem Assigns.keepsShapes (assigns : heap.Assigns change) :
    heap.KeepsShapes (heap.apply change) := by
  rcases assigns with ⟨_, _, _, made⟩ | ⟨_, _, _, made⟩
  · obtain ⟨_, _, puts⟩ := puts_of_indexAssignment made
    exact puts.keepsShapes
  · exact fieldAssignment_keepsShapes made

end Heap

def Machine.KeepsShapes (machine later : Machine) : Prop :=
  machine.heap.KeepsShapes later.heap

theorem Builtin.replacePart_keepsShapes (name : String) :
    machine.KeepsShapes ((replacePart value name part).final machine) := by
  cases value with
  | object address =>
    refine Heap.KeepsShapes.apply fun object _ => ?_
    cases object with
    | struct struct fields =>
      refine congrArg (fun names => some (struct, names)) ?_
      split
      · rename_i isThere
        exact Bindings.map_fst_put_of_isSome isThere
      · rfl
    | _ => rfl
  | _ => exact .refl _

theorem Exec.Plain.keepsShapes (plain : Plain step) (machine : Machine) :
    machine.KeepsShapes (step.final machine) := by
  induction plain generalizing machine with
  | pure | throw | look | world | write | changeWorld => exact .refl _
  | bind _ _ first rest =>
    exact related_bind .trans (first machine) fun value middle _ => rest value middle
  | view =>
    rw [final_view]
    exact .refl _
  | alloc => exact .of_extends (.alloc _ _)
  | number => exact .number _ _
  | deepCopy => exact .of_extends (Heap.deepCopy_extends _ _)
  | changeElements => exact .apply fun object _ => object.shape?_mapElements _
  | changeEntries => exact .apply fun object _ => object.shape?_mapEntries _
  | replacePart value name part => exact Builtin.replacePart_keepsShapes name

theorem Activity.Own.keepsShapes {activity : Activity} (own : activity.Own start machine later) :
    machine.KeepsShapes later := by
  cases own with
  | plain isPlain => exact isPlain.keepsShapes machine
  | allocate extended => exact .of_extends extended
  | assign assigns => exact assigns.keepsShapes
  | setMember => exact .apply fun object _ => object.shape?_mapMembers _
  | bind | enter | leave => exact .refl _

theorem Machine.isFrame_keepsShapes : IsFrame KeepsShapes where
  refl machine := .refl machine.heap
  trans first second := Heap.KeepsShapes.trans first second
  own own := own.keepsShapes
  remembering _ _ _ := .of_extends (.alloc _ _)

/-! ### New instances -/

namespace Heap

/-- New instances have shapes of a kind. -/
structure Creates (made : String → List String → Prop) (heap later : Heap) : Prop where
  extended : heap.Extends later
  shaped : ∀ address name names, heap.size ≤ address → later.shape? address = some (name, names) →
    made name names

variable {made : String → List String → Prop} {heap : Heap}

theorem shape?_alloc :
    (heap.alloc object).2.shape? address =
      if address = heap.size then object.shape? else heap.shape? address := by
  rw [shape?, get?_alloc]
  split <;> rfl

theorem shape?_eq_none (isNew : heap.size ≤ address) : heap.shape? address = none := by
  cases found : heap.get? address with
  | none => rw [shape?, found]; rfl
  | some => exact absurd (lt_size_of_get? found) (Nat.not_lt.mpr isNew)

namespace Creates

theorem refl (heap : Heap) : heap.Creates made heap where
  extended := .refl heap
  shaped address name names isNew isShape := by
    rw [shape?_eq_none isNew] at isShape
    cases isShape

theorem trans (first : heap.Creates made later) (second : later.Creates made last) :
    heap.Creates made last where
  extended := first.extended.trans second.extended
  shaped address name names isNew isShape := by
    rcases Nat.lt_or_ge address later.size with isOld | isLater
    · rw [shape?, second.extended.same address isOld] at isShape
      exact first.shaped address name names isNew isShape
    · exact second.shaped address name names isLater isShape

theorem alloc (heap : Heap)
    (shaped : ∀ name names, object.shape? = some (name, names) → made name names) :
    heap.Creates made (heap.alloc object).2 where
  extended := .alloc heap object
  shaped address name names isNew isShape := by
    rw [shape?_alloc] at isShape
    split at isShape
    · exact shaped name names isShape
    · rw [shape?_eq_none isNew] at isShape
      cases isShape

end Creates

/-! ### Copies -/

section Parts

variable {copy : Value → Heap → Value × Heap}

theorem copyList_creates (each : ∀ value (later : Heap), heap.Creates made later →
      later.Creates made (copy value later).2) (created : heap.Creates made later) :
    later.Creates made (copyList copy values later).2 := by
  induction values generalizing later with
  | nil => exact .refl _
  | cons value _ ih =>
    have first := each value later created
    exact first.trans (ih (created.trans first))

end Parts

theorem shape?_withParts {object : Object} (hasParts : object.parts? = some parts)
    (sameLength : copies.length = parts.length) :
    (object.withParts copies).shape? = object.shape? := by
  cases object with
  | list => rfl
  | struct =>
    cases hasParts
    rw [List.length_map] at sameLength
    simp [Object.withParts, Object.shape?, List.map_fst_zip, sameLength]
  | _ => cases hasParts

def IsShape (heap : Heap) (name : String) (names : List String) : Prop :=
  ∃ address, heap.shape? address = some (name, names)

theorem Creates.isShape (created : heap.Creates heap.IsShape later)
    (isShape : later.IsShape name names) : heap.IsShape name names := by
  obtain ⟨address, isShape⟩ := isShape
  rcases Nat.lt_or_ge address heap.size with isOld | isNew
  · rw [shape?, created.extended.same address isOld] at isShape
    exact ⟨address, isShape⟩
  · exact created.shaped address name names isNew isShape

theorem copyWithin_creates (depth : Nat) (value : Value)
    (created : heap.Creates heap.IsShape later) :
    later.Creates heap.IsShape (copyWithin depth value later).2 := by
  induction depth generalizing value later with
  | zero => exact .refl _
  | succ depth ih =>
    have each (value : Value) (later : Heap) (created : heap.Creates heap.IsShape later) :
        later.Creates heap.IsShape (copyWithin depth value later).2 := ih value created
    rcases copyWithin_cases (depth + 1) value later with
      unchanged | ⟨address, object, _, rfl, found, hasParts⟩
    · rw [unchanged]
      exact .refl _
    · rw [copyWithin_of_parts found hasParts]
      refine (copyList_creates each created).trans (.alloc _ fun _ _ isShape => ?_)
      rw [shape?_withParts hasParts (length_copyList _ _)] at isShape
      refine created.isShape ⟨address, ?_⟩
      rw [shape?, found]
      exact isShape

theorem copyWithin_shape (isShape : heap.shape? address = some (name, names)) (depth : Nat) :
    ∃ copy, (copyWithin (depth + 1) (.object address) heap).1 = .object copy ∧ heap.size ≤ copy ∧
      (copyWithin (depth + 1) (.object address) heap).2.shape? copy = some (name, names) := by
  cases found : heap.get? address with
  | none =>
    rw [shape?, found] at isShape
    cases isShape
  | some object =>
    rw [shape?, found] at isShape
    obtain ⟨parts, hasParts⟩ : ∃ parts, object.parts? = some parts := by
      cases object with
      | struct => exact ⟨_, rfl⟩
      | _ => cases isShape
    rw [copyWithin_of_parts found hasParts]
    refine ⟨_, rfl, (copyList_extends (copyWithin_extends depth) parts heap).grown, ?_⟩
    rw [shape?_alloc]
    simp only [size, if_true, shape?_withParts hasParts (length_copyList _ _)]
    exact isShape

end Heap

/-! ### Default values -/

/-- The struct of the name has these fields. -/
def Machine.Defines (machine : Machine) (name : String) (names : List String) : Prop :=
  ∃ struct, machine.struct? name = some struct ∧ names = struct.fieldNames

theorem length_of_evalAll (ended : evalAll fuel exprs machine = .ok values final) :
    values.length = exprs.length := by
  induction exprs generalizing fuel machine values final with
  | nil =>
    cases fuel with
    | zero => cases ended
    | succ =>
      cases ended
      rfl
  | cons _ _ ih =>
    cases fuel with
    | zero => cases ended
    | succ =>
      obtain ⟨_, _, _, ended⟩ := exists_of_bind_eq_ok ended
      obtain ⟨_, _, evaluated, ended⟩ := exists_of_bind_eq_ok ended
      cases ended
      exact congrArg (· + 1) (ih evaluated)

theorem Machine.isMaking_defined :
    Machine.IsMaking fun machine heap => machine.heap.Creates machine.Defines heap where
  refl machine := .refl machine.heap
  trans first second := first.trans second
  alloc noShape := .alloc _ (by simp [noShape])
  struct isDefined complete := .alloc _ fun _ _ isShape => by
    rw [Object.shape?, map_fst_fieldsOf complete] at isShape
    cases isShape
    exact ⟨_, isDefined, rfl⟩

theorem Exec.struct_shape (made : Exec.struct name fields machine = .ok value final) :
    value = .object machine.heap.size ∧
      final.heap.shape? machine.heap.size = some (name, fields.map Prod.fst) := by
  cases made
  exact ⟨rfl, (Heap.shape?_alloc).trans (if_pos rfl)⟩

theorem defaultValue_shape
    (made : defaultValue fuel (.struct name home) machine = .ok value final) :
    ∃ struct address, machine.struct? name = some struct ∧ value = .object address ∧
      machine.heap.size ≤ address ∧
      final.heap.shape? address = some (name, struct.fieldNames) := by
  cases fuel with
  | zero => cases made
  | succ fuel =>
    rw [defaultValue, get_bind] at made
    cases isDefined : machine.struct? name with
    | none =>
      rw [isDefined] at made
      cases made
    | some struct =>
      rw [isDefined] at made
      obtain ⟨_, _, fields, made⟩ := exists_of_bind_eq_ok made
      obtain ⟨_, created, same⟩ := (Machine.isMaking_defined.defaultValue fuel).2 _ machine
      rw [final_of_ok fields] at same
      subst same
      obtain ⟨isNew, isShape⟩ := Exec.struct_shape made
      have complete := length_of_defaultValues fields
      rw [List.length_map] at complete
      rw [map_fst_fieldsOf complete] at isShape
      exact ⟨struct, _, rfl, isNew, created.extended.grown, isShape⟩

/-! ### Constructors -/

theorem construct_shape {struct : Struct} (wellScoped : machine.WellScoped)
    (made : construct fuel struct arguments machine = .ok value final) :
    ∃ address, value = .object address ∧ machine.heap.size ≤ address ∧
      final.heap.shape? address = some (struct.name, struct.fieldNames) := by
  cases fuel with
  | zero => cases made
  | succ fuel =>
    rw [construct] at made
    split at made
    · cases made
    · rename_i complete
      obtain ⟨_, _, evaluated, made⟩ := exists_of_bind_eq_ok made
      have kept := Machine.isFrame_keepsShapes.final wellScoped fuel (.evalAll arguments)
      rw [Activity.final_of_discard rfl, final_of_ok evaluated] at kept
      obtain ⟨isNew, isShape⟩ := Exec.struct_shape made
      rw [map_fst_fieldsOf ((length_of_evalAll evaluated).trans (Decidable.not_not.mp complete))]
        at isShape
      exact ⟨_, isNew, kept.grown, isShape⟩

/-! ### The main statement -/

/--
Struct instances keep their shape.  Any two moments of a run agree about the shape of every instance
that is there at both, and the instances of every moment are there with their shape when the run is
over.  A write through a reference would keep them, too.  Whatever is made at a moment of the run
has the right shape: a constructor and a default value give an instance the name and the distinct
field names that are defined, in order, and a copy gives it those of the instance that is copied.
-/
theorem instances_keep_shape (program : Program) (fuel : Nat) {machine : Machine}
    (wellScoped : machine.WellScoped) :
    (∀ moment later, program.IsMoment fuel machine moment → program.IsMoment fuel machine later →
      ∀ address, address < moment.heap.size → address < later.heap.size →
        later.heap.shape? address = moment.heap.shape? address) ∧
    ∀ moment, program.IsMoment fuel machine moment →
      moment.heap.KeepsShapes ((program.run fuel).final machine).heap ∧
      (∀ address target value change, moment.heap.get? address = some (.ref target) →
        moment.heap.targetChange address target value = .ok (some change) →
        moment.heap.KeepsShapes (moment.heap.apply change)) ∧
      (∀ fuel' struct arguments value final,
        construct fuel' struct arguments moment = .ok value final →
        ∃ address, value = .object address ∧ moment.heap.size ≤ address ∧
          final.heap.shape? address = some (struct.name, struct.fieldNames)) ∧
      (∀ fuel' name home value final,
        defaultValue fuel' (.struct name home) moment = .ok value final →
        ∃ struct address, moment.struct? name = some struct ∧ value = .object address ∧
          moment.heap.size ≤ address ∧
          final.heap.shape? address = some (name, struct.fieldNames)) ∧
      (∀ fuel' type, moment.heap.Creates moment.Defines
        ((defaultValue fuel' type).final moment).heap) ∧
      (∀ address shape, moment.heap.shape? address = some shape →
        ∃ copy, (moment.heap.deepCopy (.object address)).1 = .object copy ∧
          moment.heap.size ≤ copy ∧
          (moment.heap.deepCopy (.object address)).2.shape? copy = some shape) ∧
      ∀ value, moment.heap.Creates moment.heap.IsShape (moment.heap.deepCopy value).2 := by
  have toEnd {moment : Machine} (isMoment : program.IsMoment fuel machine moment) :=
    Machine.isFrame_keepsShapes.moment wellScoped isMoment
  refine ⟨fun moment later isMoment isLater address isThere isThere' => ?_,
    fun moment isMoment => ?_⟩
  · exact ((toEnd isLater).same address isThere').symm.trans ((toEnd isMoment).same address isThere)
  · refine ⟨toEnd isMoment, fun _ _ _ _ => Heap.targetChange_keepsShapes,
      fun _ _ _ _ _ => construct_shape (isMoment.wellScoped wellScoped),
      fun _ _ _ _ _ => defaultValue_shape, fun fuel' type => ?_,
      fun address shape isShape => Heap.copyWithin_shape isShape _,
      fun value => Heap.copyWithin_creates _ value (.refl _)⟩
    obtain ⟨heap, created, same⟩ := (Machine.isMaking_defined.defaultValue fuel').1 type moment
    rwa [same]

def Stmt.makingPoint : Stmt :=
  let here : Location := ⟨2, 1, "main.nx"⟩
  .letVar "p" (.struct "Point" none)
    (some (.call (.identifier "Point" here) [.int 1 here, .int 2 here, .int 3 here] here)) here

def Program.twiceDeclared : Program :=
  let here : Location := ⟨1, 1, "main.nx"⟩
  [ .struct "Point" [⟨"x", .int⟩, ⟨"y", .int⟩, ⟨"x", .int⟩] here,
    .makingPoint,
    .assign (.field (.identifier "p" here) "x" here) (.int 4 here) here ]

/-- The instance has its shape from the first statement to the end of the run. -/
theorem instances_keep_shape_twiceDeclared :
    ∃ moment, Program.twiceDeclared.IsMoment 20 (.start (.start .empty [] [] [] 0) ".") moment ∧
      moment.heap.shape? 0 = some ("Point", ["x", "y"]) ∧
      ((Program.twiceDeclared.run 20).final (.start (.start .empty [] [] [] 0) ".")).heap.shape? 0 =
        some ("Point", ["x", "y"]) := by
  have isPassed : passes (do
      useAll 20 Program.twiceDeclared
      defineMembers 0 none Program.twiceDeclared
      exec 19 Stmt.makingPoint) (.start (.start .empty [] [] [] 0) ".")
      (fun _ moment => moment.heap.shape? 0 == some ("Point", ["x", "y"])) = true := by
    decide +kernel
  obtain ⟨_, moment, ended, isShape⟩ := exists_of_passes isPassed
  obtain ⟨_, imported, isImported, ended⟩ := exists_of_bind_eq_ok ended
  obtain ⟨_, defined, isDefined, ended⟩ := exists_of_bind_eq_ok ended
  have hasShape : moment.heap.shape? 0 = some ("Point", ["x", "y"]) := eq_of_beq isShape
  have isMoment :
      Program.twiceDeclared.IsMoment 20 (.start (.start .empty [] [] [] 0) ".") moment :=
    ⟨_, _, _, _, _, .actions isImported isDefined, .inside (.restOfStmts ended) .here, .inl rfl⟩
  have isThere : 0 < moment.heap.size := by
    by_contra isNew
    rw [Heap.shape?_eq_none (Nat.le_of_not_lt isNew)] at hasShape
    cases hasShape
  have kept := ((instances_keep_shape Program.twiceDeclared 20
    (Machine.wellScoped_start (.start .empty [] [] [] 0) ".")).2 moment isMoment).1
  exact ⟨moment, isMoment, hasShape, (kept.same 0 isThere).trans hasShape⟩

end Noxy
