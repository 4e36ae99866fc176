import Noxy.Proofs.Copies

/-!
# What operations on values can see

An operation that starts from values that lead to nothing hidden finds nothing hidden.
-/

namespace Noxy

variable {elements : Array Value} {value : Value} {object : Object}

open HasValues

section Laws

variable {α β ε : Type} [HasValues α] [HasValues β] {good : Value → Prop}

@[simp, grind =]
theorem all_ok : All good (Except.ok item : Except ε α) = All good item := by
  simp [All]

@[simp, grind =]
theorem all_error : All good (Except.error cause : Except ε α) = True := by
  simp [All]

theorem ok_of_bind {first : Except ε γ} {next : γ → Except ε δ} {result : δ}
    (ended : (first >>= next) = .ok result) :
    ∃ item, first = .ok item ∧ next item = .ok result := by
  cases first with
  | ok item => exact ⟨item, rfl, ended⟩
  | error => cases ended

theorem all_bind {next : α → Except ε β} (all : All good first)
    (allNext : ∀ item, All good item → All good (next item)) : All good (first >>= next) := by
  intro result ended
  rcases ok_of_bind ended with ⟨item, isItem, ended⟩
  exact allNext item (all item isItem) result ended

theorem all_after [NoValues α] {next : α → Except ε β} (allNext : ∀ item, All good (next item)) :
    All good (first >>= next) :=
  all_bind (NoValues.all good first) fun item _ => allNext item

theorem all_fmap {first : Except ε α} {change : α → β} (all : All good first)
    (allChange : ∀ item, All good item → All good (change item)) : All good (change <$> first) := by
  cases first with
  | ok item => exact (all_ok).mpr (allChange item (all item rfl))
  | error => exact (all_error).mpr trivial

theorem all_mapGet? (all : All good entries) : All good (Map.get? key entries) := by
  induction entries with
  | nil => simp [Map.get?]
  | cons _ _ ih =>
    rw [all_cons] at all
    unfold Map.get?
    split
    · exact (all_some _).mpr all.1.2
    · exact ih all.2

theorem all_mapPut (allValue : All good value)
    (all : All good entries) : All good (Map.put key value entries) := by
  induction entries with
  | nil => simpa [Map.put] using allValue
  | cons =>
    unfold Map.put
    split <;> simp_all

theorem all_mapRemove (all : All good entries) : All good (Map.remove key entries) := by
  induction entries with
  | nil => simp [Map.remove]
  | cons =>
    unfold Map.remove
    split <;> simp_all

@[grind ←]
theorem all_arrayReplicate {item : α} (all : All good item) :
    All good (Array.replicate count item) :=
  fun _ member => Array.eq_of_mem_replicate member ▸ all

theorem all_listMap {change : γ → α} (all : ∀ item, All good (change item)) (items : List γ) :
    All good (items.map change) := by
  intro _ member
  rcases List.mem_map.mp member with ⟨item, _, rfl⟩
  exact all item

theorem all_getElem? (all : All good elements) (position : Nat) : All good elements[position]? :=
  fun value found => all value (Array.mem_of_getElem? found)

theorem all_getD
    {item : Option α} {default : α} (all : All good item) (allDefault : All good default) :
    All good (item.getD default) := by
  cases item with
  | none => exact allDefault
  | some item => exact all item rfl

section

variable (all : All good elements)
include all

theorem all_elementD {default : Value} (allDefault : All good default) (position : Nat) :
    All good (elements.getD position default) := by
  rw [Array.getD_eq_getD_getElem?]
  exact all_getD (all_getElem? all position) allDefault

theorem all_setIfInBounds (allValue : All good value) (position : Nat) :
    All good (elements.setIfInBounds position value) := by
  intro other member
  rcases Array.mem_or_eq_of_mem_setIfInBounds member with isOld | rfl
  · exact all other isOld
  · exact allValue

theorem all_push (allValue : All good value) : All good (elements.push value) := by
  intro other member
  rcases Array.mem_push.mp member with isOld | rfl
  · exact all other isOld
  · exact allValue

theorem all_arrayPop : All good elements.pop := by
  intro value member
  rw [← Array.mem_toList_iff, Array.toList_pop] at member
  exact all value (Array.mem_toList_iff.mp ((List.dropLast_sublist _).subset member))

theorem all_eraseIdxIfInBounds (position : Nat) :
    All good (elements.eraseIdxIfInBounds position) := by
  intro value member
  unfold Array.eraseIdxIfInBounds at member
  split at member
  · exact all value (Array.mem_of_mem_eraseIdx member)
  · exact all value member

theorem all_appendArray (allOthers : All good others) : All good (elements ++ others) := by
  intro value member
  rcases Array.mem_append.mp member with isOld | isOther
  · exact all value isOld
  · exact allOthers value isOther

theorem all_back? : All good elements.back? := by
  exact fun value found => all value (Array.mem_of_back? found)

end

theorem all_mapElements (allChange : ∀ elements, All good elements → All good (change elements))
    (all : All good object) : All good (object.mapElements change) := by
  cases object with
  | list elements => exact allChange elements all
  | array elements => exact allChange elements all
  | _ => exact all

theorem all_mapEntries (allChange : ∀ entries, All good entries → All good (change entries))
    (all : All good object) : All good (object.mapEntries change) := by
  cases object with
  | map entries => exact allChange entries all
  | _ => exact all

theorem all_mapFields (allChange : ∀ fields, All good fields → All good (change fields))
    (all : All good object) : All good (object.mapFields change) := by
  cases object with
  | struct _ fields => exact allChange fields all
  | _ => exact all

theorem all_mapMembers (allChange : ∀ members, All good members → All good (change members))
    (all : All good object) : All good (object.mapMembers change) := by
  cases object with
  | module _ members => exact allChange members all
  | _ => exact all

end Laws

/-! ### Operations on values -/

namespace Heap

variable {hidden : Hidden} {heap : Heap} {object : Value}

theorem all_fieldOf (seen : All (heap.Sees hidden) fields) :
    All (heap.Sees hidden) (fieldOf struct fields name) := by
  unfold fieldOf
  split
  · rename_i value found
    exact (all_ok).mpr (all_get? seen value found)
  · simp

theorem all_entryOrNull (seen : All (heap.Sees hidden) entries) :
    All (heap.Sees hidden) (heap.entryOrNull entries key) := by
  unfold entryOrNull
  split
  · simp
  · exact (all_ok).mpr (all_getD (all_mapGet? seen) trivial)

theorem all_listItem (seen : All (heap.Sees hidden) elements) :
    All (heap.Sees hidden) (heap.listItem elements index) := by
  unfold listItem
  split
  · split
    · rename_i value found
      rcases Option.bind_eq_some_iff.mp found with ⟨position, _, isElement⟩
      exact (all_ok).mpr (all_getElem? seen position value isElement)
    · simp
  · simp

theorem Hides.item (hides : heap.Hides hidden) (seen : All (heap.Sees hidden) object)
    (index : Value) : All (heap.Sees hidden) (heap.item object index) := by
  have seenParts := hides.object? seen
  unfold Heap.item
  split
  · split
    · split <;> simp
    · simp
  · split
    · split <;> simp
    · simp
  · split
    · exact all_listItem (seenParts _ ‹_›)
    · exact all_after fun _ => all_listItem (seenParts _ ‹_›)
    · split
      · simp
      · split
        · exact (all_ok).mpr (all_mapGet? (seenParts _ ‹_›) _ ‹_›)
        · simp
    · simp

theorem Hides.targetValue (hides : heap.Hides hidden) (seen : All (heap.Sees hidden) target) :
    All (heap.Sees hidden) (heap.targetValue target) := by
  unfold Heap.targetValue
  split
  · exact (all_ok).mpr seen
  · split
    · exact all_fieldOf (hides.object? seen _ ‹_›)
    · exact all_entryOrNull (hides.object? seen _ ‹_›)
    · simp
  · split
    · simp
    · exact all_entryOrNull (hides.object? seen.1 _ ‹_›)
    · simp
  · split
    · simp
    · exact hides.item seen.1 _

theorem all_targetOfPart (seen : All (heap.Sees hidden) target) :
    All (heap.Sees hidden) (Object.ref (targetOfPart object target)) := by
  unfold targetOfPart
  split
  · trivial
  · exact seen

section

variable (hides : heap.Hides hidden)
include hides

theorem Hides.follow (depth : Nat) (seen : All (heap.Sees hidden) value) :
    All (heap.Sees hidden) (heap.follow depth value) := by
  induction depth generalizing value with
  | zero => simp [Heap.follow]
  | succ _ ih =>
    unfold Heap.follow
    split
    · exact all_bind (hides.targetValue (hides.object? seen _ ‹_›)) fun _ => ih
    · exact (all_ok).mpr seen

theorem Hides.dereference (seen : All (heap.Sees hidden) value) :
    All (heap.Sees hidden) (heap.dereference value) :=
  hides.follow heap.depth seen

theorem Hides.indexed (seen : All (heap.Sees hidden) object) (index : Value) :
    All (heap.Sees hidden) (heap.indexed object index) := by
  unfold Heap.indexed
  refine all_after fun _ => all_bind (hides.dereference seen) fun _ seenBehind => ?_
  have seenParts := hides.object? seenBehind
  split
  iterate 2 exact all_after fun _ => (all_ok).mpr trivial
  · split
    iterate 2 exact all_after fun position =>
        (all_ok).mpr (all_elementD (seenParts _ ‹_›) trivial position)
    · split
      · exact (all_error).mpr trivial
      · split
        · exact (all_ok).mpr (all_mapGet? (seenParts _ ‹_›) _ ‹_›)
        · exact all_after fun _ => (all_error).mpr trivial
    · exact (all_error).mpr trivial

theorem Hides.selected (seen : All (heap.Sees hidden) object) (name : String) :
    All (heap.Sees hidden) (heap.selected object name) := by
  unfold Heap.selected
  refine all_bind (hides.dereference seen) fun _ seenBehind => ?_
  have seenParts := hides.object? seenBehind
  split
  · exact (all_error).mpr trivial
  · split
    · exact all_fieldOf (seenParts _ ‹_›)
    · split
      · exact (all_ok).mpr (all_get? (seenParts _ ‹_›) _ ‹_›)
      · exact (all_error).mpr trivial
    · exact (all_error).mpr trivial

end

theorem all_arithmetic : All (heap.Sees hidden) (arithmetic onInts onFloats left right) := by
  unfold arithmetic
  split
  · exact (all_ok).mpr trivial
  · exact all_after fun _ => all_after fun _ => (all_ok).mpr trivial

theorem all_repeatedWithin [HasValues α] {items : List α} (all : All good items) :
    All good (repeatedWithin tooLong count items) := by
  unfold repeatedWithin
  dsimp only
  split
  · simp
  · rw [all_ok]
    unfold repeated
    split
    · simp
    · intro item member
      rcases List.mem_flatten.mp member with ⟨_, isList, isItem⟩
      rw [List.eq_of_mem_replicate isList] at isItem
      exact all item isItem

theorem all_zeros (number : Int) : All (heap.Sees hidden) (zeros number) := by
  refine all_after fun count => all_bind (all_repeatedWithin ?_) fun items seenItems => ?_
  · exact (all_cons _ _).mpr ⟨trivial, by simp⟩
  · have seenList : All (heap.Sees hidden) (Object.list items.toArray) := by
      simpa using seenItems
    exact (all_ok).mpr seenList

theorem Hides.repeat?
    (hides : heap.Hides hidden) {sequence : Value} (seen : All (heap.Sees hidden) sequence)
    (count : Value) : All (heap.Sees hidden) (heap.repeat? sequence count) := by
  unfold Heap.repeat?
  dsimp only
  split
  case h_1 | h_2 =>
    rw [all_some]
    exact all_after fun _ => all_after fun _ => (all_ok).mpr trivial
  · split
    · rw [all_some]
      rename_i elements found
      have seenElements : All (heap.Sees hidden) elements.toList := by
        simpa using hides.object? seen _ found
      refine all_after fun _ => all_bind (all_repeatedWithin seenElements) fun items seenItems =>
        ?_
      have seenList : All (heap.Sees hidden) (Object.list items.toArray) := by
        simpa using seenItems
      exact (all_ok).mpr seenList
    · simp

theorem Hides.add (hides : heap.Hides hidden) (seenLeft : All (heap.Sees hidden) left)
    (seenRight : All (heap.Sees hidden) right) : All (heap.Sees hidden) (heap.add left right) := by
  unfold Heap.add
  split
  · exact all_arithmetic
  · dsimp only
    split
    · exact (all_ok).mpr trivial
    · simp
    · exact (all_ok).mpr trivial
    · simp
    · split
      · exact (all_ok).mpr (all_appendArray (hides.object? seenLeft _ ‹_›)
          (hides.object? seenRight _ ‹_›))
      · simp
      · simp

theorem all_subtract (left right : Value) : All (heap.Sees hidden) (heap.subtract left right) := by
  unfold subtract
  split
  · exact all_arithmetic
  · simp

theorem Hides.multiply (hides : heap.Hides hidden) (seenLeft : All (heap.Sees hidden) left)
    (seenRight : All (heap.Sees hidden) right) :
    All (heap.Sees hidden) (heap.multiply left right) := by
  unfold Heap.multiply
  split
  · exact all_arithmetic
  · split
    · exact hides.repeat? seenLeft _ _ ‹_›
    · split
      · exact hides.repeat? seenRight _ _ ‹_›
      · simp

theorem all_divide : All (heap.Sees hidden) (heap.divide left right) := by
  unfold divide
  split
  · simp
  · split
    · exact all_arithmetic
    · simp

theorem all_fill : All (heap.Sees hidden) (heap.fill medium template value) := by
  unfold fill
  dsimp only
  refine all_after fun _ => ?_
  split
  · cases medium <;> exact (all_ok).mpr trivial
  · simp

theorem all_modulo : All (heap.Sees hidden) (heap.modulo left right) := by
  unfold modulo
  split
  · simp
  · split
    · exact all_arithmetic
    · split
      · exact all_fmap all_fill fun _ seen => seen
      · exact all_fmap all_fill fun _ seen => seen
      · simp

theorem all_negate (value : Value) : All (heap.Sees hidden) (heap.negate value) := by
  unfold negate
  split
  · exact (all_ok).mpr trivial
  · exact (all_ok).mpr trivial
  · simp

theorem Hides.binary (hides : heap.Hides hidden) (operator : BinaryOperator)
    (seenLeft : All (heap.Sees hidden) left) (seenRight : All (heap.Sees hidden) right) :
    All (heap.Sees hidden) (heap.binary operator left right) := by
  cases operator with
  | add => exact hides.add seenLeft seenRight
  | subtract => exact all_subtract left right
  | multiply => exact hides.multiply seenLeft seenRight
  | divide => exact all_divide
  | modulo => exact all_modulo
  | greater | less | greaterEqual | lessEqual | equal | different =>
    exact all_after fun _ => (all_ok).mpr trivial
  | and | or =>
    exact all_after fun _ => all_after fun _ => (all_ok).mpr trivial

/-! ### Changes -/

variable {address : Address} {value : Value}

/-- The changes that put a value into a collection. -/
inductive Puts (address : Address) (value : Value) : Change → Prop where
  | element (position : Nat) : Puts address value (elementChange address position value)
  | entry (key : Key) : Puts address value ⟨address, Object.mapEntries (Map.put key value)⟩

theorem puts_of_entryChange (made : heap.entryChange address key value = .ok change) :
    Puts address value change := by
  unfold entryChange at made
  split at made
  · cases made
  · cases made
    exact .entry _

theorem puts_of_indexAssignment (made : heap.indexAssignment object index value = .ok change) :
    ∃ address, object = .object address ∧ Puts address value change := by
  unfold indexAssignment at made
  rcases ok_of_bind made with ⟨_, _, made⟩
  split at made
  · cases made
  · refine ⟨_, rfl, ?_⟩
    split at made
    case h_1 | h_2 =>
      rcases ok_of_bind made with ⟨position, _, made⟩
      cases made
      exact .element position
    · exact puts_of_entryChange made
    · cases made
  · cases made

theorem fieldChange_seen (made : fieldChange address struct fields name value = .ok change)
    (seen : All (heap.Sees hidden) (Value.object address))
    (seenValue : All (heap.Sees hidden) value) : change.Seen hidden heap := by
  unfold fieldChange at made
  split at made
  · cases made
    exact ⟨seen, fun _ => all_mapFields fun _ => all_put seenValue⟩
  · cases made

theorem indexAssignment_seen (made : heap.indexAssignment object index value = .ok change)
    (seen : All (heap.Sees hidden) object) (seenValue : All (heap.Sees hidden) value) :
    change.Seen hidden heap := by
  obtain ⟨_, rfl, puts⟩ := puts_of_indexAssignment made
  cases puts with
  | element position =>
    exact ⟨seen, fun _ => all_mapElements fun _ all => all_setIfInBounds all seenValue position⟩
  | entry => exact ⟨seen, fun _ => all_mapEntries fun _ => all_mapPut seenValue⟩

theorem Hides.fieldAssignment (hides : heap.Hides hidden)
    (made : heap.fieldAssignment object name value = .ok change)
    (seen : All (heap.Sees hidden) object) (seenValue : All (heap.Sees hidden) value) :
    change.Seen hidden heap := by
  unfold Heap.fieldAssignment at made
  rcases ok_of_bind made with ⟨behind, isBehind, made⟩
  have seenBehind : All (heap.Sees hidden) behind := hides.dereference seen behind isBehind
  split at made
  · split at made
    · exact fieldChange_seen made seenBehind seenValue
    · cases made
  · cases made

/-! ### Copies -/

def Respects {α : Type} [HasValues α] (hidden : Hidden) (heap : Heap)
    (result : α × Heap) : Prop :=
  heap.Hides hidden →
    heap.HiddenKept hidden result.2 ∧ All (result.2.Sees hidden) result.1

variable {copy : Value → Heap → Value × Heap}

theorem copyList_respects
    (each : ∀ value heap, All (heap.Sees hidden) value → Respects hidden heap (copy value heap))
    (heap : Heap) (seen : All (heap.Sees hidden) values) :
    Respects hidden heap (copyList copy values heap) := by
  induction values generalizing heap with
  | nil => exact fun hides => ⟨.refl hides, by simp [copyList]⟩
  | cons value _ ih =>
    intro hides
    rw [all_cons] at seen
    have first := each value heap seen.1 hides
    have others := ih (copy value heap).2 (first.1.sees seen.2) first.1.hides
    refine ⟨first.1.trans others.1, ?_⟩
    change All _ (_ :: _)
    rw [all_cons]
    exact ⟨others.1.sees first.2, others.2⟩

theorem copyWithin_respects
    (depth : Nat) (value : Value) (heap : Heap) (seen : All (heap.Sees hidden) value) :
    Respects hidden heap (copyWithin depth value heap) := by
  induction depth generalizing value heap with
  | zero => exact fun hides => ⟨.refl hides, seen⟩
  | succ depth ih =>
    intro hides
    rcases copyWithin_cases (depth + 1) value heap with unchanged | ⟨_, _, _, rfl, found, hasParts⟩
    · rw [unchanged]
      exact ⟨.refl hides, seen⟩
    · have seenParts := (Object.all_parts hasParts).mp (hides.object? seen _ found)
      have copied := copyList_respects ih heap seenParts hides
      have made := copied.1.hides.alloc (Object.all_withParts hasParts copied.2)
      rw [copyWithin_of_parts found hasParts]
      exact ⟨copied.1.trans made, copied.1.hides.sees_new _⟩

end Heap

/-! ### Steps that read and change the heap -/

namespace Exec.Respects

variable {hidden : Hidden}

theorem deepCopy (seen : All (machine.heap.Sees hidden) value) :
    Respects hidden machine (deepCopy value) :=
  modifyHeap (·.deepCopy value) (Heap.copyWithin_respects machine.heap.depth value _ seen)

theorem made {read : Heap → Except Failure Made}
    (seen : machine.heap.Hides hidden → All (machine.heap.Sees hidden) (read machine.heap)) :
    Respects hidden machine (do Exec.make (← Exec.view read)) :=
  bind (viewed seen) fun _ _ _ seenMade => make seenMade

theorem changed {read : Heap → Except Failure Change} (seen : machine.heap.Hides hidden →
      ∀ change, read machine.heap = .ok change → change.Seen hidden machine.heap) :
    Respects hidden machine (do Exec.apply (← Exec.view read)) := by
  refine of_hides fun hides => ?_
  have applied : Respects hidden machine (do
      Exec.apply (← Exec.ofExcept (read machine.heap))) := by
    cases made : read machine.heap with
    | ok change => exact of_eq (apply (seen hides.heap change made)) rfl rfl
    | error cause =>
      have failed : Respects hidden machine (Exec.ofExcept (.error cause) : Exec Unit) :=
        throw trivial
      exact of_eq failed rfl rfl
  exact of_eq applied rfl rfl

end Exec.Respects

end Noxy
