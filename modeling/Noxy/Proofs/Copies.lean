import Mathlib.Data.Finset.Card
import Mathlib.Data.Finset.Range
import Noxy.Proofs.Sight

/-!
# What a copy shares with what was copied

A copy goes down through arrays and struct instances.
-/

namespace Noxy

open HasValues

def Object.parts? : Object → Option (List Value)
  | .list elements => some elements.toList
  | .struct _ fields => some (fields.map Prod.snd)
  | _ => none

/-- The object with other values in the places of its parts. -/
def Object.withParts : Object → List Value → Object
  | .list _, parts => .list parts.toArray
  | .struct name fields, parts => .struct name ((fields.map Prod.fst).zip parts)
  | object, _ => object

section Parts

variable {object : Object} {good : Value → Prop}

theorem Object.all_parts (hasParts : object.parts? = some parts) :
    All good object ↔ All good parts := by
  cases object with
  | list elements =>
    cases hasParts
    exact (all_toList elements).symm.to_iff
  | struct =>
    cases hasParts
    simpa [All] using forall_comm
  | _ => cases hasParts

theorem Object.all_withParts (hasParts : object.parts? = some parts) (isGood : All good copies) :
    All good (object.withParts copies) := by
  cases object with
  | list => simpa [withParts] using isGood
  | struct => exact fun _ member => ⟨trivial, isGood _ (List.of_mem_zip member).2⟩
  | _ => cases hasParts

end Parts

namespace Heap

section Steps

variable {copy : Value → Heap → Value × Heap}

theorem length_copyList (values : List Value) (heap : Heap) :
    (copyList copy values heap).1.length = values.length := by
  induction values generalizing heap with
  | nil => rfl
  | cons _ _ ih => exact congrArg (· + 1) (ih _)

theorem copyFields_eq :
    copyFields copy fields heap =
      ((fields.map Prod.fst).zip (copyList copy (fields.map Prod.snd) heap).1,
        (copyList copy (fields.map Prod.snd) heap).2) := by
  induction fields generalizing heap with
  | nil => rfl
  | cons _ _ ih => simp [copyFields, copyList, ih]

end Steps

theorem copyWithin_of_parts (found : heap.get? address = some object)
    (hasParts : object.parts? = some parts) (depth : Nat) :
    copyWithin (depth + 1) (.object address) heap =
      (copyList (copyWithin depth) parts heap).2.alloc
        (object.withParts (copyList (copyWithin depth) parts heap).1) := by
  have isObject : heap.object? (.object address) = some object := found
  cases object with
  | list =>
    cases hasParts
    simp only [copyWithin, isObject, Object.withParts]
  | struct =>
    cases hasParts
    simp only [copyWithin, isObject, Object.withParts, copyFields_eq]
  | _ => cases hasParts

theorem copyWithin_cases (depth : Nat) (value : Value) (heap : Heap) :
    copyWithin depth value heap = (value, heap) ∨
      ∃ address object parts, value = .object address ∧ heap.get? address = some object ∧
        object.parts? = some parts := by
  cases depth with
  | zero => exact .inl rfl
  | succ =>
    unfold copyWithin
    cases value with
    | object address =>
      cases found : heap.get? address with
      | none => exact .inl (by rw [object?, found])
      | some object => cases object <;> simp [object?, found, Object.parts?]
    | _ => exact .inl rfl

def IsEnd (heap : Heap) : Value → Prop
  | .object address => ∃ object, heap.get? address = some object ∧ object.parts? = none
  | _ => True

theorem IsEnd.copyWithin (isEnd : heap.IsEnd value) (depth : Nat) :
    copyWithin depth value heap = (value, heap) := by
  rcases copyWithin_cases depth value heap with unchanged | ⟨_, _, _, rfl, found, hasParts⟩
  · exact unchanged
  · obtain ⟨_, isObject, noParts⟩ := isEnd
    cases found.symm.trans isObject
    cases hasParts.symm.trans noParts

/-- A copy of the value goes through at most `depth` objects one inside another, and the values at
which it ends are good. -/
inductive Spans (heap : Heap) (good : Value → Prop) : Nat → Value → Prop where
  | copied {depth : Nat} {address : Address} {object : Object} {parts : List Value}
      (found : heap.get? address = some object) (hasParts : object.parts? = some parts)
      (each : ∀ part ∈ parts, Spans heap good depth part) :
      Spans heap good (depth + 1) (.object address)
  | ended {depth : Nat} {value : Value} (isEnd : heap.IsEnd value) (isGood : good value) :
      Spans heap good depth value

variable {heap later : Heap} {good : Value → Prop} {depth : Nat} {value : Value}

/-! ### The depth of copies -/

theorem Spans.of_le (spans : heap.Spans good depth value) (enough : depth ≤ larger) :
    heap.Spans good larger value := by
  induction spans generalizing larger with
  | copied found hasParts _ ih =>
    cases larger with
    | zero => cases enough
    | succ =>
      exact .copied found hasParts fun part member => ih part member (Nat.le_of_succ_le_succ enough)
  | ended isEnd isGood => exact .ended isEnd isGood

inductive Inside (heap : Heap) (inner : Address) : Value → Prop where
  | self {object : Object} {parts : List Value} (found : heap.get? inner = some object)
      (hasParts : object.parts? = some parts) : Inside heap inner (.object inner)
  | part {address : Address} {object : Object} {parts : List Value} {part : Value}
      (found : heap.get? address = some object) (hasParts : object.parts? = some parts)
      (member : part ∈ parts) (inside : Inside heap inner part) :
      Inside heap inner (.object address)

theorem Inside.trans (inside : heap.Inside address value)
    (deeper : heap.Inside found (.object address)) : heap.Inside found value := by
  induction inside with
  | self => exact deeper
  | part found hasParts member _ ih => exact .part found hasParts member ih

theorem Inside.lt_size (inside : heap.Inside found value) : found < heap.size := by
  induction inside with
  | self found => exact lt_size_of_get? found
  | part _ _ _ _ ih => exact ih

theorem Spans.not_inside (spans : heap.Spans good depth value) (isObject : value = .object address)
    (found : heap.get? address = some object) (hasParts : object.parts? = some parts)
    (member : part ∈ parts) : ¬ heap.Inside address part := by
  induction spans generalizing address object parts part with
  | copied foundHere hasPartsHere _ ih =>
    obtain rfl := Value.object.inj isObject
    cases foundHere.symm.trans found
    cases hasPartsHere.symm.trans hasParts
    intro inside
    cases inside with
    | self => exact ih _ member rfl found hasParts member (.self found hasParts)
    | part foundPart hasPartsPart memberPart insidePart =>
      -- The part is inside the object and so, by assumption, inside its own part.
      have around := Inside.part found hasParts member (.self foundPart hasPartsPart)
      exact ih _ member rfl foundPart hasPartsPart memberPart (insidePart.trans around)
  | ended isEnd =>
    cases isObject
    obtain ⟨_, foundHere, noParts⟩ := isEnd
    cases foundHere.symm.trans found
    rw [noParts] at hasParts
    cases hasParts

theorem Spans.of_inside_mem (spans : heap.Spans good depth value) (addresses : Finset Address)
    (inside : ∀ inner, heap.Inside inner value → inner ∈ addresses) :
    heap.Spans good addresses.card value := by
  induction spans generalizing addresses with
  | copied found hasParts each ih =>
    rename_i depth address object parts
    have isMember := inside _ (.self found hasParts)
    rw [← Finset.card_erase_add_one isMember]
    refine .copied found hasParts fun part member => ih part member _ fun _ insidePart => ?_
    refine Finset.mem_erase.mpr ⟨?_, inside _ (.part found hasParts member insidePart)⟩
    rintro rfl
    exact (Spans.copied found hasParts each).not_inside rfl found hasParts member insidePart
  | ended isEnd isGood => exact .ended isEnd isGood

theorem Spans.within_depth (spans : heap.Spans good depth value) :
    heap.Spans good heap.depth value := by
  have within := spans.of_inside_mem (Finset.range heap.size) fun _ inside =>
    Finset.mem_range.mpr inside.lt_size
  rw [Finset.card_range] at within
  exact within.of_le (Nat.le_add_right _ _)

/-! ### Later heaps -/

/-- The objects of a heap are unchanged in a later one. -/
structure Extends (heap later : Heap) : Prop where
  grown : heap.size ≤ later.size
  same : ∀ address, address < heap.size → later.get? address = heap.get? address

namespace Extends

theorem refl (heap : Heap) : heap.Extends heap :=
  ⟨Nat.le_refl _, fun _ _ => rfl⟩

theorem trans (first : heap.Extends later) (second : later.Extends last) : heap.Extends last :=
  ⟨Nat.le_trans first.grown second.grown, fun address isOld =>
    (second.same address (Nat.lt_of_lt_of_le isOld first.grown)).trans (first.same address isOld)⟩

theorem alloc (heap : Heap) (object : Object) : heap.Extends (heap.alloc object).2 := by
  constructor
  · rw [size_alloc]
    exact Nat.le_succ _
  · intro _ isOld
    rw [get?_alloc, if_neg (Nat.ne_of_lt isOld)]

theorem get? (extended : heap.Extends later) (found : heap.get? address = some object) :
    later.get? address = some object := by
  rw [extended.same address (lt_size_of_get? found), found]

theorem isEnd (extended : heap.Extends later) (isEnd : heap.IsEnd value) : later.IsEnd value := by
  cases value with
  | object =>
    obtain ⟨object, found, noParts⟩ := isEnd
    exact ⟨object, extended.get? found, noParts⟩
  | _ => trivial

theorem spans (extended : heap.Extends later) (spans : heap.Spans good depth value) :
    later.Spans good depth value := by
  induction spans with
  | copied found hasParts _ ih => exact .copied (extended.get? found) hasParts ih
  | ended isEnd isGood => exact .ended (extended.isEnd isEnd) isGood

end Extends

section Extension

variable {copy : Value → Heap → Value × Heap}

theorem copyList_extends (each : ∀ value (heap : Heap), heap.Extends (copy value heap).2)
    (values : List Value) (heap : Heap) : heap.Extends (copyList copy values heap).2 := by
  induction values generalizing heap with
  | nil => exact .refl heap
  | cons value _ ih => exact (each value heap).trans (ih _)

end Extension

theorem copyWithin_extends (depth : Nat) (value : Value) (heap : Heap) :
    heap.Extends (copyWithin depth value heap).2 := by
  induction depth generalizing value heap with
  | zero => exact .refl heap
  | succ depth ih =>
    rcases copyWithin_cases (depth + 1) value heap with unchanged | ⟨_, _, _, rfl, found, hasParts⟩
    · rw [unchanged]
      exact .refl heap
    · rw [copyWithin_of_parts found hasParts]
      exact (copyList_extends ih _ heap).trans (.alloc _ _)

theorem deepCopy_extends (value : Value) (heap : Heap) : heap.Extends (heap.deepCopy value).2 :=
  copyWithin_extends heap.depth value heap

/-! ### What a copy leads to -/

def Owns (heap : Heap) (start : Address) (good : Value → Prop) (value : Value) : Prop :=
  good value ∨ ∃ address, value = .object address ∧ start ≤ address ∧ address < heap.size

theorem Owns.mono [HasValues α] {data : α} (owns : All (heap.Owns start good) data)
    (isLater : start' ≤ start) (grown : heap.size ≤ later.size) :
    All (later.Owns start' good) data := by
  refine imp (fun _ owned => ?_) owns
  rcases owned with isGood | ⟨address, isObject, isNew, exists_⟩
  · exact .inl isGood
  · exact .inr ⟨address, isObject, Nat.le_trans isLater isNew, Nat.lt_of_lt_of_le exists_ grown⟩

structure Copies {α : Type} [HasValues α] (heap : Heap) (good : Value → Prop)
    (result : α × Heap) : Prop where
  extended : heap.Extends result.2
  made : ∀ address, heap.size ≤ address →
    All (result.2.Owns heap.size good) (result.2.get? address)
  result : All (result.2.Owns heap.size good) result.1

namespace Copies

variable {α β : Type} [HasValues α] [HasValues β]

theorem unchanged {data : α} (isGood : All good data) : heap.Copies good (data, heap) where
  extended := .refl heap
  made _ isNew _ found := absurd (lt_size_of_get? found) (Nat.not_lt.mpr isNew)
  result := imp (fun _ => .inl) isGood

theorem trans {first : α × Heap} {second : β × Heap} (copies : heap.Copies good first)
    (copiesNext : first.2.Copies good second) :
    heap.Copies good ((first.1, second.1), second.2) := by
  have grown := copies.extended.grown
  have grownNext := copiesNext.extended.grown
  refine ⟨copies.extended.trans copiesNext.extended, fun address isNew => ?_, ?_⟩
  · rcases Nat.lt_or_ge address first.2.size with isOld | isLater
    · have same := copiesNext.extended.same address isOld
      rw [same]
      exact Owns.mono (copies.made address isNew) (Nat.le_refl _) grownNext
    · exact Owns.mono (copiesNext.made address isLater) grown (Nat.le_refl _)
  · exact ⟨Owns.mono copies.result (Nat.le_refl _) grownNext,
      Owns.mono copiesNext.result grown (Nat.le_refl _)⟩

theorem alloc {parts : α × Heap} (copies : heap.Copies good parts)
    (holds : All (parts.2.Owns heap.size good) object) :
    heap.Copies good (parts.2.alloc object) := by
  have grown : parts.2.size ≤ (parts.2.alloc object).2.size := (Extends.alloc _ _).grown
  refine ⟨copies.extended.trans (.alloc _ _), fun address isNew => ?_, ?_⟩
  · rw [get?_alloc]
    split
    · rw [all_some]
      exact Owns.mono holds (Nat.le_refl _) grown
    · exact Owns.mono (copies.made address isNew) (Nat.le_refl _) grown
  · refine .inr ⟨parts.2.size, rfl, copies.extended.grown, ?_⟩
    rw [size_alloc]
    exact Nat.lt_succ_self _

end Copies

section Parts

variable {copy : Value → Heap → Value × Heap}

theorem copyList_copies (each : ∀ value (heap : Heap), heap.Spans good depth value →
      heap.Copies good (copy value heap)) (heap : Heap)
    (spans : ∀ value ∈ values, heap.Spans good depth value) :
    heap.Copies good (copyList copy values heap) := by
  induction values generalizing heap with
  | nil => exact .unchanged (by simp)
  | cons value _ ih =>
    have first := each value heap (spans value List.mem_cons_self)
    have others := ih (copy value heap).2 fun other member =>
      first.extended.spans (spans other (List.mem_cons_of_mem _ member))
    have both := first.trans others
    refine ⟨both.extended, both.made, ?_⟩
    change All _ (_ :: _)
    rw [all_cons]
    exact both.result

end Parts

theorem copyWithin_copies (spans : heap.Spans good depth value) :
    heap.Copies good (copyWithin depth value heap) := by
  induction depth generalizing value heap with
  | zero =>
    cases spans with
    | ended _ isGood => exact .unchanged isGood
  | succ depth ih =>
    have each (value : Value) (heap : Heap) (spans : heap.Spans good depth value) :
        heap.Copies good (copyWithin depth value heap) := ih spans
    cases spans with
    | copied found hasParts spansParts =>
      rw [copyWithin_of_parts found hasParts]
      have copied := copyList_copies each heap spansParts
      exact copied.alloc (Object.all_withParts hasParts copied.result)
    | ended isEnd isGood =>
      rw [isEnd.copyWithin]
      exact .unchanged isGood

end Heap

end Noxy
