import Noxy.Proofs.Assignment

/-!
# Equality of references

How values are compared through references.
-/

namespace Noxy

open Exec

namespace Heap

variable {heap : Heap} {value left : Value}

def IsRef (heap : Heap) (value : Value) : Prop :=
  ∃ target, heap.object? value = some (.ref target)

theorem follow_of_not_ref (notRef : ¬ heap.IsRef value) (depth : Nat) :
    heap.follow (depth + 1) value = .ok value := by
  rw [follow]
  split
  · rename_i target isRef
    exact absurd ⟨target, isRef⟩ notRef
  · rfl

theorem followOnce_of_not_ref (notRef : ¬ heap.IsRef value) :
    heap.followOnce value = .ok value := by
  rw [followOnce]
  split
  · rename_i target isRef
    exact absurd ⟨target, isRef⟩ notRef
  · rfl

theorem dereference_of_followOnce (read : heap.followOnce value = .ok next)
    (notRef : ¬ heap.IsRef next) : heap.dereference value = .ok next := by
  rw [followOnce] at read
  split at read
  · rename_i target isRef
    simp only [dereference, depth, follow, isRef, read, Bind.bind, Except.bind]
    exact follow_of_not_ref notRef _
  · cases read
    exact follow_of_not_ref notRef _

/-- The failure of a program that selects a field of null. -/
def nullAccess : Failure :=
  .error (.runtime .fieldOfNull none)

theorem selected_eq_nullAccess (leads : heap.dereference value = .ok last) (name : String) :
    heap.selected value name = .error nullAccess ↔ last = .null := by
  rw [selected, leads]
  cases last with
  | null => exact ⟨fun _ => rfl, fun _ => rfl⟩
  | object =>
    refine ⟨fun isNull => ?_, fun isNull => by cases isNull⟩
    simp only [Bind.bind, Except.bind, Value.isNull, Bool.false_eq_true, if_false,
      fieldOf] at isNull
    split at isNull
    · split at isNull <;> cases isNull
    · split at isNull <;> cases isNull
    · cases isNull
  | _ => constructor <;> intro isNull <;> cases isNull

theorem equals_null (heap : Heap) (value : Value) :
    heap.equals value .null = .ok value.isNull ∧ heap.equals .null value = .ok value.isNull := by
  simp [equals, Value.isNull]

theorem equals_of_followOnce (isLeft : left.isNull = false) (isRight : right.isNull = false)
    (read : heap.followOnce left = .ok next) (read' : heap.followOnce right = .ok last) :
    heap.equals left right = .ok (if next.isNull || last.isNull then next.isNull && last.isNull
      else heap.equal next last) := by
  simp only [equals, isLeft, isRight, read, read', Bind.bind, Except.bind, Bool.or_eq_true,
    Bool.false_eq_true, or_self, if_false]
  split <;> rfl

theorem equals_of_not_ref (notRef : ¬ heap.IsRef left) (notRef' : ¬ heap.IsRef right) :
    heap.equals left right = .ok (if left.isNull || right.isNull then left.isNull && right.isNull
      else heap.equal left right) := by
  by_cases isNull : left.isNull || right.isNull
  · simp only [equals, Bool.or_eq_true] at isNull ⊢
    simp only [isNull, if_true]
  · obtain ⟨isLeft, isRight⟩ := Bool.or_eq_false_iff.mp (Bool.eq_false_iff.mpr isNull)
    exact equals_of_followOnce isLeft isRight (followOnce_of_not_ref notRef)
      (followOnce_of_not_ref notRef')

end Heap

/--
A value is equal to null if it is null itself.  That agrees with what it leads to, and with failing
when a field of it is selected, unless it is a reference: a reference to null is not equal to null.
Two values that are not null are compared as what they lead to where that is at most one reference
away.  Of a longer way, only the first reference is followed.
-/
theorem equality_follows_one_reference (heap : Heap) :
    (∀ value, heap.equals value .null = .ok value.isNull ∧
      heap.equals .null value = .ok value.isNull) ∧
    (∀ value last, heap.dereference value = .ok last →
      (∀ name, heap.selected value name = .error Heap.nullAccess ↔ last = .null) ∧
      (¬ heap.IsRef value → (heap.equals value .null = .ok true ↔ last = .null))) ∧
    (∀ left right next last, left.isNull = false → right.isNull = false →
      heap.followOnce left = .ok next → heap.followOnce right = .ok last →
      heap.equals left right = .ok (if next.isNull || last.isNull
        then next.isNull && last.isNull else heap.equal next last) ∧
      (¬ heap.IsRef next → ¬ heap.IsRef last →
        heap.dereference left = .ok next ∧ heap.dereference right = .ok last ∧
          heap.equals left right = heap.equals next last)) ∧
    ∀ fuel left right location machine value middle value' final same,
      eval fuel left machine = .ok value middle → eval fuel right middle = .ok value' final →
      final.heap = heap → heap.equals value value' = .ok same →
      eval (fuel + 2) (.binary left .equal right location) machine = .ok (.bool same) final := by
  refine ⟨heap.equals_null, fun value last leads => ⟨?_, fun notRef => ?_⟩,
    fun left right next last isLeft isRight read read' => ?_, ?_⟩
  · exact Heap.selected_eq_nullAccess leads
  · cases (Heap.follow_of_not_ref notRef _).symm.trans leads
    rw [(heap.equals_null value).1]
    cases value <;> simp [Value.isNull]
  · have compared := Heap.equals_of_followOnce isLeft isRight read read'
    refine ⟨compared, fun notRef notRef' => ⟨Heap.dereference_of_followOnce read notRef,
      Heap.dereference_of_followOnce read' notRef', ?_⟩⟩
    rw [compared, Heap.equals_of_not_ref notRef notRef']
  · intro fuel left right location machine value middle value' final same isLeft isRight sameHeap
      compared
    have isMade : view (fun heap => heap.binary .equal value value') final =
        .ok (.value (.bool same)) final := by
      refine view_eq_ok.mpr ⟨?_, rfl⟩
      rw [Heap.binary, sameHeap, compared]
      rfl
    rw [eval, evalBinary, bind_of_ok isLeft]
    exact (bind_of_ok isRight).trans (bind_of_ok isMade)

/-- An end of a list, a reference to its empty link, and a reference to that reference. -/
def Heap.endOfList : Heap :=
  ⟨#[.struct "Node" [("next", .null)], .ref (.field (.object 0) "next"),
    .ref (.value (.object 1))], 0⟩

/-- Both references lead to null, but they are not equal to null, and not equal. -/
theorem null_behind_reference_is_missed :
    (Heap.endOfList.dereference (.object 1) = .ok .null ∧
      Heap.endOfList.dereference (.object 2) = .ok .null) ∧
    Heap.endOfList.selected (.object 1) "next" = .error Heap.nullAccess ∧
    Heap.endOfList.equals (.object 1) .null = .ok false ∧
    Heap.endOfList.equals (.object 2) (.object 1) = .ok false :=
  ⟨⟨rfl, rfl⟩, rfl, rfl, rfl⟩

theorem equality_follows_one_reference_endOfList :
    Heap.endOfList.equals (.object 0) (.object 1) = .ok false := by
  have compared := (equality_follows_one_reference Heap.endOfList).2.2.1
  exact (compared (.object 0) (.object 1) (.object 0) .null rfl rfl rfl rfl).1

end Noxy
