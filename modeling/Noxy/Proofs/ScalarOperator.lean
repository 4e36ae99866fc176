import Noxy.Heap.Access
import Noxy.Proofs.Scalar

/-!
# Operations on scalars

An operation on scalars whose types go together gives a scalar of the type that the checker expects,
or fails for a reason that types do not tell: a divisor is zero, or an index is out of bounds.
-/

namespace Noxy

attribute [local simp] Value.isOf

/-- How a scalar program may fail. -/
inductive Failure.OfScalars : Failure → Prop where
  | divisionByZero : OfScalars (.error (.runtime .divisionByZero none))
  | moduloByZero : OfScalars (.error (.runtime .moduloByZero none))
  | indexOutside (index : String) (length : Nat) :
      OfScalars (.error (.runtime (.indexOutside index length) none))
  | longIndex : OfScalars (.fault .tooManyDigits)
  | exhausted : OfScalars .exhausted

def Gives {α : Type} (result : Except Failure α) (onValue : α → Prop) : Prop :=
  match result with
  | .ok value => onValue value
  | .error cause => cause.OfScalars

def Made.isOf : Made → Ty → Bool
  | .value made, type => made.isOf type
  | .float _, .float => true
  | _, _ => false

namespace Value

variable {value : Value}

theorem eq_of_isOf_int (isInt : value.isOf .int = true) : ∃ number, value = .int number := by
  cases value <;> simp_all [isOf]

theorem eq_of_isOf_string (isString : value.isOf .string = true) :
    ∃ text, value = .string text := by
  cases value <;> simp_all [isOf]

theorem eq_of_isOf_bytes (isBytes : value.isOf .bytes = true) :
    ∃ content, value = .bytes content := by
  cases value <;> simp_all [isOf]

theorem eq_of_isOf_bool (isBool : value.isOf .bool = true) : ∃ flag, value = .bool flag := by
  cases value <;> simp_all [isOf]

theorem numeric?_of_isOf_float (isFloat : value.isOf .float = true) :
    ∃ number, value.numeric? = some (.float number) := by
  cases value <;> simp_all [isOf, numeric?]

theorem object?_of_isOf (typed : value.isOf type = true) (heap : Heap) :
    heap.object? value = none := by
  cases value <;> simp_all [isOf, Heap.object?]

end Value

/-! ### Arithmetic -/

namespace Heap

variable {left right : Value}

theorem compare_numbers (heap : Heap) {number : Numeric} (isLeft : left.numeric? = some number)
    (isRight : right.numeric? = some number') :
    ∃ holds, heap.compare comparison left right = .ok holds := by
  have enough : heap.depth = heap.size + 1 + 1 := rfl
  unfold compare compareWithin
  rw [enough]
  split
  · rename_i depthZero
    cases depthZero
  · split
    · cases isLeft
    · cases isLeft
    · rw [isLeft, isRight]
      dsimp only
      cases number.compare number' <;> exact ⟨_, rfl⟩

section

variable (leftTyped : left.isOf leftType = true) (rightTyped : right.isOf rightType = true)
include leftTyped rightTyped

theorem arithmetic_gives (same : leftType.equal rightType = true)
    (isNumeric : leftType.isNumeric = true) (onInts : Int → Int → Int)
    (onFloats : Float → Float → Float) :
    ∃ number number', left.numeric? = some number ∧ right.numeric? = some number' ∧
      Gives (arithmetic onInts onFloats number number') fun made => made.isOf leftType = true := by
  cases leftType <;> simp only [Ty.isNumeric, Bool.false_eq_true] at isNumeric
  · cases rightType with
    | int =>
      obtain ⟨number, rfl⟩ := Value.eq_of_isOf_int leftTyped
      obtain ⟨number', rfl⟩ := Value.eq_of_isOf_int rightTyped
      exact ⟨.int number, .int number', rfl, rfl, rfl⟩
    | any => cases right <;> simp [Value.isOf] at rightTyped
    | _ => simp [Ty.equal, Ty.sameShape] at same
  · cases rightType with
    | float =>
      obtain ⟨number, isLeft⟩ := Value.numeric?_of_isOf_float leftTyped
      obtain ⟨number', isRight⟩ := Value.numeric?_of_isOf_float rightTyped
      exact ⟨.float number, .float number', isLeft, isRight, rfl⟩
    | any => cases right <;> simp [Value.isOf] at rightTyped
    | _ => simp [Ty.equal, Ty.sameShape] at same

theorem add_gives (heap : Heap)
    (typed : BinaryOperator.add.typed leftType rightType = .ok type) :
    Gives (heap.add left right) fun made => made.isOf type = true := by
  rcases BinaryOperator.ok_of_typed_add typed with ⟨rfl, rfl, rfl⟩ | ⟨rfl, rfl, rfl⟩ |
    ⟨same, isNumeric, rfl⟩
  · obtain ⟨_, rfl⟩ := Value.eq_of_isOf_string leftTyped
    obtain ⟨_, rfl⟩ := Value.eq_of_isOf_string rightTyped
    rfl
  · obtain ⟨_, rfl⟩ := Value.eq_of_isOf_bytes leftTyped
    obtain ⟨_, rfl⟩ := Value.eq_of_isOf_bytes rightTyped
    rfl
  · obtain ⟨_, _, isLeft, isRight, gives⟩ :=
      arithmetic_gives leftTyped rightTyped same isNumeric (· + ·) (· + ·)
    rw [add, isLeft, isRight]
    exact gives

theorem equals_gives (heap : Heap) : ∃ holds, heap.equals left right = .ok holds := by
  have leftFollowed : heap.followOnce left = .ok left := by
    simp only [followOnce, Value.object?_of_isOf leftTyped]
  have rightFollowed : heap.followOnce right = .ok right := by
    simp only [followOnce, Value.object?_of_isOf rightTyped]
  unfold equals
  split
  · exact ⟨_, rfl⟩
  · rename_i notNull
    simp only [leftFollowed, rightFollowed, bind, Except.bind, notNull, if_false]
    exact ⟨_, rfl⟩

theorem binary_gives (heap : Heap)
    (typed : operator.typed leftType rightType = .ok type) (notAnd : operator ≠ .and)
    (notOr : operator ≠ .or) :
    Gives (heap.binary operator left right) fun made => made.isOf type = true := by
  cases operator with
  | add => exact add_gives leftTyped rightTyped heap typed
  | subtract =>
    obtain ⟨same, isNumeric, rfl⟩ := BinaryOperator.ok_of_typed_arithmetic (by simp) typed
    obtain ⟨_, _, isLeft, isRight, gives⟩ :=
      arithmetic_gives leftTyped rightTyped same isNumeric (· - ·) (· - ·)
    rw [binary, subtract, isLeft, isRight]
    exact gives
  | multiply =>
    obtain ⟨same, isNumeric, rfl⟩ := BinaryOperator.ok_of_typed_arithmetic (by simp) typed
    obtain ⟨_, _, isLeft, isRight, gives⟩ :=
      arithmetic_gives leftTyped rightTyped same isNumeric (· * ·) (· * ·)
    rw [binary, multiply, isLeft, isRight]
    exact gives
  | divide =>
    obtain ⟨same, isNumeric, rfl⟩ := BinaryOperator.ok_of_typed_arithmetic (by simp) typed
    obtain ⟨_, _, isLeft, isRight, gives⟩ :=
      arithmetic_gives leftTyped rightTyped same isNumeric Int.fdiv (· / ·)
    rw [binary, divide]
    split
    · exact .divisionByZero
    · rw [isLeft, isRight]
      exact gives
  | modulo =>
    obtain ⟨same, isNumeric, rfl⟩ := BinaryOperator.ok_of_typed_arithmetic (by simp) typed
    obtain ⟨_, _, isLeft, isRight, gives⟩ :=
      arithmetic_gives leftTyped rightTyped same isNumeric Int.fmod Number.floorRemainder
    simp only [binary]
    unfold modulo
    split
    · exact .moduloByZero
    · rw [isLeft, isRight]
      exact gives
  | greater | less | greaterEqual | lessEqual =>
    obtain ⟨same, isNumeric, rfl⟩ := BinaryOperator.ok_of_typed_order (by simp) typed
    obtain ⟨_, _, isLeft, isRight, _⟩ :=
      arithmetic_gives leftTyped rightTyped same isNumeric (· + ·) (· + ·)
    obtain ⟨_, compared⟩ := compare_numbers heap isLeft isRight
    rw [binary, compared]
    rfl
  | equal | different =>
    obtain ⟨_, compared⟩ := equals_gives leftTyped rightTyped heap
    have isBool : type = .bool := BinaryOperator.ok_of_typed_equality (by simp) typed
    rw [binary, compared, isBool]
    rfl
  | and => exact absurd rfl notAnd
  | or => exact absurd rfl notOr

end

theorem negate_gives (heap : Heap) (operandTyped : value.isOf operand = true)
    (typed : UnaryOperator.negate.typed operand = .ok type) :
    Gives (heap.negate value) fun made => made.isOf type = true := by
  unfold UnaryOperator.typed at typed
  cases operand <;> simp only [Ty.isNumeric] at typed <;> cases typed
  · obtain ⟨number, rfl⟩ := Value.eq_of_isOf_int operandTyped
    rfl
  · obtain ⟨_, isFloat⟩ := Value.numeric?_of_isOf_float operandTyped
    rw [negate, isFloat]
    rfl

theorem number_isOf (heap : Heap) (value : Float) : (heap.number value).1.isOf .float = true := by
  unfold number
  split <;> rfl

theorem bounded_gives (number : Int) (length : Nat) (read : Nat → Value)
    (isOf : ∀ position, (read position).isOf type = true) :
    Gives (do return read (← boundedPosition (.int number) length (.indexOutside · length)))
      fun value => value.isOf type = true := by
  have unfolded : boundedPosition (.int number) length (.indexOutside · length) =
      if 0 ≤ number ∧ number < length then pure number.toNat
      else indexText (.int number) >>= fun text =>
        throw (.error (.runtime (.indexOutside text length) none)) := rfl
  have text : indexText (.int number) = (intText number).mapError .fault := rfl
  rw [unfolded]
  by_cases inside : 0 ≤ number ∧ number < length
  · rw [if_pos inside]
    exact isOf _
  · rw [if_neg inside, text]
    cases written : intText number with
    | ok => exact .indexOutside _ _
    | error =>
      unfold intText at written
      split at written <;> cases written
      exact .longIndex

theorem indexed_gives (heap : Heap) (objectTyped : object.isOf objectType = true)
    (indexTyped : index.isOf indexType = true) (typed : objectType.indexed indexType = .ok type) :
    Gives (heap.indexed object index) fun value => value.isOf type = true := by
  have sequence : indexType = .int ∧
      (objectType = .string ∧ type = .string ∨ objectType = .bytes ∧ type = .int) := by
    cases objectType <;> cases object <;> simp_all [Value.isOf, Ty.indexed, Ty.referenced] <;> grind
  obtain ⟨rfl, kinds⟩ := sequence
  obtain ⟨number, rfl⟩ := Value.eq_of_isOf_int indexTyped
  rcases kinds with ⟨rfl, rfl⟩ | ⟨rfl, rfl⟩
  · obtain ⟨text, rfl⟩ := Value.eq_of_isOf_string objectTyped
    exact bounded_gives number text.toList.length
      (fun position => .string (String.ofList text.toList[position]?.toList)) fun _ => rfl
  · obtain ⟨content, rfl⟩ := Value.eq_of_isOf_bytes objectTyped
    exact bounded_gives number content.length
      (fun position => .int (content.getD position 0).toNat) fun _ => rfl

end Heap

end Noxy
