import Noxy.Builtin.Simple
import Noxy.Heap.Access

/-!
# Failures that are about no name

Reading the heap may fail for many reasons, but never because a name is not defined: operators,
elements, fields, texts and templates know values only.
-/

namespace Noxy

def Failure.isAboutName : Failure → Bool
  | .error cause => cause.kind = .name
  | _ => false

def RuntimeCause.isAboutName : RuntimeCause → Bool
  | undefinedVariable _ => true
  | undefinedFunction _ => true
  | _ => false

@[grind =]
theorem RuntimeCause.isAboutName_eq :
    cause.isAboutName = match cause with
      | undefinedVariable _ => true
      | undefinedFunction _ => true
      | _ => false :=
  rfl

theorem Failure.isAboutName_runtime (cause : RuntimeCause) (location : Option Location) :
    (Failure.error (.runtime cause location)).isAboutName = cause.isAboutName := by
  cases cause <;> rfl

def Nameless {α : Type} (result : Except Failure α) : Prop :=
  ∀ cause, result = .error cause → cause.isAboutName = false

namespace Nameless

variable {α β : Type}

@[grind ←]
theorem ok (value : α) : Nameless (.ok value : Except Failure α) := by
  rintro _ ⟨⟩

@[grind ←]
theorem pure (value : α) : Nameless (Pure.pure value : Except Failure α) :=
  ok value

@[grind ←]
theorem fault (cause : Fault) : Nameless (.error (.fault cause) : Except Failure α) := by
  rintro _ ⟨⟩
  rfl

@[grind ←]
theorem throw_fault : Nameless (throw (.fault cause) : Except Failure α) :=
  fault cause

@[grind ←]
theorem exhausted : Nameless (.error .exhausted : Except Failure α) := by
  rintro _ ⟨⟩
  rfl

@[grind ←]
theorem runtime (other : cause.isAboutName = false) :
    Nameless (.error (.error (.runtime cause location)) : Except Failure α) := by
  rintro _ ⟨⟩
  rwa [Failure.isAboutName_runtime]

@[grind ←]
theorem throw_runtime (other : cause.isAboutName = false) :
    Nameless (throw (.error (.runtime cause location)) : Except Failure α) :=
  runtime other

@[grind ←]
theorem bind (first : Nameless result) (rest : ∀ value, Nameless (next value)) :
    Nameless (result >>= next) := by
  cases result with
  | ok value => exact rest value
  | error cause =>
    rintro _ ⟨⟩
    exact first cause rfl

@[grind ←]
theorem map (change : β → α) (nameless : Nameless result) : Nameless (change <$> result) := by
  cases result with
  | ok => exact .ok _
  | error cause =>
    rintro _ ⟨⟩
    exact nameless cause rfl

@[grind ←]
theorem mapError_fault (result : Except Fault α) : Nameless (result.mapError Failure.fault) := by
  cases result with
  | ok => exact .ok _
  | error =>
    rintro _ ⟨⟩
    rfl

@[grind ←]
theorem mapM {items : List β} {read : β → Except Failure α} (each : ∀ item, Nameless (read item)) :
    Nameless (items.mapM read) := by
  induction items with
  | nil => exact .pure _
  | cons item _ ih =>
    rw [List.mapM_cons]
    exact .bind (each item) fun _ => .bind ih fun _ => .pure _

end Nameless

namespace Heap

attribute [local grind =] fieldOf Filling.take repeatCount

variable (heap : Heap)

/-! ### Elements and references -/

@[grind ←]
theorem listItem_nameless : Nameless (heap.listItem elements index) := by
  unfold listItem
  grind

@[grind ←]
theorem indexText_nameless (index : Value) : Nameless (indexText index) := by
  unfold indexText
  grind

@[grind ←]
theorem checkBounds_nameless (length : Nat) : Nameless (heap.checkBounds length index) := by
  unfold checkBounds
  grind

@[grind ←]
theorem item_nameless : Nameless (heap.item object index) := by
  unfold item notSubscriptable
  grind

@[grind ←]
theorem targetValue_nameless : Nameless (heap.targetValue target) := by
  unfold targetValue entryOrNull
  grind

@[grind ←]
theorem follow_nameless (depth : Nat) : Nameless (heap.follow depth value) := by
  induction depth generalizing value with
  | zero => exact .exhausted
  | succ =>
    unfold follow
    grind

@[grind ←]
theorem dereference_nameless (value : Value) : Nameless (heap.dereference value) :=
  heap.follow_nameless _

/-! ### Texts -/

@[grind ←]
theorem quotedKey_nameless (key : Key) : Nameless (quotedKey key) := by
  unfold quotedKey
  grind

@[grind ←]
theorem plainBy_nameless {quoted : Value → Except Failure String}
    (each : ∀ value, Nameless (quoted value)) : Nameless (plainBy quoted value) := by
  unfold plainBy
  grind

@[grind ←]
theorem quotedWithin_nameless (depth : Nat) (opened : List Address) (value : Value) :
    Nameless (heap.quotedWithin depth opened value) := by
  induction depth generalizing opened value with
  | zero => exact .exhausted
  | succ depth ih =>
    have within (opened : List Address) (value : Value) :
        Nameless (heap.quotedWithin depth opened value) := ih opened value
    unfold quotedWithin
    split
    case h_10 =>
      dsimp only
      split
      case h_4 =>
        split
        · exact .ok _
        · exact .map _ (.mapM fun _ => .bind (quotedKey_nameless _) fun _ =>
            .bind (within _ _) fun _ => .pure _)
      all_goals grind
    all_goals grind

@[grind ←]
theorem quoted_nameless (value : Value) : Nameless (heap.quoted value) :=
  heap.quotedWithin_nameless _ _ _

@[grind ←]
theorem plain_nameless (value : Value) : Nameless (heap.plain value) :=
  plainBy_nameless heap.quoted_nameless

@[grind ←]
theorem displayWithin_nameless (bytesText : List UInt8 → String) (depth : Nat) (value : Value) :
    Nameless (heap.displayWithin bytesText depth value) := by
  induction depth generalizing value with
  | zero => exact .exhausted
  | succ =>
    unfold displayWithin
    split
    case h_10 => split <;> grind
    all_goals grind

@[grind ←]
theorem display_nameless (value : Value) : Nameless (heap.display value) :=
  heap.displayWithin_nameless _ _ _

/-! ### Order -/

@[grind ←]
theorem compareElements_nameless {equal : Value → Value → Bool}
    {compare : Value → Value → Except Failure Bool}
    (each : ∀ left right, Nameless (compare left right)) :
    Nameless (compareElements equal compare comparison left right) := by
  induction left generalizing right with
  | nil => cases right <;> exact .ok _
  | cons =>
    cases right with
    | nil => exact .ok _
    | cons =>
      unfold compareElements
      grind

@[grind ←]
theorem compareWithin_nameless (depth : Nat) :
    Nameless (heap.compareWithin comparison depth left right) := by
  induction depth generalizing left right with
  | zero => exact .exhausted
  | succ =>
    unfold compareWithin
    grind

@[grind ←]
theorem compare_nameless : Nameless (heap.compare comparison left right) :=
  heap.compareWithin_nameless _

/-! ### Templates -/

@[grind ←]
theorem select_nameless (filling : Filling) (key : Format.PartKey) :
    Nameless (filling.select heap medium key) := by
  unfold Filling.select
  grind

@[grind ←]
theorem count_nameless (filling : Filling) (limitText tooLarge : String) (amount : Format.Amount) :
    Nameless (filling.count limit limitText tooLarge amount) := by
  unfold Filling.count
  grind

@[grind ←]
theorem requestedInt_nameless : Nameless (heap.requestedInt request value) := by
  unfold requestedInt
  dsimp only
  split
  · exact .ok _
  · split
    · split
      · exact .ok _
      · split <;> exact .fault _
    · exact .fault _
  · exact .fault _

section

variable (medium : Medium)
include medium

@[grind ←]
theorem requestedFloat_nameless (value : Value) : Nameless (heap.requestedFloat medium value) := by
  unfold requestedFloat
  grind

@[grind ←]
theorem requestedChar_nameless : Nameless (requestedChar medium value) := by
  unfold requestedChar
  grind

@[grind ←]
theorem requestedContent_nameless : Nameless (heap.requestedContent medium value) := by
  unfold requestedContent
  grind

@[grind ←]
theorem requested_nameless : Nameless (heap.requested medium request place value) := by
  have quotedBy (next : String → List Char) : Nameless (do return next (← heap.quoted value)) :=
    .bind (heap.quoted_nameless _) fun _ => .pure _
  unfold requested
  split
  · refine .bind heap.requestedInt_nameless fun _ => ?_
    split
    · exact .fault _
    · split
      · exact .fault _
      · exact .pure _
  · split
    · exact .bind (heap.requestedFloat_nameless _ _) fun _ => .pure _
    · split
      · exact heap.requestedContent_nameless _
      · exact heap.requestedContent_nameless _
      · exact quotedBy _
      · exact quotedBy _
      · exact quotedBy _
      · exact .bind (requestedChar_nameless _) fun _ => .pure _
      · exact .fault _

@[grind ←]
theorem filledDirective_nameless : Nameless (heap.filledDirective medium directive filling) := by
  unfold filledDirective
  refine .bind (heap.select_nameless _ _) fun _ => .bind (count_nameless _ _ _ _) fun _ =>
    .bind (count_nameless _ _ _ _) fun _ => ?_
  grind

@[grind ←]
theorem filledSegments_nameless : Nameless (heap.filledSegments medium segments filling) := by
  induction segments generalizing filling with
  | nil => exact .ok _
  | cons segment => cases segment <;> unfold filledSegments <;> grind

@[grind ←]
theorem fill_nameless : Nameless (heap.fill medium template value) := by
  unfold fill
  grind

end

/-! ### Operators -/

@[grind ←]
theorem arithmetic_nameless (onInts : Int → Int → Int) (onFloats : Float → Float → Float) :
    Nameless (arithmetic onInts onFloats left right) := by
  unfold arithmetic
  grind

@[grind ←]
theorem unsupported_nameless :
    Nameless (.error (heap.unsupported operator left right) : Except Failure α) :=
  .fault _

@[grind ←]
theorem add_nameless (left right : Value) : Nameless (heap.add left right) := by
  unfold add
  grind

@[grind ←]
theorem subtract_nameless (left right : Value) : Nameless (heap.subtract left right) := by
  unfold subtract
  grind

@[grind ←]
theorem repeatedWithin_nameless (count : Nat) (items : List α) :
    Nameless (repeatedWithin tooLong count items) := by
  unfold repeatedWithin
  dsimp only
  split
  · exact .fault _
  · exact .ok _

@[grind ←]
theorem zeros_nameless (number : Int) : Nameless (zeros number) := by
  unfold zeros
  grind

@[grind →]
theorem repeat?_nameless {sequence : Value}
    (isRepeated : heap.repeat? sequence count = some result) :
    Nameless result := by
  unfold repeat? at isRepeated
  grind

@[grind ←]
theorem multiply_nameless (left right : Value) : Nameless (heap.multiply left right) := by
  unfold multiply
  grind

@[grind ←]
theorem modulo_nameless (left right : Value) : Nameless (heap.modulo left right) := by
  unfold modulo
  split
  · exact .runtime rfl
  · split
    · exact arithmetic_nameless _ _
    · split
      · exact .map _ (heap.fill_nameless _)
      · exact .map _ (heap.fill_nameless _)
      · exact .fault _

@[grind ←]
theorem isTrue_nameless (value : Value) : Nameless (heap.isTrue value) := by
  unfold isTrue
  grind

@[grind ←]
theorem negate_nameless (value : Value) : Nameless (heap.negate value) := by
  unfold negate
  grind

@[grind ←]
theorem binary_nameless (operator : BinaryOperator) (left right : Value) :
    Nameless (heap.binary operator left right) := by
  unfold binary equals followOnce divide
  grind

/-! ### Elements and fields in expressions -/

@[grind ←]
theorem checkIndex_nameless : Nameless (heap.checkIndex object index) := by
  unfold checkIndex
  grind

@[grind ←]
theorem boundedPosition_nameless (length : Nat) (other : ∀ text, (cause text).isAboutName = false) :
    Nameless (boundedPosition index length cause) := by
  unfold boundedPosition
  grind

@[grind ←]
theorem indexed_nameless (object index : Value) : Nameless (heap.indexed object index) := by
  unfold indexed
  refine .bind heap.checkIndex_nameless fun _ => .bind (heap.dereference_nameless _) fun _ => ?_
  have position (length : Nat) (next : Nat → Value) :
      Nameless (do return next (← boundedPosition index length (.indexOutside · length))) :=
    .bind (boundedPosition_nameless _ fun _ => rfl) fun _ => .pure _
  split
  · exact position _ _
  · exact position _ _
  · split
    · exact position _ _
    · exact position _ _
    · split
      · exact .throw_fault
      · split
        · exact .pure _
        · exact .bind (heap.plain_nameless _) fun _ => .throw_runtime rfl
    · exact .throw_runtime rfl

@[grind ←]
theorem selected_nameless (object : Value) (name : String) :
    Nameless (heap.selected object name) := by
  unfold selected
  grind

@[grind ←]
theorem indexAssignment_nameless (object index value : Value) :
    Nameless (heap.indexAssignment object index value) := by
  unfold indexAssignment
  refine .bind heap.checkIndex_nameless fun _ => ?_
  have position (length : Nat) (next : Nat → Change) :
      Nameless (do return next (← boundedPosition index length .indexOutOfRange)) :=
    .bind (boundedPosition_nameless _ fun _ => rfl) fun _ => .pure _
  split
  · exact .throw_runtime rfl
  · split
    · exact position _ _
    · exact position _ _
    · unfold entryChange
      grind
    · exact .throw_runtime rfl
  · exact .throw_runtime rfl

@[grind ←]
theorem fieldAssignment_nameless (object : Value) (name : String) (value : Value) :
    Nameless (heap.fieldAssignment object name value) := by
  unfold fieldAssignment fieldChange
  grind

/-! ### Formats -/

@[grind ←]
theorem formattedOr_nameless : Nameless (heap.formattedOr value result) := by
  unfold formattedOr
  grind

@[grind ←]
theorem formattedBy_nameless {display : Value → Except Failure String}
    (each : ∀ value, Nameless (display value)) :
    Nameless (heap.formattedBy display value spec) := by
  unfold formattedBy formattedInt formattedAs rightAligned widthOf
  grind

@[grind ←]
theorem formatted_nameless (value : Value) (spec : Option String) :
    Nameless (heap.formatted value spec) :=
  heap.formattedBy_nameless heap.display_nameless

end Heap

end Noxy
