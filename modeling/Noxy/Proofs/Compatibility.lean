import Noxy.Proofs.ScalarChecking

/-!
# Compatible types

What the checker compares when a value of one type is put where another type is declared.
-/

namespace Noxy

namespace Ty

/-- The types `part` and `part'` stand at the same place in the two types. -/
inductive Faces : Ty → Ty → Ty → Ty → Prop where
  | whole : Faces left right left right
  | element (faces : Faces left right part part') :
      Faces (.array left size) (.array right size') part part'
  | key (faces : Faces left right part part') :
      Faces (.map left value) (.map right value') part part'
  | value (faces : Faces left right part part') :
      Faces (.map key left) (.map key' right) part part'
  | inner (faces : Faces left right part part') : Faces (.ref left) (.ref right) part part'

/-- The types that face each other right below the top. -/
def opposite : Ty → Ty → List (Ty × Ty)
  | array left _, array right _ => [(left, right)]
  | map key value, map key' value' => [(key, key'), (value, value')]
  | ref left, ref right => [(left, right)]
  | _, _ => []

/-- What a type is at its top, without the sizes of arrays. -/
def head : Ty → Ty
  | array _ _ => array void none
  | map _ _ => map void void
  | ref _ => ref void
  | imported name _ => imported name 0
  | type => type

def hasAny : Ty → Bool
  | array element _ => element.hasAny
  | map key value => key.hasAny || value.hasAny
  | ref inner => inner.hasAny
  | any => true
  | _ => false

/-- Whether a type is that of an array or a map that is written without any items. -/
def isBlank : Ty → Bool
  | array element _ => element = void
  | map key _ => key = void
  | _ => false

def topFits : Ty → Ty → Bool
  | array _ (some size), array element (some size') => element = void || size = size'
  | struct name _, struct name' _ => name = name'
  | left, right => left.head = right.head

variable {left : Ty}

theorem sameShape_iff_head : left.sameShape right = true ↔
    left.head = right.head ∧ ∀ pair ∈ left.opposite right, pair.1.sameShape pair.2 = true := by
  constructor
  · intro same
    unfold sameShape at same
    split at same <;> simp_all [head, opposite]
  · rintro ⟨same, _⟩
    cases left <;> cases right <;> cases same <;> simp_all [sameShape, opposite]

theorem sameShape_iff : left.sameShape right = true ↔
    ∀ part part', Faces left right part part' → part.head = part'.head := by
  constructor
  · intro same _ _ faces
    induction faces with
    | whole => exact (sameShape_iff_head.1 same).1
    | element _ ih | key _ ih | inner _ ih => exact ih ((sameShape_iff_head.1 same).2 _ (.head _))
    | value _ ih => exact ih ((sameShape_iff_head.1 same).2 _ (.tail _ (.head _)))
  · intro heads
    induction left generalizing right with
    | array _ _ ih =>
      cases right with
      | array => exact ih fun _ _ faces => heads _ _ (.element faces)
      | _ => cases heads _ _ .whole
    | map _ _ ihKey ihValue =>
      cases right with
      | map =>
        rw [sameShape, Bool.and_eq_true]
        exact ⟨ihKey fun _ _ faces => heads _ _ (.key faces),
          ihValue fun _ _ faces => heads _ _ (.value faces)⟩
      | _ => cases heads _ _ .whole
    | ref _ ih =>
      cases right with
      | ref => exact ih fun _ _ faces => heads _ _ (.inner faces)
      | _ => cases heads _ _ .whole
    | _ => exact sameShape_iff_head.2 ⟨heads _ _ .whole, fun _ member => by cases member⟩

theorem equal_of_hasAny (noAny : left.hasAny = false) (noAny' : right.hasAny = false) :
    left.equal right = left.sameShape right := by
  have notAny : left ≠ .any ∧ right ≠ .any := by
    constructor <;> rintro rfl <;> contradiction
  simp [equal, notAny]

theorem accepts_iff_of_ne (notNull : right ≠ .ref .void) (noAny : left.hasAny = false)
    (noAny' : right.hasAny = false) :
    left.accepts right = true ↔ left.topFits right = true ∧
      (right.isBlank = true ∨ ∀ pair ∈ left.opposite right, pair.1.sameShape pair.2 = true) := by
  unfold accepts
  split
  case h_1 => cases noAny
  case h_2 => cases noAny'
  case h_3 => exact absurd rfl notNull
  case h_4 => exact absurd rfl notNull
  case h_5 size size' => cases size <;> cases size' <;> simp [topFits, isBlank, head]
  case h_6 size _ size' notVoid =>
    simp only [hasAny] at noAny noAny'
    rw [equal_of_hasAny noAny noAny']
    cases size <;> cases size' <;>
      simp [topFits, isBlank, head, opposite, eq_false notVoid, and_comm]
  case h_7 => simp [topFits, isBlank, head]
  case h_8 notVoid =>
    simp only [hasAny, Bool.or_eq_false_iff] at noAny noAny'
    rw [equal_of_hasAny noAny.1 noAny'.1, equal_of_hasAny noAny.2 noAny'.2]
    simp [topFits, isBlank, head, opposite, eq_false notVoid]
  case h_9 => simp [topFits, isBlank, opposite]
  case h_10 notBlankArray notArrays notBlankMap notMaps notStructs =>
    have top : left.topFits right = decide (left.head = right.head) := by
      unfold topFits
      split
      · exact (notArrays _ _ _ _ rfl rfl).elim
      · exact (notStructs _ _ _ _ rfl rfl).elim
      · rfl
    have isFull (same : left.head = right.head) : right.isBlank = false := by
      cases right with
      | array => cases left <;> first | exact (notArrays _ _ _ _ rfl rfl).elim | cases same
      | map => cases left <;> first | exact (notMaps _ _ _ _ rfl rfl).elim | cases same
      | _ => rfl
    rw [equal_of_hasAny noAny noAny', sameShape_iff_head, top, decide_eq_true_eq]
    refine and_congr_right fun same => ?_
    rw [isFull same]
    simp

/-- Between two types that have no `any`, the outermost sizes are compared and the outermost
structs by name alone; everywhere below the top the structs are the same in name and in module,
and no sizes are compared. -/
theorem accepts_compares_heads (expected actual : Ty) (noAny : expected.hasAny = false)
    (noAny' : actual.hasAny = false) :
    expected.accepts actual = true ↔ expected.isRef = true ∧ actual = .ref .void ∨
      actual ≠ .ref .void ∧ expected.topFits actual = true ∧ (actual.isBlank = true ∨
        ∀ pair ∈ expected.opposite actual, ∀ part part',
          Faces pair.1 pair.2 part part' → part.head = part'.head) := by
  by_cases null : actual = .ref .void
  · subst null
    cases expected <;> simp_all [accepts, isRef, hasAny]
  · simp only [accepts_iff_of_ne null noAny noAny', sameShape_iff, null, and_false, false_or,
      ne_eq, not_false_eq_true, true_and]

theorem accepts_compares_heads_pair : (Ty.array .int (some 2)).accepts (.array .int none) = true :=
  (accepts_compares_heads _ _ (by decide) (by decide)).2 <| .inr ⟨by decide, by decide, .inr (by
    rintro pair (_ | ⟨_, ⟨⟩⟩) part part' ⟨⟩
    rfl)⟩

theorem accepts_other_sizes_and_modules :
    (Ty.map .string (.array .int (some 3))).accepts (.map .string (.array .int (some 2))) = true ∧
      (Ty.struct "P" (some "n")).accepts (.struct "P" (some "m")) = true := by
  decide

/-- What an initializer of a `let` may also be where an array is declared. -/
def isLenient : Ty → Ty → Bool
  | array element _, array element' _ => element.equal element'
  | array _ _, _ => true
  | _, _ => false

theorem initializerRefusal?_eq_none {declared : Ty} :
    declared.initializerRefusal? actual = none ↔
      declared.accepts actual = true ∨ declared.isLenient actual = true := by
  unfold initializerRefusal?
  split
  case h_4 notArray => cases declared <;> simp_all [isLenient]
  all_goals simp_all [isLenient, accepts]

end Ty

namespace Stmt

variable {known : Checker}

attribute [local simp] Check.bind_apply Check.pure_apply Check.modify_apply Check.typeOf_apply
  Check.require_apply

/-- At the top level `global` takes an initializer exactly when its type fits the declared one;
`let` also takes, where an array is declared, what is no array and arrays of any other size. -/
theorem initializers_accepted (outside : known.inner = []) (name : String) (type : Ty)
    (initializer : Expr) (location : Location) :
    ((∃ later, (globalVar name type initializer location).check known = .ok () later) ↔
      ∃ actual, known.typeOf initializer = .ok actual ∧ type.accepts actual = true) ∧
    ((∃ later, (letVar name type (some initializer) location).check known = .ok () later) ↔
      ∃ actual, known.typeOf initializer = .ok actual ∧
        (type.accepts actual = true ∨ type.isLenient actual = true)) ∧
    ∀ later later', (globalVar name type initializer location).check known = .ok () later →
      (letVar name type (some initializer) location).check known = .ok () later' →
      later = later' := by
  refine ⟨⟨fun ⟨later, checked⟩ => (ok_of_check_globalVar checked).1, ?_⟩, ⟨?_, ?_⟩, ?_⟩
  · rintro ⟨actual, typed, fits⟩
    exact ⟨_, by simp [check, typed, fits]; rfl⟩
  · rintro ⟨later, checked⟩
    obtain ⟨actual, typed, fits⟩ := (ok_of_check_letVar checked).1 _ rfl
    exact ⟨actual, typed, Ty.initializerRefusal?_eq_none.1 fits⟩
  · rintro ⟨actual, typed, fits⟩
    exact ⟨_, by simp [check, typed, Ty.initializerRefusal?_eq_none.2 fits]; rfl⟩
  · intro later later' checked checked'
    rw [(ok_of_check_globalVar checked).2, (ok_of_check_letVar checked').2, Checker.define, outside]

theorem initializers_accepted_counter : let place : Location := ⟨1, 1, "main.nx"⟩
    ∃ later, (globalVar "n" .int (.int 5 place) place).check .fresh = .ok () later :=
  (initializers_accepted rfl "n" .int (.int 5 _) _).1.2 ⟨.int, rfl, rfl⟩

theorem let_accepts_more_than_global : let place : Location := ⟨1, 1, "main.nx"⟩
    (letVar "x" (.array .int none) (some (.int 5 place)) place).check .fresh =
        .ok () (Checker.fresh.define "x" (.array .int none)) ∧
      (globalVar "x" (.array .int none) (.int 5 place) place).check .fresh =
        .error (.error (.typing (.initializerMismatch "int[]" "int") place)) .fresh :=
  ⟨rfl, rfl⟩

end Stmt
end Noxy
