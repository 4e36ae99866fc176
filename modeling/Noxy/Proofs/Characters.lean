import Mathlib.Data.List.Chain
import Noxy.Text.Digit
import Noxy.Text.Letter

/-!
# Classes of characters

A class of characters is given by the code points at which membership changes.
-/

namespace Noxy.Text

def changedBy (codePoint : Nat) (inside : Bool) (boundaries : List Nat) : Bool :=
  boundaries.foldl (fun inside boundary => if boundary ≤ codePoint then !inside else inside) inside

theorem inRanges_eq_changedBy :
    inRanges flips codePoint = changedBy codePoint false flips.toList := by
  rw [inRanges, ← Array.foldl_toList, changedBy]

theorem changedBy_cons :
    changedBy codePoint inside (boundary :: rest) =
      changedBy codePoint (if boundary ≤ codePoint then !inside else inside) rest :=
  rfl

theorem changedBy_of_lt {boundaries : List Nat}
    (beyond : ∀ boundary ∈ boundaries, codePoint < boundary) :
    changedBy codePoint inside boundaries = inside := by
  induction boundaries with
  | nil => rfl
  | cons boundary _ ih =>
    have notReached : ¬ boundary ≤ codePoint := Nat.not_le.mpr (beyond boundary List.mem_cons_self)
    rw [changedBy_cons, if_neg notReached]
    exact ih fun other member => beyond other (List.mem_cons_of_mem _ member)

theorem changedBy_of_lt_head (increasing : (boundary :: rest).Pairwise (· < ·))
    (beyond : codePoint < boundary) : changedBy codePoint inside (boundary :: rest) = inside := by
  refine changedBy_of_lt ?_
  intro _ member
  rcases List.mem_cons.mp member with rfl | inRest
  · exact beyond
  · exact Nat.lt_trans beyond (List.rel_of_pairwise_cons increasing inRest)

/-! ### Classes without a common character -/

/--
Whether two classes have nothing in common up to a boundary of the first one, where membership in
the first one is `inside`; `beyond` tells about the code points from that boundary on.
-/
def areApartUpTo (boundary : Nat) (inside : Bool) (beyond : Bool → List Nat → Bool) :
    Bool → List Nat → Bool
  | other, [] => !(inside && other) && beyond other []
  | other, first :: rest =>
    !(inside && other) &&
      if first < boundary then areApartUpTo boundary inside beyond (!other) rest
      else if first = boundary then beyond (!other) rest
      else beyond other (first :: rest)

def areApart : Bool → List Nat → Bool → List Nat → Bool
  | inside, [], other, others => !inside || (!other && others.isEmpty)
  | inside, boundary :: rest, other, others =>
    areApartUpTo boundary inside (areApart (!inside) rest) other others

theorem not_both_of_areApartUpTo (below : codePoint < boundary → isMember = inside)
    (above : boundary ≤ codePoint → ∀ other others, others.Pairwise (· < ·) →
      beyond other others = true → (isMember && changedBy codePoint other others) = false) :
    ∀ other others, others.Pairwise (· < ·) →
      areApartUpTo boundary inside beyond other others = true →
        (isMember && changedBy codePoint other others) = false := by
  intro other others
  induction others generalizing other with
  | nil =>
    intro increasing apart
    simp only [areApartUpTo, Bool.and_eq_true, Bool.not_eq_true'] at apart
    rcases Nat.lt_or_ge codePoint boundary with before | after
    · rw [below before]
      exact apart.1
    · exact above after other [] increasing apart.2
  | cons first rest ih =>
    intro increasing apart
    simp only [areApartUpTo, Bool.and_eq_true, Bool.not_eq_true'] at apart
    rcases Nat.lt_or_ge codePoint first with before | after
    · -- the second class stays as it is up to the code point
      rcases Nat.lt_or_ge codePoint boundary with inFirst | afterFirst
      · rw [below inFirst, changedBy_of_lt_head increasing before]
        exact apart.1
      · have notLess : ¬ first < boundary := by omega
        have notSame : first ≠ boundary := by omega
        rw [if_neg notLess, if_neg notSame] at apart
        exact above afterFirst other _ increasing apart.2
    · rw [changedBy_cons, if_pos after]
      have restIncreasing := increasing.of_cons
      split at apart
      · exact ih _ restIncreasing apart.2
      · split at apart
        · rename_i isSame
          exact above (isSame ▸ after) _ _ restIncreasing apart.2
        · have := above (by omega) other _ increasing apart.2
          rwa [changedBy_cons, if_pos after] at this

theorem not_both_of_areApart
    {boundaries : List Nat} (increasing : boundaries.Pairwise (· < ·)) (codePoint : Nat) :
    ∀ inside other others, others.Pairwise (· < ·) →
      areApart inside boundaries other others = true →
        (changedBy codePoint inside boundaries && changedBy codePoint other others) = false := by
  induction boundaries with
  | nil =>
    intro _ _ _ _ apart
    simp only [areApart, Bool.or_eq_true, Bool.not_eq_true', Bool.and_eq_true,
      List.isEmpty_iff] at apart
    rcases apart with outside | ⟨outside, rfl⟩
    · rw [changedBy_of_lt (by simp), outside, Bool.false_and]
    · rw [outside]
      exact Bool.and_false _
  | cons _ _ ih =>
    intro inside other others othersIncreasing apart
    refine not_both_of_areApartUpTo ?_ ?_ other others othersIncreasing apart
    · intro before
      exact changedBy_of_lt_head increasing before
    · intro after _ _ othersIncreasing apart
      rw [changedBy_cons, if_pos after]
      exact ih increasing.of_cons _ _ _ othersIncreasing apart

theorem isDigit_of_isLetter (letter : isLetter c = true) : isDigit c = false := by
  unfold isLetter at letter
  unfold isDigit
  split at letter
  · rename_i small
    rw [if_pos small]
    unfold Char.isAlpha Char.isUpper Char.isLower at letter
    unfold Char.isDigit
    simp only [ge_iff_le, Bool.or_eq_true, Bool.and_eq_true, decide_eq_true_eq,
      Bool.and_eq_false_iff, decide_eq_false_iff_not, UInt32.le_iff_toNat_le] at letter ⊢
    have upper : 'A'.val.toNat = 65 ∧ 'Z'.val.toNat = 90 := ⟨rfl, rfl⟩
    have lower : 'a'.val.toNat = 97 ∧ 'z'.val.toNat = 122 := ⟨rfl, rfl⟩
    have digits : '0'.val.toNat = 48 ∧ '9'.val.toNat = 57 := ⟨rfl, rfl⟩
    omega
  · rename_i large
    rw [if_neg large]
    have lettersIncrease : letterFlips.toList.Pairwise (· < ·) :=
      List.isChain_iff_pairwise.mp (by decide +kernel)
    have digitsIncrease : digitFlips.toList.Pairwise (· < ·) :=
      List.isChain_iff_pairwise.mp (by decide +kernel)
    have apart : areApart false letterFlips.toList false digitFlips.toList = true := by
      decide +kernel
    have notBoth := not_both_of_areApart lettersIncrease c.toNat _ _ _ digitsIncrease apart
    rwa [← inRanges_eq_changedBy, ← inRanges_eq_changedBy, letter, Bool.true_and] at notBoth

end Noxy.Text
