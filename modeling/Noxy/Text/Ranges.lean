/-!
# Sets of code points given by their boundaries

A property of characters is stored as the increasing list of code points at which membership
changes: the first boundary opens a range, the second closes it, and so on.
-/

namespace Noxy.Text

def sums (start : Nat) : List Nat → List Nat
  | [] => []
  | gap :: rest => (start + gap) :: sums (start + gap) rest

def boundaries (gaps : List Nat) : Array Nat :=
  (sums 0 gaps).toArray

def inRanges (flips : Array Nat) (codePoint : Nat) : Bool :=
  flips.foldl (fun inside boundary => if boundary ≤ codePoint then !inside else inside) false

end Noxy.Text
