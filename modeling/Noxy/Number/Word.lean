/-!
# Words

The integers of programs have no bounds, but counts, moments and the cells of a table are words.
-/

namespace Noxy.Number

def fitsWord (n : Int) : Bool :=
  -0x8000000000000000 ≤ n && n < 0x8000000000000000

end Noxy.Number
