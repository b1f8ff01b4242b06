/-!
# Character ranges

A class of characters given by ascending ranges of code points.
-/

set_option autoImplicit false

namespace Bindery.Text

/-- Whether the code point lies in one of the ranges, both ends included. -/
def inRanges (ranges : List (Nat × Nat)) (c : Char) : Bool :=
  ranges.any fun range => range.1 ≤ c.toNat && c.toNat ≤ range.2

end Bindery.Text
