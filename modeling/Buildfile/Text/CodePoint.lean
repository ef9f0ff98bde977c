/-! # Sets of characters by code point

A set of characters is written as a list of code point ranges with both ends included.
-/

namespace Buildfile.Text

def inRanges (ranges : List (Nat × Nat)) (c : Char) : Bool :=
  ranges.any fun r => r.1 ≤ c.toNat && c.toNat ≤ r.2

end Buildfile.Text
