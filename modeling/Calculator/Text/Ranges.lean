/-!
# Ranges of characters

A set of characters that a standard gives is kept as the ranges of its code points, in increasing order.
-/

namespace Calculator

/-- Whether a character lies in one of the ranges, their ends included. -/
def inRanges (ranges : List (Nat × Nat)) (c : Char) : Bool :=
  ranges.any fun (first, last) => first ≤ c.toNat && c.toNat ≤ last

end Calculator
