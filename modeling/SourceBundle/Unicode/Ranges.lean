/-!
# Ranges of characters

Properties of characters are given as lists of closed ranges of codes, in increasing order.
-/

namespace SourceBundle.Unicode

/-- The code lies in one of the closed ranges. -/
def inRanges (n : Nat) (ranges : List (Nat × Nat)) : Bool :=
  ranges.any fun range => range.1 ≤ n && n ≤ range.2

end SourceBundle.Unicode
