import QueryTables.Text

/-!
# Sets of characters as ranges of code points

A property of characters is given by ascending, disjoint ranges of code points, ends included.
-/

namespace QueryTables.Text

/-- Ranges of code points, ascending and disjoint, each with both of its ends. -/
abbrev CodeRanges := List (Nat × Nat)

/-- A code point lies in one of the ranges. The ranges ascend, so the search ends at the first
range that starts above the code point. -/
def CodeRanges.contains : CodeRanges → Nat → Bool
  | [], _ => false
  | (low, high) :: rest, n =>
      if n < low then false else if n ≤ high then true else CodeRanges.contains rest n

end QueryTables.Text
