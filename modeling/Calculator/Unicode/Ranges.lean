/-!
# Sets of code points

A character class is written as ascending ranges of code points, both ends included.
-/

namespace Calculator.Unicode

/-- Ascending, disjoint ranges of code points, each with its first and its last member. -/
abbrev Ranges := List (Nat × Nat)

/-- Membership of a code point. Since the ranges ascend, the search stops at the first that
starts above it. -/
def Ranges.covers : Ranges → Nat → Bool
  | [], _ => false
  | (first, last) :: rest, point =>
    if point < first then false
    else if point ≤ last then true
    else Ranges.covers rest point

end Calculator.Unicode
