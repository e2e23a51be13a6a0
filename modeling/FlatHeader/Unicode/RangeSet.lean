/-!
# Sets of code points

A property of characters is data: the ascending ranges of code points that have it. `RangeSet` is
the search tree such a list is turned into, so that asking about one character takes as many steps
as the tree is deep.
-/

namespace FlatHeader.Unicode

/-- A set of code points, as a search tree of closed ranges. -/
inductive RangeSet where
  | empty
  | node (below : RangeSet) (first last : Nat) (above : RangeSet)

namespace RangeSet

/-- Whether the code point `n` lies in a range of the set. -/
def contains (n : Nat) : RangeSet → Bool
  | empty => false
  | node below first last above =>
    if n < first then below.contains n
    else if last < n then above.contains n
    else true

/-- A tree of at most `depth` levels, filled from the front of the list, and the ranges that were
left over. -/
def build : Nat → List (Nat × Nat) → RangeSet × List (Nat × Nat)
  | 0, ranges => (empty, ranges)
  | depth + 1, ranges =>
    match build depth ranges with
    | (below, []) => (below, [])
    | (below, (first, last) :: rest) =>
      let (above, rest) := build depth rest
      (node below first last above, rest)

/-- The set of the code points in the given ranges, which ascend and do not touch. -/
def ofAscending (ranges : List (Nat × Nat)) : RangeSet :=
  -- `d` levels have room for `2 ^ d - 1` ranges
  (build (ranges.length.log2 + 1) ranges).1

end RangeSet

end FlatHeader.Unicode
