import FlatHeader.Pattern.CharSet

/-!
# The ranges of a set

Whether a character is in a set can change at a few thresholds only, and these can be read off the
way in which the set was put together. Between them lie the ranges of the set: as few as there can
be, in ascending order.
-/

namespace FlatHeader.CharSet

/-- The code point of the next character. There are no characters from U+D800 to U+DFFF. -/
def next (n : Nat) : Nat := if n = 0xd7ff then 0xe000 else n + 1

/-- The code point of the character before. -/
def previous (n : Nat) : Nat := if n = 0xe000 then 0xd7ff else n - 1

/-- The code points at which a set may begin or stop. -/
def thresholds : CharSet → List Nat
  | nothing => []
  | range first last => [first.toNat, next last.toNat]
  | union s t => s.thresholds ++ t.thresholds
  | inter s t => s.thresholds ++ t.thresholds
  | difference s t => s.thresholds ++ t.thresholds
  | symmetricDifference s t => s.thresholds ++ t.thresholds
  | complement s => s.thresholds
  -- letters have another form, so each character of ASCII stands for itself
  | bothCases s => List.range 0x81 ++ s.thresholds

/-- Whether the character of a code point is in a set. -/
def containsPoint (s : CharSet) (n : Nat) : Bool := n ≤ 0x10ffff && s.contains (Char.ofNat n)

/-- The ranges of a set between thresholds, the first one from `start` on if the set has begun. -/
def rangesBetween (s : CharSet) : Option Nat → List Nat → List (Nat × Nat)
  | _, [] => []
  | none, n :: rest => rangesBetween s (if s.containsPoint n then some n else none) rest
  | some start, n :: rest =>
    if s.containsPoint n then rangesBetween s (some start) rest
    else (start, previous n) :: rangesBetween s none rest

/-- The ranges of a set, as the code points of their first and last characters. -/
def ranges (s : CharSet) : List (Nat × Nat) :=
  s.rangesBetween none (0 :: (s.thresholds.mergeSort (· ≤ ·) ++ [0x110000]))

/-- The set of the characters in ranges. -/
def ofRanges (ranges : List (Nat × Nat)) : CharSet :=
  .unionAll (ranges.map fun (first, last) => .range (Char.ofNat first) (Char.ofNat last))

end FlatHeader.CharSet
