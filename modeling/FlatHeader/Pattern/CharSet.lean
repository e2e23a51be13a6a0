import FlatHeader.Text.Basic

/-!
# Sets of characters

A set as it is put together from ranges by the operations of set theory. Whether a character is in
it is answered by asking its parts.
-/

namespace FlatHeader

/-- A set of characters. -/
inductive CharSet where
  | nothing
  /-- The characters from `first` to `last`, both included. -/
  | range (first last : Char)
  | union (s t : CharSet)
  | inter (s t : CharSet)
  | difference (s t : CharSet)
  | symmetricDifference (s t : CharSet)
  | complement (s : CharSet)
  /-- With each letter of ASCII the set has its small and its capital form. -/
  | bothCases (s : CharSet)
deriving DecidableEq

namespace CharSet

/-- The other form of an ASCII letter, or any other character itself. -/
def otherCase (c : Char) : Char := if c.isUpper then c.toLower else c.toUpper

/-- Whether a character is in a set. -/
def contains (c : Char) : CharSet → Bool
  | nothing => false
  | range first last => first ≤ c && c ≤ last
  | union s t => s.contains c || t.contains c
  | inter s t => s.contains c && t.contains c
  | difference s t => s.contains c && !t.contains c
  | symmetricDifference s t => s.contains c != t.contains c
  | complement s => !s.contains c
  | bothCases s => s.contains c || s.contains (otherCase c)

/-- The set of one character. -/
def single (c : Char) : CharSet := range c c

/-- The union of sets. -/
def unionAll (sets : List CharSet) : CharSet := sets.foldr union nothing

/-- Whether a set was put together without any range. Such a set has no character or all. -/
def isRangeless : CharSet → Bool
  | nothing => true
  | range .. => false
  | union s t => s.isRangeless && t.isRangeless
  | inter s t => s.isRangeless && t.isRangeless
  | difference s t => s.isRangeless && t.isRangeless
  | symmetricDifference s t => s.isRangeless && t.isRangeless
  | complement s => s.isRangeless
  | bothCases s => s.isRangeless

end CharSet

end FlatHeader
