import FlatHeader.Pattern.CharSet

/-!
# Patterns

A pattern says what some part of a text looks like. It is understood as a map on positions: from
the positions at which a match may begin to those at which it may end. Positions are marked in a
list with one truth value for each character of the text and one for its end.
-/

namespace FlatHeader

/-- What the characters on both sides of a position have to be. -/
inductive Look where
  | textStart
  | textEnd
  | lineStart
  | lineEnd
  /-- The start and end of a line, where carriage returns break lines too. -/
  | anyLineStart
  | anyLineEnd
  | wordBoundary
  | noWordBoundary
  | wordStart
  | wordEnd
  /-- No character of a word in front, or none behind. -/
  | halfWordStart
  | halfWordEnd
deriving DecidableEq

namespace Look

/-- Whether a character belongs to a word: an ASCII letter, a digit or an underscore. -/
def isWordChar (c : Char) : Bool := c.isAlphanum || c = '_'

/-- Whether a position has what is asked for, between the given characters. -/
def holds (before after : Option Char) : Look → Bool
  | textStart => before.isNone
  | textEnd => after.isNone
  | lineStart => before.all (· = '\n')
  | lineEnd => after.all (· = '\n')
  | anyLineStart => before.all (· = '\n') || (before = some '\r' && after ≠ some '\n')
  | anyLineEnd => after.all (· = '\r') || (after = some '\n' && before ≠ some '\r')
  | wordBoundary => before.any isWordChar != after.any isWordChar
  | noWordBoundary => before.any isWordChar == after.any isWordChar
  | wordStart => !before.any isWordChar && after.any isWordChar
  | wordEnd => before.any isWordChar && !after.any isWordChar
  | halfWordStart => !before.any isWordChar
  | halfWordEnd => !after.any isWordChar

end Look

/-- What a part of a text looks like. -/
inductive Pattern where
  | empty
  /-- One character of a set. -/
  | one (s : CharSet)
  | look (l : Look)
  /-- A look at words whose letters are those of all scripts. No table tells which they are. -/
  | foreignLook (l : Look)
  /-- A part in parentheses. The place of its match may be kept; nothing asks for it here. -/
  | group (isKept : Bool) (p : Pattern)
  | concat (p q : Pattern)
  | either (p q : Pattern)
  /-- The pattern again and again, as many times as two bounds say. -/
  | repeated (p : Pattern) (least : Nat) (most : Option Nat)
deriving DecidableEq

namespace Pattern

/-- Marks on the positions of a text. -/
abbrev Marks := List Bool

/-- The positions that are marked in one of two lists. -/
def Marks.union (a b : Marks) : Marks := List.zipWith or a b

/-! ## Where matches end -/

/-- The positions behind a character of a set, from those in front of it. The first position is
left out. -/
def behind (s : CharSet) : Text → Marks → Marks
  | c :: t, mark :: marks => (mark && s.contains c) :: behind s t marks
  | _, _ => []

/-- The positions at which a look holds. -/
def looking (l : Look) (before : Option Char) : Text → Marks → Marks
  | [], marks => marks.map (· && l.holds before none)
  | c :: t, mark :: marks => (mark && l.holds before (some c)) :: looking l (some c) t marks
  | _ :: _, [] => []

/-- A step done a number of times. It changes nothing any more once it has changed nothing. -/
def exactly (step : Marks → Marks) : Nat → Marks → Marks
  | 0, marks => marks
  | n + 1, marks =>
    let next := step marks
    if next = marks then marks else exactly step n next

/-- A step done at most a number of times. -/
def atMost (step : Marks → Marks) : Nat → Marks → Marks
  | 0, marks => marks
  | n + 1, marks =>
    let next := marks.union (step marks)
    if next = marks then marks else atMost step n next

/-- The positions at which a match may end, from those at which it may begin. Where there is no
upper bound, as many times are enough as there are positions. -/
def ends (t : Text) : Pattern → Marks → Marks
  | empty, marks => marks
  | one s, marks => false :: behind s t marks
  | look l, marks => looking l none t marks
  | foreignLook _, marks => marks.map fun _ => false
  | group _ p, marks => p.ends t marks
  | concat p q, marks => q.ends t (p.ends t marks)
  | either p q, marks => (p.ends t marks).union (q.ends t marks)
  | repeated p least most, marks =>
    atMost (p.ends t) ((most.map (· - least)).getD marks.length) (exactly (p.ends t) least marks)

/-- Whether some part of a text looks like the pattern. -/
def isIn (p : Pattern) (t : Text) : Bool :=
  (p.ends t (List.replicate (t.length + 1) true)).contains true

/-- Patterns one after another. -/
def concatAll (patterns : List Pattern) : Pattern := patterns.foldr concat empty

/-- One of several patterns. -/
def eitherAll : List Pattern → Pattern
  | [] => empty
  | [p] => p
  | p :: rest => either p (eitherAll rest)

/-! ## What can be used -/

/-- Whether a pattern asks for words whose letters are those of all scripts. -/
def isForeign : Pattern → Bool
  | foreignLook _ => true
  | group _ p => p.isForeign
  | concat p q => p.isForeign || q.isForeign
  | either p q => p.isForeign || q.isForeign
  | repeated p _ _ => p.isForeign
  | _ => false

end Pattern

end FlatHeader
