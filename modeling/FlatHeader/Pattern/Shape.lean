import FlatHeader.Pattern.Basic
import FlatHeader.Pattern.Ranges

/-!
# Shapes of patterns

The shape of a pattern is what is left of it when parts that change nothing are dropped and
characters in a row are put together. Patterns that are written in different ways can have one
shape.
-/

namespace FlatHeader.Pattern

/-- A pattern in its simplest form. -/
inductive Shape where
  | empty
  /-- One or more characters in a row. -/
  | text (t : Text)
  /-- Any character of some ranges, which are not one character alone. -/
  | set (ranges : List (Nat × Nat))
  | look (l : Look)
  | foreignLook (l : Look)
  /-- A part whose place in the text can be asked for. -/
  | kept (s : Shape)
  /-- Two or more shapes one after another, no two texts side by side. -/
  | concat (ss : List Shape)
  /-- One of two or more shapes. -/
  | either (ss : List Shape)
  | repeated (s : Shape) (least : Nat) (most : Option Nat)

namespace Shape

/-! ## What matches are like -/

/-- What is known about the matches of a shape. -/
structure Traits where
  /-- The least number of characters, if it is not seen that there are no matches at all. -/
  least : Option Nat
  /-- Whether matches have no characters. -/
  isEmpty : Bool
  /-- Whether matches are at the start of the text only. -/
  isAtStart : Bool
  /-- Whether matches are at the end of the text only. -/
  isAtEnd : Bool

namespace Traits

/-- The traits of a place. -/
def place (isAtStart isAtEnd : Bool) : Traits := ⟨some 0, true, isAtStart, isAtEnd⟩

/-- The traits of some number of characters. -/
def characters (least : Option Nat) : Traits := ⟨least, false, false, false⟩

/-- Whether the first of some matches that could have characters, or one before it, is bound to
a place. -/
def isBound (isAt : Traits → Bool) : List Traits → Bool
  | [] => false
  | t :: rest => isAt t || (t.isEmpty && isBound isAt rest)

/-- The traits of matches one after another. -/
def concat (ts : List Traits) : Traits where
  least := ts.foldr (fun t n => do return (← t.least) + (← n)) (some 0)
  isEmpty := ts.all (·.isEmpty)
  isAtStart := isBound (·.isAtStart) ts
  isAtEnd := isBound (·.isAtEnd) ts.reverse

/-- The traits of one of several matches. -/
def either : List Traits → Traits
  | [] => characters none
  | t :: ts => {
    least := ts.foldl (fun n u => do return min (← n) (← u.least)) t.least
    isEmpty := (t :: ts).all (·.isEmpty)
    isAtStart := (t :: ts).all (·.isAtStart)
    isAtEnd := (t :: ts).all (·.isAtEnd) }

/-- The traits of a number of matches in a row. -/
def repeated (t : Traits) (least : Nat) (most : Option Nat) : Traits where
  least := t.least.map (least * ·)
  isEmpty := t.isEmpty && most.isSome
  isAtStart := 0 < least && t.isAtStart
  isAtEnd := 0 < least && t.isAtEnd

end Traits

mutual

/-- The traits of the matches of a shape. -/
def traits : Shape → Traits
  | empty => .place false false
  | text t => .characters (some t.length)
  | set ranges => .characters (if ranges = [] then none else some 1)
  | look l => .place (l = .textStart) (l = .textEnd)
  | foreignLook _ => .place false false
  | kept s => s.traits
  | concat ss => .concat (traitsOf ss)
  | either ss => .either (traitsOf ss)
  | repeated s least most => s.traits.repeated least most

/-- The traits of the matches of shapes. -/
def traitsOf : List Shape → List Traits
  | [] => []
  | s :: rest => s.traits :: traitsOf rest

end

mutual

/-- Whether two shapes are the same. No two parts that are kept are. -/
def same : Shape → Shape → Bool
  | empty, empty => true
  | text t, text u => t = u
  | set r, set q => r = q
  | look l, look k => l = k
  | foreignLook l, foreignLook k => l = k
  | concat ss, concat us => sameAll ss us
  | either ss, either us => sameAll ss us
  | repeated s least most, repeated u least' most' => least = least' && most = most' && same s u
  | _, _ => false

/-- Whether the shapes of two lists are the same. -/
def sameAll : List Shape → List Shape → Bool
  | [], [] => true
  | s :: ss, u :: us => same s u && sameAll ss us
  | _, _ => false

end

/-! ## Putting shapes together -/

/-- The shape for a character of a set. -/
def ofSet (s : CharSet) : Shape :=
  match s.ranges with
  | [(first, last)] => if first = last then text [Char.ofNat first] else set [(first, last)]
  | ranges => set ranges

/-- The shapes that a shape has one after another. -/
def parts : Shape → List Shape
  | empty => []
  | concat ss => ss
  | s => [s]

/-- The shapes of which a shape is one. -/
def branches : Shape → List Shape
  | either ss => ss
  | s => [s]

/-- A shape in front of others, put together with a text by a text. -/
def attach : Shape → List Shape → List Shape
  | text t, text u :: rest => text (t ++ u) :: rest
  | s, rest => s :: rest

/-- The shape of shapes one after another. -/
def concatAll (ss : List Shape) : Shape :=
  match (ss.flatMap parts).foldr attach [] with
  | [] => empty
  | [s] => s
  | ss => concat ss

/-- The character of a text of one character. -/
def char? : Shape → Option Char
  | text [c] => some c
  | _ => none

/-- The ranges of a set. -/
def ranges? : Shape → Option (List (Nat × Nat))
  | set ranges => some ranges
  | _ => none

/-- The shapes that two lists start with. -/
def commonStart : List Shape → List Shape → List Shape
  | s :: ss, u :: us => if s.same u then s :: commonStart ss us else []
  | _, _ => []

/-- The lists of two or more shapes that are concatenated in some others, if all of them are. -/
def concatenated? : List Shape → Option (List (List Shape))
  | [] => some []
  | concat ss :: rest => (concatenated? rest).map (ss :: ·)
  | _ :: _ => none

/-- The shape of one of several shapes, where nothing is done about how they start. -/
def eitherBranches (ss : List Shape) : Shape :=
  match ss.flatMap branches with
  | [] => set []
  | [s] => s
  | ss =>
    match ss.mapM char?, ss.mapM ranges? with
    | some characters, _ => ofSet (.unionAll (characters.map .single))
    | none, some ranges => ofSet (.unionAll (ranges.map .ofRanges))
    | none, none => either ss

/-- The shape of one of several shapes. What they all start with is written once. -/
def eitherAll (ss : List Shape) : Shape :=
  match eitherBranches ss with
  | either ss =>
    match concatenated? ss with
    | some (first :: rest) =>
      let start := rest.foldl commonStart first
      if start.isEmpty then either ss
      else
        let ends := (first :: rest).map fun ss => concatAll (ss.drop start.length)
        concatAll (start ++ [eitherBranches ends])
    | _ => either ss
  | s => s

/-- The shape of a repetition. Matches without characters need not be repeated. -/
def times (s : Shape) (least : Nat) (most : Option Nat) : Shape :=
  let once (n : Nat) : Nat := if s.traits.isEmpty then min n 1 else n
  match once least, if s.traits.isEmpty then some (once (most.getD 1)) else most with
  | 0, some 0 => empty
  | 1, some 1 => s
  | least, most => repeated s least most

end Shape

/-- The shapes of which a pattern is one, as it is written. -/
def shapes : Pattern → List Shape
  | empty => [.empty]
  | one s => [.ofSet s]
  | look l => [.look l]
  | foreignLook l => [.foreignLook l]
  | group true p => [.kept (.eitherAll p.shapes)]
  | group false p => [.eitherAll p.shapes]
  | concat p q => [.concatAll [.eitherAll p.shapes, .eitherAll q.shapes]]
  | either p q => .eitherAll p.shapes :: q.shapes
  | repeated p least most => [(Shape.eitherAll p.shapes).times least most]

/-- The shape of a pattern. -/
def shape (p : Pattern) : Shape := .eitherAll p.shapes

end FlatHeader.Pattern
