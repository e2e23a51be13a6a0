import FlatHeader.Pattern.Fault
import FlatHeader.Unicode.WhiteSpace

/-!
# Cursors

A cursor is a place in a written pattern, from which it is read on. Where a pattern is spaced out,
white space and comments from a number sign to the end of the line are skipped.
-/

namespace FlatHeader.Pattern

/-- A place in a written pattern. -/
structure Cursor where
  /-- The number of characters in front of it. -/
  position : Nat
  /-- What is behind it. -/
  rest : Text
  /-- Whether white space and comments are skipped. -/
  isSpaced : Bool
deriving DecidableEq

namespace Cursor

/-- The character behind a cursor. -/
def char? (c : Cursor) : Option Char := c.rest.head?

/-- Whether a cursor is at the end. -/
def isAtEnd (c : Cursor) : Bool := c.rest.isEmpty

/-- The cursor a number of characters further. -/
def drop (c : Cursor) (n : Nat) : Cursor :=
  { c with position := c.position + min n c.rest.length, rest := c.rest.drop n }

/-- The part from one cursor to another. -/
def upTo (c d : Cursor) : Span := ⟨c.position, d.position⟩

/-- The empty part at a cursor. -/
def here (c : Cursor) : Span := ⟨c.position, c.position⟩

/-- The character behind a cursor as a part. -/
def there (c : Cursor) : Span := ⟨c.position, c.position + 1⟩

/-- A fault at a part. -/
def fault {α : Type} (kind : FaultKind) (span : Span) : Except Fault α :=
  .error ⟨kind, span, none⟩

/-! ## Skipping -/

/-- The number of characters that white space and comments take at the start of a text. -/
def spaceLength (isComment : Bool) : Text → Nat
  | [] => 0
  | c :: t =>
    if isComment then spaceLength (c ≠ '\n') t + 1
    else if Unicode.isWhiteSpace c || c = '#' then spaceLength (c = '#') t + 1
    else 0

/-- The cursor behind white space and comments, if they are skipped. -/
def skip (c : Cursor) : Cursor := if c.isSpaced then c.drop (spaceLength false c.rest) else c

/-- The cursor at the next character that is not skipped. -/
def next (c : Cursor) : Cursor := (c.drop 1).skip

/-- The character behind the one behind a cursor. Of comments only the number sign is skipped. -/
def peek? (c : Cursor) : Option Char :=
  let rest := c.rest.tail
  if c.isSpaced then
    match rest.dropWhile Unicode.isWhiteSpace with
    | '#' :: t => (t.dropWhile Unicode.isWhiteSpace).head?
    | t => t.head?
  else rest.head?

/-- The cursor behind all white space, and what is skipped with it. -/
def skipWhiteSpace (c : Cursor) : Cursor :=
  (c.drop (c.rest.takeWhile Unicode.isWhiteSpace).length).skip

/-- The cursor behind a text, if that is behind the cursor. -/
def after? (c : Cursor) (t : Text) : Option Cursor :=
  if t.isPrefixOf c.rest then some (c.drop t.length) else none

/-- The characters up to one that does not satisfy `p`, and the cursor at that one. What is skipped
does not count. At most `n` characters are read. -/
def takeAtMost (p : Char → Bool) : Nat → Cursor → Text × Cursor
  | 0, c => ([], c)
  | n + 1, c =>
    match c.char? with
    | none => ([], c)
    | some a =>
      if p a then
        let (t, d) := takeAtMost p n c.next
        (a :: t, d)
      else ([], c)

/-- The characters up to one that does not satisfy `p`, and the cursor at that one. -/
def takeWhile (p : Char → Bool) (c : Cursor) : Text × Cursor := takeAtMost p c.rest.length c

end Cursor

end FlatHeader.Pattern
