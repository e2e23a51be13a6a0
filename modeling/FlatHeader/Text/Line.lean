import FlatHeader.Text.Basic

/-!
# Lines

A line ends with its line feed, which belongs to it; only the last line may have none. A carriage
return before the line feed is part of the line break.
-/

namespace FlatHeader.Text

/-- The lines of a text, each with its line feed. Together they are the text. -/
def lines (t : Text) : List Text :=
  t.foldr (fun c rest => if c = '\n' then [c] :: rest else push c rest) []
where
  /-- Adds a character to the front of the first line. -/
  push (c : Char) : List Text → List Text
    | [] => [[c]]
    | line :: rest => (c :: line) :: rest

/-- A text without the given character at its end, which it need not have. -/
def dropEnd? (c : Char) (t : Text) : Option Text :=
  match t.reverse with
  | [] => none
  | d :: r => if d = c then some r.reverse else none

/-- A text without the line break it ends with: a line feed, then a carriage return, where either
may be missing. -/
def withoutLineBreak (t : Text) : Text :=
  let t := (dropEnd? '\n' t).getD t
  (dropEnd? '\r' t).getD t

/-- What is shown of a line. A carriage return at its end belongs to the line break only if a line
feed follows. -/
def shownLine (line : Text) : Text :=
  match dropEnd? '\n' line with
  | none => line
  | some t => (dropEnd? '\r' t).getD t

end FlatHeader.Text
