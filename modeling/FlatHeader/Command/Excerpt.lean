import FlatHeader.Text.Line
import FlatHeader.Unicode.Width

/-!
# Excerpts

An excerpt shows a line of a file below a message: where the line is found, the line itself behind
its number, and a row of carets below it.
-/

namespace FlatHeader.Command

open Text

/-- The number of columns that a text takes up. -/
def columns (t : Text) : Nat := t.foldr (fun c width => Unicode.displayWidth c + width) 0

/-- A message with a line of the file under it. The left margin is as wide as the line number. -/
def excerpt (message : String) (path : Text) (number : Nat) (line : Text) : String :=
  let margin := String.ofList ((toString number).toList.map fun _ => ' ')
  let carets := String.ofList (List.replicate (columns line) '^')
  "\n".intercalate [
    s!"error: {message}",
    s!"{margin}--> {String.ofList path}:{number}:1",
    s!"{margin} |",
    s!"{number} | {String.ofList line}",
    s!"{margin} | {carets}",
    s!"{margin} |"]

/-- The line of a text with the given number, as it is shown. Lines are counted from one. -/
def shownLineAt (t : Text) (number : Nat) : Text :=
  ((lines t)[number - 1]?.map shownLine).getD []

/-- A message with the line of the source that it is about. A line that is empty or not there is not
shown. -/
def withExcerpt (message : String) (path source : Text) (number : Nat) : String :=
  match shownLineAt source number with
  | [] => message
  | line => excerpt message path number line

end FlatHeader.Command
