import FlatHeader.Text.Line

/-!
# Faults in written patterns

A fault is what is wrong with some part of a written pattern. It is shown below the pattern, with
carets under that part.
-/

namespace FlatHeader.Pattern

/-- The number of levels that a written pattern may have. -/
def levelLimit : Nat := 250

/-- What can be wrong with a written pattern. -/
inductive FaultKind where
  -- what is written cannot be read
  | classEscape
  | classRangeOrder
  | classRangeEnd
  | unclosedClass
  | emptyNumber
  | invalidNumber
  | emptyHex
  | invalidHex
  | invalidHexDigit
  | unfinishedEscape
  | unknownEscape
  | danglingNegation
  | duplicateFlag
  | repeatedNegation
  | unfinishedFlags
  | unknownFlag
  | duplicateName
  | emptyName
  | invalidNameChar
  | unfinishedName
  | unclosedGroup
  | unopenedGroup
  | tooManyLevels
  | countOrder
  | emptyCount
  | unclosedCount
  | nothingToRepeat
  | unclosedBoundary
  | unknownBoundary
  | unfinishedBoundary
  | invalidProperty
  | reference
  | lookAround
  -- what is written means nothing that can be looked for
  | foreignChar
  | invalidText
  | unknownProperty
  | unknownPropertyValue
  | foreignShorthand
  | foreignCases
deriving DecidableEq

/-- The sentence shown for a fault. -/
def FaultKind.message : FaultKind → String
  | classEscape => "invalid escape sequence found in character class"
  | classRangeOrder => "invalid character class range, the start must be <= the end"
  | classRangeEnd => "invalid range boundary, must be a literal"
  | unclosedClass => "unclosed character class"
  | emptyNumber => "decimal literal empty"
  | invalidNumber => "decimal literal invalid"
  | emptyHex => "hexadecimal literal empty"
  | invalidHex => "hexadecimal literal is not a Unicode scalar value"
  | invalidHexDigit => "invalid hexadecimal digit"
  | unfinishedEscape => "incomplete escape sequence, reached end of pattern prematurely"
  | unknownEscape => "unrecognized escape sequence"
  | danglingNegation => "dangling flag negation operator"
  | duplicateFlag => "duplicate flag"
  | repeatedNegation => "flag negation operator repeated"
  | unfinishedFlags => "expected flag but got end of regex"
  | unknownFlag => "unrecognized flag"
  | duplicateName => "duplicate capture group name"
  | emptyName => "empty capture group name"
  | invalidNameChar => "invalid capture group character"
  | unfinishedName => "unclosed capture group name"
  | unclosedGroup => "unclosed group"
  | unopenedGroup => "unopened group"
  | tooManyLevels =>
    s!"exceed the maximum number of nested parentheses/brackets ({levelLimit})"
  | countOrder => "invalid repetition count range, the start must be <= the end"
  | emptyCount => "repetition quantifier expects a valid decimal"
  | unclosedCount => "unclosed counted repetition"
  | nothingToRepeat => "repetition operator missing expression"
  | unclosedBoundary =>
    "special word boundary assertion is either unclosed or contains an invalid character"
  | unknownBoundary =>
    "unrecognized special word boundary assertion, valid choices are: start, end, start-half " ++
      "or end-half"
  | unfinishedBoundary =>
    "found either the beginning of a special word boundary or a bounded repetition on a \\b " ++
      "with an opening brace, but no closing brace"
  | invalidProperty => "invalid Unicode character class"
  | reference => "backreferences are not supported"
  | lookAround => "look-around, including look-ahead and look-behind, is not supported"
  | foreignChar => "Unicode not allowed here"
  | invalidText => "pattern can match invalid UTF-8"
  | unknownProperty => "Unicode property not found"
  | unknownPropertyValue => "Unicode property value not found"
  | foreignShorthand =>
    "Unicode-aware Perl class not found (make sure the unicode-perl feature is enabled)"
  | foreignCases =>
    "Unicode-aware case insensitivity matching is not available " ++
      "(make sure the unicode-case feature is enabled)"

/-- A part of a written pattern, by the numbers of characters in front of its two ends. -/
structure Span where
  start : Nat
  stop : Nat
deriving DecidableEq

/-- The part from the start of one part to the end of another. -/
def Span.upTo (a b : Span) : Span := ⟨a.start, b.stop⟩

/-- A fault in a written pattern. If it is that something is there twice, the first part of the two
is given too. -/
structure Fault where
  kind : FaultKind
  span : Span
  first : Option Span := none
deriving DecidableEq

namespace Fault

/-! ## How a fault is shown -/

/-- The number of the line of a position, from zero. -/
def lineOf (pattern : Text) (position : Nat) : Nat := (pattern.take position).count '\n'

/-- The number of characters on its line that are in front of a position. -/
def columnOf (pattern : Text) (position : Nat) : Nat :=
  ((pattern.take position).reverse.takeWhile (· ≠ '\n')).length

/-- Whether a part is on one line. -/
def isOnOneLine (pattern : Text) (s : Span) : Bool :=
  lineOf pattern s.start = lineOf pattern s.stop

/-- The parts that are shown, in the order of the text. -/
def spans (f : Fault) : List Span :=
  match f.first with
  | none => [f.span]
  | some s =>
    if s.start < f.span.start || (s.start = f.span.start && s.stop ≤ f.span.stop) then [s, f.span]
    else [f.span, s]

/-- Carets under parts of a line. There is one at least under every part. -/
def carets (pattern : Text) (spans : List Span) : Text :=
  spans.foldl (fun t s =>
    let column := columnOf pattern s.start
    t ++ List.replicate (column - t.length) ' ' ++
      List.replicate (max 1 (columnOf pattern s.stop - column)) '^') []

/-- The number of digits of the greatest line number. Without a line break there are no line
numbers. -/
def numberWidth (pattern : Text) : Nat :=
  if pattern.contains '\n' then (Nat.toDigits 10 (pattern.count '\n' + 1)).length else 0

/-- What stands in front of a line. -/
def margin (width line : Nat) : Text :=
  if width = 0 then List.replicate 4 ' '
  else (Nat.toDigits 10 (line + 1)).leftpad width ' ' ++ [':', ' ']

/-- The lines of a pattern, with carets below those that have parts in them. -/
def notedLines (f : Fault) (pattern : Text) : List Text :=
  let width := numberWidth pattern
  ((Text.lines pattern).map Text.shownLine).zipIdx.flatMap fun (text, line) =>
    let here := f.spans.filter fun s =>
      isOnOneLine pattern s && lineOf pattern s.start = line
    (margin width line ++ text) ::
      if here = [] then []
      else [List.replicate (margin width line).length ' ' ++ carets pattern here]

/-- Where a part is that has a line break in it. -/
def placeOf (pattern : Text) (s : Span) : String :=
  s!"on line {lineOf pattern s.start + 1} (column {columnOf pattern s.start + 1}) " ++
    s!"through line {lineOf pattern s.stop + 1} (column {columnOf pattern s.stop})"

/-- What is shown of a fault in a pattern. -/
def message (f : Fault) (pattern : Text) : String :=
  let divider := if pattern.contains '\n' then [String.ofList (List.replicate 79 '~')] else []
  let places := (f.spans.filter fun s => !isOnOneLine pattern s).map (placeOf pattern)
  "\n".intercalate (["regex parse error:"] ++ divider ++
    (f.notedLines pattern).map String.ofList ++ divider ++ places ++ [s!"error: {f.kind.message}"])

end Fault

end FlatHeader.Pattern
