import FlatHeader.Pattern.Cursor
import FlatHeader.Pattern.Expression

/-!
# Escapes

What stands behind a backslash: a character that would mean something else without it, a character
by its number, a class of characters or an assertion.
-/

namespace FlatHeader.Pattern.Cursor

/-! ## Characters by their numbers -/

/-- The value of a hexadecimal digit. -/
def hexDigit? (c : Char) : Option Nat :=
  if c.isDigit then some (c.toNat - '0'.toNat)
  else if 'a' ≤ c.toLower && c.toLower ≤ 'f' then some (c.toLower.toNat - 'a'.toNat + 10)
  else none

/-- The number that hexadecimal digits stand for. -/
def hexValue (digits : Text) : Nat :=
  digits.foldl (fun n c => 16 * n + (hexDigit? c).getD 0) 0

/-- The character of a number. -/
def charOf (n : Nat) (span : Span) : Except Fault Char :=
  if n.isValidChar then .ok (.ofNat n) else fault .invalidHex span

/-- Reads as many hexadecimal digits as are asked for. -/
def readDigits : Nat → Cursor → Except Fault (Text × Cursor)
  | 0, c => .ok ([], c)
  | n + 1, c =>
    match c.char? with
    | none => fault .unfinishedEscape c.here
    | some a =>
      if (hexDigit? a).isSome then
        (readDigits n c.next).map fun (t, d) => (a :: t, d)
      else fault .invalidHexDigit c.there

/-- Reads a number in braces, from the opening one on. -/
def readBracedHex (c : Cursor) : Except Fault (Char × Cursor) := do
  let (digits, d) := c.next.takeWhile fun a => (hexDigit? a).isSome
  match d.char? with
  | none => fault .unfinishedEscape (c.upTo d)
  | some a =>
    if a ≠ '\x7d' then fault .invalidHexDigit d.there
    else if digits = [] then fault .emptyHex (c.upTo d.next)
    else return (← charOf (hexValue digits) ⟨c.position + 1, d.position⟩, d.next)

/-- Reads a character by its number, from the letter on. -/
def readHex (start : Cursor) (letter : Char) (c : Cursor) : Except Fault (Expression × Cursor) := do
  let d := c.next
  match d.char? with
  | none => fault .unfinishedEscape d.here
  | some '\x7b' =>
    let (a, e) ← readBracedHex d
    return (.literal ⟨start.upTo e, a, false⟩, e)
  | some _ =>
    let count := if letter = 'x' then 2 else if letter = 'u' then 4 else 8
    let (digits, e) ← readDigits count d
    return (.literal ⟨start.upTo e, ← charOf (hexValue digits) (d.upTo e), letter = 'x'⟩, e)

/-! ## Classes and assertions -/

/-- Reads the name of a property, from the letter on. -/
def readProperty (start c : Cursor) : Except Fault (Expression × Cursor) :=
  let d := c.next
  match d.char? with
  | none => fault .unfinishedEscape d.here
  | some '\x7b' =>
    let (name, e) := d.next.takeWhile (· ≠ '\x7d')
    if e.isAtEnd then fault .unfinishedEscape e.here
    else .ok (.property (start.upTo (e.drop 1)) name, e.drop 1)
  | some '\\' => fault .invalidProperty d.there
  | some a => .ok (.property (start.upTo d.next) [a], d.next)

/-- The boundary of words with a name in braces, if there is one behind the cursor. What does not
start like a name is left for a count of repetitions. -/
def readBoundary? (start c : Cursor) : Except Fault (Option (Assertion × Cursor)) :=
  let isNameChar (a : Char) : Bool := a.isAlpha || a = '-'
  if c.char? ≠ some '\x7b' then .ok none
  else
    let d := c.next
    if d.isAtEnd then fault .unfinishedBoundary (start.upTo d)
    else if !d.char?.any isNameChar then .ok none
    else
      let (name, e) := d.takeWhile isNameChar
      if e.char? ≠ some '\x7d' then fault .unclosedBoundary (c.upTo e)
      else
        let known : List (String × Assertion) := [("start", .wordStart), ("end", .wordEnd),
          ("start-half", .halfWordStart), ("end-half", .halfWordEnd)]
        match known.lookup (String.ofList name) with
        | some a => .ok (some (a, e.drop 1))
        | none => fault .unknownBoundary (d.upTo e)

/-- The assertion that a letter or sign stands for. -/
def assertionOf? : Char → Option Assertion
  | 'A' => some .textStart
  | 'z' => some .textEnd
  | 'b' => some .wordBoundary
  | 'B' => some .noWordBoundary
  | '<' => some .wordStart
  | '>' => some .wordEnd
  | _ => none

/-- The class that a small letter stands for. -/
def shorthandOf? : Char → Option Shorthand
  | 'd' => some .digit
  | 's' => some .space
  | 'w' => some .word
  | _ => none

/-- The control character that a letter stands for. -/
def controlOf? : Char → Option Char
  | 'a' => some '\x07'
  | 'f' => some '\x0c'
  | 't' => some '\t'
  | 'n' => some '\n'
  | 'r' => some '\r'
  | 'v' => some '\x0b'
  | _ => none

/-- Whether a character stands for itself behind a backslash: signs of ASCII do. -/
def isSign (c : Char) : Bool := c < '\x80' && !c.isAlphanum && c ≠ '<' && c ≠ '>'

/-- Reads an escape, from the backslash on. -/
def readEscape (start : Cursor) : Except Fault (Expression × Cursor) := do
  let c := start.drop 1
  let d := c.drop 1
  let span := start.upTo d
  match c.char? with
  | none => fault .unfinishedEscape (start.upTo c)
  | some a =>
    if a.isDigit then fault .reference span
    else if a = 'x' || a = 'u' || a = 'U' then readHex start a c
    else if a = 'p' || a = 'P' then readProperty start c
    else if let some s := shorthandOf? a.toLower then return (.shorthand span s a.isUpper, d)
    else if isSign a then return (.literal ⟨span, a, false⟩, d)
    else if let some b := controlOf? a then return (.literal ⟨span, b, false⟩, d)
    else if a = 'b' then
      match ← readBoundary? start d with
      | some (b, e) => return (.assertion (start.upTo e) b, e)
      | none => return (.assertion span .wordBoundary, d)
    else if let some b := assertionOf? a then return (.assertion span b, d)
    else fault .unknownEscape span

end FlatHeader.Pattern.Cursor
