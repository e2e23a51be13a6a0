import FlatHeader.Pattern.Brackets
import FlatHeader.Unicode.Alphanumeric

/-!
# Reading patterns

A pattern is read from left to right. What is read of the groups that are open is kept from the
inside out, and each alternative and each repetition is put together as soon as it is complete.
-/

namespace FlatHeader.Pattern

namespace Cursor

/-! ## Groups -/

/-- Whether a character may be in the name of a group, and at its start. -/
def isNameChar (isFirst : Bool) (c : Char) : Bool :=
  c = '_' || Unicode.isAlphabetic c ||
    (!isFirst && (c = '.' || c = '[' || c = ']' || Unicode.isNumeric c))

/-- The number of characters at the start of a text that may be in a name, which has some already
if `isFirst` does not hold. -/
def nameLength (isFirst : Bool) : Text → Nat
  | [] => 0
  | c :: t => if isNameChar isFirst c then nameLength false t + 1 else 0

/-- Reads the name of a group, and refuses those that are taken. -/
def readName (taken : List (Text × Span)) (c : Cursor) : Except Fault (Text × Span × Cursor) :=
  let length := nameLength true c.rest
  let name := c.rest.take length
  let d := c.drop length
  match d.char? with
  | none => fault .unfinishedName d.here
  | some '>' =>
    if name = [] then fault .emptyName c.here
    else match taken.lookup name with
      | some first => .error ⟨.duplicateName, c.upTo d, some first⟩
      | none => .ok (name, c.upTo d, d.drop 1)
  | some _ => fault .invalidNameChar d.there

/-- Reads flags up to the sign behind them, whose place is given too. The flags read so far are
given with their places, and the minus sign with its place. -/
def readFlags (seen : List (Flag × Span)) (minus : Option Span) (changes : FlagChanges)
    (position : Nat) : Text → Except Fault (FlagChanges × Nat)
  | [] => fault .unfinishedFlags ⟨position, position⟩
  | a :: t =>
    let span : Span := ⟨position, position + 1⟩
    if a = ':' || a = ')' then
      match minus with
      | some s => if s.stop = position then fault .danglingNegation s else .ok (changes, position)
      | none => .ok (changes, position)
    else if a = '-' then
      match minus with
      | some first => .error ⟨.repeatedNegation, span, some first⟩
      | none => readFlags seen (some span) changes (position + 1) t
    else match Flag.all.find? (·.letter = a) with
      | none => fault .unknownFlag span
      | some f =>
        match seen.lookup f with
        | some first => .error ⟨.duplicateFlag, span, some first⟩
        | none => readFlags ((f, span) :: seen) minus (changes ++ [(f, minus.isNone)])
            (position + 1) t

/-! ## Repetitions -/

/-- The number that decimal digits stand for. -/
def decimalValue (digits : Text) : Nat :=
  digits.foldl (fun n a => 10 * n + (a.toNat - '0'.toNat)) 0

/-- The greatest number of repetitions that can be asked for. -/
def greatestCount : Nat := 4294967295

/-- Reads the count of a repetition. Where it stops does not depend on whether it is valid. -/
def readCount (c : Cursor) : Except Fault Nat × Cursor :=
  let d := c.skipWhiteSpace
  let (digits, e) := d.takeWhile Char.isDigit
  let n := decimalValue digits
  let count : Except Fault Nat :=
    if digits = [] then fault .emptyCount (d.upTo e)
    else if n ≤ greatestCount then .ok n
    else fault .invalidNumber (d.upTo e)
  (count, e.skipWhiteSpace)

/-- The cursor behind a question mark, if there is one. It makes a repetition end as early as it
can, which decides nothing where only the presence of a match counts. -/
def skipLazy (c : Cursor) : Cursor := if c.char? = some '?' then c.drop 1 else c

/-- Reads the counts of a repetition in braces. -/
def readCounts (start : Cursor) : Except Fault (Nat × Option Nat × Cursor) := do
  let c := start.next
  let unclosed (d : Cursor) : Except Fault (Nat × Option Nat × Cursor) :=
    fault .unclosedCount (start.upTo d)
  if c.isAtEnd then unclosed c
  else
    let (least, c) := c.readCount
    if c.isAtEnd then unclosed c
    else
      let (least, most, c) ←
        if c.char? = some ',' then do
          let d := c.next
          if d.isAtEnd then unclosed d
          else if d.char? = some '\x7d' then pure (← least, none, d)
          else
            let least ← least
            let (most, d) := d.readCount
            pure (least, some (← most), d)
        else do
          let n ← least
          pure (n, some n, c)
      if c.char? ≠ some '\x7d' then unclosed c
      else
        let d := c.next.skipLazy
        if most.any (· < least) then fault .countOrder (start.upTo d)
        else return (least, most, d)

end Cursor

/-! ## The whole pattern -/

/-- What opens a group. -/
structure Opening where
  span : Span
  /-- Whether the place of what the group matches is kept. -/
  isKept : Bool
  changes : FlagChanges
  /-- Whether white space was skipped before the group. -/
  wasSpaced : Bool

/-- A group that has been opened, or the whole pattern. -/
structure OpenGroup where
  opening : Option Opening
  /-- Where the first alternative begins. -/
  start : Nat
  /-- The alternatives that are complete, the last one first. -/
  branches : List Expression := []
  /-- Where the current alternative begins. -/
  position : Nat
  /-- What has been read of it, the last one first. -/
  items : List Expression := []

namespace OpenGroup

/-- An empty group from a position on. -/
def startingAt (position : Nat) (opening : Option Opening) : OpenGroup :=
  ⟨opening, position, [], position, []⟩

/-- The group with one more expression. -/
def push (g : OpenGroup) (e : Expression) : OpenGroup := { g with items := e :: g.items }

/-- The current alternative, which ends at a position. -/
def branch (g : OpenGroup) (stop : Nat) : Expression := .ofList ⟨g.position, stop⟩ g.items.reverse

/-- The group with another alternative after the current one. -/
def alternate (g : OpenGroup) (stop next : Nat) : OpenGroup :=
  { g with branches := g.branch stop :: g.branches, position := next, items := [] }

/-- All that has been read of the group. -/
def contents (g : OpenGroup) (stop : Nat) : Expression :=
  if g.branches = [] then g.branch stop
  else .either ⟨g.start, stop⟩ (g.branch stop :: g.branches).reverse

end OpenGroup

/-- How far a pattern has been read. -/
structure Reading where
  cursor : Cursor
  /-- The groups that are open, from the inside out; the whole pattern is not among them. -/
  outer : List OpenGroup
  current : OpenGroup
  /-- The names of groups, with their places. -/
  names : List (Text × Span)

namespace Reading

/-- Adds an expression and goes on behind it. -/
def push (r : Reading) (e : Expression) (c : Cursor) : Reading :=
  { r with current := r.current.push e, cursor := c }

/-- Opens a group whose contents begin at a cursor. -/
def openGroup (r : Reading) (span : Span) (isKept : Bool) (changes : FlagChanges) (c : Cursor) :
    Reading :=
  let opening : Opening := ⟨span, isKept, changes, r.cursor.isSpaced⟩
  { r with
    cursor := { c with isSpaced := changes.apply .spaced c.isSpaced }
    outer := r.current :: r.outer
    current := .startingAt c.position (some opening) }

/-- Reads what opens a group, or flags in parentheses, which are no group. -/
def readOpening (r : Reading) : Except Fault Reading := do
  let start := r.cursor
  let c := start.next
  let looks := ["?=", "?!", "?<=", "?<!"].filterMap fun s => c.after? s.toList
  match looks, (c.after? "?P<".toList).or (c.after? "?<".toList), c.after? ['?'] with
  | d :: _, _, _ => Cursor.fault .lookAround (start.upTo d)
  | [], some d, _ =>
    let (name, span, d) ← d.readName r.names
    return { r with names := (name, span) :: r.names }.openGroup start.there true [] d
  | [], none, some d =>
    if d.isAtEnd then Cursor.fault .unclosedGroup start.there
    else
      let (changes, stop) ← Cursor.readFlags [] none [] d.position d.rest
      let e := d.drop (stop - d.position)
      if e.char? = some ':' then return r.openGroup start.there false changes (e.drop 1)
      else if changes = [] then Cursor.fault .nothingToRepeat c.here
      else
        let e := e.drop 1
        return r.push (.flags changes) { e with isSpaced := changes.apply .spaced e.isSpaced }
  | [], none, none => return r.openGroup start.there true [] c

/-- Closes a group. -/
def readClosing (r : Reading) : Except Fault Reading :=
  let c := r.cursor
  match r.outer, r.current.opening with
  | around :: rest, some opening =>
    let d := { c.drop 1 with isSpaced := opening.wasSpaced }
    let e := Expression.group ⟨opening.span.start, d.position⟩ opening.isKept opening.changes
      (r.current.contents c.position)
    .ok { r with cursor := d, outer := rest, current := around.push e }
  | _, _ => Cursor.fault .unopenedGroup c.there

/-- Repeats the last expression, whose repetition is written from the cursor to another. -/
def repeatLast (r : Reading) (least : Nat) (most : Option Nat) (c : Cursor) : Reading :=
  match r.current.items with
  | [] => r
  | e :: rest =>
    let e := Expression.repetition ⟨e.span.start, c.position⟩ e least most
    { r with current := { r.current with items := e :: rest }, cursor := c }

/-- Whether there is something to repeat. -/
def canRepeat (r : Reading) : Bool := r.current.items.head?.any Expression.isRepeatable

/-- Reads one thing more, of which a character at the cursor is the first. -/
def step (r : Reading) (a : Char) : Except Fault Reading := do
  let c := r.cursor
  let d := c.drop 1
  if (a = '?' || a = '*' || a = '+' || a = '\x7b') && !r.canRepeat then
    Cursor.fault .nothingToRepeat c.here
  else match a with
    | '(' => r.readOpening
    | ')' => r.readClosing
    | '|' =>
      return { r with current := r.current.alternate c.position d.position, cursor := d }
    | '[' =>
      let (e, d) ← c.readBrackets
      return r.push e d
    | '?' => return r.repeatLast 0 (some 1) d.skipLazy
    | '*' => return r.repeatLast 0 none d.skipLazy
    | '+' => return r.repeatLast 1 none d.skipLazy
    | '\x7b' =>
      let (least, most, d) ← c.readCounts
      return r.repeatLast least most d
    | '\\' =>
      let (e, d) ← c.readEscape
      return r.push e d
    | '.' => return r.push (.dot c.there) d
    | '^' => return r.push (.assertion c.there .lineStart) d
    | '$' => return r.push (.assertion c.there .lineEnd) d
    | _ => return r.push (.literal ⟨c.there, a, false⟩) d

/-- The whole pattern at its end, if no group is open. -/
def finish (r : Reading) : Except Fault Expression :=
  match r.current.opening with
  | some opening => Cursor.fault .unclosedGroup opening.span
  | none => .ok (r.current.contents r.cursor.position)

/-- Reads on to the end, in at most `n` steps. Every step reads one character at least. -/
def readAll : Nat → Reading → Except Fault Expression
  | 0, r => r.finish
  | n + 1, r => do
    let r := { r with cursor := r.cursor.skip }
    match r.cursor.char? with
    | none => r.finish
    | some a => readAll n (← r.step a)

end Reading

/-- Reads a written pattern. -/
def Expression.read (t : Text) : Except Fault Expression := do
  let e ← Reading.readAll (t.length + 1) ⟨⟨0, t, false⟩, [], .startingAt 0 none, []⟩
  e.checkLevels 0
  return e

end FlatHeader.Pattern
