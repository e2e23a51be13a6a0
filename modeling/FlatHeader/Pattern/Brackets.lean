import FlatHeader.Pattern.Escape

/-!
# Classes in brackets

A class in brackets lists characters, ranges and classes, and may hold further brackets. Behind two
ampersands, hyphens or tildes there is another list, which is combined with what stands before.
-/

namespace FlatHeader.Pattern

/-- A class in brackets that has been opened. -/
structure OpenClass where
  /-- What opens it: the bracket, the sign of negation and the signs that can only stand there. -/
  opening : Span
  isNegated : Bool
  /-- What stands before the last operation, and that operation. -/
  left : Option (ClassItem × SetOperation) := none
  /-- Where the list behind the last operation begins. -/
  position : Nat
  /-- The items of that list, the last one first. -/
  items : List ClassItem

namespace OpenClass

/-- The class with one more item. -/
def push (o : OpenClass) (item : ClassItem) : OpenClass := { o with items := item :: o.items }

/-- All that stands in the class so far. -/
def contents (o : OpenClass) : ClassItem :=
  let right := ClassItem.ofList o.position o.items.reverse
  match o.left with
  | none => right
  | some (left, operation) => .combined (left.span.upTo right.span) operation left right

/-- The class with an operation behind all that stands in it so far. -/
def operate (o : OpenClass) (operation : SetOperation) (position : Nat) : OpenClass :=
  { o with left := some (o.contents, operation), position, items := [] }

end OpenClass

namespace Cursor

/-! ## Items -/

/-- An escape as an item of a class. -/
def itemOf : Expression → Except Fault ClassItem
  | .literal l => .ok (.literal l)
  | .shorthand span s negated => .ok (.shorthand span s negated)
  | .property span name => .ok (.property span name)
  | e => fault .classEscape e.span

/-- An escape as the end of a range. -/
def literalOf : Expression → Except Fault Literal
  | .literal l => .ok l
  | e => fault .classRangeEnd e.span

/-- Reads an escape, or a character that stands for itself. -/
def readPart (c : Cursor) : Except Fault (Expression × Cursor) :=
  match c.char? with
  | some '\\' => c.readEscape
  | some a => .ok (.literal ⟨c.there, a, false⟩, c.drop 1)
  | none => .ok (.nothing, c)

/-- Reads an item or a range. A hyphen before a bracket or another hyphen makes no range. -/
def readItem (opening : Span) (c : Cursor) : Except Fault (ClassItem × Cursor) := do
  let (first, d) ← c.readPart
  let d := d.skip
  if d.isAtEnd then fault .unclosedClass opening
  else if d.char? ≠ some '-' || d.peek? = some ']' || d.peek? = some '-' then
    return (← itemOf first, d)
  else
    let e := d.next
    if e.isAtEnd then fault .unclosedClass opening
    else
      let (last, e) ← e.readPart
      let span := first.span.upTo last.span
      let first ← literalOf first
      let last ← literalOf last
      if last.char < first.char then fault .classRangeOrder span
      else return (.range span first last, e)

/-- A class with a name between colons, if one is behind the cursor. -/
def readNamed? (c : Cursor) : Option (ClassItem × Cursor) := do
  let d ← c.after? ['[', ':']
  let (negated, d) := match d.after? ['^'] with
    | some e => (true, e)
    | none => (false, d)
  let name := d.rest.takeWhile (· ≠ ':')
  let e ← (d.drop name.length).after? [':', ']']
  let set ← namedClasses.lookup (String.ofList name)
  return (.named (c.upTo e) set negated, e)

/-! ## Brackets -/

/-- Reads hyphens that stand for themselves, at most `n` of them. -/
def readHyphens (start : Cursor) : Nat → Cursor → Except Fault (List ClassItem × Cursor)
  | 0, c => .ok ([], c)
  | n + 1, c =>
    if c.char? = some '-' then
      if c.next.isAtEnd then fault .unclosedClass start.here
      else (readHyphens start n c.next).map fun (items, d) =>
        (.literal ⟨c.there, '-', false⟩ :: items, d)
    else .ok ([], c)

/-- Reads what opens a class. Hyphens and a closing bracket right behind it stand for themselves. -/
def openClass (start : Cursor) : Except Fault (OpenClass × Cursor) := do
  let c := start.next
  if c.isAtEnd then fault .unclosedClass (start.upTo c)
  else
    let negated := c.char? = some '^'
    let c := if negated then c.next else c
    if c.isAtEnd then fault .unclosedClass (start.upTo c)
    else
      let (items, d) ← readHyphens start c.rest.length c
      if items = [] && d.char? = some ']' then
        let e := d.next
        if e.isAtEnd then fault .unclosedClass (start.upTo e)
        else return (⟨start.upTo e, negated, none, c.position, [.literal ⟨d.there, ']', false⟩]⟩, e)
      else return (⟨start.upTo d, negated, none, c.position, items.reverse⟩, d)

/-- The operation behind a cursor, and the cursor behind it. -/
def readOperation? (c : Cursor) : Option (SetOperation × Cursor) :=
  match c.after? ['&', '&'], c.after? ['-', '-'], c.after? ['~', '~'] with
  | some d, _, _ => some (.inter, d)
  | _, some d, _ => some (.difference, d)
  | _, _, some d => some (.symmetricDifference, d)
  | none, none, none => none

/-- Reads what stands in a class up to the bracket that closes it. The classes around it are given
from the inside out. No more than `n` steps are done. -/
def readClass (outer : List OpenClass) (o : OpenClass) :
    Nat → Cursor → Except Fault (ClassItem × Cursor)
  | 0, _ => fault .unclosedClass o.opening
  | n + 1, c => do
    let c := c.skip
    match c.char? with
    | none => fault .unclosedClass o.opening
    | some '[' =>
      match c.readNamed? with
      | some (item, d) => readClass outer (o.push item) n d
      | none =>
        let (inner, d) ← c.openClass
        readClass (o :: outer) inner n d
    | some ']' =>
      let d := c.drop 1
      let item := ClassItem.bracketed ⟨o.opening.start, d.position⟩ o.isNegated o.contents
      match outer with
      | [] => return (item, d)
      | around :: rest => readClass rest (around.push item) n d
    | some _ =>
      match c.readOperation? with
      | some (operation, d) => readClass outer (o.operate operation d.position) n d
      | none =>
        let (item, d) ← c.readItem o.opening
        readClass outer (o.push item) n d

/-- Reads a class in brackets. -/
def readBrackets (c : Cursor) : Except Fault (Expression × Cursor) := do
  let (o, d) ← c.openClass
  let (item, e) ← readClass [] o (d.rest.length + 1) d
  return (.set item, e)

end Cursor

end FlatHeader.Pattern
