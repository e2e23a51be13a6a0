import FlatHeader.Pattern.CharSet
import FlatHeader.Pattern.Fault

/-!
# Written patterns

The form of a pattern as it is written: what stands in it, and where. What it means depends on the
flags that are set, which a written pattern can change on its way.
-/

namespace FlatHeader.Pattern

/-! ## Flags -/

/-- What can be switched on and off. -/
inductive Flag where
  | anyCase
  | manyLines
  | dotMatchesAll
  | swapGreed
  | unicode
  | anyLineBreak
  /-- White space and comments in the written pattern are skipped. -/
  | spaced
deriving DecidableEq

namespace Flag

/-- All flags. -/
def all : List Flag :=
  [anyCase, manyLines, dotMatchesAll, swapGreed, unicode, anyLineBreak, spaced]

/-- The letter of a flag. -/
def letter : Flag → Char
  | anyCase => 'i'
  | manyLines => 'm'
  | dotMatchesAll => 's'
  | swapGreed => 'U'
  | unicode => 'u'
  | anyLineBreak => 'R'
  | spaced => 'x'

end Flag

/-- Flags that are switched, each on or off. -/
abbrev FlagChanges := List (Flag × Bool)

/-- Whether a flag is on after it was `old`. -/
def FlagChanges.apply (changes : FlagChanges) (f : Flag) (old : Bool) : Bool :=
  (changes.lookup f).getD old

/-! ## Characters and classes -/

/-- A character that stands for itself. -/
structure Literal where
  span : Span
  char : Char
  /-- Whether it is written as a byte in two hexadecimal digits. -/
  isByte : Bool := false
deriving DecidableEq

/-- A class with a letter behind a backslash. -/
inductive Shorthand where
  | digit
  | space
  | word
deriving DecidableEq

/-- The characters of ASCII in a class. -/
def Shorthand.asciiSet : Shorthand → CharSet
  | digit => .range '0' '9'
  | space => .union (.range '\t' '\r') (.single ' ')
  | word => .unionAll [.range '0' '9', .range 'A' 'Z', .single '_', .range 'a' 'z']

/-- The classes with a name, and their characters. -/
def namedClasses : List (String × CharSet) := [
  ("alnum", .unionAll [.range '0' '9', .range 'A' 'Z', .range 'a' 'z']),
  ("alpha", .union (.range 'A' 'Z') (.range 'a' 'z')),
  ("ascii", .range '\x00' '\x7f'),
  ("blank", .union (.single '\t') (.single ' ')),
  ("cntrl", .union (.range '\x00' '\x1f') (.single '\x7f')),
  ("digit", .range '0' '9'),
  ("graph", .range '!' '~'),
  ("lower", .range 'a' 'z'),
  ("print", .range ' ' '~'),
  ("punct", .unionAll [.range '!' '/', .range ':' '@', .range '[' '\x60', .range '\x7b' '~']),
  ("space", .union (.range '\t' '\r') (.single ' ')),
  ("upper", .range 'A' 'Z'),
  ("word", .unionAll [.range '0' '9', .range 'A' 'Z', .single '_', .range 'a' 'z']),
  ("xdigit", .unionAll [.range '0' '9', .range 'A' 'F', .range 'a' 'f'])]

/-- How two classes are put together. -/
inductive SetOperation where
  | inter
  | difference
  | symmetricDifference
deriving DecidableEq

/-- What stands in a class in brackets. -/
inductive ClassItem where
  | nothing (span : Span)
  | literal (l : Literal)
  | range (span : Span) (first last : Literal)
  | named (span : Span) (set : CharSet) (negated : Bool)
  | shorthand (span : Span) (s : Shorthand) (negated : Bool)
  | property (span : Span) (name : Text)
  /-- A class in brackets of its own. -/
  | bracketed (span : Span) (negated : Bool) (item : ClassItem)
  /-- Two or more items in a row. -/
  | union (span : Span) (items : List ClassItem)
  | combined (span : Span) (o : SetOperation) (left right : ClassItem)

/-- The part of the pattern where an item stands. -/
def ClassItem.span : ClassItem → Span
  | nothing s => s
  | literal l => l.span
  | range s _ _ => s
  | named s _ _ => s
  | shorthand s _ _ => s
  | property s _ => s
  | bracketed s _ _ => s
  | union s _ => s
  | combined s _ _ _ => s

/-- What stands in a row in a class. -/
def ClassItem.ofList (position : Nat) : List ClassItem → ClassItem
  | [] => nothing ⟨position, position⟩
  | [item] => item
  | first :: rest => union (first.span.upTo (rest.getLastD first).span) (first :: rest)

/-! ## Expressions -/

/-- What a position can be asked for. -/
inductive Assertion where
  | lineStart
  | lineEnd
  | textStart
  | textEnd
  | wordBoundary
  | noWordBoundary
  | wordStart
  | wordEnd
  | halfWordStart
  | halfWordEnd
deriving DecidableEq

/-- A written pattern, or a part of one. -/
inductive Expression where
  | nothing
  | flags (changes : FlagChanges)
  | literal (l : Literal)
  | dot (span : Span)
  | assertion (span : Span) (a : Assertion)
  | shorthand (span : Span) (s : Shorthand) (negated : Bool)
  | property (span : Span) (name : Text)
  /-- A class in brackets. -/
  | set (item : ClassItem)
  | repetition (span : Span) (e : Expression) (least : Nat) (most : Option Nat)
  /-- A group, with flags for itself. The place of its match may be kept. -/
  | group (span : Span) (isKept : Bool) (changes : FlagChanges) (e : Expression)
  /-- Two or more expressions one after another. -/
  | concat (span : Span) (es : List Expression)
  /-- Two or more expressions of which one is meant. -/
  | either (span : Span) (es : List Expression)

namespace Expression

/-- The part of the pattern where an expression stands, for those that are shown by themselves. -/
def span : Expression → Span
  | nothing => ⟨0, 0⟩
  | flags _ => ⟨0, 0⟩
  | literal l => l.span
  | dot s => s
  | assertion s _ => s
  | shorthand s _ _ => s
  | property s _ => s
  | set item => item.span
  | repetition s _ _ _ => s
  | group s _ _ _ => s
  | concat s _ => s
  | either s _ => s

/-- Expressions one after another. -/
def ofList (span : Span) : List Expression → Expression
  | [] => nothing
  | [e] => e
  | es => concat span es

/-- Whether an expression can be repeated: there has to be something. -/
def isRepeatable : Expression → Bool
  | nothing => false
  | flags _ => false
  | _ => true

end Expression

/-! ## Levels -/

mutual

/-- Refuses a class item with too many levels below the given one, at the first that is too deep. -/
def ClassItem.checkLevels (level : Nat) : ClassItem → Except Fault Unit
  | .bracketed span _ item => do
    if level = levelLimit then throw ⟨.tooManyLevels, span, none⟩
    item.checkLevels (level + 1)
  | .union span items => do
    if level = levelLimit then throw ⟨.tooManyLevels, span, none⟩
    checkItemLevels (level + 1) items
  | .combined span _ left right => do
    if level = levelLimit then throw ⟨.tooManyLevels, span, none⟩
    left.checkLevels (level + 1)
    right.checkLevels (level + 1)
  | _ => .ok ()

/-- Refuses class items with too many levels. -/
def checkItemLevels (level : Nat) : List ClassItem → Except Fault Unit
  | [] => .ok ()
  | item :: rest => do
    item.checkLevels level
    checkItemLevels level rest

end

mutual

/-- Refuses an expression with too many levels below the given one, at the first that is too
deep. -/
def Expression.checkLevels (level : Nat) : Expression → Except Fault Unit
  | .set item => item.checkLevels level
  | .repetition span e _ _ => do
    if level = levelLimit then throw ⟨.tooManyLevels, span, none⟩
    e.checkLevels (level + 1)
  | .group span _ _ e => do
    if level = levelLimit then throw ⟨.tooManyLevels, span, none⟩
    e.checkLevels (level + 1)
  | .concat span es => do
    if level = levelLimit then throw ⟨.tooManyLevels, span, none⟩
    checkAllLevels (level + 1) es
  | .either span es => do
    if level = levelLimit then throw ⟨.tooManyLevels, span, none⟩
    checkAllLevels (level + 1) es
  | _ => .ok ()

/-- Refuses expressions with too many levels. -/
def checkAllLevels (level : Nat) : List Expression → Except Fault Unit
  | [] => .ok ()
  | e :: rest => do
    e.checkLevels level
    checkAllLevels level rest

end

end FlatHeader.Pattern
