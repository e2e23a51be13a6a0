import FlatHeader.Pattern.Reader
import FlatHeader.Pattern.Room

/-!
# What written patterns mean

A written pattern is understood part by part, from left to right, with the flags that are set at
each part. There are no tables of letters, digits and cases beyond ASCII, so a part that asks for
them has no meaning.
-/

namespace FlatHeader.Pattern

/-- The flags that have a say in what a part means. -/
structure Mode where
  anyCase : Bool := false
  manyLines : Bool := false
  dotMatchesAll : Bool := false
  unicode : Bool := true
  anyLineBreak : Bool := false
deriving DecidableEq

/-- The mode with flags switched. -/
def Mode.change (m : Mode) (changes : FlagChanges) : Mode where
  anyCase := changes.apply .anyCase m.anyCase
  manyLines := changes.apply .manyLines m.manyLines
  dotMatchesAll := changes.apply .dotMatchesAll m.dotMatchesAll
  unicode := changes.apply .unicode m.unicode
  anyLineBreak := changes.apply .anyLineBreak m.anyLineBreak

/-- The meaning of a part, or the fault that it has none. -/
abbrev Meaning := Except Fault

/-- A fault at a part. -/
def meaningless {α : Type} (kind : FaultKind) (span : Span) : Meaning α :=
  .error ⟨kind, span, none⟩

/-! ## Sets -/

/-- The set with the other case of each letter, if any case will do. -/
def foldSet (m : Mode) (span : Span) (s : CharSet) : Meaning CharSet :=
  if !m.anyCase || s.isRangeless then .ok s
  else if m.unicode then meaningless .foreignCases span
  else .ok (.bothCases s)

/-- The complement of a set, if it is negated. Among bytes it holds some that are no text. -/
def negateSet (m : Mode) (span : Span) (negated : Bool) (s : CharSet) : Meaning CharSet :=
  if !negated then .ok s
  else if m.unicode then .ok (.complement s)
  else meaningless .invalidText span

/-- The set of a class with a letter. -/
def shorthandSet (m : Mode) (span : Span) (s : Shorthand) (negated : Bool) : Meaning CharSet :=
  if m.unicode then meaningless .foreignShorthand span
  else negateSet m span negated s.asciiSet

/-- The name of a property, where case, spaces, hyphens and the word `is` in front do not count. -/
def plainName (name : Text) : Text :=
  let name := name.map Char.toLower
  (if name.take 2 = ['i', 's'] then name.drop 2 else name).filter fun c =>
    c < '\x80' && c ≠ ' ' && c ≠ '_' && c ≠ '-'

/-- Why there is no set for a property. Three names could be those of values. -/
def propertyFault (m : Mode) (name : Text) : FaultKind :=
  if !m.unicode then .foreignChar
  else if [['c', 'f'], ['s', 'c'], ['l', 'c']].contains (plainName name) then .unknownPropertyValue
  else .unknownProperty

/-- The character that is meant in a class. Classes of bytes have characters of ASCII only. -/
def classChar (m : Mode) (l : Literal) : Meaning Char :=
  if m.unicode || l.char < '\x80' then .ok l.char
  else meaningless (if l.isByte && l.char.toNat < 256 then .invalidText else .foreignChar) l.span

/-- Two sets put together. -/
def combine : SetOperation → CharSet → CharSet → CharSet
  | .inter => .inter
  | .difference => .difference
  | .symmetricDifference => .symmetricDifference

mutual

/-- The set that an item of a class means. -/
def ClassItem.meaning (m : Mode) : ClassItem → Meaning CharSet
  | .nothing _ => .ok .nothing
  | .literal l => (classChar m l).map .single
  | .range _ first last => do return .range (← classChar m first) (← classChar m last)
  | .named span s negated => do negateSet m span negated (← foldSet m span s)
  | .shorthand span s negated => shorthandSet m span s negated
  | .property span name => meaningless (propertyFault m name) span
  | .bracketed span negated item => do
    negateSet m span negated (← foldSet m span (← item.meaning m))
  | .union _ items => unionMeaning m items
  | .combined _ operation left right => do
    let s ← left.meaning m
    let t ← right.meaning m
    let t ← foldSet m right.span t
    let s ← foldSet m left.span s
    return combine operation s t

/-- The union of the sets that items mean. -/
def unionMeaning (m : Mode) : List ClassItem → Meaning CharSet
  | [] => .ok .nothing
  | item :: rest => do return .union (← item.meaning m) (← unionMeaning m rest)

end

/-! ## Expressions -/

/-- The pattern of a character that stands for itself. -/
def literalMeaning (m : Mode) (l : Literal) : Meaning Pattern :=
  if !m.unicode && l.isByte && '\x80' ≤ l.char then meaningless .invalidText l.span
  else (foldSet m l.span (.single l.char)).map .one

/-- The pattern of a dot: any character that is no line break. -/
def dotMeaning (m : Mode) (span : Span) : Meaning Pattern :=
  if !m.unicode then meaningless .invalidText span
  else
    let breaks : CharSet :=
      if m.dotMatchesAll then .nothing
      else if m.anyLineBreak then .union (.single '\n') (.single '\r')
      else .single '\n'
    .ok (.one (.complement breaks))

/-- The pattern of an assertion. -/
def assertionMeaning (m : Mode) (a : Assertion) : Pattern :=
  let word (l : Look) : Pattern := if m.unicode then .foreignLook l else .look l
  match a with
  | .lineStart =>
    .look (if !m.manyLines then .textStart
      else if m.anyLineBreak then .anyLineStart else .lineStart)
  | .lineEnd =>
    .look (if !m.manyLines then .textEnd else if m.anyLineBreak then .anyLineEnd else .lineEnd)
  | .textStart => .look .textStart
  | .textEnd => .look .textEnd
  | .wordBoundary => word .wordBoundary
  | .noWordBoundary => word .noWordBoundary
  | .wordStart => word .wordStart
  | .wordEnd => word .wordEnd
  | .halfWordStart => word .halfWordStart
  | .halfWordEnd => word .halfWordEnd

mutual

/-- The pattern that an expression means, and the mode behind it. -/
def Expression.meaning (m : Mode) : Expression → Meaning (Pattern × Mode)
  | .nothing => .ok (.empty, m)
  | .flags changes => .ok (.empty, m.change changes)
  | .literal l => (literalMeaning m l).map (·, m)
  | .dot span => (dotMeaning m span).map (·, m)
  | .assertion _ a => .ok (assertionMeaning m a, m)
  | .shorthand span s negated => (shorthandSet m span s negated).map (.one ·, m)
  | .property span name => meaningless (propertyFault m name) span
  | .set item => (item.meaning m).map (.one ·, m)
  | .repetition _ e least most => do
    let (p, m) ← e.meaning m
    -- what is never done need not be possible
    return (if most = some 0 then .empty else .repeated p least most, m)
  | .group _ isKept changes e => do
    let (p, _) ← e.meaning (m.change changes)
    return (.group isKept p, m)
  | .concat _ es => do
    let (ps, m) ← meanings m es
    return (.concatAll ps, m)
  | .either _ es => do
    let (ps, m) ← meanings m es
    return (.eitherAll ps, m)

/-- The patterns that expressions mean, and the mode behind them. -/
def meanings (m : Mode) : List Expression → Meaning (List Pattern × Mode)
  | [] => .ok ([], m)
  | e :: rest => do
    let (p, m) ← e.meaning m
    let (ps, m) ← meanings m rest
    return (p :: ps, m)

end

/-- Shows that a pattern takes too much room. -/
def roomMessage : String := s!"Compiled regex exceeds size limit of {roomLimit} bytes."

/-- Reads a pattern. If there is none, what is shown about that is given. -/
def read (t : Text) : Except String Pattern :=
  match Expression.read t >>= Expression.meaning {} with
  | .error fault => .error (fault.message t)
  | .ok (p, _) =>
    if !p.hasRoom .forward then .error roomMessage
    else if p.isForeign then .error "error building NFA"
    else if !p.hasRoom .backward then .error roomMessage
    else .ok p

end FlatHeader.Pattern
