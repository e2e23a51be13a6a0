import FlatHeader.Text.Word

/-!
# Cleaning up an expanded text

Three marks that bodies may hold mean nothing in plain text. They are resolved in this order:
continuation markers join lines, `##` is deleted, and `#word` becomes `"word"`.
-/

namespace FlatHeader

open Text

/-! ## Continuation markers

A continuation marker is a backslash, any number of blanks and a line break. Markers are told from
other text before any is removed, so nothing becomes a marker because another one goes. -/

/-- What becomes of a continuation marker. -/
inductive ContinuationMode where
  /-- The marker goes together with its line break, and the lines are joined. -/
  | join
  /-- The marker goes and a line feed stays. -/
  | keepLineBreak
deriving DecidableEq

namespace Continuation

/-- A character of a text, or a whole continuation marker, as it is written. -/
inductive Token where
  | char (c : Char)
  | marker (written : Text)
deriving DecidableEq

/-- If blanks and a line break come next: the two as written, and what follows them. -/
def lineBreak? : List Token → Option (Text × List Token)
  | .char '\n' :: rest => some (['\n'], rest)
  | .char '\r' :: .char '\n' :: rest => some (['\r', '\n'], rest)
  | .char c :: rest =>
    if isBlank c then (lineBreak? rest).map fun (written, rest) => (c :: written, rest) else none
  | _ => none

/-- Adds a character in front of a tokenized text. -/
def push (c : Char) (tokens : List Token) : List Token :=
  if c = '\\' then
    match lineBreak? tokens with
    | some (written, rest) => .marker (c :: written) :: rest
    | none => .char c :: tokens
  else .char c :: tokens

/-- The characters and the continuation markers of a text, in order. -/
def tokens (t : Text) : List Token := t.foldr push []

/-- What stands for a token in the cleaned text. -/
def render (mode : ContinuationMode) : Token → Text
  | .char c => [c]
  | .marker _ => match mode with
    | .join => []
    | .keepLineBreak => ['\n']

end Continuation

/-- A text in which continuation markers are resolved. -/
def joinLines (mode : ContinuationMode) (t : Text) : Text :=
  (Continuation.tokens t).flatMap (Continuation.render mode)

/-! ## Paste marks -/

/-- Adds a character in front of a text without `##`. Where that would make one, both `#` go. -/
def pushUnpasted (c : Char) (t : Text) : Text :=
  match c, t with
  | '#', '#' :: t => t
  | _, _ => c :: t

/-- A text with every `##` deleted, read from the left: of a run of `#`, nothing is left if their
number is even, and one if it is odd. -/
def removePasteMarks (t : Text) : Text := t.foldr pushUnpasted []

/-! ## String marks -/

/-- Whether a word behind `#` stays as it is: it starts like an include directive. -/
def isInclude (word : Text) : Bool := "include".toList.isPrefixOf word

/-- Adds a character in front of a text whose string marks are resolved. A `#` puts the word behind
it in quotes, unless there is none or it starts like an include directive. -/
def pushString (c : Char) (t : Text) : Text :=
  if c = '#' then
    let word := t.takeWhile isWordChar
    if word.isEmpty || isInclude word then c :: t
    else '"' :: (word ++ '"' :: t.dropWhile isWordChar)
  else c :: t

/-- A text with `"word"` for every `#word`, include directives excepted. -/
def resolveStringMarks (t : Text) : Text := t.foldr pushString []

/-- A text in which all three kinds of marks are resolved. -/
def cleanUp (mode : ContinuationMode) (t : Text) : Text :=
  resolveStringMarks (removePasteMarks (joinLines mode t))

end FlatHeader
