import FlatHeader.Text.Basic
import FlatHeader.Unicode.Identifier

/-!
# Words

A word is a maximal run of identifier characters, so `a##b` has the words `a` and `b`, and `x1` is
never split. A text is the sequence of its words and of the gaps between them; whatever is done to
whole words is done piece by piece on that sequence.
-/

namespace FlatHeader.Text

/-- Whether a character belongs to words. -/
def isWordChar (c : Char) : Bool := Unicode.isXidContinue c

/-- Whether a character may be the first of an identifier. -/
def isNameStart (c : Char) : Bool := c == '_' || Unicode.isXidStart c

/-! ## Identifiers -/

/-- The identifier a text starts with, and the text behind it. -/
def identifier? : Text → Option (Text × Text)
  | [] => none
  | c :: t =>
    if isNameStart c then some (c :: t.takeWhile isWordChar, t.dropWhile isWordChar) else none

/-- Whether a text as a whole is one identifier. -/
def isIdentifier : Text → Bool
  | [] => false
  | c :: t => isNameStart c && t.all isWordChar

/-! ## The pieces of a text -/

/-- A word of a text, or the text between two words. -/
inductive Piece where
  | word (text : Text)
  | gap (text : Text)
deriving DecidableEq

namespace Piece

/-- The characters of a piece. -/
def text : Piece → Text
  | word t => t
  | gap t => t

/-- The word that a piece is, if it is one. -/
def word? : Piece → Option Text
  | word t => some t
  | gap _ => none

/-- Adds a character in front of a sequence of pieces. It joins the first piece if that is of its
own kind and starts a new one otherwise. -/
def push (c : Char) (pieces : List Piece) : List Piece :=
  if isWordChar c then
    match pieces with
    | word t :: rest => word (c :: t) :: rest
    | _ => word [c] :: pieces
  else
    match pieces with
    | gap t :: rest => gap (c :: t) :: rest
    | _ => gap [c] :: pieces

end Piece

/-- The words and gaps of a text, in order and in turn. -/
def pieces (t : Text) : List Piece := t.foldr Piece.push []

/-- The words of a text, in order. -/
def words (t : Text) : List Text := (pieces t).filterMap Piece.word?

/-- A text with another one in place of every word equal to `word`. -/
def replaceWord (word replacement t : Text) : Text :=
  (pieces t).flatMap fun p => if p = .word word then replacement else p.text

/-- Whether two texts would merge into one word where they meet. -/
def joins (left right : Text) : Bool :=
  match left.getLast?, right.head? with
  | some l, some r => isWordChar l && isWordChar r
  | _, _ => false

end FlatHeader.Text
