import FlatHeader.Unicode.WhiteSpace

/-!
# Text

Text is a list of characters. Positions that are shown to a reader are byte offsets in the UTF-8
encoding; inside the library a position is the text before it.
-/

namespace FlatHeader

/-- Text, as the list of its characters. -/
abbrev Text := List Char

namespace Text

/-- The number of bytes of a text in UTF-8. -/
def byteSize (t : Text) : Nat := t.foldr (fun c size => c.utf8Size + size) 0

/-! ## Taking off the ends -/

/-- A text without the longest end whose characters all satisfy `p`. -/
def dropEndWhile (p : Char → Bool) (t : Text) : Text := (t.reverse.dropWhile p).reverse

/-- A text without the white space it starts with. -/
def trimStart (t : Text) : Text := t.dropWhile Unicode.isWhiteSpace

/-- A text without the white space at its two ends. -/
def trim (t : Text) : Text := dropEndWhile Unicode.isWhiteSpace (trimStart t)

/-! ## Blanks

Directives and continuation markers know two blanks only, the space and the tab. -/

/-- Whether a character is a space or a tab. -/
def isBlank (c : Char) : Bool := c == ' ' || c == '\t'

/-- A text without the blanks it starts with. -/
def skipBlanks (t : Text) : Text := t.dropWhile isBlank

/-! ## Pieces -/

/-- The pieces of a text between the separators: always one more than there are separators. -/
def splitOn (separator : Char) (t : Text) : List Text :=
  t.foldr (fun c pieces => if c = separator then [] :: pieces else pieces.modifyHead (c :: ·)) [[]]

end Text

end FlatHeader
