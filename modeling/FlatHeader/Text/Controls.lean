import FlatHeader.Text.Basic

/-!
# Control sequences

A text that is shown must not steer the device it is shown on. Control sequences start with the
escape character; they set colours, move the cursor or carry a string. They are left out together
with all control characters that are no white space.
-/

namespace FlatHeader.Text

/-- Where a reader of control sequences is. -/
inductive ControlState where
  /-- Outside of all sequences. -/
  | ground
  /-- Behind an escape character. -/
  | escape
  /-- Behind an escape character and signs that modify it. -/
  | escapeModified
  /-- In a sequence with numbers, which ends with a letter. -/
  | command
  /-- Before, within and behind the numbers of a device string. -/
  | deviceEntry
  | deviceNumbers
  | deviceModified
  /-- In a string, which ends only where another sequence starts. -/
  | string
  /-- In a string for the operating system, which a bell may end. -/
  | systemString
deriving DecidableEq

namespace ControlState

/-- The state behind a printable ASCII character. -/
def nextPrintable (s : ControlState) (c : Char) : ControlState :=
  let isModifier := c ≤ '/'
  let isNumeric := '0' ≤ c && c ≤ '?'
  match s with
  | ground => ground
  | escape =>
    if isModifier then escapeModified
    else match c with
      | '[' => command
      | ']' => systemString
      | 'P' => deviceEntry
      | 'X' => string
      | '^' => string
      | '_' => string
      | _ => ground
  | escapeModified => if isModifier then escapeModified else ground
  | command => if isModifier || isNumeric then command else ground
  | deviceEntry =>
    if isModifier then deviceModified else if isNumeric then deviceNumbers else string
  | deviceNumbers =>
    if isModifier then deviceModified else if isNumeric && c ≤ ';' then deviceNumbers else string
  | deviceModified => if isModifier then deviceModified else string
  | string => string
  | systemString => systemString

/-- Whether the byte that ends a string where characters are bytes is in the encoding of a
character. -/
def holdsTerminator (c : Char) : Bool := (String.singleton c).toUTF8.toList.contains 0x9c

/-- The state behind a character. Two control characters break off every sequence, and an escape
character starts another one. -/
def next (s : ControlState) (c : Char) : ControlState :=
  if c = '\x18' || c = '\x1a' then ground
  else if c = '\x1b' then escape
  else if c < ' ' then (if s = systemString && c = '\x07' then ground else s)
  else if c < '\x7f' then s.nextPrintable c
  else if s = string && holdsTerminator c then ground
  else s

/-- Whether a character is shown. White space is shown within short sequences too. -/
def shows (s : ControlState) (c : Char) : Bool :=
  if c < ' ' then
    (c = '\t' || c = '\n' || c = '\x0c' || c = '\r') &&
      (s = ground || s = escape || s = escapeModified || s = command)
  else s = ground && c ≠ '\x7f'

end ControlState

/-- A text without its control sequences, read from a state on. Behind a character that is shown
all is shown up to the next control character, and only there the sequence before it goes on. -/
def withoutControlsFrom (s : ControlState) (isShowing : Bool) : Text → Text
  | [] => []
  | c :: t =>
    if (if isShowing then .ground else s).shows c then
      c :: withoutControlsFrom (if c < '\x80' then s else .ground) true t
    else withoutControlsFrom (s.next c) false t

/-- A text without its control sequences and control characters, white space excepted. -/
def withoutControls (t : Text) : Text := withoutControlsFrom .ground false t

end FlatHeader.Text
