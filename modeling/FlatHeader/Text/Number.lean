import FlatHeader.Text.Basic

/-!
# Numbers

A number is written in decimal digits, with a plus sign in front if one likes, and has to be less
than 2 ^ 64. It is read from the left, and the first thing wrong with it is its fault.
-/

namespace FlatHeader.Text

/-- What is wrong with the text of a number. -/
inductive NumberFault where
  | empty
  /-- A character is no digit, or there is nothing but a sign. -/
  | invalidDigit
  /-- The digits read so far are too much already. -/
  | tooLarge
deriving DecidableEq

/-- The sentence that names what is wrong with the text of a number. -/
def NumberFault.message : NumberFault → String
  | empty => "cannot parse integer from empty string"
  | invalidDigit => "invalid digit found in string"
  | tooLarge => "number too large to fit in target type"

/-- Reads digits behind those that are worth `n`. -/
def readDigits (n : Nat) : Text → Except NumberFault Nat
  | [] => .ok n
  | c :: t =>
    if c.isDigit then
      let n := 10 * n + (c.toNat - '0'.toNat)
      if n < 2 ^ 64 then readDigits n t else .error .tooLarge
    else .error .invalidDigit

/-- Reads a number. -/
def readNumber : Text → Except NumberFault Nat
  | [] => .error .empty
  | ['+'] => .error .invalidDigit
  | '+' :: t => readDigits 0 t
  | t => readDigits 0 t

end FlatHeader.Text
