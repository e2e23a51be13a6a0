import FlatHeader.Text.Basic
import FlatHeader.Unicode.Printable

/-!
# Quoted text

A text in double quotes, on one line and in visible characters. The quote and the backslash stand
behind a backslash, four control characters have a letter, and every other character that has no
visible form is named by its number in hexadecimal digits.
-/

namespace FlatHeader.Text

/-- How a character is written inside quotes. -/
def quoteChar (c : Char) : Text :=
  match c with
  | '"' => ['\\', '"']
  | '\\' => ['\\', '\\']
  | '\t' => ['\\', 't']
  | '\n' => ['\\', 'n']
  | '\r' => ['\\', 'r']
  | '\x00' => ['\\', '0']
  | _ =>
    if Unicode.isPrintable c then [c]
    else ['\\', 'u', '\x7b'] ++ Nat.toDigits 16 c.toNat ++ ['\x7d']

/-- A text as it is written in double quotes. -/
def quoted (t : Text) : Text := '"' :: (t.flatMap quoteChar ++ ['"'])

end FlatHeader.Text
