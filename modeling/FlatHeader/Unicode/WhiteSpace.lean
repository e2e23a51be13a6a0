/-!
# White space

The Unicode property White_Space: twenty-five characters. Arguments, parameters and the words of a
log filter are trimmed of them.
-/

namespace FlatHeader.Unicode

/-- Whether a character has the property White_Space. -/
def isWhiteSpace (c : Char) : Bool :=
  let n := c.toNat
  if n < 0x80 then (0x09 ≤ n && n ≤ 0x0D) || n == 0x20
  else n == 0x85 || n == 0xA0 || n == 0x1680 || (0x2000 ≤ n && n ≤ 0x200A) || n == 0x2028
    || n == 0x2029 || n == 0x202F || n == 0x205F || n == 0x3000

end FlatHeader.Unicode
