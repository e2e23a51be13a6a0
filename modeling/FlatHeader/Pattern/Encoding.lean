import FlatHeader.Pattern.Ranges

/-!
# Ranges of characters in bytes

The characters of a range have UTF-8 encodings of one to four bytes. They are covered by sequences
of byte ranges, each of which stands for all the encodings with one byte from each of its ranges.
-/

namespace FlatHeader.Pattern

/-- The first and the last byte of a range. -/
abbrev ByteRange := Nat × Nat

/-- One range for each byte of an encoding. -/
abbrev ByteSequence := List ByteRange

/-- The mark of a byte that is not the first one of an encoding. Such a byte has six free bits. -/
def continuationMark : Nat := 0x80

/-- The sequences for numbers from `first` to `last` in a byte with a mark and `count` bytes behind
it. Numbers that have a part of a block only are set apart. -/
def sequencesBehind (mark : Nat) : Nat → Nat → Nat → List ByteSequence
  | 0, first, last => [[(mark + first, mark + last)]]
  | count + 1, first, last =>
    let size := Nat.pow 64 (count + 1)
    let only (block : Nat) (s : ByteSequence) : ByteSequence := (mark + block, mark + block) :: s
    let low := first / size
    let high := last / size
    if low = high then
      (sequencesBehind continuationMark count (first % size) (last % size)).map (only low)
    else
      let startsFull : Bool := first % size = 0
      let endsFull : Bool := last % size = size - 1
      let front :=
        if startsFull then []
        else (sequencesBehind continuationMark count (first % size) (size - 1)).map (only low)
      let back :=
        if endsFull then []
        else (sequencesBehind continuationMark count 0 (last % size)).map (only high)
      let lowFull := if startsFull then low else low + 1
      let highFull := if endsFull then high + 1 else high
      let middle :=
        if lowFull < highFull then
          [(mark + lowFull, mark + (highFull - 1)) ::
            List.replicate (count + 1) (continuationMark, continuationMark + 63)]
        else []
      front ++ middle ++ back

/-- The code points with encodings of one form: the first and the last one, the mark of the first
byte and the number of bytes behind it. Those of three bytes have a gap in them. -/
def encodingForms : List (Nat × Nat × Nat × Nat) := [
  (0, 0x7f, 0, 0), (0x80, 0x7ff, 0xc0, 1), (0x800, 0xd7ff, 0xe0, 2), (0xe000, 0xffff, 0xe0, 2),
  (0x10000, 0x10ffff, 0xf0, 3)]

/-- The sequences for the characters of a range, in ascending order. -/
def sequences (first last : Nat) : List ByteSequence :=
  encodingForms.flatMap fun (least, most, mark, count) =>
    if max first least ≤ min last most then
      sequencesBehind mark count (max first least) (min last most)
    else []

/-- Whether all characters of ranges are of ASCII. -/
def areAscii (ranges : List (Nat × Nat)) : Bool := ranges.all fun (_, last) => last < 0x80

/-! ## Trees of sequences -/

/-- The sequences put together by their first ranges. -/
def byFirstRange : List ByteSequence → List (ByteRange × List ByteSequence)
  | [] => []
  | [] :: rest => byFirstRange rest
  | (r :: s) :: rest =>
    match byFirstRange rest with
    | [] => [(r, [s])]
    | (r', tails) :: others =>
      if r = r' then (r, s :: tails) :: others else (r, [s]) :: (r', tails) :: others

/-- The nodes of the tree of some sequences that are not at its ends, down to a depth. A node is
what the sequences through it have behind it. -/
def nodes : Nat → List ByteSequence → List (List ByteSequence)
  | 0, _ => []
  | depth + 1, ss =>
    if ss.all List.isEmpty then []
    else ss :: (byFirstRange ss).flatMap fun (_, tails) => nodes depth tails

/-- The number of branches at a node. -/
def branchCount (ss : List ByteSequence) : Nat := (byFirstRange ss).length

end FlatHeader.Pattern
