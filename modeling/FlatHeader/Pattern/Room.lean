import FlatHeader.Pattern.Encoding
import FlatHeader.Pattern.Shape

/-!
# The room that patterns take

To be looked for, a pattern is laid out as a graph of states, with all its repetitions written out.
There is one graph for each of the two directions in which a text can be read. The room that a
graph takes is counted in bytes, and it has a limit.
-/

namespace FlatHeader.Pattern

/-- The directions in which a text can be read. -/
inductive Direction where
  | forward
  | backward
deriving DecidableEq

/-- The room of a state. -/
def stateRoom : Nat := 32

/-- The room of a state for one of `n` bytes, or ranges of bytes. -/
def choiceRoom (n : Nat) : Nat := stateRoom + 8 * n

/-- The room of a state that can be left in `n` ways without a character. -/
def forkRoom (n : Nat) : Nat := stateRoom + 4 * n

/-- The sum of rooms. -/
def total (rooms : List Nat) : Nat := rooms.foldr (· + ·) 0

/-! ## Sets -/

/-- The room of a set. Reading forward, nodes that have the same behind them share one state. -/
def setRoom (d : Direction) (ranges : List (Nat × Nat)) : Nat :=
  if areAscii ranges then choiceRoom ranges.length + stateRoom
  else
    let ss := ranges.flatMap fun (first, last) => sequences first last
    -- an encoding has four bytes at most
    let inner := nodes 4 ss
    match d with
    | .forward => stateRoom + total (inner.eraseDups.map fun ss => choiceRoom (branchCount ss))
    | .backward =>
      forkRoom ss.length + stateRoom + total (inner.map fun ss => stateRoom * branchCount ss)

/-! ## Texts -/

/-- The bytes of a text. -/
def bytes (t : Text) : List UInt8 := t.flatMap String.utf8EncodeChar

/-- Byte strings put together in chunks, each up to an empty string or the last one. Each string is
split behind its first byte. -/
def chunks : List (List UInt8) → List (List (UInt8 × List UInt8))
  | [] => [[]]
  | [] :: rest => [] :: chunks rest
  | (b :: s) :: rest => (chunks rest).modifyHead ((b, s) :: ·)

/-- The strings of a chunk behind their first bytes, put together by these. -/
def byFirstByte (chunk : List (UInt8 × List UInt8)) : List (List (List UInt8)) :=
  (chunk.map (·.1)).eraseDups.map fun b => (chunk.filter (·.1 = b)).map (·.2)

/-- The room of a tree of byte strings, in which earlier strings go before later ones, down to a
depth. -/
def treeRoom : Nat → List (List UInt8) → Nat
  | 0, _ => 0
  | depth + 1, strings =>
    if strings.all List.isEmpty then 0
    else
      -- of empty strings at the front one is enough
      let strings :=
        if strings.head?.any List.isEmpty then [] :: strings.dropWhile List.isEmpty else strings
      let inOrder := chunks strings
      let choices := (inOrder.map byFirstByte).filter (!·.isEmpty)
      forkRoom (choices.length + (inOrder.length - 1)) + total (choices.map fun tails =>
        (if tails.length = 1 then stateRoom else choiceRoom tails.length) +
          total (tails.map (treeRoom depth)))

/-- The room of one of several texts. -/
def textsRoom (d : Direction) (texts : List Text) : Nat :=
  let strings := texts.map fun t => if d = .forward then bytes t else (bytes t).reverse
  let depth := (strings.map List.length).foldl max 0
  stateRoom + treeRoom depth strings

/-! ## Shapes -/

namespace Shape

/-- The text that a shape stands for. -/
def text? : Shape → Option Text
  | text t => some t
  | _ => none

/-- The room of a repetition, of a pattern that takes `room` and whose matches have characters if
`isProper` holds. -/
def repeatedRoom (room : Nat) (isProper : Bool) (least : Nat) : Option Nat → Nat
  | none =>
    if least = 0 && !isProper then room + 2 * forkRoom 2 + stateRoom
    else forkRoom 2 + room * max least 1
  | some most =>
    if least = 0 && most = 1 then forkRoom 2 + room + stateRoom
    else if least = most then room * least
    else
      (if least = 0 then stateRoom else room * least) + stateRoom +
        (most - least) * (forkRoom 2 + room)

mutual

/-- The room of a shape. Places to be kept are noted reading forward only. -/
def room (d : Direction) : Shape → Nat
  | empty => stateRoom
  | text t => stateRoom * (bytes t).length
  | set ranges => setRoom d ranges
  | look _ => stateRoom
  | foreignLook _ => stateRoom
  | kept s => (if d = .forward then 2 * stateRoom else 0) + s.room d
  | concat ss => total (roomsOf d ss)
  | either ss =>
    match ss.mapM text? with
    | some texts => textsRoom d texts
    | none => forkRoom ss.length + stateRoom + total (roomsOf d ss)
  | repeated s least most => repeatedRoom (s.room d) (s.traits.least.any (0 < ·)) least most

/-- The rooms of shapes. -/
def roomsOf (d : Direction) : List Shape → List Nat
  | [] => []
  | s :: rest => s.room d :: roomsOf d rest

end

/-- The room of the whole graph of a shape: in front of the shape there may be any text, unless its
matches are where reading begins, and behind it there is a state for its end. -/
def graphRoom (d : Direction) (s : Shape) : Nat :=
  let isBound := match d with
    | .forward => s.traits.isAtStart
    | .backward => s.traits.isAtEnd
  let skipped := if isBound then stateRoom else repeatedRoom (setRoom d [(0, 0x7f)]) true 0 none
  skipped + (kept s).room d + stateRoom

end Shape

/-- The most room that a graph may take. -/
def roomLimit : Nat := 10485760

/-- Whether the graph of a pattern for a direction has room. -/
def hasRoom (d : Direction) (p : Pattern) : Bool := p.shape.graphRoom d ≤ roomLimit

end FlatHeader.Pattern
