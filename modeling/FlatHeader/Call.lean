import FlatHeader.Definition.Table
import FlatHeader.Error
import FlatHeader.Text.Word

/-!
# Calls

A call of an object-like definition is its name as a word. A call of a function-like definition is
its name as a word with an argument list right behind it; without one, the word is not a call. An
argument list holds no parentheses, so it ends at the first one.
-/

namespace FlatHeader

open Text

/-- A call found in a text: what is called, with what, and the text around it. -/
structure Call where
  /-- The text before the call. -/
  before : Text
  /-- The definition that is called. -/
  definition : Definition
  /-- The arguments in order, or `none` for an object-like definition. -/
  arguments : Option (List Text)
  /-- The call itself as it stands in the text. -/
  written : Text
  /-- The text behind the call. -/
  after : Text

namespace Call

/-- The byte offset at which a call starts. -/
def start (c : Call) : Nat := byteSize c.before

/-- The byte offset behind a call. -/
def stop (c : Call) : Nat := c.start + byteSize c.written

/-- The arguments that the text between the parentheses of a call gives to `d`. Nothing but white
space is no argument if `d` has no parameter, and one empty argument otherwise. -/
def splitArguments (d : Definition) (list : Text) : List Text :=
  if trim list = [] && d.parameters == some [] then [] else (splitOn ',' list).map trim

/-- The call of `d` by a word that stands between `seen`, last character first, and `after`. -/
def ofWord? (d : Definition) (seen word after : Text) : Except Error (Option Call) :=
  if !d.isFunctionLike then .ok (some ⟨seen.reverse, d, none, word, after⟩)
  else match after with
    | '(' :: t =>
      let list := t.takeWhile fun c => c != '(' && c != ')'
      match t.dropWhile fun c => c != '(' && c != ')' with
      | [] => .error (.unterminatedCall word (byteSize seen))
      | ')' :: rest =>
        let call := word ++ '(' :: list ++ [')']
        .ok (some ⟨seen.reverse, d, some (splitArguments d list), call, rest⟩)
      | _ => .error (.nestedParentheses word (byteSize (list ++ '(' :: word ++ seen)))
    | _ => .ok none

/-- The first call in a text, where `lookup` gives the definitions of the words that count. Words
that are no calls are passed over; a call that cannot be read is an error. -/
def first? (lookup : Text → Option Definition) (t : Text) : Except Error (Option Call) :=
  go [] false t
where
  /-- Goes over a text behind what was `seen`, last character first. If that ends within a word, so
  that none can start here, `inWord` is true. -/
  go (seen : Text) (inWord : Bool) : Text → Except Error (Option Call)
    | [] => .ok none
    | c :: t =>
      if isWordChar c then
        if inWord then go (c :: seen) true t
        else
          let (rest, after) := t.span isWordChar
          match lookup (c :: rest) with
          | none => go (c :: seen) true t
          | some d =>
            match ofWord? d seen (c :: rest) after with
            | .ok none => go (c :: seen) true t
            | found => found
      else go (c :: seen) false t

end Call

end FlatHeader
