import FlatHeader.Call
import FlatHeader.Substitution

/-!
# Expansion

One step of an expansion puts the substituted body of a definition in the place of one call. Steps
are repeated until no call is left. Which call comes first is a choice that the text alone does not
make, and nothing keeps a definition from calling itself, so the number of steps is limited.
-/

namespace FlatHeader

open Text

/-- Which of several calls is expanded first. -/
inductive Selection where
  /-- The call that starts first in the text. -/
  | leftmost
  /-- Among the calls of the first definition of the table that is called at all, the call that
  starts first in the text. -/
  | definitionOrder
deriving DecidableEq

/-- The limit on the number of steps where none is given. -/
def defaultLimit : Nat := 10000

/-- The number of characters shown of a text that still has a call at the limit. -/
def snippetLength : Nat := 60

/-- What an expansion needs to know: the definitions, the order of the calls and the limit. -/
structure Expander where
  table : Table
  selection : Selection := .leftmost
  /-- The greatest number of calls that are expanded. -/
  limit : Nat := defaultLimit

namespace Call

/-- The text in which `replacement` stands in the place of a call. A space keeps it apart from a
neighbour with which it would merge into one word. -/
def splice (c : Call) (replacement : Text) : Text :=
  c.before ++ ((if joins c.before replacement then [' '] else []) ++ (replacement ++
    ((if joins replacement c.after then [' '] else []) ++ c.after)))

/-- The text that takes the place of a call. -/
def replacement (c : Call) : Except Error Text := c.definition.substitute c.arguments

end Call

/-- The first call of any definition in `l`, where the definitions are tried in order. -/
def firstOfDefinitions? (t : Text) : List Definition → Except Error (Option Call)
  | [] => .ok none
  | d :: rest =>
    match Call.first? (fun word => if word = d.name then some d else none) t with
    | .ok none => firstOfDefinitions? t rest
    | found => found

namespace Expander

/-- The call in a text that is expanded next, or `none` if the text has no call. -/
def select (x : Expander) (t : Text) : Except Error (Option Call) :=
  match x.selection with
  | .leftmost => Call.first? x.table.get? t
  | .definitionOrder => firstOfDefinitions? t x.table.definitions

/-- The text after one step, or `none` if it has no call. -/
def expandOnce? (x : Expander) (t : Text) : Except Error (Option Text) :=
  match x.select t with
  | .error e => .error e
  | .ok none => .ok none
  | .ok (some call) => call.replacement.map fun replacement => some (call.splice replacement)

/-- The text without calls that the steps lead to. -/
def expand (x : Expander) (t : Text) : Except Error Text :=
  go x.limit t
where
  /-- Takes at most `n` steps. The next call is looked for before the limit is checked, and the
  limit is checked before that call is expanded. -/
  go : Nat → Text → Except Error Text
    | 0, t =>
      match x.select t with
      | .error e => .error e
      | .ok none => .ok t
      | .ok (some call) =>
        .error (.didNotTerminate call.definition.name x.limit
          ((call.written ++ call.after).take snippetLength))
    | n + 1, t =>
      match x.select t with
      | .error e => .error e
      | .ok none => .ok t
      | .ok (some call) =>
        match call.replacement with
        | .error e => .error e
        | .ok replacement => go n (call.splice replacement)

/-! ## The course of an expansion -/

/-- One step: which definition was called, where the call stood and what was put in its place. -/
structure Step where
  name : Text
  /-- The byte offset at which the call started. -/
  start : Nat
  /-- The byte offset behind the call. -/
  stop : Nat
  replacement : Text
deriving DecidableEq

/-- The steps that succeed, at most `n`. -/
def steps (x : Expander) : Nat → Text → List Step
  | 0, _ => []
  | n + 1, t =>
    match x.select t with
    | .ok (some call) =>
      match call.replacement with
      | .ok replacement =>
        ⟨call.definition.name, call.start, call.stop, replacement⟩ ::
          steps x n (call.splice replacement)
      | .error _ => []
    | _ => []

/-- How a chain of single steps ends. -/
inductive Ending where
  /-- The last text has no call. -/
  | fixpoint
  /-- No more steps were asked for. -/
  | limit
  | error (e : Error)
deriving DecidableEq

/-- The texts that up to `n` single steps lead through, and how the chain ends. -/
def chain (x : Expander) : Nat → Text → List Text × Ending
  | 0, _ => ([], .limit)
  | n + 1, t =>
    match x.expandOnce? t with
    | .error e => ([], .error e)
    | .ok none => ([], .fixpoint)
    | .ok (some u) =>
      let (texts, ending) := chain x n u
      (u :: texts, ending)

end Expander

end FlatHeader
