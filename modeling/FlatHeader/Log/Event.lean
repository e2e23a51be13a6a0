import FlatHeader.Definition.Extraction
import FlatHeader.Header

/-!
# Log events

What is worth telling about the way to a header: the definitions that were found, the seed, each
step of the expansion and the file that is written. Every event has a level and a target, which is
the part of the program that it comes from, and by these two it is shown or not.
-/

namespace FlatHeader.Log

/-- How much an event matters, the most important first. -/
inductive Level where
  | error
  | warn
  | info
  | debug
  | trace
deriving DecidableEq

namespace Level

/-- The place of a level, from one for the most important. -/
def rank : Level → Nat
  | error => 1
  | warn => 2
  | info => 3
  | debug => 4
  | trace => 5

/-- The name of a level, in capitals. -/
def name : Level → String
  | error => "ERROR"
  | warn => "WARN"
  | info => "INFO"
  | debug => "DEBUG"
  | trace => "TRACE"

/-- All levels. -/
def all : List Level := [error, warn, info, debug, trace]

end Level

/-- The part of the program an event comes from. -/
inductive Target where
  | header
  | definitions
  | expansion
  | command
deriving DecidableEq

/-- The name of a target. The parts of a whole have names that start with its name. -/
def Target.name : Target → String
  | header => "oo_header"
  | definitions => "oo_header::definition"
  | expansion => "oo_header::expand"
  | command => "generate_oo_header"

/-- Something that happens on the way to a header. -/
inductive Event where
  /-- The line starts a definition of the name. -/
  | defined (line : Nat) (name : Text)
  /-- The definition on the line takes the place of an earlier one. -/
  | redefined (line : Nat) (name : Text)
  /-- The seed is about to be expanded with so many definitions. -/
  | expanding (definitions : Nat) (seed : Text)
  /-- A call was expanded. -/
  | expanded (step : Expander.Step)
  /-- No call is left after so many expansions. -/
  | fixpoint (expansions : Nat)
  /-- The header is about to be written to the file. -/
  | writing (path : Text)
deriving DecidableEq

namespace Event

/-- The level of an event. -/
def level : Event → Level
  | defined .. => .debug
  | redefined .. => .warn
  | expanding .. => .info
  | expanded _ => .trace
  | fixpoint _ => .debug
  | writing _ => .info

/-- The part of the program an event comes from. -/
def target : Event → Target
  | defined .. => .definitions
  | redefined .. => .definitions
  | expanding .. => .header
  | expanded _ => .expansion
  | fixpoint _ => .expansion
  | writing _ => .command

/-- The sentence that tells an event. -/
def message : Event → String
  | defined line name => s!"line {line}: defined {String.ofList name}"
  | redefined line name =>
    s!"line {line}: {String.ofList name} redefined, the previous definition is discarded"
  | expanding definitions seed =>
    s!"expanding {definitions} definitions into:\n{String.ofList seed}"
  | expanded ⟨name, start, stop, replacement⟩ =>
    s!"{String.ofList name} at {start}..{stop} -> {String.ofList (Text.quoted replacement)}"
  | fixpoint expansions => s!"reached fixpoint after {expansions} expansions"
  | writing path => s!"writing {String.ofList path}"

end Event

/-! ## The lines of a log -/

/-- A text with spaces behind it, so that it has at least the given number of characters. -/
def padded (width : Nat) (s : String) : String := String.ofList (s.toList.rightpad width ' ')

/-- The lines of a log. A target is padded to the longest one that was written so far, whose number
of characters was `width` before the first event. -/
def lines (width : Nat) : List Event → List String
  | [] => []
  | e :: rest =>
    let width := max width e.target.name.length
    s!" {padded 5 e.level.name} {padded width e.target.name} > {e.message}\n" :: lines width rest

/-- The log of events. -/
def render (events : List Event) : String := String.join (lines 0 events)

/-! ## The events on the way to a header -/

/-- The events of an extraction: each definition, and with it whether its name is among those
defined before, which are `earlier`. -/
def ofDefinitions (earlier : List Text) : List Located → List Event
  | [] => []
  | ⟨line, d⟩ :: rest =>
    .defined line d.name :: ((if d.name ∈ earlier then [.redefined line d.name] else []) ++
      ofDefinitions (d.name :: earlier) rest)

/-- The events of an expansion: each step, and that it came to its end if it did. -/
def ofExpansion (x : Expander) (t : Text) : List Event :=
  let steps := x.steps x.limit t
  steps.map .expanded ++ match x.expand t with
    | .ok _ => [.fixpoint steps.length]
    | .error _ => []

end FlatHeader.Log
