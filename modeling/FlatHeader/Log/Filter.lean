import FlatHeader.Log.Event
import FlatHeader.Pattern.Meaning

/-!
# Log filters

A filter says for each target how important an event has to be to be shown. It has a list of rules,
each for the targets whose names start in a certain way, and a default rule for all others. Rules
are written `level`, `target=level` or `target`, with commas between them. Behind them there may be
a slash and a pattern that the sentence of an event has to have in it.
-/

namespace FlatHeader.Log

open Text

/-- How much is shown: nothing, or all that is as important as a level. -/
inductive Threshold where
  | off
  | downTo (level : Level)
deriving DecidableEq

namespace Threshold

/-- Whether events of a level are shown. -/
def allows : Threshold → Level → Bool
  | off, _ => false
  | downTo least, level => level.rank ≤ least.rank

/-- The threshold that shows all. -/
def everything : Threshold := downTo .trace

/-- The threshold of a name, in small or capital letters. -/
def ofName? (name : Text) : Option Threshold :=
  let name := name.map Char.toUpper
  if name = "OFF".toList then some off
  else (Level.all.find? fun l => l.name.toList = name).map downTo

end Threshold

/-- A rule of a filter: the threshold for the targets whose names start with `target`. The default
rule has no target. -/
structure Rule where
  target : Option Text
  threshold : Threshold
deriving DecidableEq

namespace Rule

/-- Whether a rule is about a target. -/
def covers (r : Rule) (target : Target) : Bool :=
  (r.target.getD []).isPrefixOf target.name.toList

/-- The number of characters by which a rule picks its targets. -/
def precision (r : Rule) : Nat := (r.target.getD []).length

/-- Reads a rule. If it is not valid, the part to blame is given. -/
def read (t : Text) : Except Text Rule :=
  match splitOn '=' t with
  | [target] =>
    match Threshold.ofName? target with
    | some threshold => .ok ⟨none, threshold⟩
    | none => .ok ⟨some target, .everything⟩
  | [target, name] =>
    let name := trim name
    if name = [] then .ok ⟨some target, .everything⟩
    else match Threshold.ofName? name with
      | some threshold => .ok ⟨some target, threshold⟩
      | none => .error name
  | _ => .error t

end Rule

/-- The rules with one more, which takes the place of a rule for the same target. -/
def Rule.addTo (r : Rule) : List Rule → List Rule
  | [] => [r]
  | s :: rest => if s.target = r.target then r :: rest else s :: addTo r rest

/-! ## Filters -/

/-- Rules, of which no two have the same target, and a pattern for the sentences of events. -/
structure Filter where
  rules : List Rule
  pattern : Option Pattern := none

/-- Why a part of a written filter does not count. -/
inductive FilterFault where
  | invalidRule (part : Text)
  /-- There is more than one slash, so nothing of the whole text counts. -/
  | manySlashes (text : Text)
  | invalidPattern (description : String)
deriving DecidableEq

/-- The sentence shown for a fault. -/
def FilterFault.message : FilterFault → String
  | invalidRule part => s!"invalid logging spec '{String.ofList part}', ignoring it"
  | manySlashes text =>
    s!"invalid logging spec '{String.ofList text}', ignoring it (too many '/'s)"
  | invalidPattern description => s!"invalid regex filter - {description}"

namespace Filter

/-- The rule that counts for a target: the most precise one that covers it, the last one of those
that are equally precise. -/
def ruleFor? (f : Filter) (target : Target) : Option Rule :=
  (f.rules.filter (·.covers target)).foldl (fun best r =>
    match best with
    | none => some r
    | some b => if b.precision ≤ r.precision then some r else some b) none

/-- Whether the rules let events of a target and a level through. -/
def allows (f : Filter) (target : Target) (level : Level) : Bool :=
  match f.ruleFor? target with
  | none => false
  | some r => r.threshold.allows level

/-- Whether an event is shown. -/
def shows (f : Filter) (e : Event) : Bool :=
  f.allows e.target e.level && f.pattern.all (·.isIn e.message.toList)

/-- Adds the rules in a text. -/
def addRules (f : Filter) (t : Text) : Filter × List FilterFault :=
  (((splitOn ',' t).map trim).filter (· ≠ [])).foldl (fun (f, faults) part =>
    match Rule.read part with
    | .ok r => ({ f with rules := r.addTo f.rules }, faults)
    | .error fault => (f, faults ++ [.invalidRule fault])) (f, [])

/-- Adds the rules and the pattern in a text. -/
def addAll (f : Filter) (t : Text) : Filter × List FilterFault :=
  match splitOn '/' t with
  | [rules] => f.addRules rules
  | [rules, pattern] =>
    let (f, faults) := f.addRules rules
    match Pattern.read pattern with
    | .ok p => ({ f with pattern := some p }, faults)
    | .error description => (f, faults ++ [.invalidPattern description])
  | _ => (f, [.manySlashes t])

/-- The events of a list that are shown. -/
def select (f : Filter) (events : List Event) : List Event := events.filter f.shows

end Filter

end FlatHeader.Log
