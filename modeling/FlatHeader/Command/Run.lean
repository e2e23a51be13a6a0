import FlatHeader.Command.Excerpt
import FlatHeader.Command.Request
import FlatHeader.Log.Filter

/-!
# Running the command

The command reads the definitions from one file and writes the header to another. Nothing is
written unless there is a header. What a run has to say goes to the two output channels, and its
exit code tells whether it made the header.
-/

namespace FlatHeader.Command

open Log

/-- Why there is no header in the output file. -/
inductive Failure where
  /-- There is no file at the path for the definitions. -/
  | missingMacros (path : Text)
  | unreadable (path : Text) (e : FileError)
  | unwritable (path : Text) (e : FileError)
  /-- The source at the path, or the header that is wanted from it, is faulty. -/
  | faulty (path source : Text) (e : Error)
deriving DecidableEq

namespace Failure

/-- The exit code of a run that fails. -/
def exitCode : Failure → UInt8
  | missingMacros _ => 2
  | _ => 1

/-- What is shown of a failure. A fault in a line of the source is shown with that line. -/
def message : Failure → String
  | missingMacros path => s!"can't find macros file {String.ofList path}"
  | unreadable path e => s!"failed to read `{String.ofList path}`: {e.message}"
  | unwritable path e => s!"failed to write `{String.ofList path}`: {e.message}"
  | faulty path source e =>
    match e with
    | .malformedDefinition _ (some line) _ => withExcerpt e.message path source line
    | e => e.message

end Failure

/-! ## Making the header -/

/-- A text with a line feed at its end. -/
def withFinalLineFeed (t : Text) : Text := if t.getLast? = some '\n' then t else t ++ ['\n']

/-- The header that the arguments ask for, from what a source holds. -/
def headerFrom (a : Arguments) (e : Extraction) : Except Error Text := do
  generate (← e.table) a.tags a.classes a.options

/-- The events on the way to that header. To find those of the expansion takes another expansion,
so they are looked for only if the filter shows any. -/
def eventsFrom (a : Arguments) (f : Filter) (e : Extraction) : List Event :=
  ofDefinitions [] e.definitions ++
    match e.table with
    | .error _ => []
    | .ok table =>
      if (undefinedName? table a.tags a.classes a.options.seed).isSome then []
      else
        let seed := a.options.seed.render a.tags a.classes
        .expanding table.size seed ::
          if f.allows .expansion .debug then ofExpansion (a.options.expander table) seed else []

/-- Writes what was made from the source in the file with the definitions, if it is a header. The
events are given whatever comes of it. -/
def finish {m : Type → Type} [Monad m] [FileAccess m] (a : Arguments) (source : Text)
    (events : List Event) : Except Error Text → m (List Event × Except Failure Unit)
  | .error e => return (events, .error (.faulty a.macrosPath source e))
  | .ok header => do
    let events := events ++ [.writing a.outputPath]
    match ← FileAccess.write a.outputPath (withFinalLineFeed header) with
    | .error e => return (events, .error (.unwritable a.outputPath e))
    | .ok () => return (events, .ok ())

/-- Reads the definitions, makes the header and writes it to its file. -/
def make {m : Type → Type} [Monad m] [FileAccess m] (a : Arguments) (f : Filter) :
    m (List Event × Except Failure Unit) := do
  if ← FileAccess.isFile a.macrosPath then
    match ← FileAccess.read a.macrosPath with
    | .error e => return ([], .error (.unreadable a.macrosPath e))
    | .ok source =>
      let extraction := Extraction.ofSource source
      finish a source (eventsFrom a f extraction) (headerFrom a extraction)
  else return ([], .error (.missingMacros a.macrosPath))

/-! ## The whole run -/

/-- What a run leaves behind, apart from the header. -/
structure Outcome where
  exitCode : UInt8
  stdout : String
  stderr : String
deriving DecidableEq

/-- The name of the command and its version. -/
def versionLine : String := "generate-oo-header 0.1.0\n"

/-- How the command is used. -/
def helpText : String :=
  let shown := Setting.all.map Setting.shown ++ Flag.all.map Flag.shown
  "Usage: generate-oo-header [OPTIONS]\n\nOptions:\n" ++
    String.join (shown.map fun line => s!"  {line}\n")

/-- The log filter of a run: warnings are shown, with the flag for it informative events too, and
what the given rules say. With it comes what is wrong with the rules. -/
def filterOf (a : Arguments) (rules : Option Text) : Filter × List FilterFault :=
  Filter.addAll ⟨[⟨none, .downTo (if a.verbose then .info else .warn)⟩], none⟩ (rules.getD [])

/-- The lines that are shown for what is wrong with log rules. -/
def warnings (faults : List FilterFault) : String :=
  String.join (faults.map fun fault => s!"warning: {fault.message}\n")

/-- Runs the command on arguments. The rules for the log are given apart from them. -/
def run {m : Type → Type} [Monad m] [FileAccess m] (arguments : List Text)
    (rules : Option Text) : m Outcome := do
  match Request.read arguments with
  | .error e => return ⟨2, "", s!"error: {e.message}\n\nFor more information, try '--help'.\n"⟩
  | .ok .help => return ⟨0, helpText, ""⟩
  | .ok .version => return ⟨0, versionLine, ""⟩
  | .ok (.make a) =>
    let (filter, faults) := filterOf a rules
    let (events, result) ← make a filter
    let log := warnings faults ++ Log.render (filter.select events)
    match result with
    | .error failure => return ⟨failure.exitCode, "", s!"{log}Error: {failure.message}\n"⟩
    | .ok () => return ⟨0, "", log⟩

end FlatHeader.Command
