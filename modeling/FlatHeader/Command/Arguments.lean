import FlatHeader.Files.Access
import FlatHeader.Header
import FlatHeader.Text.Controls
import FlatHeader.Text.Number

/-!
# Arguments of the command

What can be said on the command line: settings, which take a value, and flags, which take none.
Tags and classes may be given many times, every other setting and every flag once.
-/

namespace FlatHeader.Command

open Text

/-- An argument that takes a value. -/
inductive Setting where
  | tag
  | cls
  | output
  | folder
  | macros
  | root
  | selection
  | limit
deriving DecidableEq

namespace Setting

/-- All settings. -/
def all : List Setting := [tag, cls, output, folder, macros, root, selection, limit]

/-- The name behind two dashes. -/
def name : Setting → String
  | tag => "tag"
  | cls => "cls"
  | output => "output"
  | folder => "folder"
  | macros => "macros"
  | root => "root"
  | selection => "selection"
  | limit => "max-iterations"

/-- The letter behind one dash. -/
def letter? : Setting → Option Char
  | tag => some 't'
  | cls => some 'c'
  | output => some 'o'
  | folder => some 'f'
  | macros => some 'm'
  | root => none
  | selection => none
  | limit => none

/-- What stands for the value where a setting is shown. -/
def placeholder : Setting → String
  | tag => "TAG"
  | cls => "CLASS"
  | output => "FILE"
  | folder => "PATH"
  | macros => "FILE"
  | root => "PATH"
  | selection => "SELECTION"
  | limit => "N"

/-- How a setting is shown. -/
def shown (s : Setting) : String := s!"--{s.name} <{s.placeholder}>"

end Setting

/-- An argument that takes no value. -/
inductive Flag where
  | keepLineBreaks
  | verbose
  | help
  | version
deriving DecidableEq

namespace Flag

/-- All flags. -/
def all : List Flag := [keepLineBreaks, verbose, help, version]

/-- The name behind two dashes. -/
def name : Flag → String
  | keepLineBreaks => "keep-line-breaks"
  | verbose => "verbose"
  | help => "help"
  | version => "version"

/-- The letter behind one dash. -/
def letter? : Flag → Option Char
  | keepLineBreaks => none
  | verbose => some 'v'
  | help => some 'h'
  | version => some 'V'

/-- How a flag is shown. -/
def shown (f : Flag) : String := s!"--{f.name}"

end Flag

/-! ## What is wrong with arguments -/

/-- Why the arguments cannot be understood. -/
inductive UsageError where
  /-- There is no such argument, or it stands where none can stand. -/
  | unexpectedArgument (written : Text)
  /-- A flag is given a value. -/
  | unexpectedValue (flag : Flag) (value : Text)
  | missingValue (setting : Setting)
  | repeatedSetting (setting : Setting)
  | repeatedFlag (flag : Flag)
  /-- The value is none of the words that a setting knows. -/
  | unknownWord (setting : Setting) (value : Text)
  | invalidNumber (setting : Setting) (value : Text) (fault : NumberFault)
deriving DecidableEq

/-- What is shown of an argument. -/
def shownArgument (written : Text) : String := String.ofList (withoutControls written)

/-- The sentence shown for an error. -/
def UsageError.message : UsageError → String
  | unexpectedArgument written => s!"unexpected argument '{shownArgument written}' found"
  | unexpectedValue flag value =>
    s!"unexpected value '{shownArgument value}' for '{flag.shown}' found; no more were expected"
  | missingValue setting => s!"a value is required for '{setting.shown}' but none was supplied"
  | repeatedSetting setting => s!"the argument '{setting.shown}' cannot be used multiple times"
  | repeatedFlag flag => s!"the argument '{flag.shown}' cannot be used multiple times"
  | unknownWord setting value => s!"invalid value '{shownArgument value}' for '{setting.shown}'"
  | invalidNumber setting value fault =>
    s!"invalid value '{shownArgument value}' for '{setting.shown}': {fault.message}"

/-! ## The arguments of a run -/

/-- What the command is asked for. A setting that is not given is `none`. -/
structure Arguments where
  tags : List Text := []
  classes : List Text := []
  output : Option Text := none
  folder : Option Text := none
  macros : Option Text := none
  root : Option Text := none
  selection : Option Selection := none
  limit : Option Nat := none
  keepLineBreaks : Bool := false
  verbose : Bool := false
deriving DecidableEq

namespace Arguments

/-- The selection of a given name. -/
def selectionOfName? (name : Text) : Option Selection :=
  if name = "leftmost".toList then some .leftmost
  else if name = "definition-order".toList then some .definitionOrder
  else none

/-- A path is never empty. -/
def checkPath (s : Setting) (value : Text) : Except UsageError Text :=
  if value = [] then .error (.missingValue s) else .ok value

/-- The arguments with a value for one more setting. -/
def set (a : Arguments) (s : Setting) (value : Text) : Except UsageError Arguments :=
  match s with
  | .tag => .ok { a with tags := a.tags ++ [value] }
  | .cls => .ok { a with classes := a.classes ++ [value] }
  | .output => once a.output.isSome do return { a with output := ← checkPath s value }
  | .folder => once a.folder.isSome do return { a with folder := ← checkPath s value }
  | .macros => once a.macros.isSome do return { a with macros := ← checkPath s value }
  | .root => once a.root.isSome do return { a with root := ← checkPath s value }
  | .selection => once a.selection.isSome <|
    if value = [] then .error (.missingValue s)
    else match selectionOfName? value with
      | some selection => .ok { a with selection := some selection }
      | none => .error (.unknownWord s value)
  | .limit => once a.limit.isSome <|
    match readNumber value with
    | .ok n => .ok { a with limit := some n }
    | .error fault => .error (.invalidNumber s value fault)
where
  /-- Refuses a setting that was given before, whatever its value is now. -/
  once (given : Bool) (result : Except UsageError Arguments) : Except UsageError Arguments :=
    if given then .error (.repeatedSetting s) else result

/-- The file with the definitions. -/
def macrosPath (a : Arguments) : Text :=
  a.macros.getD (joinPaths (a.root.getD ['.']) "src/include/darma/impl/oo/macros.h".toList)

/-- The name of the header if none is given: after the first tag if there are only tags, and after
the first class if there are only classes. -/
def defaultName (a : Arguments) : Text :=
  match a.tags, a.classes with
  | tag :: _, [] => "ootag_".toList ++ tag ++ ".generated.h".toList
  | [], cls :: _ => "oocls_".toList ++ cls ++ ".generated.h".toList
  | _, _ => "oo.generated.h".toList

/-- The file with the header. -/
def outputPath (a : Arguments) : Text :=
  a.output.getD (joinPaths (a.folder.getD ['.']) a.defaultName)

/-- The choices that go into the header. -/
def options (a : Arguments) : Options where
  selection := a.selection.getD .leftmost
  limit := a.limit.getD defaultLimit
  continuation := if a.keepLineBreaks then .keepLineBreak else .join

end Arguments

end FlatHeader.Command
