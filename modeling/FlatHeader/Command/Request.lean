import FlatHeader.Command.Arguments

/-!
# Requests

A request is read from the arguments one after another, and the first fault ends the reading. A
value that stands in an argument of its own is looked at only when the next setting or flag comes,
or at the end: another fault before that is reported in its place.
-/

namespace FlatHeader.Command

/-- What the command is to do. -/
inductive Request where
  /-- To make a header. -/
  | make (arguments : Arguments)
  /-- To show how the command is used. -/
  | help
  /-- To show its name and version. -/
  | version
deriving DecidableEq

/-- How far the arguments have been read. -/
structure Reading where
  arguments : Arguments
  /-- The last setting, if it has yet to be looked at, with its value if that has been read. -/
  waiting : Option (Setting × Option Text)

/-- The state of reading after an argument: some more may be read, or the request is complete. -/
inductive Progress where
  | more (reading : Reading)
  | complete (request : Request)

namespace Reading

/-- Looks at the setting that has been waiting. -/
def settle (r : Reading) : Except UsageError Arguments :=
  match r.waiting with
  | none => .ok r.arguments
  | some (s, none) => .error (.missingValue s)
  | some (s, some value) => r.arguments.set s value

/-- Reads a setting, which waits for its value if it does not bring one along. -/
def readSetting (r : Reading) (s : Setting) (value : Option Text) : Except UsageError Reading := do
  let a ← r.settle
  match value with
  | none => return ⟨a, some (s, none)⟩
  | some value => return ⟨← a.set s value, none⟩

/-- Reads a flag. -/
def readFlag (r : Reading) (f : Flag) : Except UsageError Progress := do
  let a ← r.settle
  match f with
  | .keepLineBreaks =>
    if a.keepLineBreaks then throw (.repeatedFlag f)
    return .more ⟨{ a with keepLineBreaks := true }, none⟩
  | .verbose =>
    if a.verbose then throw (.repeatedFlag f)
    return .more ⟨{ a with verbose := true }, none⟩
  | .help => return .complete .help
  | .version => return .complete .version

/-- Reads an argument behind two dashes. Behind an equals sign there is a value. -/
def readName (r : Reading) (t : Text) : Except UsageError Progress :=
  let name := t.takeWhile (· != '=')
  let value := (t.dropWhile (· != '=')).tail?
  match Setting.all.find? (·.name.toList == name), Flag.all.find? (·.name.toList == name) with
  | some s, _ => (r.readSetting s value).map .more
  | none, some f =>
    match value with
    | none => r.readFlag f
    | some value => .error (.unexpectedValue f value)
  | none, none => .error (.unexpectedArgument ('-' :: '-' :: name))

/-- The value of a setting right behind its letter. It may have an equals sign in front. -/
def attachedValue : Text → Option Text
  | [] => none
  | '=' :: value => some value
  | value => some value

/-- Reads the letters behind one dash. They are flags up to the first setting, and what stands
behind that is its value. -/
def readLetters (r : Reading) : Text → Except UsageError Progress
  | [] => .ok (.more r)
  | c :: t =>
    match Setting.all.find? (·.letter? == some c), Flag.all.find? (·.letter? == some c) with
    | some s, _ => (r.readSetting s (attachedValue t)).map .more
    | none, some f =>
      match r.readFlag f with
      | .ok (.more r) => readLetters r t
      | result => result
    | none, none => .error (.unexpectedArgument ['-', c])

/-- Reads an argument other than two dashes. A single dash and what starts with none is a value, if
a setting waits for one. -/
def readArgument (r : Reading) : Text → Except UsageError Progress
  | '-' :: '-' :: t => r.readName t
  | '-' :: c :: t => r.readLetters (c :: t)
  | value =>
    match r.waiting with
    | some (s, none) => .ok (.more ⟨r.arguments, some (s, some value)⟩)
    | _ => .error (.unexpectedArgument value)

/-- Reads arguments. Two dashes say that no settings and flags follow, so nothing can. -/
def readAll (r : Reading) : List Text → Except UsageError Request
  | [] => r.settle.map .make
  | argument :: rest =>
    if argument = ['-', '-'] then
      match rest with
      | [] => r.settle.map .make
      | next :: _ => .error (.unexpectedArgument next)
    else
      match r.readArgument argument with
      | .error e => .error e
      | .ok (.complete request) => .ok request
      | .ok (.more r) => readAll r rest

end Reading

/-- The request that arguments make. -/
def Request.read (arguments : List Text) : Except UsageError Request :=
  Reading.readAll ⟨{}, none⟩ arguments

end FlatHeader.Command
