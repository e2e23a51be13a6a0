import FlatHeader.Definition.Indexed
import FlatHeader.Definition.Table
import FlatHeader.Error
import FlatHeader.Text.Line
import FlatHeader.Text.Word

/-!
# Extracting definitions from source text

A definition is a line `#define NAME body` or `#define NAME(p, q) body`; all other lines are
skipped. As long as a line of the body ends with a backslash, blanks aside, the body goes on on the
next line. Extraction walks over the lines once, with at most one definition open, and stops at the
first fault.
-/

namespace FlatHeader

open Text

/-! ## The definition line -/

/-- The name a definition line defines and the text behind the name, or `none` if the line is no
definition. -/
def definedName? (line : Text) : Option (Text × Text) :=
  match skipBlanks line with
  | '#' :: t =>
    match "define".toList.isPrefixOf? (skipBlanks t) with
    -- at least one blank stands before the name
    | some (c :: t) => if isBlank c then identifier? (skipBlanks t) else none
    | _ => none
  | _ => none

/-- The parameters that the pieces of a parameter list declare, or the fault of the first piece
that declares none. `earlier` holds the parameters before them. -/
def checkParameters (earlier : List Text) : List Text → Except Malformation (List Text)
  | [] => .ok earlier
  | p :: rest =>
    if !isIdentifier p then .error (.invalidParameter p)
    else if p ∈ earlier then .error (.duplicateParameter p)
    else checkParameters (earlier ++ [p]) rest

/-- Reads a parameter list, the opening parenthesis taken off: its parameters and the text behind
it. The list has to be closed before the line ends; a list of nothing declares no parameter. -/
def readParameters (t : Text) : Except Malformation (List Text × Text) :=
  let inList := fun c => c != ')' && c != '\n'
  match t.dropWhile inList with
  | ')' :: rest =>
    let pieces := (splitOn ',' (t.takeWhile inList)).map trim
    if pieces = [[]] then .ok ([], rest) else (checkParameters [] pieces).map (·, rest)
  | _ => .error .unclosedParameterList

/-- Reads what follows the name on a definition line: the parameters, if there are any, and the
rest. Only a parenthesis right behind the name opens a parameter list. -/
def readSignature : Text → Except Malformation (Option (List Text) × Text)
  | '(' :: t => (readParameters t).map fun (parameters, rest) => (some parameters, rest)
  | t => .ok (none, t)

/-! ## The body -/

/-- Whether a line ends with a continuation marker: a backslash, then nothing but blanks. -/
def isContinued (line : Text) : Bool :=
  (dropEndWhile isBlank (withoutLineBreak line)).getLast? == some '\\'

/-- The part of a body that stands on the definition line. It starts at the first character that is
no blank. If the line is continued and a backslash is the first thing on it, it is nothing. -/
def firstBodyPart (rest : Text) : Text :=
  if isContinued rest && (trimStart rest).head? == some '\\' then [] else skipBlanks rest

/-- A definition whose body is being read. -/
structure OpenDefinition where
  /-- The number of the definition line. -/
  line : Nat
  name : Text
  parameters : Option (List Text)
  /-- The body so far, line breaks included. -/
  body : Text

/-- The definition, when the last line of its body has been read. -/
def OpenDefinition.close (d : OpenDefinition) : Definition :=
  ⟨d.name, d.parameters, withoutLineBreak d.body⟩

/-! ## The whole source -/

/-- A definition with the number of the line that it starts on. -/
structure Located where
  line : Nat
  definition : Definition
deriving DecidableEq

/-- What a source holds: its definitions up to the first fault, and that fault if there is one. -/
structure Extraction where
  definitions : List Located
  fault : Option Error
deriving DecidableEq

namespace Extraction

/-- An extraction with one more definition in front. -/
def cons (d : Located) (e : Extraction) : Extraction := ⟨d :: e.definitions, e.fault⟩

/-- Goes over the lines from number `n` on, with the definition that is still open, if any. -/
def ofLines (n : Nat) : Option OpenDefinition → List Text → Extraction
  | none, [] => ⟨[], none⟩
  | some d, [] => ⟨[], some (.malformedDefinition d.name (some d.line) .unterminatedBody)⟩
  | some d, line :: rest =>
    let d := { d with body := d.body ++ line }
    if isContinued line then ofLines (n + 1) (some d) rest
    else cons ⟨d.line, d.close⟩ (ofLines (n + 1) none rest)
  | none, line :: rest =>
    match definedName? line with
    | none => ofLines (n + 1) none rest
    | some (name, t) =>
      match readSignature t with
      | .error fault => ⟨[], some (.malformedDefinition name (some n) fault)⟩
      | .ok (parameters, t) =>
        let d : OpenDefinition := ⟨n, name, parameters, firstBodyPart t⟩
        if isContinued t then ofLines (n + 1) (some d) rest
        else cons ⟨n, d.close⟩ (ofLines (n + 1) none rest)

/-- What the source holds. -/
def ofSource (source : Text) : Extraction := ofLines 1 none (lines source)

/-- The table of what was extracted, if there was no fault. A later definition of a name wins. -/
def table (e : Extraction) : Except Error Table :=
  match e.fault with
  | some fault => .error fault
  | none => .ok (.ofList (e.definitions.map Located.definition))

end Extraction

/-- The table of the definitions in a source. -/
def Table.parse (source : Text) : Except Error Table := (Extraction.ofSource source).table

/-- The table of the definitions in a source, with its index. -/
def IndexedTable.parse (source : Text) : Except Error IndexedTable :=
  let e := Extraction.ofSource source
  match e.fault with
  | some fault => .error fault
  | none => .ok (.ofList (e.definitions.map Located.definition))

end FlatHeader
