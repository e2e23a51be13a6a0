import FlatHeader.Text.Quoted

/-!
# Errors

Why definitions cannot be extracted, or a text cannot be expanded. Offsets are byte offsets in the
text being expanded, lines count from one, arguments from zero.
-/

namespace FlatHeader

/-- What is wrong with a definition. -/
inductive Malformation where
  /-- A parameter is not an identifier. -/
  | invalidParameter (parameter : Text)
  /-- A parameter occurs twice. -/
  | duplicateParameter (parameter : Text)
  /-- The parameter list has no closing parenthesis on its line. -/
  | unclosedParameterList
  /-- The source ends behind a continuation marker. -/
  | unterminatedBody
  /-- The seed calls a name that has no definition. -/
  | undefined
deriving DecidableEq

/-- Why there is no result. Each cause is about one macro, whose name comes first. -/
inductive Error where
  | malformedDefinition (name : Text) (line : Option Nat) (reason : Malformation)
  /-- The number of arguments is not the number of parameters. -/
  | arityMismatch (name : Text) (required given : Nat)
  /-- An argument contains the name of a parameter that is replaced after it. -/
  | ambiguousSubstitutionOrder (name parameter : Text) (argument : Nat)
  /-- Another parenthesis opens, at the offset, before the arguments are closed. -/
  | nestedParentheses (name : Text) (offset : Nat)
  /-- The call at the offset is never closed. -/
  | unterminatedCall (name : Text) (offset : Nat)
  /-- After the allowed number of expansions there is still a call, here with the text at it. -/
  | didNotTerminate (name : Text) (iterations : Nat) (snippet : Text)
deriving DecidableEq

/-- The sentence that names what is wrong with a definition. -/
def Malformation.message : Malformation → String
  | invalidParameter p => s!"parameter `{String.ofList p}` is not an identifier"
  | duplicateParameter p => s!"parameter `{String.ofList p}` is not unique"
  | unclosedParameterList => "parameter list is not closed"
  | unterminatedBody => "body ends with a line continuation"
  | undefined => "macro is not defined"

namespace Error

/-- The macro an error is about. -/
def macroName : Error → Text
  | malformedDefinition name .. => name
  | arityMismatch name .. => name
  | ambiguousSubstitutionOrder name .. => name
  | nestedParentheses name .. => name
  | unterminatedCall name .. => name
  | didNotTerminate name .. => name

/-- The sentence shown for an error. -/
def message : Error → String
  | malformedDefinition name (some line) reason =>
    s!"malformed definition of {String.ofList name} on line {line}: {reason.message}"
  | malformedDefinition name none reason =>
    s!"malformed definition of {String.ofList name}: {reason.message}"
  | arityMismatch name required given =>
    s!"macro {String.ofList name} requires {required} arguments, {given} given"
  | ambiguousSubstitutionOrder name parameter argument =>
    s!"macro {String.ofList name}: parameter `{String.ofList parameter}` occurs in argument " ++
      s!"{argument}, substitution order is ambiguous"
  | nestedParentheses name offset =>
    s!"macro {String.ofList name}: arguments must not contain parentheses (offset {offset})"
  | unterminatedCall name offset =>
    s!"macro {String.ofList name}: invocation at offset {offset} is missing `)`"
  | didNotTerminate name iterations snippet =>
    s!"expansion did not terminate after {iterations} iterations while expanding " ++
      s!"{String.ofList name}: {String.ofList (Text.quoted snippet)}"

end Error

end FlatHeader
