import FlatHeader.Definition.Basic
import FlatHeader.Error
import FlatHeader.Text.Word

/-!
# Substitution

The body of a definition with its parameters replaced by arguments. Parameters are whole words.
They are replaced one after another, so a parameter must not be a word of an argument that was
put in before it: it would be replaced there as well.
-/

namespace FlatHeader

open Text

namespace Definition

/-- Replaces the parameters in `body`, each by the argument it is paired with. The arguments put in
so far are `earlier`; `name` is the definition's, for the error. -/
def replaceParameters (name : Text) (earlier : List Text) :
    List (Text × Text) → Text → Except Error Text
  | [], body => .ok body
  | (parameter, argument) :: rest, body =>
    match earlier.findIdx? fun a => parameter ∈ words a with
    | some i => .error (.ambiguousSubstitutionOrder name parameter i)
    | none =>
      replaceParameters name (earlier ++ [argument]) rest (replaceWord parameter argument body)

/-- The body with the arguments in place of the parameters. An object-like definition takes no
argument list, which differs from an empty one; as many arguments are needed as there are
parameters. -/
def substitute (d : Definition) (arguments : Option (List Text)) : Except Error Text :=
  match d.parameters, arguments with
  | none, none => .ok d.body
  | some parameters, some arguments =>
    if parameters.length = arguments.length then
      replaceParameters d.name [] (parameters.zip arguments) d.body
    else .error (.arityMismatch d.name parameters.length arguments.length)
  | parameters, arguments =>
    .error (.arityMismatch d.name (parameters.getD []).length (arguments.getD []).length)

end Definition

end FlatHeader
