import FlatHeader.Text.Basic

/-!
# Definitions

A definition names a body of text. It is object-like if it has no parameter list, and function-like
if it has one, which may be empty: `#define NAME body` and `#define NAME() body` are different
definitions.
-/

namespace FlatHeader

/-- A named body of text, with parameters if it is function-like. -/
structure Definition where
  /-- The name under which the definition is called. -/
  name : Text
  /-- The parameter names in order, or `none` for an object-like definition. -/
  parameters : Option (List Text)
  /-- The text that takes the place of a call, before its parameters are replaced. -/
  body : Text
deriving DecidableEq

/-- Whether a definition has a parameter list. -/
def Definition.isFunctionLike (d : Definition) : Bool := d.parameters.isSome

end FlatHeader
