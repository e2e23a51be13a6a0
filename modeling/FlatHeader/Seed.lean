import FlatHeader.Text.Basic

/-!
# The seed

The text that is expanded into a header: an include directive, then one call for each requested
name, each on a line of its own, tags before classes.
-/

namespace FlatHeader

/-- What the seed is made of. -/
structure SeedTemplate where
  /-- The directive on the first line. -/
  directive : Text := "#include <darma.h>".toList
  /-- The name that is called for each tag. -/
  tagMacro : Text := "DARMA_OO_DEFINE_TAG".toList
  /-- The name that is called for each class. -/
  classMacro : Text := "DARMA_OO_DECLARE_CLASS".toList
deriving DecidableEq

namespace SeedTemplate

/-- A line that calls `name` with one argument. -/
def callLine (name argument : Text) : Text := name ++ '(' :: argument ++ [')', ';', '\n']

/-- The seed for the given tags and classes. -/
def render (s : SeedTemplate) (tags classes : List Text) : Text :=
  s.directive ++ '\n' ::
    (tags.flatMap (callLine s.tagMacro) ++ classes.flatMap (callLine s.classMacro))

/-- The names that the seed for the given tags and classes calls. -/
def calledNames (s : SeedTemplate) (tags classes : List Text) : List Text :=
  (if tags.isEmpty then [] else [s.tagMacro]) ++ (if classes.isEmpty then [] else [s.classMacro])

end SeedTemplate

end FlatHeader
