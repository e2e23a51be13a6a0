import FlatHeader.Cleanup
import FlatHeader.Definition.Extraction
import FlatHeader.Expansion
import FlatHeader.Seed

/-!
# Headers

A header is the seed for the requested names, expanded and cleaned up.
-/

namespace FlatHeader

/-- The choices that go into a header, apart from the definitions and the requested names. -/
structure Options where
  selection : Selection := .leftmost
  /-- The greatest number of calls that are expanded. -/
  limit : Nat := defaultLimit
  continuation : ContinuationMode := .join
  seed : SeedTemplate := {}
deriving DecidableEq

/-- The expander that works with these choices on a table. -/
def Options.expander (o : Options) (table : Table) : Expander := ⟨table, o.selection, o.limit⟩

/-- The first name that the seed calls and the table does not define. -/
def undefinedName? (table : Table) (tags classes : List Text) (s : SeedTemplate) : Option Text :=
  (s.calledNames tags classes).find? fun name => !table.contains name

/-- The header for the requested names. Every name that the seed calls has to be defined. -/
def generate (table : Table) (tags classes : List Text) (o : Options) : Except Error Text :=
  match undefinedName? table tags classes o.seed with
  | some name => .error (.malformedDefinition name none .undefined)
  | none =>
    ((o.expander table).expand (o.seed.render tags classes)).map (cleanUp o.continuation)

end FlatHeader
