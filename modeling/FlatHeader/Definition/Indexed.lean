import FlatHeader.Definition.Table
import Std.Data.HashMap

/-!
# Tables with an index

A table as it is stored: the definitions in order, and an index that gives the position of a name
without a search. Defining a name writes to one or both of them; a lookup reads the position first,
then the definition that stands there.
-/

namespace FlatHeader

/-- A text is hashed as the string of its characters. -/
instance : Hashable Text := ⟨fun t => hash (String.ofList t)⟩

/-- Definitions in the order in which their names were first defined, and where each name stands. -/
structure IndexedTable where
  /-- The definitions in order. -/
  definitions : List Definition
  /-- The position of each defined name. -/
  index : Std.HashMap Text Nat

namespace IndexedTable

/-- The table without definitions. -/
def empty : IndexedTable := ⟨[], ∅⟩

/-- Whether the name of `d` was defined before, and the table with `d` as its definition. A defined
name keeps its position, a new one comes last. -/
def define (t : IndexedTable) (d : Definition) : Bool × IndexedTable :=
  match t.index[d.name]? with
  | some i => (true, { t with definitions := t.definitions.set i d })
  | none => (false, ⟨t.definitions ++ [d], t.index.insert d.name t.definitions.length⟩)

/-- The definition of a name. -/
def get? (t : IndexedTable) (name : Text) : Option Definition :=
  t.index[name]?.bind fun i => t.definitions[i]?

/-- Whether a name is defined. -/
def contains (t : IndexedTable) (name : Text) : Bool := t.index.contains name

/-- The number of definitions. -/
def size (t : IndexedTable) : Nat := t.definitions.length

/-- Whether nothing is defined. -/
def isEmpty (t : IndexedTable) : Bool := t.definitions.isEmpty

/-- The table after the given definitions, one after another. -/
def ofList (l : List Definition) : IndexedTable := l.foldl (fun t d => (t.define d).2) empty

/-- The definitions by themselves. -/
def toTable (t : IndexedTable) : Table := .ofList t.definitions

end IndexedTable

end FlatHeader
