import FlatHeader.Definition.Basic

/-!
# Tables of definitions

A table holds at most one definition of each name, in the order in which the names were first
defined. A later definition of a name takes the place of the earlier one.
-/

namespace FlatHeader

/-- Definitions with distinct names, in the order in which their names were first defined. -/
structure Table where
  /-- The definitions in order. -/
  definitions : List Definition
  /-- No name is defined twice. -/
  nodup : (definitions.map Definition.name).Nodup
deriving DecidableEq

namespace Table

/-- The list with `d` in the place of the definition of the same name, or at the end. -/
def place (d : Definition) : List Definition → List Definition
  | [] => [d]
  | e :: rest => if e.name = d.name then d :: rest else e :: place d rest

/-- Placing a definition adds its name and no other. -/
theorem mem_names_place (d : Definition) (n : Text) (l : List Definition) :
    n ∈ (place d l).map Definition.name ↔ n ∈ l.map Definition.name ∨ n = d.name := by
  induction l with
  | nil => simp [place]
  | cons e rest ih =>
    unfold place
    split
    · next h => simp only [List.map_cons, List.mem_cons, h]; grind
    · simp only [List.map_cons, List.mem_cons, ih, or_assoc]

/-- Placing a definition keeps the names distinct. -/
theorem nodup_names_place (d : Definition) {l : List Definition}
    (h : (l.map Definition.name).Nodup) : ((place d l).map Definition.name).Nodup := by
  induction l with
  | nil => simp [place]
  | cons e rest ih =>
    rw [List.map_cons, List.nodup_cons] at h
    unfold place
    split
    · next hd => rw [List.map_cons, List.nodup_cons, ← hd]; exact h
    · next hd =>
      rw [List.map_cons, List.nodup_cons, mem_names_place]
      exact ⟨fun hm => hm.elim h.1 hd, ih h.2⟩

/-- The table without definitions. -/
def empty : Table := ⟨[], List.nodup_nil⟩

/-- The definition of a name. -/
def get? (t : Table) (name : Text) : Option Definition :=
  t.definitions.find? (·.name == name)

/-- Whether a name is defined. -/
def contains (t : Table) (name : Text) : Bool := (t.get? name).isSome

/-- The place of a name in the order of first definition. -/
def indexOf? (t : Table) (name : Text) : Option Nat :=
  t.definitions.findIdx? (·.name == name)

/-- The number of defined names. -/
def size (t : Table) : Nat := t.definitions.length

/-- Whether nothing is defined. -/
def isEmpty (t : Table) : Bool := t.definitions.isEmpty

/-- The table with `d` as the definition of its name. -/
def insert (t : Table) (d : Definition) : Table :=
  ⟨place d t.definitions, nodup_names_place d t.nodup⟩

/-- Whether the name of `d` was defined before, and the table with `d` as its definition. -/
def containsThenInsert (t : Table) (d : Definition) : Bool × Table :=
  (t.contains d.name, t.insert d)

/-- The table after the given definitions, one after another. -/
def ofList (l : List Definition) : Table := l.foldl insert empty

end Table

end FlatHeader
