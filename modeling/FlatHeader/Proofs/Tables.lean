import FlatHeader.Definition.Table
import Mathlib.Data.List.Induction
import Mathlib.Data.List.Nodup

/-!
# The definitions of a table

No two definitions of a table have the same name, so `get?` finds exactly the definitions that
stand in the list.
-/

namespace FlatHeader.Table

/-- In a list with distinct names, the first definition of a name is the only one. -/
theorem find?_eq_some_iff_of_nodup {l : List Definition} (h : (l.map Definition.name).Nodup)
    {n : Text} {d : Definition} :
    l.find? (·.name == n) = some d ↔ d ∈ l ∧ d.name = n := by
  induction l with
  | nil => simp
  | cons e rest ih =>
    rw [List.map_cons, List.nodup_cons] at h
    by_cases he : e.name = n
    · rw [List.find?_cons_of_pos (by simpa using he), Option.some.injEq]
      constructor
      · intro hd
        rw [← hd]
        exact ⟨List.mem_cons_self, he⟩
      · rintro ⟨hmem, rfl⟩
        -- a second definition of the name would stand in the rest
        rcases List.mem_cons.1 hmem with rfl | hrest
        · rfl
        · exact absurd (he ▸ List.mem_map_of_mem hrest) h.1
    · rw [List.find?_cons_of_neg (by simpa using he), ih h.2]
      constructor
      · rintro ⟨hmem, hn⟩
        exact ⟨List.mem_cons_of_mem e hmem, hn⟩
      · rintro ⟨hmem, rfl⟩
        rcases List.mem_cons.1 hmem with rfl | hrest
        · exact absurd rfl he
        · exact ⟨hrest, rfl⟩

theorem get?_eq_some_iff (t : Table) {n : Text} {d : Definition} :
    t.get? n = some d ↔ d ∈ t.definitions ∧ d.name = n :=
  find?_eq_some_iff_of_nodup t.nodup

theorem mem_names_of_get? {t : Table} {n : Text} {d : Definition} (h : t.get? n = some d) :
    n ∈ t.definitions.map Definition.name := by
  obtain ⟨hd, rfl⟩ := t.get?_eq_some_iff.1 h
  exact List.mem_map_of_mem hd

/-! ## Where the definitions come from -/

theorem mem_of_mem_place {d e : Definition} {l : List Definition} (h : e ∈ place d l) :
    e = d ∨ e ∈ l := by
  induction l with
  | nil => exact .inl (List.mem_singleton.1 h)
  | cons f rest ih =>
    unfold place at h
    split at h
    · rcases List.mem_cons.1 h with rfl | h
      · exact .inl rfl
      · exact .inr (List.mem_cons_of_mem f h)
    · rcases List.mem_cons.1 h with rfl | h
      · exact .inr List.mem_cons_self
      · exact (ih h).imp_right (List.mem_cons_of_mem f)

theorem mem_of_mem_foldl_insert {d : Definition} {l : List Definition} {t : Table}
    (h : d ∈ (l.foldl insert t).definitions) : d ∈ t.definitions ∨ d ∈ l := by
  induction l generalizing t with
  | nil => exact .inl h
  | cons e rest ih =>
    rw [List.foldl_cons] at h
    rcases ih h with h | h
    · rcases mem_of_mem_place h with rfl | h
      · exact .inr List.mem_cons_self
      · exact .inl h
    · exact .inr (List.mem_cons_of_mem e h)

/-- A table holds only definitions that it was built from. -/
theorem mem_of_mem_ofList {d : Definition} {l : List Definition}
    (h : d ∈ (ofList l).definitions) : d ∈ l :=
  (mem_of_mem_foldl_insert h).resolve_left List.not_mem_nil

/-! ## Definitions with new names -/

theorem place_of_not_mem {d : Definition} {l : List Definition}
    (h : d.name ∉ l.map Definition.name) : place d l = l ++ [d] := by
  induction l with
  | nil => rfl
  | cons e rest ih =>
    rw [List.map_cons, List.mem_cons, not_or] at h
    rw [place, if_neg (Ne.symm h.1), ih h.2]
    rfl

theorem definitions_foldl_insert {l : List Definition} {t : Table}
    (h : ((t.definitions ++ l).map Definition.name).Nodup) :
    (l.foldl insert t).definitions = t.definitions ++ l := by
  induction l generalizing t with
  | nil => rw [List.append_nil]; rfl
  | cons d rest ih =>
    have hd : d.name ∉ t.definitions.map Definition.name := by
      rw [List.map_append, List.nodup_append'] at h
      exact fun hmem => h.2.2 hmem (List.mem_map_of_mem List.mem_cons_self)
    have hinsert : (t.insert d).definitions = t.definitions ++ [d] := place_of_not_mem hd
    rw [List.foldl_cons, ih (by rw [hinsert, List.append_assoc]; exact h), hinsert,
      List.append_assoc]
    rfl

/-- Definitions with distinct names are all kept, in order. -/
theorem ofList_of_nodup {l : List Definition} (h : (l.map Definition.name).Nodup) :
    ofList l = ⟨l, h⟩ := by
  have hl : (ofList l).definitions = l := definitions_foldl_insert h
  rw [mk.injEq]
  exact hl

/-! ## Tables put into tables -/

theorem place_place_of_eq {d e : Definition} (h : e.name = d.name) (l : List Definition) :
    place d (place e l) = place d l := by
  induction l with
  | nil =>
    show place d [e] = [d]
    rw [place, if_pos h]
  | cons f rest ih =>
    by_cases hf : f.name = d.name
    · rw [place, if_pos (hf.trans h.symm), place, place, if_pos h, if_pos hf]
    · rw [place, if_neg (by rwa [h]), place, place, if_neg hf, if_neg hf, ih]

/-- A definition that is placed keeps its position, so it makes no difference whether a new one of
another name comes before it or behind it. -/
theorem place_comm {d e : Definition} (hne : e.name ≠ d.name) {l : List Definition}
    (hd : d.name ∈ l.map Definition.name) : place d (place e l) = place e (place d l) := by
  induction l with
  | nil => exact absurd hd List.not_mem_nil
  | cons f rest ih =>
    by_cases he : f.name = e.name
    · have hfd : f.name ≠ d.name := fun h => hne (he.symm.trans h)
      rw [place, if_pos he, place, if_neg hne, place, if_neg hfd, place, if_pos he]
    · by_cases hf : f.name = d.name
      · rw [place, if_neg he, place, if_pos hf, place, if_pos hf, place, if_neg (Ne.symm hne)]
      · rw [List.map_cons, List.mem_cons] at hd
        rw [place, if_neg he, place, if_neg hf, place, if_neg hf, place, if_neg he,
          ih (hd.resolve_left (Ne.symm hf))]

theorem insert_insert_of_eq {d e : Definition} (h : e.name = d.name) (t : Table) :
    (t.insert e).insert d = t.insert d :=
  (mk.injEq ..).mpr (place_place_of_eq h t.definitions)

/-- A defined name can be defined anew before definitions of other names or behind them. -/
theorem insert_foldl_insert {d : Definition} {l : List Definition} {t : Table}
    (hl : d.name ∉ l.map Definition.name) (ht : d.name ∈ t.definitions.map Definition.name) :
    (l.foldl insert t).insert d = l.foldl insert (t.insert d) := by
  induction l generalizing t with
  | nil => rfl
  | cons e rest ih =>
    rw [List.map_cons, List.mem_cons, not_or] at hl
    have hcomm : (t.insert e).insert d = (t.insert d).insert e :=
      (mk.injEq ..).mpr (place_comm (Ne.symm hl.1) ht)
    rw [List.foldl_cons, List.foldl_cons, ih hl.2 ((mem_names_place e _ _).2 (.inl ht)), hcomm]

/-- Defining what a list with `d` placed in it holds is the same as defining what the list holds,
then `d`. -/
theorem foldl_insert_place {d : Definition} {l : List Definition}
    (hl : (l.map Definition.name).Nodup) (t : Table) :
    (place d l).foldl insert t = (l.foldl insert t).insert d := by
  induction l generalizing t with
  | nil => rfl
  | cons e rest ih =>
    rw [List.map_cons, List.nodup_cons] at hl
    by_cases he : e.name = d.name
    · have hdefined : d.name ∈ (t.insert e).definitions.map Definition.name :=
        (mem_names_place e _ _).2 (.inr he.symm)
      rw [place, if_pos he, List.foldl_cons, List.foldl_cons,
        insert_foldl_insert (he ▸ hl.1) hdefined, insert_insert_of_eq he]
    · rw [place, if_neg he, List.foldl_cons, List.foldl_cons, ih hl.2]

/-- What was defined one after another can be put into a table as a whole: only the last definition
of each name counts, at the position of the first. -/
theorem foldl_insert_definitions_ofList (l : List Definition) (t : Table) :
    (ofList l).definitions.foldl insert t = l.foldl insert t := by
  induction l using List.reverseRecOn with
  | nil => rfl
  | append_singleton l d ih =>
    have hlast : (ofList (l ++ [d])).definitions = place d (ofList l).definitions := by
      unfold ofList
      rw [List.foldl_concat]
      rfl
    rw [hlast, foldl_insert_place (ofList l).nodup, ih, List.foldl_concat]

end FlatHeader.Table
