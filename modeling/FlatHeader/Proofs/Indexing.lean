import FlatHeader.Proofs.Concatenation

/-!
# Tables with an index

A table with an index holds its names twice: in the list of its definitions, and in a map that gives
the position of each. A definition that is added changes the list, the map or both, and the two stay
in step (`IndexedTable.Represents.define`). So a table with an index gives what the table without
one gives, and after any history of definitions this is what the history says: the last definition
of each name, in the order of the first ones (`IndexedTable.records_ofList`).
-/

namespace FlatHeader

open Text

/-! ## What a history of definitions leaves -/

namespace Table

variable {d : Definition} {l : List Definition}

/-- A definition of a name that is there takes the place of the one before it. -/
theorem place_of_getElem? {i : ℕ} (hl : (l.map Definition.name).Nodup)
    (hi : (l.map Definition.name)[i]? = some d.name) : place d l = l.set i d := by
  induction l generalizing i with
  | nil => simp at hi
  | cons e rest ih =>
    rw [List.map_cons, List.nodup_cons] at hl
    rw [List.map_cons] at hi
    cases i with
    | zero =>
      rw [List.getElem?_cons_zero, Option.some.injEq] at hi
      rw [place, if_pos hi, List.set_cons_zero]
    | succ i =>
      rw [List.getElem?_cons_succ] at hi
      -- the name stands in the rest, so it is not the first one
      have hne : e.name ≠ d.name := fun h => hl.1 (h ▸ List.mem_of_getElem? hi)
      rw [place, if_neg hne, ih hl.2 hi, List.set_cons_succ]

theorem names_place_of_mem (h : d.name ∈ l.map Definition.name) :
    (place d l).map Definition.name = l.map Definition.name := by
  induction l with
  | nil => exact absurd h List.not_mem_nil
  | cons e rest ih =>
    rw [place]
    by_cases he : e.name = d.name
    · rw [if_pos he, List.map_cons, List.map_cons, he]
    · rw [List.map_cons, List.mem_cons] at h
      rw [if_neg he, List.map_cons, List.map_cons, ih (h.resolve_left (Ne.symm he))]

theorem ofList_concat (history : List Definition) (d : Definition) :
    ofList (history ++ [d]) = (ofList history).insert d := by
  unfold ofList
  rw [List.foldl_concat]

/-- The names stand in the order in which they were first defined. -/
theorem names_ofList (history : List Definition) :
    (ofList history).definitions.map Definition.name =
      (history.map Definition.name).eraseDups := by
  induction history using List.reverseRecOn with
  | nil => rfl
  | append_singleton history d ih =>
    have hdefined : d.name ∈ (ofList history).definitions.map Definition.name ↔
        d.name ∈ history.map Definition.name := by
      rw [ih, List.mem_eraseDups]
    rw [ofList_concat, List.map_append, List.map_singleton, List.eraseDups_append, ← ih]
    show (place d (ofList history).definitions).map Definition.name = _
    by_cases hd : d.name ∈ history.map Definition.name
    · have hremove : [d.name].removeAll (history.map Definition.name) = [] := by
        simpa [List.removeAll] using hd
      rw [names_place_of_mem (hdefined.2 hd), hremove, List.eraseDups_nil, List.append_nil]
    · have hremove : [d.name].removeAll (history.map Definition.name) = [d.name] := by
        simpa [List.removeAll] using hd
      rw [place_of_not_mem fun h => hd (hdefined.1 h), List.map_append, hremove]
      rfl

theorem find?_place (d : Definition) (l : List Definition) (n : Text) :
    (place d l).find? (·.name == n) = if d.name = n then some d else l.find? (·.name == n) := by
  by_cases hn : d.name = n
  · rw [if_pos hn]
    induction l with
    | nil => rw [place, List.find?_cons_of_pos (by simpa using hn)]
    | cons e rest ih =>
      rw [place]
      by_cases he : e.name = d.name
      · rw [if_pos he, List.find?_cons_of_pos (by simpa using hn)]
      · rw [if_neg he, List.find?_cons_of_neg (by simpa using fun h => he (h.trans hn.symm)), ih]
  · rw [if_neg hn]
    induction l with
    | nil => rw [place, List.find?_cons_of_neg (by simpa using hn)]
    | cons e rest ih =>
      rw [place]
      by_cases he : e.name = d.name
      · have hen : e.name ≠ n := fun h => hn (he.symm.trans h)
        rw [if_pos he, List.find?_cons_of_neg (by simpa using hn),
          List.find?_cons_of_neg (by simpa using hen)]
      · rw [if_neg he, List.find?_cons, List.find?_cons, ih]

theorem get?_insert (t : Table) (d : Definition) (n : Text) :
    (t.insert d).get? n = if d.name = n then some d else t.get? n := find?_place d t.definitions n

/-- A name means the last definition it was given. -/
theorem get?_ofList (history : List Definition) (n : Text) :
    (ofList history).get? n = history.reverse.find? (·.name == n) := by
  induction history using List.reverseRecOn with
  | nil => rfl
  | append_singleton history d ih =>
    rw [ofList_concat, get?_insert, ih, List.reverse_concat]
    by_cases hn : d.name = n
    · rw [if_pos hn, List.find?_cons_of_pos (by simpa using hn)]
    · rw [if_neg hn, List.find?_cons_of_neg (by simpa using hn)]

/-- The position of a name is the only one at which it stands. -/
theorem indexOf?_eq_some_iff (t : Table) (n : Text) (i : ℕ) :
    t.indexOf? n = some i ↔ (t.definitions.map Definition.name)[i]? = some n := by
  unfold indexOf?
  rw [List.findIdx?_eq_some_iff_getElem, List.getElem?_eq_some_iff]
  constructor
  · rintro ⟨hi, hname, -⟩
    exact ⟨by rwa [List.length_map], by simpa using hname⟩
  · rintro ⟨hi, hname⟩
    have hi' : i < t.definitions.length := by rwa [List.length_map] at hi
    refine ⟨hi', by simpa using hname, fun j hj hfirst => ?_⟩
    -- an earlier position of the name would be the same one
    have hj' := hj.trans hi
    have hsame : (t.definitions.map Definition.name)[j] =
        (t.definitions.map Definition.name)[i] := by
      rw [hname]
      simpa using hfirst
    rw [t.nodup.getElem_inj_iff] at hsame
    omega

theorem contains_iff (t : Table) (n : Text) :
    t.contains n = true ↔ n ∈ t.definitions.map Definition.name := by
  unfold contains get?
  rw [List.find?_isSome, List.mem_map]
  simp

end Table

/-! ## The list and the index -/

namespace IndexedTable

/-- The table `s` with an index holds the definitions of the table `t`, and the index gives the
positions of their names. -/
structure Represents (s : IndexedTable) (t : Table) : Prop where
  definitions_eq : s.definitions = t.definitions
  index_iff : ∀ (n : Text) (i : ℕ),
    s.index[n]? = some i ↔ (t.definitions.map Definition.name)[i]? = some n

theorem represents_empty : empty.Represents .empty :=
  ⟨rfl, fun n i => by simp [empty, Table.empty]⟩

variable {s : IndexedTable} {t : Table}

namespace Represents

/-- A name that has no position is not defined. -/
theorem index_eq_none_iff (h : s.Represents t) (n : Text) :
    s.index[n]? = none ↔ n ∉ t.definitions.map Definition.name := by
  rw [Option.eq_none_iff_forall_ne_some, List.mem_iff_getElem?, not_exists]
  exact forall_congr' fun i => not_congr (h.index_iff n i)

/-- Adding a definition keeps the list and the index in step, and it is known from the index whether
the name was defined before. -/
theorem define (h : s.Represents t) (d : Definition) :
    (s.define d).1 = (t.containsThenInsert d).1 ∧
      (s.define d).2.Represents (t.containsThenInsert d).2 := by
  unfold IndexedTable.define
  cases hindex : s.index[d.name]? with
  | some i =>
    -- the name keeps its position, and the names stay as they are
    have hi := (h.index_iff d.name i).1 hindex
    have hmem := List.mem_of_getElem? hi
    refine ⟨((t.contains_iff d.name).2 hmem).symm, ?_, fun n j => ?_⟩
    · show s.definitions.set i d = Table.place d t.definitions
      rw [Table.place_of_getElem? t.nodup hi, h.definitions_eq]
    · show s.index[n]? = some j ↔ ((Table.place d t.definitions).map Definition.name)[j]? = some n
      rw [Table.names_place_of_mem hmem]
      exact h.index_iff n j
  | none =>
    -- the new name stands behind the others, where the index says
    have hnew := (h.index_eq_none_iff d.name).1 hindex
    refine ⟨(Bool.eq_false_iff.2 fun hc => hnew ((t.contains_iff d.name).1 hc)).symm, ?_,
      fun n j => ?_⟩
    · show s.definitions ++ [d] = Table.place d t.definitions
      rw [Table.place_of_not_mem hnew, h.definitions_eq]
    · show (s.index.insert d.name s.definitions.length)[n]? = some j ↔
        ((Table.place d t.definitions).map Definition.name)[j]? = some n
      rw [Table.place_of_not_mem hnew, List.map_append, List.map_singleton,
        Std.HashMap.getElem?_insert, h.definitions_eq]
      have hlen : (t.definitions.map Definition.name).length = t.definitions.length :=
        List.length_map _
      have hold := h.index_iff n j
      have hbound : (t.definitions.map Definition.name)[j]? = some n →
          j < t.definitions.length ∧ n ≠ d.name := by
        intro hj
        refine ⟨hlen ▸ (List.getElem?_eq_some_iff.1 hj).1, ?_⟩
        rintro rfl
        exact hnew (List.mem_of_getElem? hj)
      grind

theorem index_eq (h : s.Represents t) (n : Text) : s.index[n]? = t.indexOf? n := by
  ext i
  rw [h.index_iff, t.indexOf?_eq_some_iff]

theorem get?_eq (h : s.Represents t) (n : Text) : s.get? n = t.get? n := by
  unfold IndexedTable.get?
  rw [h.definitions_eq]
  cases hindex : s.index[n]? with
  | none =>
    have hnew := (h.index_eq_none_iff n).1 hindex
    rw [← t.contains_iff, Table.contains, Bool.not_eq_true, Option.isSome_eq_false_iff,
      Option.isNone_iff_eq_none] at hnew
    rw [hnew, Option.bind_none]
  | some i =>
    have hi := (h.index_iff n i).1 hindex
    rw [List.getElem?_map, Option.map_eq_some_iff] at hi
    obtain ⟨d, hd, hname⟩ := hi
    rw [Option.bind_some, hd, eq_comm, t.get?_eq_some_iff]
    exact ⟨List.mem_of_getElem? hd, hname⟩

theorem contains_eq (h : s.Represents t) (n : Text) : s.contains n = t.contains n := by
  rw [Bool.eq_iff_iff, t.contains_iff]
  unfold IndexedTable.contains
  rw [Std.HashMap.contains_eq_isSome_getElem?, Option.isSome_iff_ne_none, ne_eq,
    h.index_eq_none_iff, not_not]

end Represents

theorem ofList_concat (history : List Definition) (d : Definition) :
    ofList (history ++ [d]) = ((ofList history).define d).2 := by
  unfold ofList
  rw [List.foldl_concat]

/-- After any history the list and the index are in step. -/
theorem represents_ofList (history : List Definition) :
    (ofList history).Represents (.ofList history) := by
  induction history using List.reverseRecOn with
  | nil => exact represents_empty
  | append_singleton history d ih =>
    rw [ofList_concat, Table.ofList_concat]
    exact (ih.define d).2

/-- Without its index the table is the one that is built without an index. -/
theorem toTable_ofList (history : List Definition) :
    (ofList history).toTable = .ofList history := by
  unfold toTable
  rw [(represents_ofList history).definitions_eq]
  exact Table.foldl_insert_definitions_ofList history .empty

/-- What a table holds of a history of definitions, made one after another. -/
structure Records (s : IndexedTable) (history : List Definition) : Prop where
  /-- The index gives the position of each name that is defined, and of no other name. -/
  index_iff : ∀ (n : Text) (i : ℕ),
    s.index[n]? = some i ↔ ∃ d, s.definitions[i]? = some d ∧ d.name = n
  /-- No name is defined twice. -/
  nodup : (s.definitions.map Definition.name).Nodup
  /-- A name means the last definition it was given, and nothing if it was given none. -/
  get?_eq : ∀ n, s.get? n = history.reverse.find? (·.name == n)
  /-- What is found for a name has that name. -/
  name_of_get? : ∀ n d, s.get? n = some d → d.name = n
  contains_iff : ∀ n, s.contains n = true ↔ ∃ d, s.get? n = some d
  /-- Each name counts once. -/
  size_eq : s.size = (history.map Definition.name).toFinset.card
  /-- The names stand in the order in which they were first defined. -/
  names_eq : s.definitions.map Definition.name = (history.map Definition.name).eraseDups
  /-- One more definition reports whether its name was defined before. -/
  define_iff : ∀ d, (s.define d).1 = true ↔ ∃ e ∈ history, e.name = d.name

/-- After any history of definitions the list and the index of a table are in step and hold what the
history says. A table without an index has the same definitions, and gives the same for each name.
The table of a source is one after a history, too. -/
theorem records_ofList :
    (∀ history, (ofList history).Records history ∧
      (ofList history).toTable = .ofList history ∧
      (ofList history).definitions = (Table.ofList history).definitions ∧
      ∀ n, (ofList history).index[n]? = (Table.ofList history).indexOf? n ∧
        (ofList history).get? n = (Table.ofList history).get? n ∧
        (ofList history).contains n = (Table.ofList history).contains n) ∧
    ∀ source s, parse source = .ok s →
      Table.parse source = .ok s.toTable ∧ ∃ history, s = ofList history := by
  constructor
  · intro history
    have h := represents_ofList history
    have hnames := Table.names_ofList history
    have hget := fun n => (h.get?_eq n).trans (Table.get?_ofList history n)
    refine ⟨⟨fun n i => ?_, ?_, hget, fun n d hd => ?_, fun n => ?_, ?_, ?_, fun d => ?_⟩,
      toTable_ofList history, h.definitions_eq,
      fun n => ⟨h.index_eq n, h.get?_eq n, h.contains_eq n⟩⟩
    · rw [h.index_iff, List.getElem?_map, Option.map_eq_some_iff, h.definitions_eq]
    · rw [h.definitions_eq]
      exact (Table.ofList history).nodup
    · rw [h.get?_eq, Table.get?_eq_some_iff] at hd
      exact hd.2
    · rw [h.contains_eq, h.get?_eq, Table.contains, Option.isSome_iff_exists]
    · unfold size
      rw [h.definitions_eq, ← List.length_map Definition.name,
        ← List.toFinset_card_of_nodup (Table.ofList history).nodup, hnames]
      congr 1
      ext n
      rw [List.mem_toFinset, List.mem_toFinset, List.mem_eraseDups]
    · rw [h.definitions_eq, hnames]
    · rw [(h.define d).1]
      show (Table.ofList history).contains d.name = true ↔ _
      rw [Table.contains_iff, hnames, List.mem_eraseDups, List.mem_map]
  · intro source s hs
    unfold parse at hs
    dsimp only at hs
    split at hs
    · exact absurd hs (by simp)
    · next hfault =>
      obtain rfl := Except.ok.inj hs
      rw [toTable_ofList]
      exact ⟨Table.parse_eq_ok_iff.2 ⟨hfault, rfl⟩, _, rfl⟩

/-- A source that defines a name anew, behind another one. The name keeps its position. -/
theorem records_ofList_redefinition :
    ∃ s, parse "#define A 1\n#define B 2\n#define A 3\n".toList = .ok s ∧
      Table.parse "#define A 1\n#define B 2\n#define A 3\n".toList = .ok s.toTable ∧
      s.index[['A']]? = some 0 ∧ s.index[['C']]? = none ∧
      s.get? ['A'] = some ⟨['A'], none, ['3']⟩ ∧ s.contains ['B'] = true ∧ s.size = 2 ∧
      s.definitions.map Definition.name = [['A'], ['B']] ∧
      (s.define ⟨['B'], none, []⟩).1 = true ∧ (s.define ⟨['C'], none, []⟩).1 = false := by
  have hparse : parse "#define A 1\n#define B 2\n#define A 3\n".toList =
      .ok (ofList [⟨['A'], none, ['1']⟩, ⟨['B'], none, ['2']⟩, ⟨['A'], none, ['3']⟩]) := by rfl
  obtain ⟨h, -, hdefinitions, -⟩ := records_ofList.1
    [⟨['A'], none, ['1']⟩, ⟨['B'], none, ['2']⟩, ⟨['A'], none, ['3']⟩]
  refine ⟨_, hparse, (records_ofList.2 _ _ hparse).1, (h.index_iff _ _).2 ?_,
    Option.eq_none_iff_forall_ne_some.2 fun i hi => ?_, h.get?_eq _, ?_, h.size_eq, h.names_eq,
    (h.define_iff _).2 (by simp), ?_⟩
  · exact ⟨⟨['A'], none, ['3']⟩, by rw [hdefinitions]; rfl, rfl⟩
  · obtain ⟨d, hd, hname⟩ := (h.index_iff _ i).1 hi
    rw [hdefinitions] at hd
    have hmem := List.mem_map_of_mem (f := Definition.name) (List.mem_of_getElem? hd)
    rw [hname] at hmem
    exact absurd hmem (by decide)
  · rw [h.contains_iff, h.get?_eq]
    exact ⟨⟨['B'], none, ['2']⟩, rfl⟩
  · rw [← Bool.not_eq_true, h.define_iff]
    decide

end IndexedTable

end FlatHeader
