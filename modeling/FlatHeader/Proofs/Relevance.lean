import FlatHeader.Proofs.Lockstep

/-!
# Definitions that do not matter

A step brings no word into a text but words of bodies, and never makes one by putting texts next to
each other. So the name of a definition that neither the text nor a body mentions stands in no text
of a run, and wherever the definition is in the table, nothing is selected because of it
(`Expander.select_insertAt`). The order of the definitions does not matter either as long as the
calls are taken from the left.
-/

namespace FlatHeader

open Text

/-! ## Tables with one more definition -/

namespace Table

variable {table : Table}

theorem name_ne_of_contains_eq_false {name : Text} (h : table.contains name = false) :
    ∀ e ∈ table.definitions, e.name ≠ name := by
  intro e he hname
  have hget := table.get?_eq_some_iff.2 ⟨he, hname⟩
  rw [contains, hget] at h
  exact Bool.noConfusion h

/-- The table with one more definition, which is number `i` in the order. A position behind the end
is none. -/
def insertAt (table : Table) (i : ℕ) (d : Definition) (h : table.contains d.name = false) : Table :=
  ⟨table.definitions.insertIdx i d, by
    by_cases hi : i ≤ table.definitions.length
    · rw [((List.perm_insertIdx d table.definitions hi).map Definition.name).nodup_iff,
        List.map_cons, List.nodup_cons, List.mem_map]
      refine ⟨?_, table.nodup⟩
      rintro ⟨e, he, hname⟩
      exact name_ne_of_contains_eq_false h e he hname
    · rw [List.insertIdx_of_length_lt (Nat.lt_of_not_le hi)]
      exact table.nodup⟩

/-- Another name is looked up as before. -/
theorem get?_insertAt {i : ℕ} {d : Definition} (h : table.contains d.name = false) {name : Text}
    (hname : name ≠ d.name) : (table.insertAt i d h).get? name = table.get? name := by
  have hd : (d.name == name) = false := beq_eq_false_iff_ne.2 hname.symm
  have hlist : ∀ (l : List Definition) (i : ℕ),
      (l.insertIdx i d).find? (·.name == name) = l.find? (·.name == name) := by
    intro l
    induction l with
    | nil => intro i; cases i <;> simp [hd]
    | cons e l ih =>
      intro i
      cases i with
      | zero => rw [List.insertIdx_zero, List.find?_cons, hd]
      | succ i => rw [List.insertIdx_succ_cons, List.find?_cons, List.find?_cons, ih]
  exact hlist table.definitions i

/-- What a name means does not depend on the order of the definitions. -/
theorem get?_eq_of_perm {table' : Table} (h : table'.definitions.Perm table.definitions)
    (name : Text) : table'.get? name = table.get? name := by
  ext d
  rw [get?_eq_some_iff, get?_eq_some_iff, h.mem_iff]

end Table

/-! ## What is selected -/

/-- Lookups that agree on the words of a text find the same first call. -/
theorem Call.first?_congr {lookup lookup' : Text → Option Definition} {t : Text}
    (h : ∀ w ∈ words t, lookup w = lookup' w) : first? lookup t = first? lookup' t := by
  have halike : SelectedAlike Eq (first? lookup t) (first? lookup' t) := by
    refine Call.first?_alike (fun d d' (hd : d = d') => hd ▸ .refl d) fun w hw => ?_
    rw [h w hw]
    cases lookup' w with
    | none => exact .none
    | some d => exact .some rfl
  generalize first? lookup t = found at halike ⊢
  generalize first? lookup' t = found' at halike ⊢
  cases halike with
  | error e => rfl
  | none => rfl
  | some c hd => rw [← hd]

/-- A definition whose name is no word of the text is passed over. -/
theorem firstOfDefinitions?_insertIdx {d : Definition} {t : Text} (h : d.name ∉ words t)
    (l : List Definition) (i : ℕ) :
    firstOfDefinitions? t (l.insertIdx i d) = firstOfDefinitions? t l := by
  have hnone : Call.first? (fun word => if word = d.name then some d else none) t = .ok none := by
    rw [Call.first?_eq_none_iff]
    intro before w after e hl
    obtain ⟨hat, -, rfl, -⟩ := (liveAt_single_iff d e t before w after).1 hl
    exact h (mem_words_iff.2 ⟨before, after, hat⟩)
  have hcons : ∀ rest, firstOfDefinitions? t (d :: rest) = firstOfDefinitions? t rest := by
    intro rest
    rw [firstOfDefinitions?, hnone]
  induction l generalizing i with
  | nil =>
    cases i with
    | zero => exact hcons []
    | succ i => rw [List.insertIdx_of_length_lt (by simp)]
  | cons e l ih =>
    cases i with
    | zero => exact hcons (e :: l)
    | succ i => rw [List.insertIdx_succ_cons, firstOfDefinitions?, firstOfDefinitions?, ih]

namespace Expander

theorem select_insertAt {table : Table} {d : Definition} (hnew : table.contains d.name = false)
    {t : Text} (h : d.name ∉ words t) (i : ℕ) (selection : Selection) (limit : ℕ) :
    (Expander.mk (table.insertAt i d hnew) selection limit).select t =
      (Expander.mk table selection limit).select t := by
  cases selection with
  | leftmost =>
    refine Call.first?_congr fun w hw => Table.get?_insertAt hnew ?_
    rintro rfl
    exact h hw
  | definitionOrder => exact firstOfDefinitions?_insertIdx h table.definitions i

/-! ## The expansion -/

/-- Where the same call is selected in each text of an invariant, the results are the same. -/
theorem expand_eq_of_select_eq (x x' : Expander) {I : Text → Prop} (hlimit : x'.limit = x.limit)
    (hselect : ∀ t, I t → x'.select t = x.select t)
    (hstep : ∀ t u, I t → x.expandOnce? t = .ok (some u) → I u) {t : Text} (ht : I t) :
    x'.expand t = x.expand t := by
  have hlockstep : Lockstep x x' Eq I fun _ => False := by
    refine ⟨hlimit, fun d d' hd => hd ▸ rfl, fun t ht => ?_, fun t c d' _ _ hd => ?_, hstep⟩
    · rw [hselect t ht]
      match x.select t with
      | .error e => exact .error e
      | .ok none => exact .none
      | .ok (some c) => exact .some c rfl
    · exact .inl (hd ▸ rfl)
  rcases hlockstep.go x.limit ht with heq | ⟨-, -, hfalse⟩
  · unfold expand
    rw [hlimit, heq]
  · exact hfalse.elim

end Expander

/-- Unmentioned definitions are irrelevant. If a name is not defined, is no word of the text and no
word of a body, then a definition of it, wherever it is put in the order, does not change the result
of the expansion, be that a text or an error, with either selection and any limit. If calls are
selected from the left, the result depends on nothing but what each name means, so the order of the
definitions is irrelevant altogether. -/
theorem expand_unmentioned :
    (∀ (table : Table) (d : Definition) (hnew : table.contains d.name = false) (t : Text),
      d.name ∉ words t → (∀ e ∈ table.definitions, d.name ∉ words e.body) →
      ∀ i selection limit, (Expander.mk (table.insertAt i d hnew) selection limit).expand t =
        (Expander.mk table selection limit).expand t) ∧
    (∀ table table' : Table, (∀ name, table'.get? name = table.get? name) → ∀ limit t,
      (Expander.mk table' .leftmost limit).expand t =
        (Expander.mk table .leftmost limit).expand t) ∧
    ∀ table table' : Table, table'.definitions.Perm table.definitions → ∀ limit t,
      (Expander.mk table' .leftmost limit).expand t =
        (Expander.mk table .leftmost limit).expand t := by
  have hmeaning : ∀ table table' : Table, (∀ name, table'.get? name = table.get? name) →
      ∀ limit t, (Expander.mk table' .leftmost limit).expand t =
        (Expander.mk table .leftmost limit).expand t := by
    intro table table' h limit t
    exact Expander.expand_eq_of_select_eq ⟨table, .leftmost, limit⟩ ⟨table', .leftmost, limit⟩
      (I := fun _ => True) rfl (fun u _ => Call.first?_congr fun w _ => h w)
      (fun _ _ _ _ => trivial) trivial
  refine ⟨?_, hmeaning, fun table table' h => hmeaning table table' (Table.get?_eq_of_perm h)⟩
  intro table d hnew t ht hbodies i selection limit
  refine Expander.expand_eq_of_select_eq ⟨table, selection, limit⟩
    ⟨table.insertAt i d hnew, selection, limit⟩ (I := fun u => d.name ∉ words u) rfl
    (fun u hu => Expander.select_insertAt hnew hu i selection limit) (fun u v hu hstep hv => ?_) ht
  rcases Expander.mem_words_of_step hstep hv with hword | ⟨e, he, hword, -⟩
  · exact hu hword
  · exact hbodies e he hword

/-- Two replacements that would make the name of the new definition are kept apart by a space. Two
calls that cannot be read are reported from the left, whichever is defined first. -/
theorem expand_unmentioned_adjacent_calls :
    ['a', 'b'] ∉ words ['F', '(', 'a', ')', 'F', '(', 'b', ')'] ∧
    (Expander.mk (Table.insertAt (.ofList [⟨['F'], some [['x']], ['x']⟩]) 0
        ⟨['a', 'b'], none, ['1']⟩ (by decide)) .definitionOrder 9).expand
      ['F', '(', 'a', ')', 'F', '(', 'b', ')'] = .ok ['a', ' ', 'b'] ∧
    (∀ name, Table.get? (.ofList [⟨['G'], some [], []⟩, ⟨['F'], some [], []⟩]) name =
      Table.get? (.ofList [⟨['F'], some [], []⟩, ⟨['G'], some [], []⟩]) name) ∧
    (Expander.mk (.ofList [⟨['G'], some [], []⟩, ⟨['F'], some [], []⟩]) .leftmost 9).expand
      ['F', '(', 'G', '('] = .error (.nestedParentheses ['F'] 3) ∧
    (Expander.mk (.ofList [⟨['G'], some [], []⟩, ⟨['F'], some [], []⟩]) .leftmost 9).expand
      ['F', '(', ')', 'G', '('] = .error (.unterminatedCall ['G'] 0) := by
  have hperm : (Table.ofList [⟨['G'], some [], []⟩, ⟨['F'], some [], []⟩]).definitions.Perm
      (Table.ofList [⟨['F'], some [], []⟩, ⟨['G'], some [], []⟩]).definitions :=
    List.Perm.swap _ _ []
  refine ⟨by decide, ?_, Table.get?_eq_of_perm hperm, ?_, ?_⟩
  · exact (expand_unmentioned.1 _ _ _ _ (by decide) (by decide) 0 _ _).trans (by rfl)
  · exact (expand_unmentioned.2.1 _ _ (Table.get?_eq_of_perm hperm) 9 _).trans (by rfl)
  · exact (expand_unmentioned.2.2 _ _ hperm 9 _).trans (by rfl)

end FlatHeader
