import FlatHeader.Proofs.Runs
import FlatHeader.Proofs.Simultaneous

/-!
# What a step does to the words

A step puts a replacement in the place of a call. The call starts where a word does, so nothing can
merge in front of the replacement; behind it a space is put where something would. The words of the
new text are therefore those before the call, those of the replacement and those behind the call
(`Call.words_splice`), and the words of the replacement come from the body or from the arguments
(`Definition.mem_words_of_substitute`).
-/

namespace FlatHeader

open Text

/-! ## The words of a replacement -/

namespace Definition

variable {d : Definition} {arguments : Option (List Text)} {out : Text}

/-- What a substitution gives if it succeeds. An object-like definition has no parameter to
exchange. -/
theorem eq_mapWords_of_substitute (h : d.substitute arguments = .ok out) :
    (d.parameters.getD []).length = (arguments.getD []).length ∧
      out = mapWords (valueOf ((d.parameters.getD []).zip (arguments.getD []))) d.body := by
  unfold substitute at h
  split at h
  · next hd =>
    rw [hd]
    have hself : mapWords (valueOf []) d.body = d.body := mapWords_eq_self fun w _ => rfl
    exact ⟨rfl, (Except.ok.inj h).symm.trans hself.symm⟩
  · next parameters l hd =>
    rw [hd]
    split at h
    · next hlen => exact ⟨hlen, eq_mapWords_of_replaceParameters h⟩
    · exact absurd h (by simp)
  · exact absurd h (by simp)

/-- A word is exchanged for the argument of a parameter, or it is no parameter and stays. -/
theorem valueOf_zip_cases {parameters l : List Text} (hlen : parameters.length = l.length)
    (w : Text) :
    valueOf (parameters.zip l) w ∈ l ∨ w ∉ parameters ∧ valueOf (parameters.zip l) w = w := by
  unfold valueOf
  cases hl : (parameters.zip l).lookup w with
  | some a =>
    left
    obtain ⟨l₁, l₂, hzip, -⟩ := List.lookup_eq_some_iff.1 hl
    have hmem : (w, a) ∈ parameters.zip l := by
      rw [hzip]
      exact List.mem_append_right l₁ List.mem_cons_self
    exact (List.of_mem_zip hmem).2
  | none =>
    right
    refine ⟨fun hw => ?_, rfl⟩
    rw [← List.map_fst_zip hlen.le, List.mem_map] at hw
    obtain ⟨pair, hpair, rfl⟩ := hw
    have hne := List.lookup_eq_none_iff.1 hl pair hpair
    simp at hne

/-- Substitution invents no word: a word of the result is one of the body that is no parameter, or
one of an argument. -/
theorem mem_words_of_substitute (h : d.substitute arguments = .ok out) {w : Text}
    (hw : w ∈ words out) :
    (w ∈ words d.body ∧ w ∉ d.parameters.getD []) ∨ ∃ a ∈ arguments.getD [], w ∈ words a := by
  obtain ⟨hlen, rfl⟩ := eq_mapWords_of_substitute h
  rw [words_mapWords, List.mem_flatMap] at hw
  obtain ⟨v, hv, hw⟩ := hw
  rcases valueOf_zip_cases hlen v with hmem | ⟨hparameter, hself⟩
  · exact .inr ⟨_, hmem, hw⟩
  · left
    rw [hself, words_of_isWord (isWord_of_mem_words hv), List.mem_singleton] at hw
    rw [hw]
    exact ⟨hv, hparameter⟩

end Definition

/-! ## The words of a spliced text -/

namespace Call

variable {t : Text} {c : Call}

theorem StandsIn.endsOutside_before (h : c.StandsIn t) : EndsOutside c.before := by
  obtain ⟨w, rest, hat⟩ := h.exists_wordAt
  exact hat.left

/-- A splice keeps the words around the call apart from those of the replacement. -/
theorem words_splice (h : EndsOutside c.before) (r : Text) :
    words (c.splice r) = words c.before ++ (words r ++ words c.after) := by
  rw [Expander.splice_of_endsOutside h, words_append (joins_of_endsOutside h _)]
  congr 1
  cases hjoins : joins r c.after with
  | false =>
    rw [if_neg (by decide), List.nil_append, words_append hjoins]
  | true =>
    -- the space keeps the replacement apart from what follows, and is no word itself
    have hspace : isWordChar ' ' = false := by decide
    rw [if_pos rfl, List.singleton_append, words_append_cons hspace]

end Call

/-- What is selected is written with the name of its definition in front. -/
theorem Expander.name_prefix_of_select {x : Expander} {t : Text} {c : Call}
    (h : x.select t = .ok (some c)) : c.definition.name <+: c.written := by
  rcases x.select_eq_some_cases t h with ⟨-, -, hwritten, -⟩ | ⟨list, -, -, hwritten, -, -⟩
  · rw [hwritten]
  · rw [hwritten, List.append_assoc]
    exact List.prefix_append _ _

/-- A step neither merges nor splits words, and invents none. The text is that before a call, the
call and that behind it; the call is one of a definition of the table, and starts with its name. In
the new text the substituted body stands in its place, with nothing put before it. Behind it comes a
single space if it would merge with what follows, and nothing otherwise. The words are those before
the call, those of the substituted body and those behind the call; each word of the substituted body
is a word of the body that is no parameter, or a word of an argument. -/
theorem expandOnce?_words (table : Table) (selection : Selection) (limit : ℕ) {t out : Text}
    (h : (Expander.mk table selection limit).expandOnce? t = .ok (some out)) :
    ∃ (c : Call) (r sep : Text),
      (Expander.mk table selection limit).select t = .ok (some c) ∧
      c.StandsIn t ∧ c.definition ∈ table.definitions ∧ c.definition.name <+: c.written ∧
      c.definition.substitute c.arguments = .ok r ∧
      t = c.before ++ (c.written ++ c.after) ∧
      out = c.before ++ (r ++ (sep ++ c.after)) ∧
      (sep = [' '] ∨ sep = []) ∧
      (sep = [' '] ↔ ∃ x y, r.getLast? = some x ∧ c.after.head? = some y ∧
        isWordChar x = true ∧ isWordChar y = true) ∧
      words out = words c.before ++ (words r ++ words c.after) ∧
      ∀ w ∈ words r, (w ∈ words c.definition.body ∧ w ∉ c.definition.parameters.getD []) ∨
        ∃ a ∈ c.arguments.getD [], w ∈ words a := by
  obtain ⟨c, r, hselect, hr, rfl⟩ := Expander.expandOnce?_eq_some_iff.1 h
  obtain ⟨hstands, hd⟩ := Expander.standsIn_of_select _ t hselect
  have hbefore := hstands.endsOutside_before
  refine ⟨c, r, if joins r c.after then [' '] else [], hselect, hstands, hd,
    Expander.name_prefix_of_select hselect, hr, hstands.eq_append,
    Expander.splice_of_endsOutside hbefore r, ?_, ?_, Call.words_splice hbefore r,
    fun w hw => Definition.mem_words_of_substitute hr hw⟩
  · cases joins r c.after <;> simp
  · rw [← joins_eq_true_iff]
    cases joins r c.after <;> simp

/-- The replacement of a call ends with a word, and another call follows at once. -/
theorem expandOnce?_words_adjacent_calls :
    (Expander.mk (.ofList [⟨['I'], some [['x']], ['x']⟩]) .leftmost 9).expandOnce?
        ['I', '(', 'a', ')', 'I', '(', 'b', ')'] = .ok (some ['a', ' ', 'I', '(', 'b', ')']) ∧
    ∃ sep : Text, ['a', ' ', 'I', '(', 'b', ')'] = ['a'] ++ (sep ++ ['I', '(', 'b', ')']) ∧
      sep = [' '] ∧
      words ['a', ' ', 'I', '(', 'b', ')'] = words ['a'] ++ words ['I', '(', 'b', ')'] := by
  have hstep : (Expander.mk (.ofList [⟨['I'], some [['x']], ['x']⟩]) .leftmost 9).expandOnce?
      ['I', '(', 'a', ')', 'I', '(', 'b', ')'] = .ok (some ['a', ' ', 'I', '(', 'b', ')']) := by rfl
  have hcall : (Expander.mk (.ofList [⟨['I'], some [['x']], ['x']⟩]) .leftmost 9).select
      ['I', '(', 'a', ')', 'I', '(', 'b', ')'] =
      .ok (some ⟨[], ⟨['I'], some [['x']], ['x']⟩, some [['a']], ['I', '(', 'a', ')'],
        ['I', '(', 'b', ')']⟩) := by rfl
  obtain ⟨c, r, sep, hselect, -, -, -, hr, -, hout, -, hsep, hwords, -⟩ :=
    expandOnce?_words _ _ _ hstep
  obtain rfl := Option.some.inj (Except.ok.inj (hcall.symm.trans hselect))
  obtain rfl : ['a'] = r := Except.ok.inj hr
  exact ⟨hstep, sep, hout, hsep.2 ⟨'a', 'I', rfl, rfl, by decide, by decide⟩, hwords⟩

end FlatHeader
