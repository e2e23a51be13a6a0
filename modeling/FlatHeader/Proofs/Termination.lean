import FlatHeader.Proofs.ArgumentLists
import FlatHeader.Proofs.Unfolding

/-!
# Termination

References between names that never go round do not suffice for an expansion to end: with the body
`x(x)` for `F(x)`, the text `F(F)` expands to itself. The name that starts the new call is an
argument. If no argument holds a name, each step puts the words of one body in the place of a name,
so the cost of the text goes down, and costs are finite without cycles. Arguments hold no names as
long as no argument list does, which steps preserve (`PlainLists.splice`).
-/

namespace FlatHeader

open Text

/-! ## The cost of a text -/

namespace Table

variable (table : Table)

/-- The number of steps that the full expansion of all words of a text takes. -/
def textCost (t : Text) : ℕ∞ := ((words t).map table.cost).sum

variable {table}

theorem textCost_append {a b : Text} (h : joins a b = false) :
    table.textCost (a ++ b) = table.textCost a + table.textCost b := by
  unfold textCost
  rw [words_append h, List.map_append, List.sum_append]

theorem textCost_gap {c : Char} (h : isWordChar c = false) (t : Text) :
    table.textCost (c :: t) = table.textCost t := by
  unfold textCost
  rw [words_gap h]

theorem textCost_of_isWord {w : Text} (h : IsWord w) : table.textCost w = table.cost w := by
  unfold textCost
  rw [words_of_isWord h, List.map_singleton, List.sum_singleton]

theorem textCost_of_no_names {t : Text} (h : ∀ w ∈ words t, table.contains w = false) :
    table.textCost t = 0 := by
  refine (table.isUnfolding.of_no_names fun w hw => ?_).1
  have hnone := h w hw
  rwa [contains, Option.isSome_eq_false_iff, Option.isNone_iff_eq_none] at hnone

/-- Exchanging words for texts that cost no more does not raise the cost. -/
theorem textCost_mapWords_le {f : Text → Text} (t : Text)
    (hf : ∀ w, IsWord w → table.textCost (f w) ≤ table.cost w) :
    table.textCost (mapWords f t) ≤ table.textCost t := by
  induction t using word_induction with
  | nil => exact le_rfl
  | gap c t hc ih => rwa [mapWords_gap f hc, textCost_gap hc, textCost_gap hc]
  | word w t hw ht ih =>
    rw [mapWords_word f hw ht, textCost_append (joins_of_startsOutside _ (ht.mapWords f)),
      textCost_append (joins_of_startsOutside w ht), textCost_of_isWord hw]
    exact add_le_add (hf w hw) ih

/-- A name costs one step and the cost of its body. -/
theorem cost_name {d : Definition} (hd : d ∈ table.definitions) :
    table.cost d.name = 1 + table.textCost d.body :=
  table.isUnfolding.cost_of_some d.name d (table.get?_eq_some_iff.2 ⟨hd, rfl⟩)

theorem contains_name {d : Definition} (hd : d ∈ table.definitions) :
    table.contains d.name = true := by
  rw [contains, table.get?_eq_some_iff.2 ⟨hd, rfl⟩]
  rfl

end Table

/-- A substitution with plain arguments costs no more than the body. -/
theorem Definition.textCost_substitute_le {table : Table} {d : Definition}
    {arguments : Option (List Text)} {r : Text} (h : d.substitute arguments = .ok r)
    (harguments : PlainArguments table (arguments.getD [])) :
    table.textCost r ≤ table.textCost d.body := by
  obtain ⟨hlen, rfl⟩ := eq_mapWords_of_substitute h
  refine Table.textCost_mapWords_le d.body fun w hw => ?_
  rcases valueOf_zip_cases hlen w with ha | ⟨-, hself⟩
  · rw [Table.textCost_of_no_names (harguments _ ha).2]
    exact zero_le
  · rw [hself, Table.textCost_of_isWord hw]

/-! ## A step -/

namespace Expander

variable {x : Expander} {t : Text} {c : Call}

/-- Where no list holds a name, the arguments of a selected call do not either, and the words behind
the call are the last ones behind its name. -/
theorem plainCall_of_select (ht : PlainLists x.table t) (h : x.select t = .ok (some c)) :
    PlainArguments x.table (c.arguments.getD []) ∧
      ∃ rest l, WordAt t c.before c.definition.name rest ∧ c.after <:+ rest ∧
        words rest = l ++ words c.after := by
  rcases x.select_eq_some_cases t h with
    ⟨-, hnone, -, hat⟩ | ⟨list, -, hsome, -, hparens, hat⟩
  · rw [hnone]
    exact ⟨fun a ha => absurd ha List.not_mem_nil, c.after, [], hat, List.suffix_rfl, rfl⟩
  · rw [hsome, Option.getD_some]
    have hup : upToParen (list ++ ')' :: c.after) = list :=
      (upToParen_append_cons (noParens_iff.2 hparens) (.inr rfl) c.after).1
    have hplain : PlainStart x.table (list ++ ')' :: c.after) :=
      ht (c.before ++ c.definition.name) _ (by rw [hat.eq, List.append_assoc])
    unfold PlainStart at hplain
    rw [hup] at hplain
    have harguments := Call.plainArguments_splitArguments hparens hplain c.definition
    refine ⟨harguments, _, words list, hat, ?_, ?_⟩
    · exact ⟨'(' :: (list ++ [')']), by simp⟩
    · have hopen : isWordChar '(' = false := by decide
      have hclose : isWordChar ')' = false := by decide
      rw [words_gap hopen, words_append_cons hclose]

/-- A text with a call costs what its body costs, one step more, and the texts around the call. -/
theorem cost_le_of_select (ht : PlainLists x.table t) (h : x.select t = .ok (some c)) :
    x.table.textCost c.before +
        ((1 + x.table.textCost c.definition.body) + x.table.textCost c.after) ≤
      x.table.textCost t := by
  obtain ⟨-, rest, l, hat, -, hwords⟩ := plainCall_of_select ht h
  have hafter : x.table.textCost c.after ≤ x.table.textCost rest := by
    unfold Table.textCost
    rw [hwords, List.map_append, List.sum_append]
    exact le_add_self
  rw [hat.eq, Table.textCost_append (joins_of_endsOutside hat.left _),
    Table.textCost_append (joins_of_startsOutside _ hat.right),
    Table.textCost_of_isWord hat.isWord, Table.cost_name (x.standsIn_of_select t h).2]
  gcongr

/-- A step keeps the lists without names and lowers the cost. -/
theorem plainLists_and_cost_of_step {r : Text}
    (hbodies : ∀ d ∈ x.table.definitions, ClosedPlainLists x.table d.body)
    (ht : PlainLists x.table t) (h : x.select t = .ok (some c)) (hr : c.replacement = .ok r) :
    PlainLists x.table (c.splice r) ∧
      1 + x.table.textCost (c.splice r) ≤ x.table.textCost t := by
  obtain ⟨harguments, rest, -, hat, hsuffix, -⟩ := plainCall_of_select ht h
  have hd := (x.standsIn_of_select t h).2
  constructor
  · obtain ⟨hlen, hmap⟩ := Definition.eq_mapWords_of_substitute hr
    have hclosed := (hbodies _ hd).mapWords (harguments.plainExchange hlen)
    rw [← hmap] at hclosed
    exact ht.splice hat (Table.contains_name hd) hsuffix hclosed
  · have hsplice : x.table.textCost (c.splice r) =
        x.table.textCost c.before + (x.table.textCost r + x.table.textCost c.after) := by
      unfold Table.textCost
      rw [Call.words_splice hat.left, List.map_append, List.map_append, List.sum_append,
        List.sum_append]
    calc 1 + x.table.textCost (c.splice r)
        = x.table.textCost c.before +
            ((1 + x.table.textCost r) + x.table.textCost c.after) := by rw [hsplice]; ring
      _ ≤ x.table.textCost c.before +
            ((1 + x.table.textCost c.definition.body) + x.table.textCost c.after) := by
          gcongr
          exact Definition.textCost_substitute_le hr harguments
      _ ≤ x.table.textCost t := cost_le_of_select ht h

/-- A run keeps the lists without names, and lowers the cost with each step. -/
theorem Run.plainLists_and_cost {k : ℕ} {u : Text} (hrun : x.Run k t u)
    (hbodies : ∀ d ∈ x.table.definitions, ClosedPlainLists x.table d.body)
    (ht : PlainLists x.table t) :
    PlainLists x.table u ∧ k + x.table.textCost u ≤ x.table.textCost t := by
  induction hrun with
  | refl t => exact ⟨ht, by simp⟩
  | @step k t v u hstep _ ih =>
    obtain ⟨c, r, hs, hr, rfl⟩ := expandOnce?_eq_some_iff.1 hstep
    obtain ⟨hv, hcost⟩ := plainLists_and_cost_of_step hbodies ht hs hr
    obtain ⟨hu, hrest⟩ := ih hv
    refine ⟨hu, ?_⟩
    calc ((k + 1 : ℕ) : ℕ∞) + x.table.textCost u
        = 1 + (k + x.table.textCost u) := by rw [Nat.cast_add, Nat.cast_one]; ring
      _ ≤ 1 + x.table.textCost (c.splice r) := by gcongr
      _ ≤ x.table.textCost t := hcost

/-- The limit is not reached if the text costs no more steps. -/
theorem expand_ne_didNotTerminate
    (hbodies : ∀ d ∈ x.table.definitions, ClosedPlainLists x.table d.body)
    (ht : PlainLists x.table t) (hcost : x.table.textCost t ≤ x.limit) (name snippet : Text)
    (iterations : ℕ) : x.expand t ≠ .error (.didNotTerminate name iterations snippet) := by
  intro h
  obtain ⟨u, c, hrun, hs⟩ := exists_run_of_go_didNotTerminate h
  obtain ⟨hu, hle⟩ := hrun.plainLists_and_cost hbodies ht
  -- the call that is left over costs a step beyond the limit
  have hone : 1 ≤ x.table.textCost u := by
    refine le_trans ?_ (cost_le_of_select hu hs)
    calc (1 : ℕ∞) ≤ 1 + x.table.textCost c.definition.body := le_self_add
      _ ≤ (1 + x.table.textCost c.definition.body) + x.table.textCost c.after := le_self_add
      _ ≤ _ := le_add_self
  have hmore : ((x.limit + 1 : ℕ) : ℕ∞) ≤ (x.limit : ℕ) := by
    calc ((x.limit + 1 : ℕ) : ℕ∞) = x.limit + 1 := by rw [Nat.cast_add, Nat.cast_one]
      _ ≤ x.limit + x.table.textCost u := by gcongr
      _ ≤ x.table.textCost t := hle
      _ ≤ x.limit := hcost
  rw [Nat.cast_le] at hmore
  omega

end Expander

/-! ## References that go down -/

namespace Table

variable {α : Type*} [Preorder α] {table : Table} {rank : Text → α}

/-- Where names refer to names of lower rank only, so they do along chains of references. -/
theorem rank_lt_of_transGen
    (hrank : ∀ d ∈ table.definitions, ∀ w ∈ words d.body, table.contains w = true →
      rank w < rank d.name) {v w : Text} (h : Relation.TransGen table.RefersTo v w)
    (hw : table.contains w = true) : rank w < rank v := by
  have hstep : ∀ {v w : Text}, table.RefersTo v w → table.contains w = true → rank w < rank v := by
    rintro v w ⟨d, hget, hmem⟩ hw
    obtain ⟨hd, rfl⟩ := table.get?_eq_some_iff.1 hget
    exact hrank d hd w hmem hw
  induction h with
  | single h => exact hstep h hw
  | @tail u w _ h ih =>
    -- the reference starts at a name
    have hu : table.contains u = true := by
      obtain ⟨d, hget, -⟩ := h
      rw [contains, hget]
      rfl
    exact (hstep h hw).trans (ih hu)

theorem textCost_ne_top
    (hrank : ∀ d ∈ table.definitions, ∀ w ∈ words d.body, table.contains w = true →
      rank w < rank d.name) (t : Text) : table.textCost t ≠ ⊤ := by
  intro htop
  unfold textCost at htop
  rw [sum_eq_top_iff, List.mem_map] at htop
  obtain ⟨w, -, hw⟩ := htop
  obtain ⟨v, -, hcycle⟩ := (cost_eq_top_iff w).1 hw
  have hv : table.contains v = true := by
    obtain ⟨u, ⟨d, hget, -⟩, -⟩ := Relation.TransGen.head'_iff.1 hcycle
    rw [contains, hget]
    rfl
  exact lt_irrefl _ (rank_lt_of_transGen hrank hcycle hv)

end Table

/-- Expansion ends where names are ranked and argument lists hold none. Suppose every name in the
body of a definition has a lower rank than the name of the definition, and every opening parenthesis
in a body is followed, before any other parenthesis, by a closing one, with no name in between. Then
for a text without names between an opening parenthesis and the next one there is a number of steps
(the cost of its words) that suffices as a limit, as does any higher number, in both selections: the
expansion may fail, but not because it does not terminate. -/
theorem expand_terminates_of_rank {α : Type*} [Preorder α] (table : Table) (rank : Text → α)
    (hrank : ∀ d ∈ table.definitions, ∀ w ∈ words d.body, table.contains w = true →
      rank w < rank d.name)
    (hbodies : ∀ d ∈ table.definitions, ClosedPlainLists table d.body) {t : Text}
    (ht : PlainLists table t) :
    ∃ N : ℕ, table.textCost t = N ∧ ∀ selection limit, N ≤ limit → ∀ name iterations snippet,
      (Expander.mk table selection limit).expand t ≠
        .error (.didNotTerminate name iterations snippet) := by
  obtain ⟨N, hN⟩ := ENat.ne_top_iff_exists.1 (Table.textCost_ne_top hrank t)
  refine ⟨N, hN.symm, fun selection limit hle name iterations snippet => ?_⟩
  have hcost : table.textCost t ≤ limit := by
    rw [← hN, Nat.cast_le]
    exact hle
  exact Expander.expand_ne_didNotTerminate (x := ⟨table, selection, limit⟩) hbodies ht hcost name
    snippet iterations

/-- A body with two calls and a body that doubles the argument: three steps suffice. -/
theorem expand_terminates_of_rank_two_calls :
    ∃ table : Table, table = .ofList [⟨['F'], some [['x']], "G(x)-G(x)".toList⟩,
        ⟨['G'], some [['y']], "y(y)".toList⟩] ∧
      (∀ d ∈ table.definitions, ∀ w ∈ words d.body, table.contains w = true →
        (if w = ['F'] then 1 else 0) < if d.name = ['F'] then 1 else 0) ∧
      (∀ d ∈ table.definitions, ClosedPlainLists table d.body) ∧
      PlainLists table "F(a)".toList ∧
      ∀ selection limit, 3 ≤ limit → ∀ name iterations snippet,
        (Expander.mk table selection limit).expand "F(a)".toList ≠
          .error (.didNotTerminate name iterations snippet) := by
  refine ⟨_, rfl, by decide, by decide, by decide, ?_⟩
  obtain ⟨N, hN, h⟩ := expand_terminates_of_rank
    (.ofList [⟨['F'], some [['x']], "G(x)-G(x)".toList⟩, ⟨['G'], some [['y']], "y(y)".toList⟩])
    (fun w => if w = ['F'] then 1 else 0) (by decide) (by decide) (t := "F(a)".toList) (by decide)
  have hthree : (Table.ofList [⟨['F'], some [['x']], "G(x)-G(x)".toList⟩,
      ⟨['G'], some [['y']], "y(y)".toList⟩]).textCost "F(a)".toList = (3 : ℕ) := by decide
  obtain rfl : N = 3 := by
    rw [hthree] at hN
    exact (Nat.cast_injective hN).symm
  exact h

end FlatHeader
