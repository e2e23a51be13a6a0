import FlatHeader.Proofs.Runs
import FlatHeader.Proofs.Simultaneous
import Mathlib.Data.ENat.Basic
import Mathlib.Data.List.Chain
import Mathlib.Data.List.Perm.Subperm
import Mathlib.Logic.Relation

/-!
# Tables of object-like definitions

Where no definition has parameters, each word has a cost, the number of steps that its expansion
takes, and a full expansion. Both follow the references from a name to the words of its body. A
word from which a cycle of references can be reached has infinite cost.

Every step of an expansion lowers the cost of the text by one and leaves its full expansion alone,
whichever call is selected. So both selections end in the same text, and they fail at the same
limits.
-/

namespace FlatHeader

open Text

namespace Table

variable (table : Table)

/-! ## References -/

/-- The word `w` is in the body of the definition of `v`. -/
def RefersTo (v w : Text) : Prop := ∃ d, table.get? v = some d ∧ w ∈ words d.body

/-- References lead from a word to a name that they lead back to. -/
def ReachesCycle (w : Text) : Prop :=
  ∃ v, Relation.ReflTransGen table.RefersTo w v ∧ Relation.TransGen table.RefersTo v v

/-! ## Cost and full expansion -/

/-- The cost of a word, where it counts as infinite if there is a chain of more than `depth`
references between names. -/
def costWithin : ℕ → Text → ℕ∞
  | 0, w => if table.contains w then ⊤ else 0
  | depth + 1, w => match table.get? w with
    | none => 0
    | some d => 1 + ((words d.body).map (costWithin depth)).sum

/-- The expansion of a word up to a chain of `depth` references. -/
def fullWithin : ℕ → Text → Text
  | 0, w => w
  | depth + 1, w => match table.get? w with
    | none => w
    | some d => mapWords (fullWithin depth) d.body

/-- The number of steps that the full expansion of a word takes. A chain of references that is
longer than the table has names has some name twice, and so goes on for ever. -/
def cost (w : Text) : ℕ∞ := table.costWithin table.size w

/-- The full expansion of a word, provided that its cost is finite. -/
def full (w : Text) : Text := table.fullWithin table.size w

/-- What cost and full expansion have to satisfy. A word that is no name costs nothing and stays
as it is; a name costs one step and then what the words of its body cost. -/
structure IsUnfolding (cost : Text → ℕ∞) (full : Text → Text) : Prop where
  cost_of_none : ∀ w, table.get? w = none → cost w = 0
  full_of_none : ∀ w, table.get? w = none → full w = w
  cost_of_some : ∀ w d, table.get? w = some d → cost w = 1 + ((words d.body).map cost).sum
  full_of_some : ∀ w d, table.get? w = some d → cost w ≠ ⊤ → full w = mapWords full d.body
  cost_eq_top_iff : ∀ w, cost w = ⊤ ↔ table.ReachesCycle w

variable {table}

/-- A sum is infinite exactly if a summand is. -/
theorem sum_eq_top_iff (l : List ℕ∞) : l.sum = ⊤ ↔ ⊤ ∈ l := by
  induction l with
  | nil => simp
  | cons n l ih => rw [List.sum_cons, ENat.add_eq_top, ih, List.mem_cons, eq_comm]

/-- A cost that is finite at some depth is the same at the next, and so is the expansion. -/
theorem within_succ {depth : ℕ} {w : Text} (h : table.costWithin depth w ≠ ⊤) :
    table.costWithin (depth + 1) w = table.costWithin depth w ∧
      table.fullWithin (depth + 1) w = table.fullWithin depth w := by
  induction depth generalizing w with
  | zero =>
    have hnone : table.get? w = none := by
      rw [costWithin] at h
      by_contra hsome
      refine h (if_pos ?_)
      rw [contains, Option.isSome_iff_ne_none]
      exact hsome
    simp [costWithin, fullWithin, contains, hnone]
  | succ depth ih =>
    rw [costWithin.eq_2, costWithin.eq_2, fullWithin.eq_2, fullWithin.eq_2]
    rw [costWithin.eq_2] at h
    cases hget : table.get? w with
    | none => exact ⟨rfl, rfl⟩
    | some d =>
      simp only [hget] at h ⊢
      have hfinite : ∀ v ∈ words d.body, table.costWithin depth v ≠ ⊤ := by
        intro v hv htop
        refine h ?_
        rw [ENat.add_eq_top, sum_eq_top_iff]
        exact .inr (htop ▸ List.mem_map_of_mem hv)
      constructor
      · rw [List.map_congr_left fun v hv => (ih (hfinite v hv)).1]
      · exact mapWords_congr fun v hv => (ih (hfinite v hv)).2

/-- An infinite cost comes from a chain of references between names. -/
theorem exists_chain_of_costWithin_eq_top {depth : ℕ} {w : Text}
    (h : table.costWithin depth w = ⊤) :
    ∃ l : List Text, l.length = depth ∧ List.IsChain table.RefersTo (w :: l) ∧
      ∀ v ∈ w :: l, v ∈ table.definitions.map Definition.name := by
  induction depth generalizing w with
  | zero =>
    rw [costWithin, contains] at h
    cases hget : table.get? w with
    | none => simp [hget] at h
    | some d =>
      refine ⟨[], rfl, .singleton w, fun v hv => ?_⟩
      rw [List.mem_singleton.1 hv]
      exact mem_names_of_get? hget
  | succ depth ih =>
    rw [costWithin] at h
    cases hget : table.get? w with
    | none => simp [hget] at h
    | some d =>
      simp only [hget] at h
      rw [ENat.add_eq_top, sum_eq_top_iff] at h
      obtain ⟨v, hv, htop⟩ := List.mem_map.1 (h.resolve_left (by simp))
      obtain ⟨l, hlen, hchain, hmem⟩ := ih htop
      refine ⟨v :: l, by rw [List.length_cons, hlen], hchain.cons_cons ⟨d, hget, hv⟩, ?_⟩
      intro u hu
      rcases List.mem_cons.1 hu with rfl | hu
      · exact mem_names_of_get? hget
      · exact hmem u hu

/-- A chain of references through more names than the table has runs into a cycle. -/
theorem reachesCycle_of_chain {w : Text} {l : List Text} (hlen : table.size ≤ l.length)
    (hchain : List.IsChain table.RefersTo (w :: l))
    (hmem : ∀ v ∈ w :: l, v ∈ table.definitions.map Definition.name) : table.ReachesCycle w := by
  -- there are more names in the chain than in the table, so one of them is there twice
  have hdup : ¬ (w :: l).Nodup := by
    intro hnodup
    have hle := (hnodup.subperm hmem).length_le
    rw [List.length_map, List.length_cons] at hle
    have hsize : table.size = table.definitions.length := rfl
    omega
  have hpair : (w :: l).Pairwise (Relation.TransGen table.RefersTo) :=
    (hchain.imp fun _ _ h => Relation.TransGen.single h).pairwise
  rw [List.nodup_iff_sublist] at hdup
  push Not at hdup
  obtain ⟨v, hv⟩ := hdup
  have hcycle : Relation.TransGen table.RefersTo v v := by
    simpa using hpair.sublist hv
  refine ⟨v, ?_, hcycle⟩
  rcases List.mem_cons.1 (hv.subset List.mem_cons_self) with rfl | hmem
  · exact .refl
  · exact ((List.pairwise_cons.1 hpair).1 v hmem).to_reflTransGen

/-- From a word that reaches a cycle the references go on for ever. -/
theorem ReachesCycle.exists_refersTo {w : Text} (h : table.ReachesCycle w) :
    ∃ v, table.RefersTo w v ∧ table.ReachesCycle v := by
  obtain ⟨v, hwv, hvv⟩ := h
  rcases Relation.ReflTransGen.cases_head hwv with rfl | ⟨u, hwu, huv⟩
  · obtain ⟨u, hwu, huw⟩ := Relation.TransGen.head'_iff.1 hvv
    exact ⟨u, hwu, w, huw, hvv⟩
  · exact ⟨u, hwu, v, huv, hvv⟩

theorem ReachesCycle.costWithin_eq_top {w : Text} (h : table.ReachesCycle w) (depth : ℕ) :
    table.costWithin depth w = ⊤ := by
  induction depth generalizing w with
  | zero =>
    obtain ⟨v, ⟨d, hget, -⟩, -⟩ := h.exists_refersTo
    rw [costWithin, contains, hget]
    rfl
  | succ depth ih =>
    obtain ⟨v, ⟨d, hget, hv⟩, hcycle⟩ := h.exists_refersTo
    rw [costWithin, hget]
    simp only
    rw [ENat.add_eq_top, sum_eq_top_iff]
    exact .inr (ih hcycle ▸ List.mem_map_of_mem hv)

theorem cost_eq_top_iff (w : Text) : table.cost w = ⊤ ↔ table.ReachesCycle w := by
  constructor
  · intro h
    obtain ⟨l, hlen, hchain, hmem⟩ := exists_chain_of_costWithin_eq_top h
    exact reachesCycle_of_chain hlen.ge hchain hmem
  · intro h
    exact h.costWithin_eq_top table.size

theorem isUnfolding (table : Table) : table.IsUnfolding table.cost table.full := by
  have hnone : ∀ {w}, table.get? w = none → ∀ depth,
      table.costWithin depth w = 0 ∧ table.fullWithin depth w = w := by
    intro w hget depth
    cases depth <;> simp [costWithin, fullWithin, contains, hget]
  refine ⟨fun w h => (hnone h _).1, fun w h => (hnone h _).2, ?_, ?_, cost_eq_top_iff⟩
  · intro w d hget
    have hnext : table.costWithin (table.size + 1) w = 1 + ((words d.body).map table.cost).sum := by
      rw [costWithin, hget]
      rfl
    rw [← hnext]
    by_cases htop : table.cost w = ⊤
    · rw [htop, ((cost_eq_top_iff w).1 htop).costWithin_eq_top]
    · exact (within_succ htop).1.symm
  · intro w d hget htop
    have hnext : table.fullWithin (table.size + 1) w = mapWords table.full d.body := by
      rw [fullWithin, hget]
      rfl
    rw [← hnext]
    exact (within_succ htop).2.symm

namespace IsUnfolding

variable {cost : Text → ℕ∞} {full : Text → Text} {t : Text}

/-- In a text without names nothing is left to do. -/
theorem of_no_names (hu : table.IsUnfolding cost full) (h : ∀ w ∈ words t, table.get? w = none) :
    ((words t).map cost).sum = 0 ∧ mapWords full t = t := by
  constructor
  · rw [List.map_congr_left fun w hw => hu.cost_of_none w (h w hw)]
    simp
  · exact mapWords_eq_self fun w hw => hu.full_of_none w (h w hw)

/-- The body of a definition in the place of its name lowers the cost by one. If the cost is finite,
the full expansion is the same as before. -/
theorem of_step (hu : table.IsUnfolding cost full) {before w after : Text} {d : Definition}
    (hat : WordAt t before w after) (hget : table.get? w = some d) :
    ((words t).map cost).sum = 1 + ((words (before ++ (d.body ++ after))).map cost).sum ∧
      (((words t).map cost).sum ≠ ⊤ →
        mapWords full (before ++ (d.body ++ after)) = mapWords full t) := by
  have hbefore := joins_of_endsOutside hat.left (d.body ++ after)
  have hafter := joins_of_startsOutside d.body hat.right
  constructor
  · rw [words_append hbefore, words_append hafter, hat.words_eq]
    simp only [List.map_append, List.sum_append, List.map_cons, List.sum_cons,
      hu.cost_of_some w d hget]
    ring
  · intro hfinite
    -- a word of infinite cost would make the whole text cost as much
    have hw : cost w ≠ ⊤ := by
      intro htop
      refine hfinite ((sum_eq_top_iff _).2 ?_)
      rw [hat.words_eq, ← htop]
      exact List.mem_map_of_mem (List.mem_append_right _ List.mem_cons_self)
    rw [hat.mapWords_eq, hu.full_of_some w d hget hw, mapWords_append _ hbefore,
      mapWords_append _ hafter]

end IsUnfolding

end Table

/-! ## Runs -/

namespace Expander

variable {x : Expander} (hobject : ∀ d ∈ x.table.definitions, d.parameters = none)
include hobject

/-- Where all definitions are object-like, a step puts a body in the place of a name, with nothing
added. There is a step as long as there is a name. -/
theorem objectLike_cases (t : Text) :
    (x.select t = .ok none ∧ ∀ w ∈ words t, x.table.get? w = none) ∨
      ∃ before w after d, WordAt t before w after ∧ x.table.get? w = some d ∧
        x.select t = .ok (some ⟨before, d, none, w, after⟩) ∧
        x.expandOnce? t = .ok (some (before ++ (d.body ++ after))) := by
  have hplain : ∀ {w d}, x.table.get? w = some d → d.parameters = none := fun hget =>
    hobject _ (x.table.get?_eq_some_iff.1 hget).1
  rcases x.select_cases t with ⟨hnone, hall⟩ | ⟨before, w, after, d, hl, hread⟩
  · left
    refine ⟨hnone, fun w hw => ?_⟩
    obtain ⟨before, after, hat⟩ := mem_words_iff.1 hw
    by_contra hsome
    obtain ⟨d, hget⟩ := Option.ne_none_iff_exists'.1 hsome
    exact hall before w after d
      ⟨hat, hget, .inl (Definition.isFunctionLike_eq_false_iff.2 (hplain hget))⟩
  · right
    have hd := hplain hl.lookup
    have hcall : x.select t = .ok (some ⟨before, d, none, w, after⟩) := by
      rw [hread, Call.ofWord?_of_objectLike (Definition.isFunctionLike_eq_false_iff.2 hd),
        List.reverse_reverse]
    refine ⟨before, w, after, d, hl.wordAt, hl.lookup, hcall, ?_⟩
    refine expandOnce?_eq_some_iff.2 ⟨_, d.body, hcall, ?_, ?_⟩
    · exact Definition.substitute_of_objectLike hd
    · rw [splice_of_endsOutside hl.wordAt.left, joins_of_startsOutside d.body hl.wordAt.right]
      rfl

/-- The bounded expansion, by the cost of the words that are left: a step is taken exactly if there
is a cost, and takes one off. -/
theorem go_objectLike {cost : Text → ℕ∞} {full : Text → Text}
    (hu : x.table.IsUnfolding cost full) (n : ℕ) (t : Text) :
    (((words t).map cost).sum ≤ n → expand.go x n t = .ok (mapWords full t)) ∧
      (¬ ((words t).map cost).sum ≤ n →
        ∃ name snippet, expand.go x n t = .error (.didNotTerminate name x.limit snippet)) := by
  have hdone : ∀ n t, x.select t = .ok none → (∀ w ∈ words t, x.table.get? w = none) →
      ((words t).map cost).sum ≤ (n : ℕ) ∧ expand.go x n t = .ok (mapWords full t) := by
    intro n t hnone hall
    obtain ⟨hcost, hfull⟩ := hu.of_no_names hall
    rw [hcost, hfull]
    exact ⟨bot_le, go_of_select_none hnone n⟩
  induction n generalizing t with
  | zero =>
    rcases objectLike_cases hobject t with
      ⟨hnone, hall⟩ | ⟨before, w, after, d, hat, hget, hcall, -⟩
    · exact ⟨fun _ => (hdone 0 t hnone hall).2, fun hn => absurd (hdone 0 t hnone hall).1 hn⟩
    · refine ⟨fun hle => ?_, fun _ => ⟨_, _, go_zero_of_select_some hcall⟩⟩
      rw [(hu.of_step hat hget).1, Nat.cast_zero, nonpos_iff_eq_zero] at hle
      simp at hle
  | succ n ih =>
    rcases objectLike_cases hobject t with
      ⟨hnone, hall⟩ | ⟨before, w, after, d, hat, hget, -, hstep⟩
    · exact ⟨fun _ => (hdone _ t hnone hall).2, fun hn => absurd (hdone _ t hnone hall).1 hn⟩
    · obtain ⟨hcost, hfull⟩ := hu.of_step hat hget
      obtain ⟨hok, herror⟩ := ih (before ++ (d.body ++ after))
      have hiff : ((words t).map cost).sum ≤ (n + 1 : ℕ) ↔
          ((words (before ++ (d.body ++ after))).map cost).sum ≤ n := by
        rw [hcost, Nat.cast_add, Nat.cast_one, add_comm (n : ℕ∞) 1]
        exact ENat.add_le_add_iff_left (by simp)
      rw [go_succ_of_step hstep, hiff]
      refine ⟨fun hle => ?_, herror⟩
      rw [hok hle, hfull]
      exact ne_top_of_le_ne_top (ENat.natCast_ne_top _) (hiff.2 hle)

end Expander

/-- Tables of object-like definitions are confluent, cyclic or not. With the cost and the full
expansion of words as `isUnfolding` has them, both selections give the text with every word fully
expanded if the words of the text cost no more than the limit, and both stop at the limit otherwise.
No step fails or puts a space anywhere: it puts the body of a definition in the place of its
name. -/
theorem expand_objectLike (table : Table)
    (hobject : ∀ d ∈ table.definitions, d.parameters = none) :
    table.IsUnfolding table.cost table.full ∧
    ∀ (selection : Selection) (limit : ℕ) (t : Text),
      (((words t).map table.cost).sum ≤ limit →
        (Expander.mk table selection limit).expand t = .ok (mapWords table.full t)) ∧
      (¬ ((words t).map table.cost).sum ≤ limit →
        ∃ name snippet, (Expander.mk table selection limit).expand t =
          .error (.didNotTerminate name limit snippet)) ∧
      ((∀ w ∈ words t, w ∉ table.definitions.map Definition.name) ∧
          (Expander.mk table selection limit).expandOnce? t = .ok none ∨
        ∃ before w after, WordAt t before w after ∧ ∃ d ∈ table.definitions, d.name = w ∧
          (Expander.mk table selection limit).expandOnce? t =
            .ok (some (before ++ (d.body ++ after)))) := by
  -- costs and expansions of words are settled, and `go_objectLike` counts the steps with them
  refine ⟨table.isUnfolding, fun selection limit t => ?_⟩
  have hobject' : ∀ d ∈ (Expander.mk table selection limit).table.definitions,
      d.parameters = none := hobject
  obtain ⟨hok, herror⟩ := Expander.go_objectLike hobject' table.isUnfolding limit t
  refine ⟨hok, herror, ?_⟩
  rcases Expander.objectLike_cases hobject' t with
    ⟨hnone, hall⟩ | ⟨before, w, after, d, hat, hget, -, hstep⟩
  · refine .inl ⟨fun w hw hname => ?_, Expander.expandOnce?_eq_none_iff.2 hnone⟩
    obtain ⟨d, hd, hn⟩ := List.mem_map.1 hname
    have hget := table.get?_eq_some_iff.2 ⟨hd, hn⟩
    exact absurd (hall w hw) (by rw [hget]; simp)
  · obtain ⟨hd, hn⟩ := table.get?_eq_some_iff.1 hget
    exact .inr ⟨before, w, after, hat, d, hd, hn, hstep⟩

/-- A name that is referred to twice, and a name that refers to itself. -/
theorem expand_objectLike_twice_and_cycle :
    (∀ d ∈ (Table.ofList [⟨['A'], none, ['B', '-', 'B']⟩, ⟨['B'], none, ['1']⟩,
        ⟨['C'], none, ['C']⟩]).definitions, d.parameters = none) ∧
    (Expander.mk (.ofList [⟨['A'], none, ['B', '-', 'B']⟩, ⟨['B'], none, ['1']⟩,
        ⟨['C'], none, ['C']⟩]) .definitionOrder 3).expand ['A'] = .ok ['1', '-', '1'] ∧
    ∃ name snippet, (Expander.mk (.ofList [⟨['A'], none, ['B', '-', 'B']⟩, ⟨['B'], none, ['1']⟩,
        ⟨['C'], none, ['C']⟩]) .leftmost 3).expand ['A', ' ', 'C'] =
      .error (.didNotTerminate name 3 snippet) := by
  have h := (expand_objectLike (.ofList [⟨['A'], none, ['B', '-', 'B']⟩, ⟨['B'], none, ['1']⟩,
    ⟨['C'], none, ['C']⟩]) (by decide)).2
  exact ⟨by decide, (h .definitionOrder 3 ['A']).1 (by decide),
    (h .leftmost 3 ['A', ' ', 'C']).2.1 (by decide)⟩

end FlatHeader
