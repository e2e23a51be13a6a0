import FlatHeader.Proofs.Lockstep

/-!
# Parameter names do not matter

Other names for the parameters of a definition, exchanged in its body, are replaced by the same
arguments, as long as they are words of neither the body nor the arguments. A step brings such words
into no text, so a table with renamed parameters expands texts in lockstep with the first one. The
only difference is that replacing one parameter after another is never ambiguous for the new names.
-/

namespace FlatHeader

open Text

/-! ## Other names for the parameters -/

/-- The second definition is the first one with other names for its parameters, which are distinct
identifiers. In the body they stand where the old ones stood. -/
inductive Definition.Renames : Definition → Definition → Prop
  | objectLike (name body : Text) : Renames ⟨name, none, body⟩ ⟨name, none, body⟩
  | functionLike (name body : Text) {parameters renamed : List Text}
      (hlen : parameters.length = renamed.length)
      (hidentifier : ∀ q ∈ renamed, isIdentifier q = true) (hnodup : renamed.Nodup) :
      Renames ⟨name, some parameters, body⟩
        ⟨name, some renamed, mapWords (valueOf (parameters.zip renamed)) body⟩

/-- The definitions of the second table are those of the first, in the same order, with other names
for their parameters. -/
def Table.Renames (table table' : Table) : Prop :=
  List.Forall₂ Definition.Renames table.definitions table'.definitions

/-- No parameter of a definition in the table is a word of the text. -/
def Table.NoParameterIn (table : Table) (t : Text) : Prop :=
  ∀ d ∈ table.definitions, ∀ p ∈ d.parameters.getD [], p ∉ words t

theorem valueOf_cons (p a : Text) (pairs : List (Text × Text)) (w : Text) :
    valueOf ((p, a) :: pairs) w = if w = p then a else valueOf pairs w := by
  unfold valueOf
  rw [List.lookup_cons]
  by_cases hw : w = p
  · rw [if_pos hw, beq_iff_eq.2 hw]
    rfl
  · rw [if_neg hw, beq_eq_false_iff_ne.2 hw]

/-- A word has the same value by way of a new name, if it is no new name itself. -/
theorem valueOf_zip_valueOf_zip {parameters renamed l : List Text}
    (hlen : parameters.length = renamed.length) (hl : renamed.length = l.length)
    (hnodup : renamed.Nodup) {w : Text} (hw : w ∉ renamed) :
    valueOf (renamed.zip l) (valueOf (parameters.zip renamed) w) =
      valueOf (parameters.zip l) w := by
  induction parameters generalizing renamed l with
  | nil =>
    obtain rfl := List.length_eq_zero_iff.1 hlen.symm
    rfl
  | cons p parameters ih =>
    match renamed, l, hlen, hl with
    | q :: renamed, a :: l, hlen, hl =>
      rw [List.length_cons, List.length_cons, Nat.succ_inj] at hlen hl
      rw [List.nodup_cons] at hnodup
      rw [List.mem_cons, not_or] at hw
      simp only [List.zip_cons_cons, valueOf_cons]
      by_cases hp : w = p
      · rw [if_pos hp, if_pos hp, if_pos rfl]
      · rw [if_neg hp, if_neg hp, ← ih hlen hl hnodup.2 hw.2, if_neg]
        -- the value is a later new name or the word itself, and neither is the first new name
        rcases Definition.valueOf_zip_cases hlen w with hmem | ⟨-, hself⟩
        · exact fun h => hnodup.1 (h ▸ hmem)
        · exact fun h => hw.1 (hself.symm.trans h)

section renamed

variable {parameters renamed : List Text} (hlen : parameters.length = renamed.length)
  (hidentifier : ∀ q ∈ renamed, isIdentifier q = true)
include hlen hidentifier

/-- A renaming exchanges words for words. -/
theorem isWord_valueOf_zip {w : Text} (hw : IsWord w) :
    IsWord (valueOf (parameters.zip renamed) w) := by
  rcases Definition.valueOf_zip_cases hlen w with hmem | ⟨-, hself⟩
  · exact isWord_of_isIdentifier (hidentifier _ hmem)
  · rwa [hself]

/-- A body with new names takes arguments as the body with the old names does, if it held none of
the new names before. -/
theorem mapWords_valueOf_renamed {l : List Text} (hl : renamed.length = l.length)
    (hnodup : renamed.Nodup) {body : Text} (hbody : ∀ q ∈ renamed, q ∉ words body) :
    mapWords (valueOf (renamed.zip l)) (mapWords (valueOf (parameters.zip renamed)) body) =
      mapWords (valueOf (parameters.zip l)) body := by
  rw [mapWords_mapWords]
  refine mapWords_congr fun w hw => ?_
  rw [mapWords_of_isWord _ (isWord_valueOf_zip hlen hidentifier (isWord_of_mem_words hw))]
  exact valueOf_zip_valueOf_zip hlen hl hnodup fun hmem => hbody w hmem hw

end renamed

namespace Definition

/-! ## Substitution -/

/-- The replacement of as many parameters as there are arguments is ambiguous only if a parameter is
a word of an argument. -/
theorem substitute_cases {d : Definition} {parameters l : List Text}
    (hd : d.parameters = some parameters) (hlen : parameters.length = l.length) :
    d.substitute (some l) = .ok (mapWords (valueOf (parameters.zip l)) d.body) ∨
      ∃ p ∈ parameters, ∃ a ∈ l, p ∈ words a ∧ ∃ i,
        d.substitute (some l) = .error (.ambiguousSubstitutionOrder d.name p i) := by
  have hcases := replaceParameters_all_cases d.name d.body (parameters.zip l)
  rw [List.map_fst_zip hlen.le, List.map_snd_zip hlen.ge] at hcases
  rw [substitute_of_length_eq hd hlen]
  rcases hcases with ⟨-, hok⟩ | ⟨i, j, p, ⟨-, p', a, hp', ha, hword⟩, hp, -, -, herror⟩
  · exact .inl hok
  · obtain rfl := Option.some.inj (hp'.symm.trans hp)
    exact .inr ⟨p', List.mem_of_getElem? hp, a, List.mem_of_getElem? ha, hword, j, herror⟩

/-- An ambiguous substitution is about a parameter that is a word of an argument. -/
theorem exists_mem_words_of_ambiguous {d : Definition} {arguments : Option (List Text)}
    {name p : Text} {i : ℕ}
    (h : d.substitute arguments = .error (.ambiguousSubstitutionOrder name p i)) :
    p ∈ d.parameters.getD [] ∧ ∃ a ∈ arguments.getD [], p ∈ words a := by
  cases refuses_of_substitute h with
  | clash hd hclash hp =>
    obtain ⟨-, p', a, hp', ha, hword⟩ := hclash
    obtain rfl := Option.some.inj (hp'.symm.trans hp)
    rw [hd]
    exact ⟨List.mem_of_getElem? hp, a, List.mem_of_getElem? ha, hword⟩

namespace Renames

variable {d d' : Definition}

theorem calledAlike (h : d.Renames d') : d.CalledAlike d' := by
  cases h with
  | objectLike name body => exact .refl _
  | functionLike name body hlen _ _ => exact ⟨rfl, congrArg some hlen.symm⟩

/-- A word of the new body is a new parameter or a word of the old body. -/
theorem mem_words_body (h : d.Renames d') {w : Text} (hw : w ∈ words d'.body) :
    w ∈ d'.parameters.getD [] ∨ w ∈ words d.body := by
  cases h with
  | objectLike name body => exact .inr hw
  | functionLike name body hlen hidentifier _ =>
    rw [words_mapWords, List.mem_flatMap] at hw
    obtain ⟨v, hv, hw⟩ := hw
    rw [words_of_isWord (isWord_valueOf_zip hlen hidentifier (isWord_of_mem_words hv)),
      List.mem_singleton] at hw
    subst hw
    rcases valueOf_zip_cases hlen v with hmem | ⟨-, hself⟩
    · exact .inl hmem
    · exact .inr (hself.symm ▸ hv)

/-- With fresh names the same is substituted, unless the old names were ambiguous. -/
theorem substitute_eq (h : d.Renames d') {arguments : Option (List Text)}
    (hbody : ∀ q ∈ d'.parameters.getD [], q ∉ words d.body)
    (harguments : ∀ q ∈ d'.parameters.getD [], ∀ a ∈ arguments.getD [], q ∉ words a) :
    d'.substitute arguments = d.substitute arguments ∨
      ∃ name p i, d.substitute arguments = .error (.ambiguousSubstitutionOrder name p i) := by
  cases h with
  | objectLike name body => exact .inl rfl
  | @functionLike name body parameters renamed hlen hidentifier hnodup =>
    cases arguments with
    | none =>
      left
      simp [substitute, hlen]
    | some l =>
      by_cases hl : renamed.length = l.length
      · have hold := substitute_cases (d := ⟨name, some parameters, body⟩) rfl (hlen.trans hl)
        have hnew := substitute_cases
          (d := ⟨name, some renamed, mapWords (valueOf (parameters.zip renamed)) body⟩) rfl hl
        rw [mapWords_valueOf_renamed hlen hidentifier hl hnodup hbody] at hnew
        rcases hold with hok | ⟨p, -, a, -, -, i, herror⟩
        · rcases hnew with hok' | ⟨q, hq, a, ha, hword, -⟩
          · exact .inl (hok'.trans hok.symm)
          · exact absurd hword (harguments q hq a ha)
        · exact .inr ⟨_, p, i, herror⟩
      · left
        simp [substitute, hlen, hl]

end Renames

end Definition

/-! ## The texts of a run -/

namespace Table.Renames

variable {table table' : Table} (h : table.Renames table')
include h

theorem exists_renames {d' : Definition} (hd' : d' ∈ table'.definitions) :
    ∃ d ∈ table.definitions, d.Renames d' := by
  obtain ⟨hlen, hget⟩ := List.forall₂_iff_get.1 h
  obtain ⟨⟨i, hi'⟩, rfl⟩ := List.get_of_mem hd'
  have hi : i < table.definitions.length := by rwa [hlen]
  exact ⟨_, List.get_mem _ ⟨i, hi⟩, hget i hi hi'⟩

theorem forall₂_mem :
    List.Forall₂ (fun d d' => d.Renames d' ∧ d' ∈ table'.definitions) table.definitions
      table'.definitions := by
  obtain ⟨hlen, hget⟩ := List.forall₂_iff_get.1 h
  exact List.forall₂_iff_get.2 ⟨hlen, fun i hi hi' => ⟨hget i hi hi', List.get_mem _ ⟨i, hi'⟩⟩⟩

/-- A step of the second table brings in no words but those of bodies of the first one. -/
theorem mem_words_of_step {x : Expander} (hx : x.table = table') {t u w : Text}
    (hstep : x.expandOnce? t = .ok (some u)) (hw : w ∈ words u) :
    w ∈ words t ∨ ∃ d ∈ table.definitions, w ∈ words d.body := by
  rcases Expander.mem_words_of_step hstep hw with hword | ⟨d', hd', hword, hparameter⟩
  · exact .inl hword
  · obtain ⟨d, hd, hrenames⟩ := h.exists_renames (hx ▸ hd')
    exact .inr ⟨d, hd, (hrenames.mem_words_body hword).resolve_left hparameter⟩

end Table.Renames

/-- A text that brings in no words but those of bodies holds no parameter, if the bodies do not. -/
theorem Table.NoParameterIn.of_words {table table' : Table} {t u : Text}
    (ht : table'.NoParameterIn t) (hbodies : ∀ d ∈ table.definitions, table'.NoParameterIn d.body)
    (h : ∀ w ∈ words u, w ∈ words t ∨ ∃ d ∈ table.definitions, w ∈ words d.body) :
    table'.NoParameterIn u := by
  intro d' hd' q hq hword
  rcases h q hword with hword | ⟨d, hd, hword⟩
  · exact ht d' hd' q hq hword
  · exact hbodies d hd d' hd' q hq hword

/-- Where no parameter is a word of any text of a run, no substitution is ambiguous. -/
theorem Expander.expand_ne_ambiguous {x : Expander} {t : Text} (ht : x.table.NoParameterIn t)
    (hstep : ∀ t u, x.table.NoParameterIn t → x.expandOnce? t = .ok (some u) →
      x.table.NoParameterIn u) (name p : Text) (i : ℕ) :
    x.expand t ≠ .error (.ambiguousSubstitutionOrder name p i) := by
  intro h
  have houtcome := x.outcome_go x.limit t
  rw [← expand, h] at houtcome
  cases houtcome with
  | unreadable _ _ hu =>
    rcases select_eq_error_cases hu with ⟨_, _, he⟩ | ⟨_, _, he⟩
    · exact absurd he (by simp)
    · exact absurd he (by simp)
  | unsubstitutable _ hrun hu hc =>
    obtain ⟨hp, a, ha, hword⟩ := Definition.exists_mem_words_of_ambiguous hc
    have hd := (x.standsIn_of_select _ hu).2
    exact hrun.keeps hstep ht _ hd p hp (mem_words_of_select hu (.inr (.inl ⟨a, ha, hword⟩)))

/-- Parameter names do not matter. If the second table has other names for the parameters of the
first one, which are distinct identifiers within each definition and words of neither the text nor a
body of the first table, then the expansion with the second table has the same result as that with
the first one, be it a text or an error, unless that is an ambiguous order of substitutions. The
second expansion does not fail for this reason in any case. -/
theorem expand_renamed {table table' : Table} (hrenames : table.Renames table') {t : Text}
    (ht : table'.NoParameterIn t) (hbodies : ∀ d ∈ table.definitions, table'.NoParameterIn d.body)
    (selection : Selection) (limit : ℕ) :
    ((∀ name p i, (Expander.mk table selection limit).expand t ≠
        .error (.ambiguousSubstitutionOrder name p i)) →
      (Expander.mk table' selection limit).expand t =
        (Expander.mk table selection limit).expand t) ∧
    ∀ name p i, (Expander.mk table' selection limit).expand t ≠
      .error (.ambiguousSubstitutionOrder name p i) := by
  constructor
  · intro hne
    have hlockstep : Expander.Lockstep ⟨table, selection, limit⟩ ⟨table', selection, limit⟩
        (fun d d' => d.Renames d' ∧ d' ∈ table'.definitions) table'.NoParameterIn
        fun e => ∃ name p i, e = .ambiguousSubstitutionOrder name p i := by
      have halike : ∀ d d', Definition.Renames d d' ∧ d' ∈ table'.definitions → d.CalledAlike d' :=
        fun d d' hd => hd.1.calledAlike
      refine ⟨rfl, fun d d' hd => (halike d d' hd).name, fun u _ => ?_,
        fun u c d' hu hc hd => ?_, fun u v hu hstep => ?_⟩
      · exact Expander.select_alike halike ⟨table, selection, limit⟩ ⟨table', selection, limit⟩
          hrenames.forall₂_mem rfl u
      · have hd' := (Expander.standsIn_of_select _ u hc).2
        rcases hd.1.substitute_eq (fun q => hbodies _ hd' d' hd.2 q) fun q hq a ha hword =>
            hu d' hd.2 q hq (Expander.mem_words_of_select hc (.inr (.inl ⟨a, ha, hword⟩))) with
          heq | ⟨name, p, i, herror⟩
        · exact .inl heq
        · exact .inr ⟨_, herror, name, p, i, rfl⟩
      · refine hu.of_words hbodies fun w hw => ?_
        rcases Expander.mem_words_of_step hstep hw with hword | ⟨d, hd, hword, -⟩
        · exact .inl hword
        · exact .inr ⟨d, hd, hword⟩
    rcases hlockstep.go limit ht with heq | ⟨e, herror, name, p, i, rfl⟩
    · exact heq
    · exact absurd herror (hne name p i)
  · refine Expander.expand_ne_ambiguous ht fun u v hu hstep => ?_
    exact hu.of_words hbodies fun w hw => hrenames.mem_words_of_step rfl hstep hw

/-- An argument with the name of a later parameter is ambiguous in the first table, and not in the
second. Where it has the name of an earlier parameter, the results are the same. -/
theorem expand_renamed_argument_with_parameter_name :
    Table.Renames ⟨[⟨['F'], some [['a'], ['b']], ['a', '+', 'b']⟩], by decide⟩
      ⟨[⟨['F'], some [['p'], ['q']], ['p', '+', 'q']⟩], by decide⟩ ∧
    (Expander.mk ⟨[⟨['F'], some [['a'], ['b']], ['a', '+', 'b']⟩], by decide⟩ .leftmost 9).expand
      ['F', '(', 'b', ',', 'a', ')'] = .error (.ambiguousSubstitutionOrder ['F'] ['b'] 0) ∧
    (∀ name p i, (Expander.mk ⟨[⟨['F'], some [['p'], ['q']], ['p', '+', 'q']⟩], by decide⟩
      .leftmost 9).expand ['F', '(', 'b', ',', 'a', ')'] ≠
        .error (.ambiguousSubstitutionOrder name p i)) ∧
    (Expander.mk ⟨[⟨['F'], some [['p'], ['q']], ['p', '+', 'q']⟩], by decide⟩ .leftmost 9).expand
      ['F', '(', 'x', ',', 'a', ')'] = .ok ['x', '+', 'a'] := by
  have hrenames : Table.Renames ⟨[⟨['F'], some [['a'], ['b']], ['a', '+', 'b']⟩], by decide⟩
      ⟨[⟨['F'], some [['p'], ['q']], ['p', '+', 'q']⟩], by decide⟩ :=
    .cons (.functionLike ['F'] ['a', '+', 'b'] rfl (by decide) (by decide)) .nil
  have hfirst : (Expander.mk ⟨[⟨['F'], some [['a'], ['b']], ['a', '+', 'b']⟩], by decide⟩
      .leftmost 9).expand ['F', '(', 'x', ',', 'a', ')'] = .ok ['x', '+', 'a'] := by rfl
  refine ⟨hrenames, by rfl, ?_, ?_⟩
  · exact (expand_renamed hrenames (by unfold Table.NoParameterIn; decide)
      (by unfold Table.NoParameterIn; decide) .leftmost 9).2
  · refine ((expand_renamed hrenames (by unfold Table.NoParameterIn; decide)
      (by unfold Table.NoParameterIn; decide) .leftmost 9).1 fun name p i => ?_).trans hfirst
    rw [hfirst]
    simp

end FlatHeader
