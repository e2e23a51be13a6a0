import FlatHeader.Proofs.Concatenation
import FlatHeader.Proofs.Continuations
import FlatHeader.Proofs.PlainCalls
import FlatHeader.Proofs.Scanning

/-!
# Calls of extracted definitions

A call of a definition can be written down: its name, and in parentheses an argument for each
parameter, with commas and white space between them. The scanner reads the call back as it was
meant (`Call.ofWord?_argumentList`): the name of an extracted definition is a single word, and the
list is split into the arguments it was made from, for every number of them. So if nothing in front
is a name, a step from the left puts the substituted body in the place of the call.
-/

namespace FlatHeader

open Text

/-! ## The names of extracted definitions -/

/-- The definitions in the table of a source are read as `Definition.WellRead` says. -/
theorem Table.wellRead_of_parse {source : Text} {table : Table}
    (h : Table.parse source = .ok table) {d : Definition} (hd : d ∈ table.definitions) :
    d.WellRead := by
  obtain ⟨-, rfl⟩ := Table.parse_eq_ok_iff.1 h
  obtain ⟨l, hl, rfl⟩ := List.mem_map.1 (Table.mem_of_mem_ofList hd)
  exact Extraction.ofLines_wellRead source 1 none (fun o ho => absurd ho (by simp)) l hl

theorem Table.isWord_name_of_parse {source : Text} {table : Table}
    (h : Table.parse source = .ok table) {d : Definition} (hd : d ∈ table.definitions) :
    IsWord d.name :=
  isWord_of_isIdentifier (Table.wellRead_of_parse h hd).signature.name

/-! ## Argument lists -/

/-- A text that can be an argument of a written call: it is trimmed, and no character of it ends an
argument. -/
structure Text.IsArgument (a : Text) : Prop where
  noParens : NoParens a
  noComma : ',' ∉ a
  trim_eq : trim a = a

instance : DecidablePred IsArgument := fun a =>
  decidable_of_iff (('(' ∉ a ∧ ')' ∉ a) ∧ ',' ∉ a ∧ trim a = a)
    ⟨fun h => ⟨h.1, h.2.1, h.2.2⟩, fun h => ⟨h.noParens, h.noComma, h.trim_eq⟩⟩

/-- What stands between the parentheses of a written call: the arguments, with a comma and a gap
between two of them. -/
def Call.argumentList (gap : Text) (arguments : List Text) : Text :=
  (',' :: gap).intercalate arguments

namespace Call

variable {gap : Text} {arguments : List Text}

theorem noParens_argumentList (hgap : ∀ c ∈ gap, Unicode.isWhiteSpace c = true)
    (harguments : ∀ a ∈ arguments, IsArgument a) : NoParens (argumentList gap arguments) := by
  refine noParens_iff.2 fun c hc => ?_
  rcases mem_intercalate hc with hc | ⟨a, ha, hc⟩
  · rcases List.mem_cons.1 hc with rfl | hc
    · decide
    · have hwhite := hgap c hc
      exact ⟨fun h => absurd (h ▸ hwhite) (by decide), fun h => absurd (h ▸ hwhite) (by decide)⟩
  · exact noParens_iff.1 (harguments a ha).noParens c hc

/-- A written argument list is split into the arguments it was made from. With no parameter there
is nothing to split, and with one an empty list is an empty argument. -/
theorem splitArguments_argumentList {d : Definition} {parameters : List Text}
    (hd : d.parameters = some parameters) (hlen : arguments.length = parameters.length)
    (hgap : ∀ c ∈ gap, Unicode.isWhiteSpace c = true)
    (harguments : ∀ a ∈ arguments, IsArgument a) :
    splitArguments d (argumentList gap arguments) = arguments := by
  unfold splitArguments
  rw [hd]
  by_cases hnil : arguments = []
  · have hparameters : parameters = [] := by
      rw [hnil] at hlen
      exact List.length_eq_zero_iff.1 hlen.symm
    rw [hnil, hparameters]
    rfl
  · have hparameters : parameters ≠ [] := by
      intro h
      rw [h] at hlen
      exact hnil (List.length_eq_zero_iff.1 hlen)
    have hcomma : ',' ∉ gap := fun h => absurd (hgap _ h) (by decide)
    rw [if_neg (by simp [hparameters])]
    exact map_trim_splitOn_intercalate hgap hcomma
      (fun a ha => ⟨(harguments a ha).noComma, (harguments a ha).trim_eq⟩) hnil

example : splitArguments ⟨['N'], some [], ['n']⟩ (argumentList [' '] []) = [] ∧
    splitArguments ⟨['E'], some [['z']], ['z']⟩ (argumentList [' '] [[]]) = [[]] := by decide

/-- A written call is read as a call with the arguments it was made from. -/
theorem ofWord?_argumentList {d : Definition} {parameters : List Text}
    (hd : d.parameters = some parameters) (hlen : arguments.length = parameters.length)
    (hgap : ∀ c ∈ gap, Unicode.isWhiteSpace c = true)
    (harguments : ∀ a ∈ arguments, IsArgument a) (before w after : Text) :
    ofWord? d before.reverse w ('(' :: (argumentList gap arguments ++ ')' :: after)) =
      .ok (some ⟨before, d, some arguments, w ++ '(' :: argumentList gap arguments ++ [')'],
        after⟩) := by
  have hlike : d.isFunctionLike = true := by rw [Definition.isFunctionLike, hd, Option.isSome_some]
  rw [ofWord?_of_closed hlike (noParens_iff.1 (noParens_argumentList hgap harguments)),
    splitArguments_argumentList hd hlen hgap harguments, List.reverse_reverse]

end Call

/-! ## The substituted body -/

/-- Where no parameter is a word of an earlier argument, a call gives the body with all parameters
exchanged at once. -/
theorem Definition.substitute_of_not_clash {d : Definition} {parameters arguments : List Text}
    (hd : d.parameters = some parameters) (hlen : arguments.length = parameters.length)
    (hclash : ∀ i j, ¬ Clash parameters arguments i j) :
    d.substitute (some arguments) =
      .ok (mapWords (valueOf (parameters.zip arguments)) d.body) := by
  rw [substitute_of_length_eq hd hlen.symm]
  have hcases := replaceParameters_all_cases d.name d.body (parameters.zip arguments)
  rw [List.map_fst_zip hlen.ge, List.map_snd_zip hlen.le] at hcases
  rcases hcases with ⟨-, hok⟩ | ⟨i, j, p, hat, -, -, -, -⟩
  · exact hok
  · exact absurd hat (hclash i j)

theorem separator_cases (r after : Text) :
    (separator r after = [' '] ∨ separator r after = []) ∧
      (separator r after = [' '] ↔ ∃ x y, r.getLast? = some x ∧ after.head? = some y ∧
        isWordChar x = true ∧ isWordChar y = true) := by
  rw [← joins_eq_true_iff]
  unfold separator
  cases joins r after <;> simp

/-! ## A step -/

namespace Expander

variable {table : Table} {limit : ℕ} {pre after : Text} {d : Definition}

/-- Behind a text without names, the call that the first word reads as is expanded. -/
theorem expandOnce?_behind_nameFree (hd : d ∈ table.definitions) (hw : IsWord d.name)
    (hpre : NameFree table pre) (hout : EndsOutside pre) (hafter : StartsOutside after)
    {c : Call} (hread : Call.ofWord? d pre.reverse d.name after = .ok (some c))
    {r : Text} (hr : c.replacement = .ok r) :
    (Expander.mk table .leftmost limit).expandOnce? (pre ++ (d.name ++ after)) =
      .ok (some (pre ++ (r ++ (separator r c.after ++ c.after)))) := by
  have hlive : d.Live after := by
    by_contra hnot
    rw [(Call.ofWord?_eq_none_iff d pre.reverse d.name after).2 hnot] at hread
    exact absurd hread (by simp)
  have hname : LiveAt table.get? (d.name ++ after) [] d.name after d :=
    ⟨⟨rfl, hw, endsOutside_nil, hafter⟩, table.get?_eq_some_iff.2 ⟨hd, rfl⟩, hlive⟩
  have hjoins := joins_of_endsOutside hout (d.name ++ after)
  have hselect : (Expander.mk table .leftmost limit).select (pre ++ (d.name ++ after)) =
      .ok (some c) := by
    have hl := (liveAt_nameFree_append_iff hpre hjoins).2
      ⟨[], hname, (List.append_nil pre).symm⟩
    refine (Call.first?_of_first table.get? hl fun before w rest e hl' => ?_).trans hread
    obtain ⟨front, -, rfl⟩ := (liveAt_nameFree_append_iff hpre hjoins).1 hl'
    rw [List.length_append]
    exact Nat.le_add_right _ _
  have hbefore := Call.before_of_ofWord? hread
  rw [expandOnce?_of_select_some hselect, hr]
  show Except.ok (some (c.splice r)) = _
  rw [Call.splice_eq (hbefore ▸ hout), hbefore, List.append_assoc]

end Expander

/-- Calling an extracted definition gives its substituted body. Let a text without names of the
table stand in front, and end outside words. A call that is written with an argument for each
parameter, where no parameter is a word of an earlier argument, is replaced with the body in which
all parameters are exchanged at once; a space follows exactly if the body would merge with what
stands behind the call. The name of an object-like definition, where the text behind it starts
outside words, is replaced with the body as it is. -/
theorem expandOnce?_of_parse {source : Text} {table : Table}
    (hparse : Table.parse source = .ok table) (limit : ℕ) {d : Definition}
    (hd : d ∈ table.definitions) {pre : Text} (hpre : NameFree table pre)
    (hout : EndsOutside pre) (post : Text) :
    (∀ parameters arguments gap, d.parameters = some parameters →
      arguments.length = parameters.length → (∀ a ∈ arguments, IsArgument a) →
      (∀ i j, ¬ Clash parameters arguments i j) →
      (∀ c ∈ gap, Unicode.isWhiteSpace c = true) →
      ∃ r sep : Text, r = mapWords (valueOf (parameters.zip arguments)) d.body ∧
        (sep = [' '] ∨ sep = []) ∧
        (sep = [' '] ↔ ∃ x y, r.getLast? = some x ∧ post.head? = some y ∧
          isWordChar x = true ∧ isWordChar y = true) ∧
        (Expander.mk table .leftmost limit).expandOnce?
            (pre ++ (d.name ++ '(' :: (Call.argumentList gap arguments ++ ')' :: post))) =
          .ok (some (pre ++ (r ++ (sep ++ post))))) ∧
    (d.parameters = none → StartsOutside post →
      (Expander.mk table .leftmost limit).expandOnce? (pre ++ (d.name ++ post)) =
        .ok (some (pre ++ (d.body ++ post)))) := by
  have hw := Table.isWord_name_of_parse hparse hd
  constructor
  · intro parameters arguments gap hparameters hlen harguments hclash hgap
    obtain ⟨hsep, hspace⟩ :=
      separator_cases (mapWords (valueOf (parameters.zip arguments)) d.body) post
    exact ⟨_, _, rfl, hsep, hspace, Expander.expandOnce?_behind_nameFree hd hw hpre hout
      (startsOutside_cons (by decide) _)
      (Call.ofWord?_argumentList hparameters hlen hgap harguments pre d.name post)
      (Definition.substitute_of_not_clash hparameters hlen hclash)⟩
  · intro hparameters hpost
    have hread := Call.ofWord?_of_objectLike
      (Definition.isFunctionLike_eq_false_iff.2 hparameters) pre.reverse d.name post
    rw [Expander.expandOnce?_behind_nameFree hd hw hpre hout hpost hread
      (Definition.substitute_of_objectLike hparameters), separator, joins_of_startsOutside _ hpost]
    rfl

/-- A later argument that holds a parameter and a name, a space in front of a word that goes on, and
a definition without parameter list. -/
theorem expandOnce?_of_parse_space :
    ∃ table, Table.parse "#define F(x, y) x##y\n#define PI 3\n".toList = .ok table ∧
      (Expander.mk table .leftmost 9).expandOnce? "a = F(1, x PI)_t".toList =
        .ok (some "a = 1##x PI _t".toList) ∧
      (Expander.mk table .leftmost 9).expandOnce? "a = PI;".toList =
        .ok (some "a = 3;".toList) := by
  have hparse : Table.parse "#define F(x, y) x##y\n#define PI 3\n".toList =
      .ok (.ofList [⟨['F'], some [['x'], ['y']], "x##y".toList⟩, ⟨['P', 'I'], none, ['3']⟩]) := by
    rfl
  have hpre : NameFree (.ofList [⟨['F'], some [['x'], ['y']], "x##y".toList⟩,
      ⟨['P', 'I'], none, ['3']⟩]) "a = ".toList := by decide
  have hout : EndsOutside "a = ".toList := (endsOutside_concat "a =".toList ' ').2 (by decide)
  have hclash : ∀ i j, ¬ Clash [['x'], ['y']] [['1'], "x PI".toList] i j := by
    rintro i j ⟨hj, p, a, hp, ha, hmem⟩
    match i, j, hj with
    | 1, 0, _ =>
      rw [List.getElem?_cons_succ, List.getElem?_cons_zero, Option.some.injEq] at hp
      rw [List.getElem?_cons_zero, Option.some.injEq] at ha
      subst hp ha
      exact absurd hmem (by decide)
    | i + 2, j, _ => simp at hp
  obtain ⟨r, sep, hr, -, hspace, hstep⟩ := (expandOnce?_of_parse hparse 9
    (d := ⟨['F'], some [['x'], ['y']], "x##y".toList⟩) (by decide) hpre hout "_t".toList).1
    [['x'], ['y']] [['1'], "x PI".toList] [' '] rfl rfl (by decide) hclash
    (List.forall_mem_singleton.2 rfl)
  obtain rfl : "1##x PI".toList = r := hr.symm
  rw [hspace.2 ⟨'I', '_', rfl, rfl, by decide, by decide⟩] at hstep
  exact ⟨_, hparse, hstep, (expandOnce?_of_parse hparse 9 (d := ⟨['P', 'I'], none, ['3']⟩)
    (by decide) hpre hout ";".toList).2 rfl (startsOutside_cons (by decide) [])⟩

end FlatHeader
