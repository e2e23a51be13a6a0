import FlatHeader.Header
import FlatHeader.Proofs.Runs
import FlatHeader.Proofs.Stages

/-!
# Calls that cleaning up makes

An expanded text has no call left, but it is cleaned up afterwards. Where a paste mark or a
continuation marker goes, the characters on both sides come together, and they may make the name of
a definition, or put an argument list right behind one. `GluedCall` says where that happens, and
`hasCall_cleanUp_iff` that it is the only way in which a header gets a call.
-/

namespace FlatHeader

open Text

/-! ## String marks -/

section

variable {table : Table} {t : Text}

/-- A call stays when string marks are resolved, unless that puts a quote between a name and its
argument list. -/
theorem LiveAt.hasCall_resolveStringMarks {before w after : Text} {d : Definition}
    (hl : LiveAt table.get? t before w after d)
    (hunquoted : d.isFunctionLike = true → ¬ Quoted before w) :
    HasCall table (resolveStringMarks t) := by
  obtain ⟨⟨rfl, hw, hbefore, hafter⟩, hlookup, hlive⟩ := hl
  rcases resolveStringMarks_around_word hbefore hw hafter with ⟨-, heq⟩ | ⟨hquoted, front, -, heq⟩
  · refine ⟨_, w, _, d, ⟨heq, hw, endsOutside_resolveStringMarks hbefore,
      startsOutside_resolveStringMarks hafter⟩, hlookup, ?_⟩
    refine hlive.imp_right fun hparen => ?_
    obtain ⟨rest, rfl⟩ := List.head?_eq_some_iff.1 hparen
    rw [resolveStringMarks_cons, pushString_of_ne (by decide), List.head?_cons]
  · -- a name that is put in quotes is still a word
    have hquote : isWordChar '"' = false := by decide
    have hlike : d.isFunctionLike = false := Bool.eq_false_iff.2 fun h => hunquoted h hquoted
    refine ⟨resolveStringMarks front ++ ['"'], w, '"' :: resolveStringMarks after, d,
      ⟨by rw [heq]; simp, hw, (endsOutside_concat _ _).2 hquote, startsOutside_cons hquote _⟩,
      hlookup, .inl hlike⟩

/-- A word in front of a character that resolving string marks neither changes nor brings in comes
from the same word, which is not put in quotes. -/
theorem exists_wordAt_of_resolveStringMarks {c : Char} (hc : isWordChar c = false)
    (hmark : c ≠ '#') (hquote : c ≠ '"') {before w after : Text}
    (h : WordAt (resolveStringMarks t) before w (c :: after)) :
    ∃ front rest, WordAt t front w (c :: rest) ∧ ¬ Quoted front w := by
  have hsplit : ∀ a b : Text, resolveStringMarks (a ++ c :: b) =
      resolveStringMarks a ++ c :: resolveStringMarks b := fun a b => by
    rw [resolveStringMarks_append a (startsOutside_cons hc b), resolveStringMarks_cons,
      pushString_of_ne hmark]
  have hnew : ∀ s : Text, c ∈ resolveStringMarks s → c ∈ s := fun s =>
    (Continuation.mem_resolveStringMarks_iff hmark hquote s).1
  obtain ⟨a, rest, rfl, ha, -⟩ :=
    exists_split_of_eq_append_cons hsplit hnew (h.eq.trans (List.append_assoc _ _ _).symm)
  rcases endsOutside_or_exists_word a with hout | ⟨front, v, rfl, hfront, hv⟩
  · have hend := endsOutside_resolveStringMarks hout
    rw [ha] at hend
    exact absurd hend.of_append_right h.isWord.not_endsOutside
  · have haround := resolveStringMarks_around_word hfront hv startsOutside_nil
    rw [List.append_nil, ha] at haround
    rcases haround with ⟨hunquoted, heq⟩ | ⟨-, s, -, heq⟩
    · rw [show resolveStringMarks [] = [] from rfl, List.append_nil] at heq
      obtain rfl := h.isWord.last_unique hv h.left (endsOutside_resolveStringMarks hfront) heq
      exact ⟨front, rest, ⟨by simp, hv, hfront, startsOutside_cons hc rest⟩, hunquoted⟩
    · -- behind a word in quotes stands a quote
      have hend : EndsOutside (before ++ w) := by
        rw [heq, show resolveStringMarks s ++ '"' :: (v ++ '"' :: resolveStringMarks []) =
          resolveStringMarks s ++ '"' :: v ++ ['"'] by simp [resolveStringMarks]]
        exact (endsOutside_concat _ _).2 (by decide)
      exact absurd hend.of_append_right h.isWord.not_endsOutside

theorem hasCall_resolveStringMarks_iff :
    HasCall table (resolveStringMarks t) ↔
      ∃ before w after d, LiveAt table.get? t before w after d ∧
        (d.isFunctionLike = true → ¬ Quoted before w) := by
  constructor
  · rintro ⟨before, w, after, d, hat, hlookup, hlive⟩
    rcases hlive with hlike | hparen
    · have hmem : w ∈ words t := by
        rw [← words_resolveStringMarks]
        exact mem_words_iff.2 ⟨before, after, hat⟩
      obtain ⟨before', after', hat'⟩ := mem_words_iff.1 hmem
      refine ⟨before', w, after', d, ⟨hat', hlookup, .inl hlike⟩, fun h => ?_⟩
      rw [hlike] at h
      exact absurd h (by decide)
    · obtain ⟨rest, rfl⟩ := List.head?_eq_some_iff.1 hparen
      obtain ⟨front, rest', hat', hunquoted⟩ :=
        exists_wordAt_of_resolveStringMarks (by decide) (by decide) (by decide) hat
      exact ⟨front, w, '(' :: rest', d, ⟨hat', hlookup, .inr rfl⟩, fun _ => hunquoted⟩
  · rintro ⟨before, w, after, d, hl, hunquoted⟩
    exact hl.hasCall_resolveStringMarks hunquoted

end

/-! ## Continuation markers and paste marks -/

section

variable {mode : ContinuationMode} {a : Text}

/-- A word character at the end of a text is still there without the marks. -/
theorem endsOutside_of_unmark (h : EndsOutside (unmark mode a)) : EndsOutside a := by
  rcases List.eq_nil_or_concat a with rfl | ⟨s, c, rfl⟩
  · exact endsOutside_nil
  · rw [List.concat_eq_append] at h ⊢
    refine (endsOutside_concat s c).2 ?_
    by_contra hc
    rw [Bool.not_eq_false] at hc
    rw [unmark_append_cons (unmarking_of_isWordChar hc)] at h
    rw [show unmark mode [] = [] from rfl, endsOutside_concat, hc] at h
    exact absurd h (by decide)

/-- A word character at the beginning of a text is still there without the marks. -/
theorem startsOutside_of_unmark (h : StartsOutside (unmark mode a)) : StartsOutside a := by
  cases a with
  | nil => exact startsOutside_nil
  | cons c t =>
    refine startsOutside_cons ?_ t
    by_contra hc
    rw [Bool.not_eq_false] at hc
    have hsplit := unmark_append_cons (unmarking_of_isWordChar hc) mode [] t
    rw [List.nil_append] at hsplit
    rw [hsplit] at h
    exact absurd (h c rfl) (by rw [hc]; decide)

end

/-- Taking marks out of `t` makes a call of `d`: the stretch `name` between `front` and `rest`
becomes the name of `d`, and it is to be read as a call in what is left. There were marks within the
stretch or between it and an argument list, and no quote comes in between. -/
structure GluedCall (mode : ContinuationMode) (table : Table) (t front name rest : Text)
    (d : Definition) : Prop where
  eq : t = front ++ (name ++ rest)
  live : LiveAt table.get? (unmark mode t) (unmark mode front) (unmark mode name)
    (unmark mode rest) d
  marked : unmark mode name ≠ name ∨ (d.isFunctionLike = true ∧ rest.head? ≠ some '(')
  unquoted : d.isFunctionLike = true → ¬ Quoted (unmark mode front) (unmark mode name)

/-- A text without calls has one after it is cleaned up exactly if taking marks out makes one. -/
theorem hasCall_cleanUp_iff {mode : ContinuationMode} {table : Table} {t : Text}
    (ht : ¬ HasCall table t) :
    HasCall table (cleanUp mode t) ↔
      ∃ front name rest d, GluedCall mode table t front name rest d := by
  have hstages : cleanUp mode t = resolveStringMarks (unmark mode t) := rfl
  rw [hstages, hasCall_resolveStringMarks_iff]
  constructor
  · rintro ⟨before, w, after, d, hl, hunquoted⟩
    obtain ⟨front, name, rest, heq, rfl, rfl, rfl⟩ := exists_stretch_of_wordAt_unmark hl.wordAt
    refine ⟨front, name, rest, d, heq, hl, ?_, hunquoted⟩
    -- otherwise the call stood in the text before
    by_contra hmarked
    rw [not_or, not_and, not_not, not_not] at hmarked
    obtain ⟨hname, hrest⟩ := hmarked
    have hat : WordAt t front name rest :=
      ⟨heq, hname ▸ hl.wordAt.isWord, endsOutside_of_unmark hl.wordAt.left,
        startsOutside_of_unmark hl.wordAt.right⟩
    refine ht ⟨front, name, rest, d, hat, hname ▸ hl.lookup, ?_⟩
    cases hlike : d.isFunctionLike with
    | false => exact .inl hlike
    | true => exact .inr (hrest hlike)
  · rintro ⟨front, name, rest, d, -, hl, -, hunquoted⟩
    exact ⟨_, _, _, d, hl, hunquoted⟩

/-! ## The header -/

/-- A header is what an expansion of the seed ends with, cleaned up. -/
theorem exists_expand_of_generate {table : Table} {tags classes : List Text} {o : Options}
    {header : Text} (h : generate table tags classes o = .ok header) :
    ∃ expanded, (o.expander table).expand (o.seed.render tags classes) = .ok expanded ∧
      header = cleanUp o.continuation expanded := by
  unfold generate at h
  split at h
  · exact absurd h (by simp)
  · cases hexpand : (o.expander table).expand (o.seed.render tags classes) with
    | error e =>
      rw [hexpand] at h
      exact absurd h (by simp [Except.map])
    | ok expanded =>
      rw [hexpand] at h
      exact ⟨expanded, rfl, (Except.ok.inj h).symm⟩

/-- When a header has a call. Any table, requested names and options are allowed. The text that the
expansion ends with has none; the header is this text, cleaned up, and it has a call exactly if
taking out marks put together the name of a definition, or a name and its argument list. -/
theorem generate_call_iff {table : Table} {tags classes : List Text} {o : Options} {header : Text}
    (h : generate table tags classes o = .ok header) :
    ∃ expanded, (o.expander table).expand (o.seed.render tags classes) = .ok expanded ∧
      header = cleanUp o.continuation expanded ∧ ¬ HasCall table expanded ∧
      (HasCall table header ↔
        ∃ front name rest d, GluedCall o.continuation table expanded front name rest d) := by
  obtain ⟨expanded, hexpand, rfl⟩ := exists_expand_of_generate h
  obtain ⟨-, -, -, hselect⟩ := Expander.expand_eq_ok_iff.1 hexpand
  have hnone : ¬ HasCall table expanded :=
    (Expander.select_eq_none_iff_not_hasCall _ expanded).1 hselect
  exact ⟨expanded, hexpand, rfl, hnone, hasCall_cleanUp_iff hnone⟩

/-- A name and an argument list on two lines of a body are no call until the lines are joined. -/
theorem generate_call_iff_joined_lines :
    ∃ table : Table, table.definitions =
        [⟨"DARMA_OO_DEFINE_TAG".toList, some ["name".toList], "F\\\n(name)".toList⟩,
          ⟨"F".toList, some ["x".toList], "x".toList⟩] ∧
      generate table ["t".toList] [] {} = .ok "#include <darma.h>\nF(t);\n".toList ∧
      ∃ front name rest d,
        GluedCall .join table "#include <darma.h>\nF\\\n(t);\n".toList front name rest d := by
  have hheader : generate
      (.ofList [⟨"DARMA_OO_DEFINE_TAG".toList, some ["name".toList], "F\\\n(name)".toList⟩,
        ⟨"F".toList, some ["x".toList], "x".toList⟩]) ["t".toList] [] {} =
      .ok "#include <darma.h>\nF(t);\n".toList := by rfl
  refine ⟨_, by rfl, hheader, ?_⟩
  obtain ⟨expanded, hexpand, -, -, hiff⟩ := generate_call_iff hheader
  obtain rfl : "#include <darma.h>\nF\\\n(t);\n".toList = expanded := Except.ok.inj hexpand
  have hat : WordAt "#include <darma.h>\nF(t);\n".toList "#include <darma.h>\n".toList "F".toList
      "(t);\n".toList :=
    ⟨by rfl, isWord_of_isIdentifier (by decide),
      (endsOutside_concat "#include <darma.h>".toList _).2 (by decide),
      startsOutside_cons (by decide) _⟩
  exact hiff.1 ⟨_, _, _, _, hat, rfl, .inr rfl⟩

/-- A paste mark in a body makes the name of an object-like definition, which stays in the header
as a word. -/
theorem generate_call_of_pasted_name :
    ∃ table,
      Table.parse "#define DARMA_OO_DEFINE_TAG(name) A##B\n#define AB 1\n".toList = .ok table ∧
      generate table ["t".toList] [] {} = .ok "#include <darma.h>\nAB;\n".toList ∧
      WordAt "#include <darma.h>\nAB;\n".toList "#include <darma.h>\n".toList "AB".toList
        ";\n".toList ∧
      ∃ d ∈ table.definitions, d.name = "AB".toList ∧ d.isFunctionLike = false :=
  ⟨.ofList [⟨"DARMA_OO_DEFINE_TAG".toList, some ["name".toList], "A##B".toList⟩,
      ⟨"AB".toList, none, "1".toList⟩],
    by rfl, by rfl,
    ⟨by rfl, isWord_of_isIdentifier (by decide),
      (endsOutside_concat "#include <darma.h>".toList _).2 (by decide),
      startsOutside_cons (by decide) _⟩,
    ⟨"AB".toList, none, "1".toList⟩, by decide, rfl, rfl⟩

end FlatHeader
