import FlatHeader.Proofs.Lines
import FlatHeader.Proofs.Splicing

/-!
# What stands in argument lists

An argument list reaches from an opening parenthesis to the next parenthesis, whichever that is, or
to the end of the text. This file is about texts in whose argument lists no name of the table stands
as a word (`PlainLists`). A call in such a text is in no argument list, and its arguments hold no
names; so if the lists in the bodies are closed, a splice leads to such a text again
(`PlainLists.splice`).
-/

namespace FlatHeader

open Text

/-! ## Behind a character -/

namespace Text

variable {x : Char} {P Q : Text → Prop}

/-- Exchanging words brings no such character, if the words are exchanged for texts without it. -/
theorem Behind.mapWords {f : Text → Text} {t : Text} (h : Behind x P t)
    (hf : ∀ w, IsWord w → x ∉ f w) (hPQ : ∀ s, P s → Q (mapWords f s)) :
    Behind x Q (mapWords f t) := by
  induction t using word_induction with
  | nil => exact behind_nil
  | gap c t hc ih =>
    rw [behind_cons] at h
    rw [mapWords_gap f hc, behind_cons]
    exact ⟨fun hx => hPQ t (h.1 hx), ih h.2⟩
  | word w t hw ht ih =>
    rw [mapWords_word f hw ht, behind_append]
    exact ⟨behind_of_not_mem (hf w hw), ih ((behind_append w t).1 h).2⟩

theorem not_mem_mapWords {f : Text → Text} {t : Text} (ht : x ∉ t)
    (hf : ∀ w, IsWord w → x ∉ f w) : x ∉ Text.mapWords f t := by
  induction t using word_induction with
  | nil => exact List.not_mem_nil
  | gap c t hc ih =>
    rw [List.mem_cons, not_or] at ht
    rw [mapWords_gap f hc, List.mem_cons, not_or]
    exact ⟨ht.1, ih ht.2⟩
  | word w t hw hout ih =>
    rw [List.mem_append, not_or] at ht
    rw [mapWords_word f hw hout, List.mem_append, not_or]
    exact ⟨hf w hw, ih ht.2⟩

/-! ## Up to the next parenthesis -/

/-- A text up to its first parenthesis, or as a whole if it has none. -/
def upToParen (t : Text) : Text := t.takeWhile fun c => c != '(' && c != ')'

/-- A text from its first parenthesis on. -/
def fromParen (t : Text) : Text := t.dropWhile fun c => c != '(' && c != ')'

/-- A text without parentheses. -/
def NoParens (t : Text) : Prop := '(' ∉ t ∧ ')' ∉ t

theorem upToParen_append_fromParen (t : Text) : upToParen t ++ fromParen t = t :=
  List.takeWhile_append_dropWhile

theorem noParens_upToParen (t : Text) : NoParens (upToParen t) := by
  constructor
  · intro h
    exact absurd (List.mem_takeWhile_imp h) (by decide)
  · intro h
    exact absurd (List.mem_takeWhile_imp h) (by decide)

theorem noParens_iff {t : Text} : NoParens t ↔ ∀ c ∈ t, c ≠ '(' ∧ c ≠ ')' :=
  ⟨fun h _ hc => ⟨fun heq => h.1 (heq ▸ hc), fun heq => h.2 (heq ▸ hc)⟩,
    fun h => ⟨fun hc => (h _ hc).1 rfl, fun hc => (h _ hc).2 rfl⟩⟩

/-- A text without parentheses in front belongs to what stands before the first one. -/
theorem upToParen_append {a : Text} (ha : NoParens a) (b : Text) :
    upToParen (a ++ b) = a ++ upToParen b ∧ fromParen (a ++ b) = fromParen b := by
  have hall : ∀ c ∈ a, (c != '(' && c != ')') = true := by
    intro c hc
    rw [Bool.and_eq_true, bne_iff_ne, bne_iff_ne]
    exact noParens_iff.1 ha c hc
  exact ⟨List.takeWhile_append_of_pos hall, List.dropWhile_append_of_pos hall⟩

/-- The first parenthesis behind a text without any is where the text ends. -/
theorem upToParen_append_cons {a : Text} (ha : NoParens a) {c : Char} (hc : c = '(' ∨ c = ')')
    (b : Text) : upToParen (a ++ c :: b) = a ∧ fromParen (a ++ c :: b) = c :: b := by
  obtain ⟨hup, hfrom⟩ := upToParen_append ha (c :: b)
  rcases hc with rfl | rfl
  · exact ⟨hup.trans (List.append_nil a), hfrom⟩
  · exact ⟨hup.trans (List.append_nil a), hfrom⟩

theorem eq_paren_of_fromParen {t rest : Text} {c : Char} (h : fromParen t = c :: rest) :
    c = '(' ∨ c = ')' := by
  have hstop := List.head?_dropWhile_not (fun c => c != '(' && c != ')') t
  have hhead : (t.dropWhile fun c => c != '(' && c != ')').head? = some c := by
    show (fromParen t).head? = some c
    rw [h, List.head?_cons]
  rw [hhead] at hstop
  by_cases hc : c = '('
  · exact .inl hc
  · exact .inr (by simpa [hc] using hstop)

/-- Behind the first parenthesis of a text nothing matters for what stands before it. -/
theorem upToParen_append_of_ne_nil {a : Text} (ha : fromParen a ≠ []) (b : Text) :
    upToParen (a ++ b) = upToParen a := by
  obtain ⟨c, s, hs⟩ := List.exists_cons_of_ne_nil ha
  conv_lhs => rw [← upToParen_append_fromParen a, hs, List.append_assoc, List.cons_append]
  exact (upToParen_append_cons (noParens_upToParen a) (eq_paren_of_fromParen hs) _).1

theorem fromParen_append_of_ne_nil {a : Text} (ha : fromParen a ≠ []) (b : Text) :
    fromParen (a ++ b) = fromParen a ++ b := by
  refine (List.append_right_inj (upToParen (a ++ b))).1 ?_
  rw [upToParen_append_fromParen, upToParen_append_of_ne_nil ha, ← List.append_assoc,
    upToParen_append_fromParen]

theorem noParens_of_fromParen_eq_nil {t : Text} (h : fromParen t = []) : NoParens t := by
  rw [← upToParen_append_fromParen t, h, List.append_nil]
  exact noParens_upToParen t

/-- A text has no parenthesis, or a first one. -/
theorem noParens_cases (t : Text) :
    NoParens t ∨ (∃ list rest, NoParens list ∧ t = list ++ ')' :: rest) ∨
      ∃ list rest, NoParens list ∧ t = list ++ '(' :: rest := by
  have hsplit := upToParen_append_fromParen t
  cases hfrom : fromParen t with
  | nil => exact .inl (noParens_of_fromParen_eq_nil hfrom)
  | cons c rest =>
    right
    rw [hfrom] at hsplit
    rcases eq_paren_of_fromParen hfrom with rfl | rfl
    · exact .inr ⟨_, rest, noParens_upToParen t, hsplit.symm⟩
    · exact .inl ⟨_, rest, noParens_upToParen t, hsplit.symm⟩

/-- What stands before and behind the first parenthesis of a text is told by the text. -/
theorem eq_of_noParens_append_cons {list list' rest rest' : Text} {c c' : Char}
    (hlist : NoParens list) (hlist' : NoParens list') (hc : c = '(' ∨ c = ')')
    (hc' : c' = '(' ∨ c' = ')') (h : list ++ c :: rest = list' ++ c' :: rest') :
    list = list' ∧ c = c' ∧ rest = rest' := by
  obtain ⟨hup, hfrom⟩ := upToParen_append_cons hlist hc rest
  obtain ⟨hup', hfrom'⟩ := upToParen_append_cons hlist' hc' rest'
  rw [h, hup'] at hup
  rw [h, hfrom'] at hfrom
  exact ⟨hup.symm, (List.cons.inj hfrom).1.symm, (List.cons.inj hfrom).2.symm⟩

/-- A closed list that starts in a text with a parenthesis is closed within that text. -/
theorem exists_close_of_append {list u s x : Text} (hlist : NoParens list) (hs : fromParen s ≠ [])
    (h : list ++ ')' :: u = s ++ x) : ∃ rest, s = list ++ ')' :: rest ∧ u = rest ++ x := by
  obtain ⟨hup, hfrom⟩ := upToParen_append_cons hlist (.inr rfl) u
  rw [h, upToParen_append_of_ne_nil hs] at hup
  rw [h, fromParen_append_of_ne_nil hs] at hfrom
  obtain ⟨c, rest, hc⟩ := List.exists_cons_of_ne_nil hs
  rw [hc, List.cons_append, List.cons.injEq] at hfrom
  obtain ⟨rfl, rfl⟩ := hfrom
  exact ⟨rest, by rw [← hup, ← hc, upToParen_append_fromParen], rfl⟩

theorem IsWord.noParens {w : Text} (hw : IsWord w) : NoParens w :=
  ⟨hw.not_mem (by decide), hw.not_mem (by decide)⟩

end Text

/-! ## The words of the arguments -/

namespace Text

/-- Characters outside words have no part in the words of a text. -/
theorem words_append_outside {s : Text} (hs : ∀ c ∈ s, isWordChar c = false) (t : Text) :
    words (s ++ t) = words t ∧ words (t ++ s) = words t := by
  have hnil : words s = [] := by
    induction s with
    | nil => rfl
    | cons c s ih =>
      rw [words_gap (hs c List.mem_cons_self), ih fun d hd => hs d (List.mem_cons_of_mem c hd)]
  have hends : EndsOutside s := fun c hc => hs c (List.mem_of_getLast? hc)
  have hstarts : StartsOutside s := fun c hc => hs c (List.mem_of_head? hc)
  constructor
  · rw [words_append (joins_of_endsOutside hends t), hnil, List.nil_append]
  · rw [words_append (joins_of_startsOutside t hstarts), hnil, List.append_nil]

/-- Trimming takes no word off. -/
theorem words_trim (t : Text) : words (trim t) = words t := by
  have hfront : ∀ c ∈ t.takeWhile Unicode.isWhiteSpace, isWordChar c = false := fun c hc =>
    isWordChar_of_isWhiteSpace (List.mem_takeWhile_imp hc)
  have hback : ∀ c ∈ (trimStart t).rtakeWhile Unicode.isWhiteSpace, isWordChar c = false :=
    fun c hc => isWordChar_of_isWhiteSpace (List.mem_rtakeWhile_imp hc)
  have hstart : t.takeWhile Unicode.isWhiteSpace ++ trimStart t = t :=
    List.takeWhile_append_dropWhile
  have hend : trim t ++ (trimStart t).rtakeWhile Unicode.isWhiteSpace = trimStart t :=
    List.rdropWhile_append_rtakeWhile
  calc words (trim t)
      = words (trim t ++ (trimStart t).rtakeWhile Unicode.isWhiteSpace) :=
        (words_append_outside hback (trim t)).2.symm
    _ = words (trimStart t) := by rw [hend]
    _ = words (t.takeWhile Unicode.isWhiteSpace ++ trimStart t) :=
        (words_append_outside hfront (trimStart t)).1.symm
    _ = words t := by rw [hstart]

theorem trim_subset (t : Text) : trim t ⊆ t := by
  intro c hc
  exact (List.dropWhile_suffix _).subset ((dropEndWhile_isPrefix _ _).subset hc)

/-- The words of a text are those of its pieces, where no word has the separator. -/
theorem words_splitOn {separator : Char} (h : isWordChar separator = false) (t : Text) :
    words t = (splitOn separator t).flatMap words := by
  induction t using separator_induction separator with
  | last s hs => rw [splitOn_last hs, List.flatMap_singleton]
  | cut s t hs ih =>
    rw [splitOn_cut hs, List.flatMap_cons, ← ih, words_append_cons h]

end Text

namespace Call

/-- The arguments hold the words of the list and no parentheses, if the list has none. -/
theorem splitArguments_subset (d : Definition) {list a : Text} (ha : a ∈ splitArguments d list) :
    a ⊆ list ∧ words a ⊆ words list := by
  unfold splitArguments at ha
  split at ha
  · exact absurd ha List.not_mem_nil
  · obtain ⟨piece, hpiece, rfl⟩ := List.mem_map.1 ha
    constructor
    · obtain ⟨before, after, rfl, -⟩ := exists_append_of_mem_splitOn hpiece
      intro c hc
      exact List.mem_append_right _ (List.mem_append_left _ (trim_subset piece hc))
    · have hcomma : isWordChar ',' = false := by decide
      rw [words_trim, words_splitOn hcomma list]
      exact fun w hw => List.mem_flatMap.2 ⟨piece, hpiece, hw⟩

end Call

/-! ## Lists without names -/

section plain

variable (table : Table)

/-- No name of the table stands as a word before the first parenthesis, or before the end if there
is none. -/
def PlainStart (t : Text) : Prop := ∀ w ∈ words (upToParen t), table.contains w = false

/-- No name of the table stands as a word between an opening parenthesis and the next parenthesis,
or the end of the text. -/
def PlainLists (t : Text) : Prop := Behind '(' (PlainStart table) t

/-- Every opening parenthesis is followed, before any other parenthesis, by a closing one, and no
name of the table stands as a word in between. -/
def ClosedPlainLists (t : Text) : Prop :=
  Behind '(' (fun s => (fromParen s).head? = some ')' ∧ PlainStart table s) t

instance (t : Text) : Decidable (PlainStart table t) :=
  inferInstanceAs (Decidable (∀ w ∈ words (upToParen t), table.contains w = false))

instance (t : Text) : Decidable (PlainLists table t) := decidableBehind _ _ t

instance (t : Text) : Decidable (ClosedPlainLists table t) := decidableBehind _ _ t

/-- Words are exchanged for texts without parentheses, and words that are no names for texts without
names. -/
structure PlainExchange (f : Text → Text) : Prop where
  noParens : ∀ w, IsWord w → NoParens (f w)
  plain : ∀ w, IsWord w → table.contains w = false → ∀ v ∈ words (f w), table.contains v = false

variable {table}

theorem plainStart_append_iff {a : Text} (ha : fromParen a ≠ []) (b : Text) :
    PlainStart table (a ++ b) ↔ PlainStart table a := by
  unfold PlainStart
  rw [upToParen_append_of_ne_nil ha]

/-- Such an exchange keeps the lists closed and without names. -/
theorem ClosedPlainLists.mapWords {f : Text → Text} {t : Text} (h : ClosedPlainLists table t)
    (hf : PlainExchange table f) : ClosedPlainLists table (Text.mapWords f t) := by
  refine Behind.mapWords h (fun w hw => (hf.noParens w hw).1) ?_
  rintro s ⟨hclose, hplain⟩
  obtain ⟨rest, hrest⟩ := List.head?_eq_some_iff.1 hclose
  have hparen : isWordChar ')' = false := by decide
  -- the list is exchanged by itself, and is closed where it was
  have hnone : NoParens (Text.mapWords f (upToParen s)) :=
    ⟨not_mem_mapWords (noParens_upToParen s).1 fun w hw => (hf.noParens w hw).1,
      not_mem_mapWords (noParens_upToParen s).2 fun w hw => (hf.noParens w hw).2⟩
  have hsplit : Text.mapWords f s =
      Text.mapWords f (upToParen s) ++ ')' :: Text.mapWords f rest := by
    conv_lhs => rw [← upToParen_append_fromParen s, hrest]
    rw [mapWords_append f (joins_of_startsOutside _ (startsOutside_cons hparen rest)),
      mapWords_gap f hparen]
  obtain ⟨hup, hfrom⟩ := upToParen_append hnone (')' :: Text.mapWords f rest)
  have hnil : upToParen (')' :: Text.mapWords f rest) = [] := rfl
  rw [hnil, List.append_nil] at hup
  constructor
  · rw [hsplit, hfrom]
    rfl
  · intro v hv
    rw [hsplit, hup, words_mapWords, List.mem_flatMap] at hv
    obtain ⟨w, hw, hv⟩ := hv
    exact hf.plain w (isWord_of_mem_words hw) (hplain w hw) v hv

/-- If no name stands before the first parenthesis, that parenthesis comes before any name. -/
theorem PlainStart.fromParen_ne_nil {s name after : Text}
    (h : PlainStart table (s ++ (name ++ after))) (hs : EndsOutside s) (hw : IsWord name)
    (hafter : StartsOutside after) (hname : table.contains name = true) : fromParen s ≠ [] := by
  intro hnil
  have hstarts : StartsOutside (upToParen after) := StartsOutside.of_append_left
    (b := fromParen after) (by rw [upToParen_append_fromParen]; exact hafter)
  unfold PlainStart at h
  rw [(upToParen_append (noParens_of_fromParen_eq_nil hnil) _).1,
    (upToParen_append hw.noParens _).1, words_append (joins_of_endsOutside hs _),
    words_word hw hstarts] at h
  rw [h name (List.mem_append_right _ List.mem_cons_self)] at hname
  exact absurd hname (by decide)

/-- The word of a call is in no list, so every list in front of it ends there. -/
theorem PlainLists.fromParen_ne_nil {t before name after : Text} (ht : PlainLists table t)
    (hat : WordAt t before name after) (hname : table.contains name = true) :
    Behind '(' (fun s => fromParen s ≠ []) before := by
  rintro front s rfl
  have hends : EndsOutside s := EndsOutside.of_append_right (a := front ++ ['('])
    (by rw [List.append_assoc]; exact hat.left)
  have hplain : PlainStart table (s ++ (name ++ after)) :=
    ht front _ (by rw [hat.eq, List.append_assoc]; rfl)
  exact hplain.fromParen_ne_nil hends hat.isWord hat.right hname

/-! ## A step -/

/-- A replacement with closed lists, in the place of a call, keeps the lists of the text without
names. -/
theorem PlainLists.splice {t rest r : Text} {c : Call} {name : Text} (ht : PlainLists table t)
    (hat : WordAt t c.before name rest) (hname : table.contains name = true)
    (hafter : c.after <:+ rest) (hr : ClosedPlainLists table r) :
    PlainLists table (c.splice r) := by
  have hbefore := ht.fromParen_ne_nil hat hname
  unfold PlainLists at ht ⊢
  rw [hat.eq, behind_append, behind_append] at ht
  rw [Expander.splice_of_endsOutside hat.left, behind_append, behind_append, behind_append]
  refine ⟨?_, ?_, behind_of_not_mem ?_, ?_⟩
  · -- the lists in front of the call are those of the old text
    intro front s hs
    have hne : fromParen s ≠ [] := hbefore front s hs
    exact (plainStart_append_iff hne _).2 ((plainStart_append_iff hne _).1 (ht.1 front s hs))
  · intro front s hs
    obtain ⟨hclose, hplain⟩ := hr front s hs
    refine (plainStart_append_iff (fun hnil => ?_) _).2 hplain
    rw [hnil] at hclose
    exact absurd hclose (by simp)
  · cases joins r c.after <;> decide
  · obtain ⟨front, hfront⟩ := hafter
    rw [← hfront, behind_append] at ht
    exact ht.2.2.2

end plain

/-- Arguments that hold neither parentheses nor names. -/
def PlainArguments (table : Table) (arguments : List Text) : Prop :=
  ∀ a ∈ arguments, NoParens a ∧ ∀ w ∈ words a, table.contains w = false

/-- Putting plain arguments in the place of parameters brings neither parentheses nor names. -/
theorem PlainArguments.plainExchange {table : Table} {parameters l : List Text}
    (hl : PlainArguments table l) (hlen : parameters.length = l.length) :
    PlainExchange table (valueOf (parameters.zip l)) := by
  constructor
  · intro w hw
    rcases Definition.valueOf_zip_cases hlen w with ha | ⟨-, hself⟩
    · exact (hl _ ha).1
    · rw [hself]
      exact hw.noParens
  · intro w hw hname
    rcases Definition.valueOf_zip_cases hlen w with ha | ⟨-, hself⟩
    · exact (hl _ ha).2
    · rw [hself, words_of_isWord hw]
      intro v hv
      rwa [List.mem_singleton.1 hv]

/-- The arguments of a call are plain if the list that they stand in is. -/
theorem Call.plainArguments_splitArguments {table : Table} {list : Text}
    (hparens : ∀ c ∈ list, c ≠ '(' ∧ c ≠ ')')
    (hplain : ∀ w ∈ words list, table.contains w = false) (d : Definition) :
    PlainArguments table (splitArguments d list) := by
  intro a ha
  obtain ⟨hchars, hwords⟩ := splitArguments_subset d ha
  refine ⟨⟨fun h => ?_, fun h => ?_⟩, fun w hw => hplain w (hwords hw)⟩
  · exact (hparens _ (hchars h)).1 rfl
  · exact (hparens _ (hchars h)).2 rfl

end FlatHeader
