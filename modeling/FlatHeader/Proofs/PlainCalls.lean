import FlatHeader.Proofs.ArgumentLists
import FlatHeader.Proofs.Independence

/-!
# Calls without names in their lists

If the argument list of a call holds no name of the table, the call is the only one that starts
within it: the live words of the text are those in front of the call, its own name and those behind
it (`PlainCall.liveAt_cases`). Where such a call stands has no part in how it is read, so it can be
moved to another place (`PlainCall.around`).

Texts in which all calls are of that kind stay so when one of them is expanded, provided that the
replacement holds no name (`EveryList.splice`).
-/

namespace FlatHeader

open Text

/-! ## Live words of two texts -/

theorem Definition.Live.append {d : Definition} {a : Text} (h : d.Live a) (b : Text) :
    d.Live (a ++ b) := by
  refine h.imp_right fun hparen => ?_
  obtain ⟨s, rfl⟩ := List.head?_eq_some_iff.1 hparen
  rfl

/-- Only what stands right behind a name makes it live. -/
theorem Definition.live_append_iff {d : Definition} {a : Text} (ha : a ≠ []) (b : Text) :
    d.Live (a ++ b) ↔ d.Live a := by
  unfold Definition.Live
  rw [List.head?_append_of_ne_nil a ha]

/-- The live words of two texts that keep apart, the first of which ends outside words. -/
theorem liveAt_append_iff {lookup : Text → Option Definition} {a b before w after : Text}
    {d : Definition} (ha : EndsOutside a) :
    LiveAt lookup (a ++ b) before w after d ↔
      (∃ rest, LiveAt lookup a before w rest d ∧ after = rest ++ b) ∨
        ∃ front, LiveAt lookup b front w after d ∧ before = a ++ front := by
  have happend : WordAt (a ++ b) before w after ↔ _ := wordAt_append_iff (joins_of_endsOutside ha b)
  constructor
  · rintro ⟨hat, hlookup, hlive⟩
    rcases happend.1 hat with ⟨rest, hat', rfl⟩ | ⟨front, hat', rfl⟩
    · rw [Definition.live_append_iff (hat'.after_ne_nil ha)] at hlive
      exact .inl ⟨rest, ⟨hat', hlookup, hlive⟩, rfl⟩
    · exact .inr ⟨front, ⟨hat', hlookup, hlive⟩, rfl⟩
  · rintro (⟨rest, ⟨hat', hlookup, hlive⟩, rfl⟩ | ⟨front, ⟨hat', hlookup, hlive⟩, rfl⟩)
    · exact ⟨happend.2 (.inl ⟨rest, hat', rfl⟩), hlookup, hlive.append b⟩
    · exact ⟨happend.2 (.inr ⟨front, hat', rfl⟩), hlookup, hlive⟩

theorem joins_of_append_right {a b s : Text} (h : joins a (b ++ s) = false) :
    joins a b = false :=
  (joins_eq_false_iff a b).2
    (((joins_eq_false_iff a _).1 h).imp_right StartsOutside.of_append_left)

section

variable (table : Table)

/-- No name of the table stands in the text as a word. -/
def NameFree (t : Text) : Prop := ∀ w ∈ words t, table.contains w = false

instance (t : Text) : Decidable (NameFree table t) :=
  inferInstanceAs (Decidable (∀ w ∈ words t, table.contains w = false))

variable {table} {a m b before w after : Text} {d : Definition}

theorem LiveAt.contains {t : Text} (h : LiveAt table.get? t before w after d) :
    table.contains w = true := by
  rw [Table.contains, h.lookup]
  rfl

theorem NameFree.not_hasCall (hm : NameFree table m) : ¬ HasCall table m := by
  rintro ⟨before, w, after, d, hl⟩
  have hname := hm w (mem_words_iff.2 ⟨before, after, hl.wordAt⟩)
  rw [hl.contains] at hname
  exact absurd hname (by decide)

/-- A text without names in front has no live words. -/
theorem liveAt_nameFree_append_iff (hm : NameFree table m) (hjoins : joins m b = false) :
    LiveAt table.get? (m ++ b) before w after d ↔
      ∃ front, LiveAt table.get? b front w after d ∧ before = m ++ front := by
  have happend : WordAt (m ++ b) before w after ↔ _ := wordAt_append_iff hjoins
  constructor
  · intro hl
    rcases happend.1 hl.wordAt with ⟨rest, hat, rfl⟩ | ⟨front, hat, rfl⟩
    · have hname := hm w (mem_words_iff.2 ⟨before, rest, hat⟩)
      rw [hl.contains] at hname
      exact absurd hname (by decide)
    · exact ⟨front, ⟨hat, hl.lookup, hl.live⟩, rfl⟩
  · rintro ⟨front, ⟨hat, hlookup, hlive⟩, rfl⟩
    exact ⟨happend.2 (.inr ⟨front, hat, rfl⟩), hlookup, hlive⟩

/-- The live words around a text without names. -/
theorem liveAt_around_iff (ha : EndsOutside a) (hm : NameFree table m)
    (hjoins : joins m b = false) :
    LiveAt table.get? (a ++ (m ++ b)) before w after d ↔
      (∃ rest, LiveAt table.get? a before w rest d ∧ after = rest ++ (m ++ b)) ∨
        ∃ front, LiveAt table.get? b front w after d ∧ before = a ++ (m ++ front) := by
  rw [liveAt_append_iff ha]
  refine or_congr Iff.rfl ⟨?_, ?_⟩
  · rintro ⟨front, hl, rfl⟩
    obtain ⟨front', hl', rfl⟩ := (liveAt_nameFree_append_iff hm hjoins).1 hl
    exact ⟨front', hl', rfl⟩
  · rintro ⟨front, hl, rfl⟩
    exact ⟨m ++ front, (liveAt_nameFree_append_iff hm hjoins).2 ⟨front, hl, rfl⟩, rfl⟩

theorem hasCall_append_iff (ha : EndsOutside a) :
    HasCall table (a ++ b) ↔ HasCall table a ∨ HasCall table b := by
  constructor
  · rintro ⟨before, w, after, d, hl⟩
    rcases (liveAt_append_iff ha).1 hl with ⟨rest, hl', -⟩ | ⟨front, hl', -⟩
    · exact .inl ⟨_, _, _, _, hl'⟩
    · exact .inr ⟨_, _, _, _, hl'⟩
  · rintro (⟨before, w, after, d, hl⟩ | ⟨before, w, after, d, hl⟩)
    · exact ⟨_, _, _, _, (liveAt_append_iff ha).2 (.inl ⟨after, hl, rfl⟩)⟩
    · exact ⟨_, _, _, _, (liveAt_append_iff ha).2 (.inr ⟨before, hl, rfl⟩)⟩

theorem hasCall_around_iff (ha : EndsOutside a) (hm : NameFree table m)
    (hjoins : joins m b = false) :
    HasCall table (a ++ (m ++ b)) ↔ HasCall table a ∨ HasCall table b := by
  have hrest : HasCall table (m ++ b) ↔ HasCall table b := by
    constructor
    · rintro ⟨before, w, after, d, hl⟩
      obtain ⟨front, hl', -⟩ := (liveAt_nameFree_append_iff hm hjoins).1 hl
      exact ⟨_, _, _, _, hl'⟩
    · rintro ⟨before, w, after, d, hl⟩
      exact ⟨_, _, _, _, (liveAt_nameFree_append_iff hm hjoins).2 ⟨before, hl, rfl⟩⟩
  rw [hasCall_append_iff ha, hrest]

end

/-! ## Calls with plain lists -/

/-- The text that a call stands in. -/
def Call.text (c : Call) : Text := c.before ++ (c.written ++ c.after)

/-- A call of a definition of the table, by itself or with a list that holds neither parentheses nor
names. -/
inductive PlainCall (table : Table) : Call → Prop
  | objectLike {before after : Text} {d : Definition} (hd : d ∈ table.definitions)
      (hlike : d.isFunctionLike = false) (hw : IsWord d.name) (hbefore : EndsOutside before)
      (hafter : StartsOutside after) : PlainCall table ⟨before, d, none, d.name, after⟩
  | functionLike {before list after : Text} {d : Definition} (hd : d ∈ table.definitions)
      (hlike : d.isFunctionLike = true) (hw : IsWord d.name) (hbefore : EndsOutside before)
      (hlist : NoParens list) (hplain : NameFree table list) :
      PlainCall table
        ⟨before, d, some (Call.splitArguments d list), d.name ++ '(' :: list ++ [')'], after⟩

namespace PlainCall

variable {table : Table} {c : Call}

theorem endsOutside_before (hc : PlainCall table c) : EndsOutside c.before := by
  cases hc with
  | objectLike _ _ _ hbefore _ => exact hbefore
  | functionLike _ _ _ hbefore _ _ => exact hbefore

/-- The name of an object-like definition ends where the call does. -/
theorem startsOutside_of_objectLike (hc : PlainCall table c)
    (h : c.definition.isFunctionLike = false) : StartsOutside c.after := by
  cases hc with
  | objectLike _ _ _ _ hafter => exact hafter
  | functionLike _ hlike _ _ _ _ => exact absurd (hlike.symm.trans h) (by decide)

/-- The same call at another place: no word may reach it there. -/
theorem around (hc : PlainCall table c) {before after : Text} (hbefore : EndsOutside before)
    (hafter : c.definition.isFunctionLike = false → StartsOutside after) :
    PlainCall table { c with before := before, after := after } := by
  cases hc with
  | objectLike hd hlike hw _ _ => exact .objectLike hd hlike hw hbefore (hafter hlike)
  | functionLike hd hlike hw _ hlist hplain => exact .functionLike hd hlike hw hbefore hlist hplain

/-- A call starts with its name, which is live and read as the call; what stands behind the name
within the call holds no name, and does not merge with what stands behind the call. -/
theorem exists_tail (hc : PlainCall table c) :
    ∃ tail, c.written = c.definition.name ++ tail ∧
      LiveAt table.get? c.text c.before c.definition.name (tail ++ c.after) c.definition ∧
      NameFree table tail ∧ joins tail c.after = false ∧
      Call.ofWord? c.definition c.before.reverse c.definition.name (tail ++ c.after) =
        .ok (some c) := by
  cases hc with
  | @objectLike before after d hd hlike hw hbefore hafter =>
    refine ⟨[], (List.append_nil _).symm, ⟨⟨rfl, hw, hbefore, hafter⟩,
      table.get?_eq_some_iff.2 ⟨hd, rfl⟩, .inl hlike⟩, fun w hw => absurd hw List.not_mem_nil,
      joins_of_startsOutside [] hafter, ?_⟩
    rw [List.nil_append, Call.ofWord?_of_objectLike hlike, List.reverse_reverse]
  | @functionLike before list after d hd hlike hw hbefore hlist hplain =>
    have hopen : isWordChar '(' = false := by decide
    have hclose : isWordChar ')' = false := by decide
    have hparens : ∀ x ∈ list, x ≠ '(' ∧ x ≠ ')' := fun x hx =>
      ⟨fun h => hlist.1 (h ▸ hx), fun h => hlist.2 (h ▸ hx)⟩
    have hwords : words ('(' :: (list ++ [')'])) = words list := by
      rw [words_gap hopen, (words_append_outside (by simpa using hclose) list).2]
    have hends : EndsOutside ('(' :: (list ++ [')'])) :=
      (endsOutside_concat ('(' :: list) ')').2 hclose
    refine ⟨'(' :: (list ++ [')']), by simp, ⟨⟨by simp [Call.text], hw, hbefore,
      startsOutside_cons hopen _⟩, table.get?_eq_some_iff.2 ⟨hd, rfl⟩, .inr rfl⟩, ?_,
      joins_of_endsOutside hends _, ?_⟩
    · unfold NameFree
      rwa [hwords]
    · have hsplit : '(' :: (list ++ [')']) ++ after = '(' :: (list ++ ')' :: after) := by simp
      rw [hsplit, Call.ofWord?_of_closed hlike hparens, List.reverse_reverse]

/-- A call does not merge with what stands behind it. -/
theorem joins_after (hc : PlainCall table c) : joins (c.before ++ c.written) c.after = false := by
  cases hc with
  | objectLike _ _ _ _ hafter => exact joins_of_startsOutside _ hafter
  | functionLike _ _ _ _ _ _ =>
    refine joins_of_endsOutside ?_ _
    rw [← List.append_assoc, endsOutside_concat]
    decide

/-- A text that starts with a call starts with a word. -/
theorem not_startsOutside (hc : PlainCall table c) : ¬ StartsOutside (c.written ++ c.after) := by
  obtain ⟨tail, hwritten, hl, -, -, -⟩ := hc.exists_tail
  rw [hwritten, List.append_assoc]
  exact hl.wordAt.isWord.not_startsOutside _

/-- The live words of a text with a plain call: the call starts with one, and the others stand in
front of the call or behind it. -/
theorem liveAt_cases (hc : PlainCall table c) {before w after : Text} {d : Definition}
    (hl : LiveAt table.get? c.text before w after d) :
    (∃ rest, LiveAt table.get? c.before before w rest d ∧ after = rest ++ (c.written ++ c.after)) ∨
      before = c.before ∨
      ∃ front, LiveAt table.get? c.after front w after d ∧
        before = c.before ++ (c.written ++ front) := by
  obtain ⟨tail, hwritten, ⟨hat, -, -⟩, htail, hjoins, -⟩ := hc.exists_tail
  unfold Call.text at hl
  rw [hwritten, List.append_assoc]
  rw [hwritten, List.append_assoc] at hl
  rcases (liveAt_append_iff hat.left).1 hl with hleft | ⟨front, hl', rfl⟩
  · exact .inl hleft
  · right
    rcases (wordAt_append_iff (joins_of_startsOutside _ hat.right)).1 hl'.wordAt with
      ⟨rest, hat', -⟩ | ⟨front', hat', rfl⟩
    · rw [hat'.before_eq_nil hat.isWord, List.append_nil]
      exact .inl rfl
    · obtain ⟨front, hl'', rfl⟩ :=
        (liveAt_nameFree_append_iff htail hjoins).1 ⟨hat', hl'.lookup, hl'.live⟩
      exact .inr ⟨front, hl'', by simp⟩

/-- A word behind a call is live in the whole text if it is behind the call. -/
theorem liveAt_of_after (hc : PlainCall table c) {front w after : Text} {d : Definition}
    (hl : LiveAt table.get? c.after front w after d) :
    LiveAt table.get? c.text (c.before ++ (c.written ++ front)) w after d := by
  have hat := (wordAt_append_iff hc.joins_after).2 (.inr ⟨front, hl.wordAt, rfl⟩)
  rw [List.append_assoc, List.append_assoc] at hat
  exact ⟨hat, hl.lookup, hl.live⟩

/-- In a table without names in the bodies, the replacement of a plain call holds no name. -/
theorem nameFree_replacement (hc : PlainCall table c)
    (hflat : ∀ d ∈ table.definitions, NameFree table d.body) {r : Text}
    (hr : c.replacement = .ok r) : NameFree table r := by
  intro w hw
  cases hc with
  | objectLike hd _ _ _ _ =>
    rcases Definition.mem_words_of_substitute hr hw with ⟨hbody, -⟩ | ⟨a, ha, -⟩
    · exact hflat _ hd w hbody
    · exact absurd ha List.not_mem_nil
  | functionLike hd _ _ _ _ hplain =>
    rcases Definition.mem_words_of_substitute hr hw with ⟨hbody, -⟩ | ⟨a, ha, hmem⟩
    · exact hflat _ hd w hbody
    · exact hplain w ((Call.splitArguments_subset _ ha).2 hmem)

end PlainCall

/-! ## Splices -/

/-- What is put between a replacement and the text behind it. -/
def separator (r after : Text) : Text := if joins r after then [' '] else []

theorem joins_separator (r after : Text) : joins (r ++ separator r after) after = false := by
  unfold separator
  cases h : joins r after with
  | true => exact joins_of_endsOutside ((endsOutside_concat r ' ').2 (by decide)) after
  | false => rwa [if_neg (by decide), List.append_nil]

theorem NameFree.append_separator {table : Table} {r : Text} (hr : NameFree table r)
    (after : Text) : NameFree table (r ++ separator r after) := by
  have hspace : isWordChar ' ' = false := by decide
  have hout : ∀ x ∈ separator r after, isWordChar x = false := by
    unfold separator
    cases joins r after <;> simp [hspace]
  unfold NameFree
  rwa [(words_append_outside hout r).2]

theorem Call.splice_eq {c : Call} (h : EndsOutside c.before) (r : Text) :
    c.splice r = c.before ++ ((r ++ separator r c.after) ++ c.after) := by
  rw [Expander.splice_of_endsOutside h, List.append_assoc]
  rfl

/-- A text that starts outside words still does, since a call starts with a word. -/
theorem Call.startsOutside_splice {c : Call} {t w after : Text} (hat : WordAt t c.before w after)
    (ht : StartsOutside t) (r : Text) : StartsOutside (c.splice r) := by
  rw [hat.eq] at ht
  have hne : c.before ≠ [] := by
    intro hnil
    rw [hnil, List.nil_append] at ht
    exact hat.isWord.not_startsOutside after ht
  rw [Call.splice_eq hat.left]
  exact ht.of_append_left.append fun hnil => absurd hnil hne

/-- A splice with more text in front of the call. -/
theorem Call.splice_within_left {left : Text} {c : Call} (h : EndsOutside (left ++ c.before))
    (r : Text) : (c.within left []).splice r = left ++ c.splice r := by
  rw [Expander.splice_of_endsOutside h, Expander.splice_of_endsOutside h.of_append_right]
  simp [Call.within]

/-! ## All lists of a text -/

/-- Behind the opening parenthesis of every list that a name of a function-like definition has in
`t` stands a text of which `P` holds. -/
def EveryList (table : Table) (P : Text → Prop) (t : Text) : Prop :=
  ∀ before after d, d ∈ table.definitions → d.isFunctionLike = true →
    WordAt t before d.name ('(' :: after) → P after

/-- If the first parenthesis closes a list, no word starts right behind it. -/
def StopsApart (t : Text) : Prop := ∀ rest, fromParen t = ')' :: rest → StartsOutside rest

instance (t : Text) : Decidable (StartsOutside t) :=
  decidable_of_iff ((t.head?.all fun c => !isWordChar c) = true) <| by
    unfold StartsOutside
    cases t.head? <;> simp

instance (t : Text) : Decidable (StopsApart t) :=
  decidable_of_iff ((fromParen t).head? = some ')' → StartsOutside (fromParen t).tail) <| by
    refine ⟨fun h rest hrest => ?_, fun h hclose => ?_⟩
    · rw [hrest] at h
      exact h rfl
    · obtain ⟨rest, hrest⟩ := List.head?_eq_some_iff.1 hclose
      rw [hrest]
      exact h rest hrest

section lists

variable {table : Table} {P : Text → Prop} {c : Call}

/-- What holds behind every opening parenthesis holds of the lists of all names. -/
theorem EveryList.of_behind {t : Text} (h : Behind '(' P t) : EveryList table P t := by
  intro before after d _ _ hat
  exact h (before ++ d.name) after (by rw [hat.eq, List.append_assoc])

theorem EveryList.of_append {p t : Text} (h : EveryList table P (p ++ t))
    (hjoins : joins p t = false) : EveryList table P t := by
  intro before after d hd hlike hat
  exact h (p ++ before) after d hd hlike
    ((wordAt_append_iff hjoins).2 (.inr ⟨before, hat, rfl⟩))

/-- What is read in a text without names in the lists is a plain call. -/
theorem PlainCall.of_ofWord? {t before w after : Text} {d : Definition}
    (ht : EveryList table (PlainStart table) t) (hl : LiveAt table.get? t before w after d)
    (hread : Call.ofWord? d before.reverse w after = .ok (some c)) :
    PlainCall table c ∧ c.text = t := by
  obtain ⟨hd, rfl⟩ := table.get?_eq_some_iff.1 hl.lookup
  rcases Call.ofWord?_eq_some_cases hread with ⟨hlike, rfl⟩ | ⟨list, rest, hlike, rfl, hlist, rfl⟩
  · rw [List.reverse_reverse]
    exact ⟨.objectLike hd hlike hl.wordAt.isWord hl.wordAt.left hl.wordAt.right, hl.wordAt.eq.symm⟩
  · rw [List.reverse_reverse]
    have hnone : NoParens list := noParens_iff.2 hlist
    have hplain : PlainStart table (list ++ ')' :: rest) :=
      ht before _ d hd hlike hl.wordAt
    have hup : upToParen (list ++ ')' :: rest) = list :=
      (upToParen_append_cons hnone (.inr rfl) rest).1
    unfold PlainStart at hplain
    rw [hup] at hplain
    refine ⟨.functionLike hd hlike hl.wordAt.isWord hl.wordAt.left hnone hplain, ?_⟩
    rw [hl.wordAt.eq]
    simp [Call.text]

/-- What is selected in such a text is a plain call. -/
theorem PlainCall.of_select {x : Expander} {t : Text}
    (ht : EveryList x.table (PlainStart x.table) t) (h : x.select t = .ok (some c)) :
    PlainCall x.table c ∧ c.text = t := by
  rcases x.select_cases t with ⟨hnone, -⟩ | ⟨before, w, after, d, hl, hread⟩
  · rw [hnone] at h
    exact absurd h (by simp)
  · rw [hread] at h
    exact PlainCall.of_ofWord? ht hl h

/-- A list that starts in front of a plain call and holds no name ends in front of the call. -/
theorem EveryList.fromParen_ne_nil (h : EveryList table (PlainStart table) c.text)
    (hc : PlainCall table c) {before s : Text} {d : Definition} (hlike : d.isFunctionLike = true)
    (hl : LiveAt table.get? c.before before d.name ('(' :: s) d) :
    fromParen s ≠ [] ∧ WordAt c.text before d.name ('(' :: (s ++ (c.written ++ c.after))) := by
  have hbefore := hc.endsOutside_before
  have hat : WordAt c.text before d.name ('(' :: (s ++ (c.written ++ c.after))) :=
    ((liveAt_append_iff hbefore).2 (.inl ⟨_, hl, rfl⟩)).wordAt
  have hs : EndsOutside s := by
    rw [hl.wordAt.eq, ← List.singleton_append] at hbefore
    exact hbefore.of_append_right.of_append_right.of_append_right
  have hplain := h _ _ d (table.get?_eq_some_iff.1 hl.lookup).1 hlike hat
  obtain ⟨tail, hwritten, hname, -, -, -⟩ := hc.exists_tail
  rw [hwritten, List.append_assoc] at hplain
  exact ⟨hplain.fromParen_ne_nil hs hname.wordAt.isWord hname.wordAt.right hname.contains, hat⟩

/-- A replacement without names keeps what holds of the lists of a text, if that does not depend on
what stands behind the end of a list in the place of the call. -/
theorem EveryList.splice (hplain : EveryList table (PlainStart table) c.text)
    (h : EveryList table P c.text) (hc : PlainCall table c) {r : Text} (hr : NameFree table r)
    (hP : ∀ s u u', fromParen s ≠ [] → ¬ StartsOutside u → P (s ++ u) → P (s ++ u')) :
    EveryList table P (c.splice r) := by
  intro before after d hd hlike hat
  have hbefore := hc.endsOutside_before
  rw [Call.splice_eq hbefore] at hat
  have hl := (liveAt_get?_iff table _ _ _ _ _).2 ⟨hat, hd, rfl, .inr rfl⟩
  rcases (liveAt_around_iff hbefore (hr.append_separator c.after) (joins_separator r c.after)).1 hl
    with ⟨rest, hl', heq⟩ | ⟨front, hl', -⟩
  · obtain ⟨x, s, rfl⟩ := List.exists_cons_of_ne_nil (hl'.wordAt.after_ne_nil hbefore)
    obtain ⟨rfl, rfl⟩ := List.cons.inj heq
    obtain ⟨hne, hat'⟩ := hplain.fromParen_ne_nil hc hlike hl'
    exact hP s _ _ hne hc.not_startsOutside (h _ _ d hd hlike hat')
  · exact h _ _ d hd hlike (hc.liveAt_of_after hl').wordAt

theorem plainStart_exchange {s u : Text} (hs : fromParen s ≠ [])
    (h : PlainStart table (s ++ u)) (u' : Text) : PlainStart table (s ++ u') :=
  (plainStart_append_iff hs u').2 ((plainStart_append_iff hs u).1 h)

theorem StopsApart.exchange {s u : Text} (hs : fromParen s ≠ []) (hu : ¬ StartsOutside u)
    (h : StopsApart (s ++ u)) (u' : Text) : StopsApart (s ++ u') := by
  intro rest hrest
  rw [fromParen_append_of_ne_nil hs] at hrest
  obtain ⟨x, s', hs'⟩ := List.exists_cons_of_ne_nil hs
  rw [hs', List.cons_append] at hrest
  obtain ⟨rfl, rfl⟩ := List.cons.inj hrest
  have hstarts : StartsOutside (s' ++ u) :=
    h _ (by rw [fromParen_append_of_ne_nil hs, hs', List.cons_append])
  refine hstarts.of_append_left.append fun hnil => absurd ?_ hu
  rwa [hnil, List.nil_append] at hstarts

/-- Where lists stop apart from words, so does every call. -/
theorem PlainCall.startsOutside_after (hc : PlainCall table c)
    (h : EveryList table StopsApart c.text) : StartsOutside c.after := by
  cases hc with
  | objectLike _ _ _ _ hafter => exact hafter
  | @functionLike before list after d hd hlike hw hbefore hlist hplain =>
    have hat : WordAt (Call.text ⟨before, d, some (Call.splitArguments d list),
        d.name ++ '(' :: list ++ [')'], after⟩) before d.name ('(' :: (list ++ ')' :: after)) :=
      ⟨by simp [Call.text], hw, hbefore, startsOutside_cons (by decide) _⟩
    refine h _ _ d hd hlike hat after ?_
    rw [(upToParen_append hlist _).2]
    rfl

/-- What holds of the lists of a text holds of those behind a call. -/
theorem EveryList.of_after (h : EveryList table P c.text) (hc : PlainCall table c) :
    EveryList table P c.after := by
  have htext : c.text = (c.before ++ c.written) ++ c.after := (List.append_assoc _ _ _).symm
  rw [htext] at h
  exact h.of_append hc.joins_after

/-! ## The first call after a splice -/

/-- If a call is expanded and there is another one in front of it, then the first call of the new
text stands in front of it as well. -/
theorem PlainCall.exists_rest_of_splice (hc : PlainCall table c)
    (hlists : EveryList table (PlainStart table) c.text) {r : Text} (hr : NameFree table r)
    {c₀ : Call} (hc₀ : PlainCall table c₀) (hbefore₀ : ¬ HasCall table c₀.before)
    (heq : c₀.text = c.splice r) (hcall : HasCall table c.before) :
    ∃ rest, c.before = c₀.before ++ (c₀.written ++ rest) ∧
      c₀.after = rest ++ ((r ++ separator r c.after) ++ c.after) ∧
      (c₀.definition.isFunctionLike = false → rest ≠ []) := by
  have hends := hc.endsOutside_before
  obtain ⟨tail, hwritten, hl, -, -, -⟩ := hc₀.exists_tail
  rw [heq, Call.splice_eq hends] at hl
  rcases (liveAt_around_iff hends (hr.append_separator c.after) (joins_separator r c.after)).1 hl
    with ⟨rest, hl', hrest⟩ | ⟨front, -, hfront⟩
  · have hne := hl'.wordAt.after_ne_nil hends
    cases hc₀ with
    | @objectLike before₀ after₀ d hd hlike hw _ hafter₀ =>
      obtain rfl := List.self_eq_append_right.1 hwritten
      exact ⟨rest, hl'.wordAt.eq, hrest, fun _ => hne⟩
    | @functionLike before₀ list after₀ d hd hlike hw _ hlist _ =>
      -- no name stands in the list, so it is closed in front of the call
      have htail : tail = '(' :: (list ++ [')']) := by simpa using hwritten.symm
      obtain ⟨x, s, rfl⟩ := List.exists_cons_of_ne_nil hne
      rw [htail, List.cons_append, List.cons_append, List.cons.injEq, List.append_assoc] at hrest
      obtain ⟨rfl, hrest⟩ := hrest
      obtain ⟨hs, -⟩ := hlists.fromParen_ne_nil hc hlike hl'
      obtain ⟨rest, rfl, hafter₀⟩ := exists_close_of_append hlist hs hrest
      refine ⟨rest, ?_, hafter₀, fun h => absurd (hlike.symm.trans h) (by decide)⟩
      rw [hl'.wordAt.eq]
      simp
  · rw [hfront] at hbefore₀
    exact absurd ((hasCall_append_iff hends).2 (.inl hcall)) hbefore₀

/-- In that case the first call of the new text is the first call of the old text too, and the call
that was expanded stands behind it. -/
theorem PlainCall.exists_first_of_splice (hc : PlainCall table c)
    (hlists : EveryList table (PlainStart table) c.text) {r : Text} (hr : NameFree table r)
    {c₀ : Call} (hc₀ : PlainCall table c₀) (hbefore₀ : ¬ HasCall table c₀.before)
    (heq : c₀.text = c.splice r) (hcall : HasCall table c.before) :
    ∃ rest, PlainCall table { c with before := rest } ∧
      Call.splice { c with before := rest } r = c₀.after ∧
      PlainCall table { c₀ with after := Call.text { c with before := rest } } ∧
      Call.text { c₀ with after := Call.text { c with before := rest } } = c.text := by
  obtain ⟨rest, hbefore, hafter, hne⟩ :=
    hc.exists_rest_of_splice hlists hr hc₀ hbefore₀ heq hcall
  have hends : EndsOutside rest := by
    have hends' := hc.endsOutside_before
    rw [hbefore] at hends'
    exact hends'.of_append_right.of_append_right
  have hstarts : c₀.definition.isFunctionLike = false →
      StartsOutside (Call.text { c with before := rest }) := by
    intro hlike
    have hout := hc₀.startsOutside_of_objectLike hlike
    rw [hafter] at hout
    exact hout.of_append_left.append fun hnil => absurd hnil (hne hlike)
  refine ⟨rest, hc.around hends hc.startsOutside_of_objectLike, ?_,
    hc₀.around hc₀.endsOutside_before hstarts, ?_⟩
  · rw [Call.splice_eq hends, hafter]
  · simp [Call.text, hbefore]

end lists

end FlatHeader
