import FlatHeader.Proofs.PlainCalls

/-!
# Flat tables

In a flat table no body holds a name, so nothing that a step puts into a text is ever called. If the
argument lists of the text hold no names either, each call of it is expanded by itself, and the
calls can be taken in any order. What the order does change is the spaces that keep a replacement
apart from what follows: behind a call stands the next one, or what has taken its place.

`Yields` lists the calls of a text from the left and says what can be read off the result, for any
reading that does not see those spaces. A step takes one call off the list, whichever it is, and
keeps the reading (`Yields.step`); and a text that a step leads to such a list has one itself
(`Yields.of_step`). So the number of steps and the reading of the result are the same in either
selection.
-/

namespace FlatHeader

open Text

/-- No name of the table stands in a body as a word. -/
def Table.Flat (table : Table) : Prop := ∀ d ∈ table.definitions, NameFree table d.body

instance (table : Table) : Decidable table.Flat :=
  inferInstanceAs (Decidable (∀ d ∈ table.definitions, NameFree table d.body))

/-! ## Readings -/

variable {α : Type}

/-- What is read off two texts that do not merge is read off one and then the other. -/
def ReadByParts (f : Text → List α) : Prop :=
  ∀ {a b : Text}, joins a b = false → f (a ++ b) = f a ++ f b

/-- A separator is not read, where spaces are not or where there is none. -/
theorem ReadByParts.append_separator {f : Text → List α} (hf : ReadByParts f) {after : Text}
    (h : f [' '] = [] ∨ StartsOutside after) (r : Text) : f (r ++ separator r after) = f r := by
  have hspace : StartsOutside [' '] := startsOutside_cons (by decide) []
  unfold separator
  cases hjoins : joins r after with
  | false => rw [if_neg (by decide), List.append_nil]
  | true =>
    rcases h with hnone | hafter
    · rw [if_pos rfl, hf (joins_of_startsOutside r hspace), hnone, List.append_nil]
    · rw [joins_of_startsOutside r hafter] at hjoins
      exact absurd hjoins (by decide)

/-! ## The calls of a text -/

/-- The text `t` has `k` calls, no list of which holds a name, and each of them can be substituted;
with the replacements in their places, `f` reads `v` off the text. The calls are listed from the
left. -/
inductive Yields (table : Table) (f : Text → List α) : ℕ → Text → List α → Prop
  | done {t : Text} (ht : ¬ HasCall table t) : Yields table f 0 t (f t)
  | call {k : ℕ} {t r : Text} {c : Call} {v : List α} (ht : c.text = t) (hc : PlainCall table c)
      (hbefore : ¬ HasCall table c.before) (hr : c.replacement = .ok r)
      (hspace : f [' '] = [] ∨ StartsOutside c.after) (hafter : Yields table f k c.after v) :
      Yields table f (k + 1) t (f c.before ++ (f r ++ v))

namespace Yields

variable {table : Table} {f : Text → List α} (hf : ReadByParts f)
variable {k : ℕ} {t : Text} {v : List α}

/-! ### More text in front -/

section front

variable {a m : Text} (ha : EndsOutside a) (hno : ¬ HasCall table a) (hm : NameFree table m)
  (hjoins : joins m t = false)
include ha hno hm hjoins

include hf in
/-- A text without calls, and then one without names, in front of the calls. -/
theorem append_left (h : Yields table f k t v) :
    Yields table f k (a ++ (m ++ t)) (f a ++ (f m ++ v)) := by
  cases h with
  | done ht =>
    rw [← hf hjoins, ← hf (joins_of_endsOutside ha _)]
    refine .done fun h => ?_
    exact ((hasCall_around_iff ha hm hjoins).1 h).elim hno ht
  | @call k _ r c v ht hc hbefore hr hspace hafter =>
    subst ht
    have hjoins' : joins m c.before = false := joins_of_append_right hjoins
    -- if the call comes first, the text in front of it ends outside words
    have hends : EndsOutside (a ++ (m ++ c.before)) := by
      refine (hc.endsOutside_before.append_left fun hnil => ?_).append_left fun _ => ha
      unfold Call.text at hjoins
      rw [hnil, List.nil_append] at hjoins
      exact ((joins_eq_false_iff m _).1 hjoins).resolve_right hc.not_startsOutside
    have hcall : PlainCall table { c with before := a ++ (m ++ c.before) } :=
      hc.around hends hc.startsOutside_of_objectLike
    have hread : f a ++ (f m ++ (f c.before ++ (f r ++ v))) =
        f (a ++ (m ++ c.before)) ++ (f r ++ v) := by
      rw [hf (joins_of_endsOutside ha _), hf hjoins']
      simp
    rw [hread]
    refine .call (c := { c with before := a ++ (m ++ c.before) }) (by simp [Call.text]) hcall
      (fun h => ?_) hr hspace hafter
    exact ((hasCall_around_iff ha hm hjoins').1 h).elim hno hbefore

/-- The calls without the text in front. -/
theorem of_append_left (h : Yields table f k (a ++ (m ++ t)) v) :
    ∃ v', Yields table f k t v' := by
  generalize hs : a ++ (m ++ t) = s at h
  cases h with
  | done hnone =>
    subst hs
    exact ⟨f t, .done fun h => hnone ((hasCall_around_iff ha hm hjoins).2 (.inr h))⟩
  | @call k _ r c v hc hplain hbefore hr hspace hafter =>
    obtain ⟨tail, -, hl, -, -, -⟩ := hplain.exists_tail
    rw [hc, ← hs] at hl
    rcases (liveAt_around_iff ha hm hjoins).1 hl with ⟨rest, hl', -⟩ | ⟨front, hl', hfront⟩
    · exact absurd ⟨_, _, _, _, hl'⟩ hno
    · have hcall : PlainCall table { c with before := front } :=
        hplain.around hl'.wordAt.left hplain.startsOutside_of_objectLike
      have ht : a ++ (m ++ (front ++ (c.written ++ c.after))) = a ++ (m ++ t) := by
        rw [hs, ← hc]
        simp [Call.text, hfront]
      have htext : front ++ (c.written ++ c.after) = t :=
        List.append_cancel_left (List.append_cancel_left ht)
      refine ⟨_, .call (c := { c with before := front }) htext hcall (fun h => hbefore ?_) hr hspace
        hafter⟩
      rw [hfront]
      have hjoins' : joins m front = false := by
        rw [← htext] at hjoins
        exact joins_of_append_right hjoins
      exact (hasCall_around_iff ha hm hjoins').2 (.inr h)

end front

/-! ### Steps -/

/-- Whichever live word is read, it is a call that can be substituted, and one call less is left
then. The reading stays the same. -/
theorem step (hf : ReadByParts f) (hflat : table.Flat) (h : Yields table f k t v)
    {before w after : Text} {d : Definition} (hl : LiveAt table.get? t before w after d) :
    ∃ c r n, k = n + 1 ∧ Call.ofWord? d before.reverse w after = .ok (some c) ∧
      c.before = before ∧ c.replacement = .ok r ∧ Yields table f n (c.splice r) v := by
  induction h generalizing before with
  | done ht => exact absurd ⟨_, _, _, _, hl⟩ ht
  | @call k t r c v ht hc hbefore hr hspace hafter ih =>
    subst ht
    have hends := hc.endsOutside_before
    rcases hc.liveAt_cases hl with ⟨rest, hl', -⟩ | hfirst | ⟨front, hl', rfl⟩
    · exact absurd ⟨_, _, _, _, hl'⟩ hbefore
    · -- the first call: its replacement holds no call
      obtain ⟨tail, -, hname, -, -, hread⟩ := hc.exists_tail
      obtain ⟨rfl, rfl, rfl⟩ := hname.wordAt.unique hl.wordAt (by rw [hfirst])
      obtain rfl := Option.some.inj (hname.lookup.symm.trans hl.lookup)
      refine ⟨c, r, k, rfl, hread, rfl, hr, ?_⟩
      have hnames := (hc.nameFree_replacement hflat hr).append_separator c.after
      have hrest := hafter.append_left hf hends hbefore hnames (joins_separator r c.after)
      rwa [hf.append_separator hspace, ← Call.splice_eq hends] at hrest
    · -- another call behind it: the first one stays the first one
      obtain ⟨c', r', n, rfl, hread, rfl, hr', hrest⟩ := ih hl'
      have hleft : EndsOutside ((c.before ++ c.written) ++ c'.before) := by
        have hleft' := hl.wordAt.left
        rwa [← List.append_assoc] at hleft'
      refine ⟨c'.within (c.before ++ c.written) [], r', n + 1, rfl, ?_, ?_, hr', ?_⟩
      · have hwithin := Call.ofWord?_within hread (c.before ++ c.written) []
        rwa [List.append_nil, List.append_assoc] at hwithin
      · simp [Call.within]
      · rw [Call.splice_within_left hleft]
        have hstarts : StartsOutside c.after → StartsOutside (c'.splice r') := fun hout =>
          Call.startsOutside_splice hl'.wordAt hout r'
        have hcall : PlainCall table { c with after := c'.splice r' } :=
          hc.around hends fun hlike => hstarts (hc.startsOutside_of_objectLike hlike)
        exact .call (c := { c with after := c'.splice r' }) (by simp [Call.text]) hcall hbefore hr
          (hspace.imp_right hstarts) hrest

/-! ### Steps back -/

section back

variable {c : Call} {r : Text} (hlists : EveryList table (PlainStart table) c.text)
  (hspace : f [' '] = [] ∨ EveryList table StopsApart c.text) (hc : PlainCall table c)
  (hr : c.replacement = .ok r) (hnames : NameFree table r)
include hspace hc hr hnames

/-- A text whose first call was expanded has that call more. -/
theorem of_step_first (hbefore : ¬ HasCall table c.before) (h : Yields table f k (c.splice r) v) :
    ∃ v', Yields table f (k + 1) c.text v' := by
  have hends := hc.endsOutside_before
  rw [Call.splice_eq hends] at h
  obtain ⟨v', h'⟩ := of_append_left hends hbefore (hnames.append_separator c.after)
    (joins_separator r c.after) h
  exact ⟨_, .call rfl hc hbefore hr (hspace.imp_right hc.startsOutside_after) h'⟩

include hlists

/-- A text one of whose calls was expanded has that call more. -/
theorem of_step (h : Yields table f k (c.splice r) v) : ∃ v', Yields table f (k + 1) c.text v' := by
  induction k generalizing c v with
  | zero =>
    refine of_step_first hspace hc hr hnames (fun hbefore => ?_) h
    generalize hs : c.splice r = s at h
    cases h with
    | done hnone =>
      rw [← hs, Call.splice_eq hc.endsOutside_before] at hnone
      exact hnone ((hasCall_append_iff hc.endsOutside_before).2 (.inl hbefore))
  | succ k ih =>
    by_cases hbefore : HasCall table c.before
    · generalize hs : c.splice r = s at h
      cases h with
      | @call _ _ r₀ c₀ v₀ heq hc₀ hbefore₀ hr₀ _ hafter₀ =>
        -- the first call stays, and the induction is for the text behind it
        obtain ⟨front, hc', hsplice, hfirst, htext⟩ :=
          hc.exists_first_of_splice hlists hnames hc₀ hbefore₀ (heq.trans hs.symm) hbefore
        rw [← htext] at hlists hspace ⊢
        rw [← hsplice] at hafter₀
        obtain ⟨v', h'⟩ := ih (hlists.of_after hfirst)
          (hspace.imp_right fun h => h.of_after hfirst) hc' hr hafter₀
        exact ⟨_, .call rfl hfirst hbefore₀ hr₀ (hspace.imp_right hfirst.startsOutside_after) h'⟩
    · exact of_step_first hspace hc hr hnames hbefore h

end back

end Yields

/-! ## Runs -/

namespace Expander

variable {x : Expander} {f : Text → List α} {k : ℕ} {t u : Text} {v : List α}

/-- Either selection takes as many steps as there are calls, and what is read off the result does
not depend on it. -/
theorem exists_run_of_yields (hf : ReadByParts f) (hflat : x.table.Flat)
    (h : Yields x.table f k t v) :
    ∃ out, x.Run k t out ∧ x.select out = .ok none ∧ f out = v := by
  induction k generalizing t with
  | zero =>
    cases h with
    | done hnone => exact ⟨t, .refl t, (x.select_eq_none_iff_not_hasCall t).2 hnone, rfl⟩
  | succ k ih =>
    rcases x.select_cases t with ⟨-, hnone⟩ | ⟨before, w, after, d, hl, hread⟩
    · cases h with
      | call ht hc =>
        obtain ⟨tail, -, hl, -, -, -⟩ := hc.exists_tail
        rw [ht] at hl
        exact absurd hl (hnone _ _ _ _)
    · obtain ⟨c, r, n, hn, hcall, -, hr, hrest⟩ := h.step hf hflat hl
      obtain rfl : k = n := Nat.succ_injective hn
      obtain ⟨out, hrun, hout, hv⟩ := ih hrest
      exact ⟨out, .step (expandOnce?_eq_some_iff.2 ⟨c, r, hread.trans hcall, hr, rfl⟩) hrun, hout,
        hv⟩

/-- A run that ends in a text without calls takes one step for each call of the text it starts
with. -/
theorem Run.exists_yields (hflat : x.table.Flat) (hrun : x.Run k t u)
    (hu : x.select u = .ok none) (hlists : EveryList x.table (PlainStart x.table) t)
    (hspace : f [' '] = [] ∨ EveryList x.table StopsApart t) :
    ∃ v, Yields x.table f k t v := by
  induction hrun with
  | refl t => exact ⟨f t, .done ((x.select_eq_none_iff_not_hasCall t).1 hu)⟩
  | @step k t v u hstep _ ih =>
    obtain ⟨c, r, hs, hr, rfl⟩ := expandOnce?_eq_some_iff.1 hstep
    obtain ⟨hc, rfl⟩ := PlainCall.of_select hlists hs
    have hnames := hc.nameFree_replacement hflat hr
    obtain ⟨v, hv⟩ := ih hu
      (hlists.splice hlists hc hnames fun s u u' hs _ h => plainStart_exchange hs h u')
      (hspace.imp_right fun h =>
        hlists.splice h hc hnames fun s u u' hs hu h => h.exchange hs hu u')
    exact Yields.of_step hlists hspace hc hr hnames hv

end Expander

/-- In a flat table, for a text without names in its lists, an expansion in one selection tells what
one in the other gives: it succeeds as well, and the results read the same. -/
theorem exists_expand_of_expand {table : Table} {f : Text → List α} {t out : Text}
    {selection : Selection} {limit : ℕ} (hf : ReadByParts f) (hflat : table.Flat)
    (hlists : EveryList table (PlainStart table) t)
    (hspace : f [' '] = [] ∨ EveryList table StopsApart t)
    (h : (Expander.mk table selection limit).expand t = .ok out) (selection' : Selection) :
    ∃ out', (Expander.mk table selection' limit).expand t = .ok out' ∧ f out' = f out := by
  obtain ⟨k, hk, hrun, hout⟩ := Expander.expand_eq_ok_iff.1 h
  obtain ⟨v, hv⟩ := hrun.exists_yields hflat hout hlists hspace
  have hall : ∀ s, ∃ out', (Expander.mk table s limit).expand t = .ok out' ∧ f out' = v := by
    intro s
    obtain ⟨out', hrun', hout', hread⟩ :=
      Expander.exists_run_of_yields (x := ⟨table, s, limit⟩) hf hflat hv
    exact ⟨out', Expander.expand_eq_ok_iff.2 ⟨k, hk, hrun', hout'⟩, hread⟩
  obtain ⟨out', hout', hread'⟩ := hall selection'
  obtain ⟨out'', hout'', hread''⟩ := hall selection
  obtain rfl := Except.ok.inj (h.symm.trans hout'')
  exact ⟨out', hout', hread'.trans hread''.symm⟩

/-! ## The two selections -/

/-- No name of the table stands in an argument list of the text: where the name of a function-like
definition stands as a word with an opening parenthesis right behind it, there is no name from there
to the next parenthesis, or to the end of the text. -/
def PlainCalls (table : Table) (t : Text) : Prop := EveryList table (PlainStart table) t

/-- No call of a function-like definition is directly followed by a word. -/
def CallsApart (table : Table) (t : Text) : Prop := EveryList table StopsApart t

/-- In flat tables the selections agree up to spaces. Suppose no name of the table is a word of a
body, and no name stands in an argument list of the text. Then, with any limit, an expansion that
takes the leftmost call first succeeds exactly if one in the order of the definitions does. The two
results have the same words in the same order, and are equal when all spaces are deleted. They are
equal as they are if no call of a function-like definition is directly followed by a word. -/
theorem expand_flat (table : Table) (hflat : table.Flat) {t : Text} (ht : PlainCalls table t)
    (limit : ℕ) :
    ((∃ out, (Expander.mk table .leftmost limit).expand t = .ok out) ↔
      ∃ out, (Expander.mk table .definitionOrder limit).expand t = .ok out) ∧
    ∀ out out', (Expander.mk table .leftmost limit).expand t = .ok out →
      (Expander.mk table .definitionOrder limit).expand t = .ok out' →
      words out = words out' ∧ out.filter (· ≠ ' ') = out'.filter (· ≠ ' ') ∧
        (CallsApart table t → out = out') := by
  have hwords : ReadByParts words := words_append
  have hfilter : ReadByParts fun t => t.filter (· ≠ ' ') := fun _ => List.filter_append _ _
  have hid : ReadByParts (id : Text → Text) := fun _ => rfl
  have hspace : words [' '] = [] := words_gap (by decide) []
  constructor
  · constructor
    · rintro ⟨out, h⟩
      obtain ⟨out', h', -⟩ :=
        exists_expand_of_expand hwords hflat ht (.inl hspace) h .definitionOrder
      exact ⟨out', h'⟩
    · rintro ⟨out, h⟩
      obtain ⟨out', h', -⟩ := exists_expand_of_expand hwords hflat ht (.inl hspace) h .leftmost
      exact ⟨out', h'⟩
  · intro out out' h h'
    have hread : ∀ {α : Type} {f : Text → List α}, ReadByParts f →
        (f [' '] = [] ∨ CallsApart table t) → f out = f out' := by
      intro α f hf hnone
      obtain ⟨out'', h'', heq⟩ := exists_expand_of_expand hf hflat ht hnone h .definitionOrder
      obtain rfl := Except.ok.inj (h'.symm.trans h'')
      exact heq.symm
    exact ⟨hread hwords (.inl hspace), hread hfilter (.inl rfl), fun h => hread hid (.inr h)⟩

/-- A space is put between a replacement and the call behind it, and stays when that call turns out
to start with another character; in the order of the definitions it is never put. With a character
between the calls there is no difference. -/
theorem expand_flat_adjacent_calls :
    ∃ table : Table, table.definitions =
        [⟨['J'], some [['x']], ['-']⟩, ⟨['I'], some [['x']], ['x']⟩] ∧
      table.Flat ∧ PlainCalls table "I(a)J(b)".toList ∧
      (Expander.mk table .leftmost 2).expand "I(a)J(b)".toList = .ok "a -".toList ∧
      (Expander.mk table .definitionOrder 2).expand "I(a)J(b)".toList = .ok "a-".toList ∧
      words "a -".toList = words "a-".toList ∧
      "a -".toList.filter (· ≠ ' ') = "a-".toList.filter (· ≠ ' ') ∧
      CallsApart table "I(a)+J(b)".toList ∧
      ∃ out, (Expander.mk table .leftmost 2).expand "I(a)+J(b)".toList = .ok out ∧
        (Expander.mk table .definitionOrder 2).expand "I(a)+J(b)".toList = .ok out := by
  have hflat : (Table.ofList
      [⟨['J'], some [['x']], ['-']⟩, ⟨['I'], some [['x']], ['x']⟩]).Flat := by decide
  have hplain : PlainCalls (.ofList
      [⟨['J'], some [['x']], ['-']⟩, ⟨['I'], some [['x']], ['x']⟩]) "I(a)J(b)".toList :=
    .of_behind (by decide)
  have hplain' : PlainCalls (.ofList
      [⟨['J'], some [['x']], ['-']⟩, ⟨['I'], some [['x']], ['x']⟩]) "I(a)+J(b)".toList :=
    .of_behind (by decide)
  have hapart : CallsApart (.ofList
      [⟨['J'], some [['x']], ['-']⟩, ⟨['I'], some [['x']], ['x']⟩]) "I(a)+J(b)".toList :=
    .of_behind (by decide)
  obtain ⟨-, hagree⟩ := expand_flat _ hflat hplain 2
  obtain ⟨hwords, hfilter, -⟩ := hagree "a -".toList "a-".toList (by rfl) (by rfl)
  obtain ⟨⟨hok, -⟩, hsame⟩ := expand_flat _ hflat hplain' 2
  obtain ⟨out', hout'⟩ := hok ⟨"a+-".toList, by rfl⟩
  obtain rfl := (hsame "a+-".toList out' (by rfl) hout').2.2 hapart
  exact ⟨_, by rfl, hflat, hplain, by rfl, by rfl, hwords, hfilter, hapart, _, by rfl, hout'⟩

end FlatHeader
