import FlatHeader.Expansion
import FlatHeader.Proofs.Tables
import FlatHeader.Proofs.Words

/-!
# The calls of a text

A word that is the name of a definition is *live* if it has to be read as a call: the definition is
object-like, or an opening parenthesis stands right behind the word. This file says what the scanner
finds in those terms: the first live word decides, and without one there is no call.

* `Call.first?_cases` is the description of the scanner, which everything else is derived from.
* `Call.StandsIn` says what a call of a text is, and `Expander.standsIn_of_select` that both ways of
  selecting give one.
* `Expander.select_eq_none_iff` says when nothing is selected. It does not depend on the way of
  selecting.
-/

namespace FlatHeader

open Text

/-! ## Live words -/

theorem Definition.isFunctionLike_eq_false_iff {d : Definition} :
    d.isFunctionLike = false ↔ d.parameters = none := by
  rw [isFunctionLike, Option.isSome_eq_false_iff, Option.isNone_iff_eq_none]

/-- Whether the name of `d` is to be read as a call where the text `after` stands behind it. -/
def Definition.Live (d : Definition) (after : Text) : Prop :=
  d.isFunctionLike = false ∨ after.head? = some '('

/-- The word `w` between `before` and `after` is the name of `d`, as `lookup` has it, and live. -/
structure LiveAt (lookup : Text → Option Definition) (t before w after : Text)
    (d : Definition) : Prop where
  wordAt : WordAt t before w after
  lookup : lookup w = some d
  live : d.Live after

namespace Call

/-- Reading a word gives no call and no error exactly if the word is not live. -/
theorem ofWord?_eq_none_iff (d : Definition) (seen w after : Text) :
    ofWord? d seen w after = .ok none ↔ ¬ d.Live after := by
  unfold ofWord? Definition.Live
  cases d.isFunctionLike with
  | false => simp
  | true =>
    cases after with
    | nil => simp
    | cons c t =>
      by_cases hc : c = '('
      · subst hc
        simp only [Bool.not_true, Bool.false_eq_true, if_false, List.head?_cons]
        split <;> simp
      · simp [hc]

/-- The name of an object-like definition is a call by itself. -/
theorem ofWord?_of_objectLike {d : Definition} (hlike : d.isFunctionLike = false)
    (seen w after : Text) :
    ofWord? d seen w after = .ok (some ⟨seen.reverse, d, none, w, after⟩) := by
  unfold ofWord?
  rw [hlike]
  rfl

/-- An argument list without parentheses, closed, makes a call. -/
theorem ofWord?_of_closed {d : Definition} (hd : d.isFunctionLike = true) {list : Text}
    (hlist : ∀ c ∈ list, c ≠ '(' ∧ c ≠ ')') (seen w rest : Text) :
    ofWord? d seen w ('(' :: (list ++ ')' :: rest)) =
      .ok (some
        ⟨seen.reverse, d, some (splitArguments d list), w ++ '(' :: list ++ [')'], rest⟩) := by
  have hall : ∀ c ∈ list, (c != '(' && c != ')') = true := by
    intro c hc
    rw [Bool.and_eq_true, bne_iff_ne, bne_iff_ne]
    exact hlist c hc
  have htake : (list ++ ')' :: rest).takeWhile (fun c => c != '(' && c != ')') = list := by
    rw [List.takeWhile_append_of_pos hall, List.takeWhile_cons_of_neg (by decide), List.append_nil]
  have hdrop : (list ++ ')' :: rest).dropWhile (fun c => c != '(' && c != ')') = ')' :: rest := by
    rw [List.dropWhile_append_of_pos hall, List.dropWhile_cons_of_neg (by decide)]
  unfold ofWord?
  rw [hd, if_neg (by decide)]
  simp only [htake, hdrop]

/-- What a word reads as if it is a call: its definition is object-like, or a closed argument list
follows. -/
theorem ofWord?_eq_some_cases {d : Definition} {seen w after : Text} {c : Call}
    (h : ofWord? d seen w after = .ok (some c)) :
    (d.isFunctionLike = false ∧ c = ⟨seen.reverse, d, none, w, after⟩) ∨
      ∃ list rest, d.isFunctionLike = true ∧ after = '(' :: (list ++ ')' :: rest) ∧
        (∀ x ∈ list, x ≠ '(' ∧ x ≠ ')') ∧
        c = ⟨seen.reverse, d, some (splitArguments d list), w ++ '(' :: list ++ [')'], rest⟩ := by
  unfold ofWord? at h
  cases hlike : d.isFunctionLike with
  | false =>
    rw [hlike] at h
    exact .inl ⟨rfl, (Option.some.inj (Except.ok.inj h)).symm⟩
  | true =>
    rw [hlike, if_neg (by decide)] at h
    split at h
    · next s =>
      dsimp only at h
      split at h
      · exact absurd h (by simp)
      · next rest hclose =>
        have hsplit := List.takeWhile_append_dropWhile (p := fun c => c != '(' && c != ')') (l := s)
        rw [hclose] at hsplit
        refine .inr ⟨_, rest, rfl, by rw [hsplit], fun x hx => ?_,
          (Option.some.inj (Except.ok.inj h)).symm⟩
        -- the list ends at the first parenthesis
        have hin := List.mem_takeWhile_imp hx
        rwa [Bool.and_eq_true, bne_iff_ne, bne_iff_ne] at hin
      · exact absurd h (by simp)
    · exact absurd h (by simp)

/-- A call that is read off a word stands where the word does. -/
theorem before_of_ofWord? {d : Definition} {before w after : Text} {c : Call}
    (h : ofWord? d before.reverse w after = .ok (some c)) : c.before = before := by
  rcases ofWord?_eq_some_cases h with ⟨-, rfl⟩ | ⟨list, rest, -, -, -, rfl⟩
  · exact before.reverse_reverse
  · exact before.reverse_reverse

/-- Reading a call is no matter of limits. -/
theorem ofWord?_ne_didNotTerminate (d : Definition) (seen w after name snippet : Text)
    (iterations : ℕ) :
    ofWord? d seen w after ≠ .error (.didNotTerminate name iterations snippet) := by
  unfold ofWord?
  split
  · simp
  · split
    · dsimp only
      split <;> simp
    · simp

/-! ## What a call is -/

/-- A call that stands in the text `t`: the name of an object-like definition, or the name of a
function-like one with an argument list that holds no parentheses. -/
inductive StandsIn (t : Text) : Call → Prop
  | objectLike {before w after : Text} {d : Definition} (hat : WordAt t before w after)
      (hlike : d.isFunctionLike = false) : StandsIn t ⟨before, d, none, w, after⟩
  | functionLike {before w list rest : Text} {d : Definition}
      (hat : WordAt t before w ('(' :: (list ++ ')' :: rest))) (hlike : d.isFunctionLike = true)
      (hlist : ∀ c ∈ list, c ≠ '(' ∧ c ≠ ')') :
      StandsIn t ⟨before, d, some (splitArguments d list), w ++ '(' :: list ++ [')'], rest⟩

/-- Reading a word of a text gives a call that stands there. -/
theorem standsIn_of_ofWord? {d : Definition} {t seen w after : Text} {c : Call}
    (hat : WordAt t seen.reverse w after) (h : ofWord? d seen w after = .ok (some c)) :
    c.StandsIn t ∧ c.definition = d := by
  rcases ofWord?_eq_some_cases h with ⟨hlike, rfl⟩ | ⟨list, rest, hlike, rfl, hlist, rfl⟩
  · exact ⟨.objectLike hat hlike, rfl⟩
  · exact ⟨.functionLike hat hlike hlist, rfl⟩

namespace StandsIn

variable {t : Text} {c : Call}

theorem eq_append (h : c.StandsIn t) : t = c.before ++ (c.written ++ c.after) := by
  cases h with
  | objectLike hat _ => exact hat.eq
  | functionLike hat _ _ => simpa using hat.eq

/-- A call starts with a word. -/
theorem exists_wordAt (h : c.StandsIn t) : ∃ w rest, WordAt t c.before w rest := by
  cases h with
  | objectLike hat _ => exact ⟨_, _, hat⟩
  | functionLike hat _ _ => exact ⟨_, _, hat⟩

end StandsIn

/-! ## The scanner -/

/-- A word that starts behind `s` starts with the next character or later. If it starts with the
next character, it is the run of word characters from there. -/
theorem start_cases {s t before w after : Text} {c : Char}
    (h : WordAt (s ++ c :: t) before w after) (hs : s.length ≤ before.length) :
    (before = s ∧ EndsOutside s ∧ isWordChar c = true ∧ w = c :: t.takeWhile isWordChar ∧
        after = t.dropWhile isWordChar) ∨
      (c :: s).length ≤ before.length := by
  by_cases hlen : s.length = before.length
  · left
    obtain ⟨hbefore, htail⟩ := List.append_inj h.eq hlen
    obtain ⟨d, v, rfl⟩ := List.exists_cons_of_ne_nil h.isWord.ne_nil
    rw [List.cons_append, List.cons.injEq] at htail
    obtain ⟨rfl, rfl⟩ := htail
    have hv : ∀ x ∈ v, isWordChar x = true := fun x hx => h.isWord.all x (List.mem_cons_of_mem c hx)
    obtain ⟨htake, hdrop⟩ := h.right.run_append hv
    exact ⟨hbefore.symm, hbefore ▸ h.left, h.isWord.all c List.mem_cons_self, by rw [htake],
      by rw [hdrop]⟩
  · right
    rw [List.length_cons]
    omega

/-- The run of word characters that starts outside a word is a word. -/
theorem wordAt_start {s : Text} (hs : EndsOutside s) {c : Char} (hc : isWordChar c = true)
    (t : Text) :
    WordAt (s ++ c :: t) s (c :: t.takeWhile isWordChar) (t.dropWhile isWordChar) := by
  refine ⟨?_, ⟨List.cons_ne_nil _ _, ?_⟩, hs, ?_⟩
  · rw [List.cons_append, List.takeWhile_append_dropWhile]
  · intro d hd
    rcases List.mem_cons.1 hd with rfl | hd
    · exact hc
    · exact List.mem_takeWhile_imp hd
  · intro d hd
    have hstop := List.head?_dropWhile_not isWordChar t
    rw [Option.mem_def.1 hd] at hstop
    simpa using hstop

section scanner

variable (lookup : Text → Option Definition)

/-- One character of the scanner, with `seen` behind it: it goes on if no live word starts with the
character, and reads the word otherwise. -/
theorem go_cons {seen : Text} {inWord : Bool} (hin : inWord = false ↔ EndsOutside seen.reverse)
    (c : Char) (t : Text) :
    (first?.go lookup seen inWord (c :: t) = first?.go lookup (c :: seen) (isWordChar c) t ∧
        ∀ w after d, ¬ LiveAt lookup (seen.reverse ++ c :: t) seen.reverse w after d) ∨
      ∃ w after d, LiveAt lookup (seen.reverse ++ c :: t) seen.reverse w after d ∧
        first?.go lookup seen inWord (c :: t) = ofWord? d seen w after := by
  -- a live word here needs a word character that no other one stands before
  have hstart : ∀ {w after d}, LiveAt lookup (seen.reverse ++ c :: t) seen.reverse w after d →
      inWord = false ∧ isWordChar c = true ∧ w = c :: t.takeWhile isWordChar ∧
        after = t.dropWhile isWordChar := by
    intro w after d hl
    rcases start_cases hl.wordAt le_rfl with ⟨-, hout, hc, hw, hafter⟩ | hlen
    · exact ⟨hin.2 hout, hc, hw, hafter⟩
    · rw [List.length_cons, List.length_reverse] at hlen
      omega
  rw [first?.go]
  by_cases hc : isWordChar c = true
  · rw [if_pos hc]
    cases inWord with
    | true =>
      left
      refine ⟨by rw [if_pos rfl, hc], fun w after d hl => ?_⟩
      exact absurd (hstart hl).1 (by decide)
    | false =>
      have hword := wordAt_start (hin.1 rfl) hc t
      rw [if_neg (by decide), List.span_eq_takeWhile_dropWhile, hc]
      cases hd : lookup (c :: t.takeWhile isWordChar) with
      | none =>
        left
        refine ⟨by simp only [hd], fun w after d hl => ?_⟩
        obtain ⟨-, -, rfl, -⟩ := hstart hl
        exact absurd (hl.lookup.symm.trans hd) (by simp)
      | some d =>
        by_cases hlive : d.Live (t.dropWhile isWordChar)
        · right
          refine ⟨_, _, d, ⟨hword, hd, hlive⟩, ?_⟩
          -- the scanner stops, since what it reads is not `.ok none`
          have hne : ofWord? d seen (c :: t.takeWhile isWordChar) (t.dropWhile isWordChar) ≠
              .ok none := fun h => (ofWord?_eq_none_iff _ _ _ _).1 h hlive
          simp only [hd]
        · left
          have hnone := (ofWord?_eq_none_iff d seen (c :: t.takeWhile isWordChar) _).2 hlive
          refine ⟨by simp only [hd, hnone], fun w after e hl => ?_⟩
          obtain ⟨-, -, rfl, rfl⟩ := hstart hl
          rw [hl.lookup, Option.some.injEq] at hd
          exact hlive (hd ▸ hl.live)
  · left
    refine ⟨by rw [if_neg hc, Bool.eq_false_iff.2 hc], fun w after d hl => ?_⟩
    exact hc (hstart hl).2.1

/-- The scanner behind `seen`: either no live word starts there, or it reads the first one. -/
theorem go_cases (t seen : Text) {inWord : Bool} (hin : inWord = false ↔ EndsOutside seen.reverse) :
    (first?.go lookup seen inWord t = .ok none ∧
        ∀ before w after d, LiveAt lookup (seen.reverse ++ t) before w after d →
          before.length < seen.length) ∨
      ∃ before w after d, LiveAt lookup (seen.reverse ++ t) before w after d ∧
        (∀ before' w' after' d', LiveAt lookup (seen.reverse ++ t) before' w' after' d' →
          seen.length ≤ before'.length → before.length ≤ before'.length) ∧
        first?.go lookup seen inWord t = ofWord? d before.reverse w after := by
  induction t generalizing seen inWord with
  | nil =>
    left
    refine ⟨rfl, fun before w after d hl => ?_⟩
    have hlen := congrArg List.length hl.wordAt.eq
    have hpos := List.length_pos_of_ne_nil hl.wordAt.isWord.ne_nil
    simp only [List.length_append, List.length_reverse, List.length_nil] at hlen
    omega
  | cons c t ih =>
    -- a live word that starts at `seen` or behind it starts there or behind the next character
    have hnext : ∀ {before w after d}, LiveAt lookup (seen.reverse ++ c :: t) before w after d →
        seen.length ≤ before.length → before = seen.reverse ∨ seen.length + 1 ≤ before.length := by
      intro before w after d hl hlen
      rcases start_cases hl.wordAt (by rwa [List.length_reverse]) with ⟨hb, -⟩ | hlt
      · exact .inl hb
      · right
        rwa [List.length_cons, List.length_reverse] at hlt
    rcases go_cons lookup hin c t with ⟨hgo, hnone⟩ | ⟨w, after, d, hl, hgo⟩
    · have hc : isWordChar c = false ↔ EndsOutside (c :: seen).reverse := by
        rw [List.reverse_cons, endsOutside_concat]
      have hsplit : (c :: seen).reverse ++ t = seen.reverse ++ c :: t := by
        rw [List.reverse_cons, List.append_assoc]; rfl
      have hrest := ih (c :: seen) hc
      rw [hsplit, ← hgo, List.length_cons] at hrest
      rcases hrest with ⟨hok, hall⟩ | ⟨before, w, after, d, hl, hfirst, hok⟩
      · left
        refine ⟨hok, fun before w after d hl => ?_⟩
        by_contra hlen
        rcases hnext hl (by omega) with rfl | hlt
        · exact hnone w after d hl
        · have := hall before w after d hl
          omega
      · right
        refine ⟨before, w, after, d, hl, fun before' w' after' d' hl' hlen => ?_, hok⟩
        rcases hnext hl' hlen with rfl | hlt
        · exact absurd hl' (hnone w' after' d')
        · exact hfirst before' w' after' d' hl' hlt
    · right
      refine ⟨seen.reverse, w, after, d, hl, fun before' w' after' d' hl' hlen => ?_, ?_⟩
      · rwa [List.length_reverse]
      · rw [hgo, List.reverse_reverse]

/-- What the scanner finds: no call if no word is live, and otherwise what the first live word
reads as. -/
theorem first?_cases (t : Text) :
    (first? lookup t = .ok none ∧ ∀ before w after d, ¬ LiveAt lookup t before w after d) ∨
      ∃ before w after d, LiveAt lookup t before w after d ∧
        (∀ before' w' after' d', LiveAt lookup t before' w' after' d' →
          before.length ≤ before'.length) ∧
        first? lookup t = ofWord? d before.reverse w after := by
  have hin : false = false ↔ EndsOutside (List.reverse []) := iff_of_true rfl endsOutside_nil
  rcases go_cases lookup t [] hin with ⟨hgo, hall⟩ | ⟨before, w, after, d, hl, hfirst, hgo⟩
  · left
    refine ⟨hgo, fun before w after d hl => ?_⟩
    exact absurd (hall before w after d hl) (Nat.not_lt_zero _)
  · right
    refine ⟨before, w, after, d, hl, fun before' w' after' d' hl' => ?_, hgo⟩
    exact hfirst before' w' after' d' hl' (Nat.zero_le _)

/-- The first live word decides. -/
theorem first?_of_first {t before w after : Text} {d : Definition}
    (hl : LiveAt lookup t before w after d)
    (hfirst : ∀ before' w' after' d', LiveAt lookup t before' w' after' d' →
      before.length ≤ before'.length) :
    first? lookup t = ofWord? d before.reverse w after := by
  rcases first?_cases lookup t with ⟨-, hall⟩ | ⟨before', w', after', d', hl', hfirst', hread⟩
  · exact absurd hl (hall before w after d)
  · have hlen := le_antisymm (hfirst before' w' after' d' hl') (hfirst' before w after d hl)
    obtain ⟨rfl, rfl, rfl⟩ := hl.wordAt.unique hl'.wordAt hlen
    obtain rfl := Option.some.inj (hl.lookup.symm.trans hl'.lookup)
    exact hread

theorem first?_eq_none_iff (t : Text) :
    first? lookup t = .ok none ↔ ∀ before w after d, ¬ LiveAt lookup t before w after d := by
  rcases first?_cases lookup t with ⟨hnone, hall⟩ | ⟨before, w, after, d, hl, -, hread⟩
  · exact iff_of_true hnone hall
  · refine iff_of_false (fun hnone => ?_) fun hall => hall before w after d hl
    rw [hread, ofWord?_eq_none_iff] at hnone
    exact hnone hl.live

end scanner

end Call

/-! ## Selecting a call -/

/-- The live words of a table: the definitions count by their names. -/
theorem liveAt_get?_iff (table : Table) (t before w after : Text) (d : Definition) :
    LiveAt table.get? t before w after d ↔
      WordAt t before w after ∧ d ∈ table.definitions ∧ d.name = w ∧ d.Live after := by
  constructor
  · intro hl
    have hget := table.get?_eq_some_iff.1 hl.lookup
    exact ⟨hl.wordAt, hget.1, hget.2, hl.live⟩
  · rintro ⟨hat, hmem, hname, hlive⟩
    exact ⟨hat, table.get?_eq_some_iff.2 ⟨hmem, hname⟩, hlive⟩

/-- A text has a call: the name of an object-like definition of the table stands in it as a word,
or the name of a function-like one with an opening parenthesis right behind it. -/
def HasCall (table : Table) (t : Text) : Prop :=
  ∃ before w after d, LiveAt table.get? t before w after d

/-- The live words of one definition. -/
theorem liveAt_single_iff (d e : Definition) (t before w after : Text) :
    LiveAt (fun word => if word = d.name then some d else none) t before w after e ↔
      WordAt t before w after ∧ e = d ∧ d.name = w ∧ d.Live after := by
  constructor
  · rintro ⟨hat, hget, hlive⟩
    by_cases hw : w = d.name
    · rw [if_pos hw, Option.some.injEq] at hget
      subst hget
      exact ⟨hat, rfl, hw.symm, hlive⟩
    · rw [if_neg hw] at hget
      exact absurd hget (by simp)
  · rintro ⟨hat, rfl, rfl, hlive⟩
    exact ⟨hat, if_pos rfl, hlive⟩

/-- The definitions are tried in order: there is no call if none of them has a live word, and
otherwise some live word of one of them is read. -/
theorem firstOfDefinitions?_cases (t : Text) (l : List Definition) :
    (firstOfDefinitions? t l = .ok none ∧
        ∀ d ∈ l, ∀ before after, WordAt t before d.name after → ¬ d.Live after) ∨
      ∃ d ∈ l, ∃ before after, WordAt t before d.name after ∧ d.Live after ∧
        firstOfDefinitions? t l = Call.ofWord? d before.reverse d.name after := by
  induction l with
  | nil => exact .inl ⟨rfl, fun d hd => absurd hd List.not_mem_nil⟩
  | cons d rest ih =>
    rw [firstOfDefinitions?]
    rcases Call.first?_cases (fun word => if word = d.name then some d else none) t with
      ⟨hnone, hall⟩ | ⟨before, w, after, e, hl, -, hread⟩
    · have hd : ∀ before after, WordAt t before d.name after → ¬ d.Live after := by
        intro before after hat hlive
        exact hall before d.name after d ((liveAt_single_iff d d t _ _ _).2 ⟨hat, rfl, rfl, hlive⟩)
      simp only [hnone]
      -- the first definition has no live word, so the others decide
      rcases ih with ⟨hok, hrest⟩ | ⟨e, he, before, after, hat, hlive, hread⟩
      · left
        refine ⟨hok, fun e he => ?_⟩
        rcases List.mem_cons.1 he with rfl | he
        · exact hd
        · exact hrest e he
      · exact .inr ⟨e, List.mem_cons_of_mem d he, before, after, hat, hlive, hread⟩
    · right
      obtain ⟨hat, rfl, rfl, hlive⟩ := (liveAt_single_iff d e t _ _ _).1 hl
      refine ⟨e, List.mem_cons_self, before, after, hat, hlive, ?_⟩
      rw [hread]
      split
      · next h => exact absurd hlive ((Call.ofWord?_eq_none_iff _ _ _ _).1 h)
      · rfl

namespace Expander

variable (x : Expander) (t : Text)

/-- Either way of selecting reads a live word of the table if there is one. -/
theorem select_cases :
    (x.select t = .ok none ∧ ∀ before w after d, ¬ LiveAt x.table.get? t before w after d) ∨
      ∃ before w after d, LiveAt x.table.get? t before w after d ∧
        x.select t = Call.ofWord? d before.reverse w after := by
  unfold select
  cases x.selection with
  | leftmost =>
    rcases Call.first?_cases x.table.get? t with hnone | ⟨before, w, after, d, hl, -, hread⟩
    · exact .inl hnone
    · exact .inr ⟨before, w, after, d, hl, hread⟩
  | definitionOrder =>
    rcases firstOfDefinitions?_cases t x.table.definitions with
      ⟨hnone, hall⟩ | ⟨d, hd, before, after, hat, hlive, hread⟩
    · left
      refine ⟨hnone, fun before w after d hl => ?_⟩
      obtain ⟨hat, hd, rfl, hlive⟩ := (liveAt_get?_iff x.table t _ _ _ _).1 hl
      exact hall d hd before after hat hlive
    · right
      exact ⟨before, d.name, after, d,
        (liveAt_get?_iff x.table t _ _ _ _).2 ⟨hat, hd, rfl, hlive⟩, hread⟩

/-- Selecting a call is no matter of limits either. -/
theorem select_ne_didNotTerminate (name snippet : Text) (iterations : ℕ) :
    x.select t ≠ .error (.didNotTerminate name iterations snippet) := by
  rcases select_cases x t with ⟨hnone, -⟩ | ⟨before, w, after, d, -, hread⟩
  · rw [hnone]
    simp
  · rw [hread]
    exact Call.ofWord?_ne_didNotTerminate d _ w after name snippet iterations

/-- What is selected is a call of the table that stands in the text. -/
theorem standsIn_of_select {c : Call} (h : x.select t = .ok (some c)) :
    c.StandsIn t ∧ c.definition ∈ x.table.definitions := by
  rcases select_cases x t with ⟨hnone, -⟩ | ⟨before, w, after, d, hl, hread⟩
  · rw [hnone] at h
    exact absurd h (by simp)
  · rw [hread] at h
    have hat : WordAt t before.reverse.reverse w after := by
      rw [List.reverse_reverse]
      exact hl.wordAt
    obtain ⟨hc, rfl⟩ := Call.standsIn_of_ofWord? hat h
    exact ⟨hc, (x.table.get?_eq_some_iff.1 hl.lookup).1⟩

/-- What a selected call looks like: the name of its definition stands in the text as a word, by
itself or with a closed argument list behind it. -/
theorem select_eq_some_cases {c : Call} (h : x.select t = .ok (some c)) :
    (c.definition.isFunctionLike = false ∧ c.arguments = none ∧ c.written = c.definition.name ∧
        WordAt t c.before c.definition.name c.after) ∨
      ∃ list, c.definition.isFunctionLike = true ∧
        c.arguments = some (Call.splitArguments c.definition list) ∧
        c.written = c.definition.name ++ '(' :: list ++ [')'] ∧ (∀ a ∈ list, a ≠ '(' ∧ a ≠ ')') ∧
        WordAt t c.before c.definition.name ('(' :: (list ++ ')' :: c.after)) := by
  rcases select_cases x t with ⟨hnone, -⟩ | ⟨before, w, after, d, hl, hread⟩
  · rw [hnone] at h
    exact absurd h (by simp)
  · rw [hread] at h
    obtain rfl := (x.table.get?_eq_some_iff.1 hl.lookup).2
    rcases Call.ofWord?_eq_some_cases h with ⟨hlike, rfl⟩ | ⟨list, rest, hlike, rfl, hlist, rfl⟩
    · rw [List.reverse_reverse]
      exact .inl ⟨hlike, rfl, rfl, hl.wordAt⟩
    · rw [List.reverse_reverse]
      exact .inr ⟨list, hlike, rfl, rfl, hlist, hl.wordAt⟩

/-- Nothing is selected exactly in a text without live words, whichever way the calls are
selected. -/
theorem select_eq_none_iff :
    x.select t = .ok none ↔ ∀ before w after d, ¬ LiveAt x.table.get? t before w after d := by
  rcases select_cases x t with ⟨hnone, hall⟩ | ⟨before, w, after, d, hl, hread⟩
  · exact iff_of_true hnone hall
  · refine iff_of_false (fun hnone => ?_) fun hall => hall before w after d hl
    rw [hread, Call.ofWord?_eq_none_iff] at hnone
    exact hnone hl.live

theorem select_nil : x.select [] = .ok none := by
  rw [select_eq_none_iff]
  intro before w after d hl
  have hnil := hl.wordAt.eq.symm
  rw [List.append_eq_nil_iff, List.append_eq_nil_iff] at hnil
  exact hl.wordAt.isWord.ne_nil hnil.2.1

theorem select_eq_none_iff_not_hasCall : x.select t = .ok none ↔ ¬ HasCall x.table t := by
  rw [select_eq_none_iff, HasCall]
  push Not
  rfl

end Expander

end FlatHeader
