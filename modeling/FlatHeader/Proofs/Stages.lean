import FlatHeader.Proofs.Lines
import FlatHeader.Proofs.Markers

/-!
# The stages of cleaning up

Continuation markers, paste marks and string marks are resolved one kind after the other. A
character that is in no mark is kept by each stage and keeps the texts around it apart, so a split
of the result at such a character comes from a split of the text (`exists_split_of_unmark`). String
marks put quotes around words and do nothing else to them: `words_resolveStringMarks`.
-/

namespace FlatHeader

open Text

/-! ## Splits of a result -/

/-- If a character keeps the texts around it apart and is never brought in, then a split of the
result at this character comes from a split of the text. -/
theorem exists_split_of_eq_append_cons {f : Text → Text} {c : Char}
    (hsplit : ∀ a b, f (a ++ c :: b) = f a ++ c :: f b) (hnew : ∀ s, c ∈ f s → c ∈ s)
    {t p q : Text} (h : f t = p ++ c :: q) : ∃ a b, t = a ++ c :: b ∧ f a = p ∧ f b = q := by
  induction t using separator_induction c generalizing p with
  | last s hs =>
    refine absurd (hnew s ?_) hs
    rw [h]
    exact List.mem_append_right p List.mem_cons_self
  | cut s t hs ih =>
    -- it is the first one, or it stands behind the first one
    rw [hsplit] at h
    rcases append_cons_cases (fun hmem => hs (hnew s hmem)) h with ⟨rfl, rfl⟩ | ⟨front, rfl, ht⟩
    · exact ⟨s, t, rfl, rfl, rfl⟩
    · obtain ⟨a, b, rfl, rfl, rfl⟩ := ih ht
      exact ⟨s ++ c :: a, b, by simp, hsplit s a, rfl⟩

/-! ## Characters that are in no mark -/

/-- A character that is neither in a continuation marker nor in a paste mark. -/
structure Unmarking (c : Char) : Prop where
  ne_backslash : c ≠ '\\'
  not_break : Continuation.isBreakChar c = false
  ne_mark : c ≠ '#'

theorem unmarking_of_isWordChar {c : Char} (h : isWordChar c = true) : Unmarking c := by
  refine ⟨?_, ?_, ?_⟩
  · rintro rfl
    exact absurd h (by decide)
  · by_contra hbreak
    rw [Bool.not_eq_false] at hbreak
    rw [Continuation.isWordChar_eq_false_of_isBreakChar hbreak] at h
    exact absurd h (by decide)
  · rintro rfl
    exact absurd h (by decide)

/-! ## Continuation markers -/

namespace Continuation

theorem lineBreak?_char (d : Char) (ts : List Token) :
    lineBreak? (.char d :: ts) =
      if d = '\n' then some (['\n'], ts)
      else if d = '\r' ∧ ts.head? = some (.char '\n') then some (['\r', '\n'], ts.tail)
      else if isBlank d then (lineBreak? ts).map fun (written, rest) => (d :: written, rest)
      else none := by
  by_cases hlf : d = '\n'
  · rw [if_pos hlf, hlf, lineBreak?]
  · rw [if_neg hlf]
    by_cases hcrlf : d = '\r' ∧ ts.head? = some (.char '\n')
    · rw [if_pos hcrlf]
      obtain ⟨rfl, hts⟩ := hcrlf
      obtain ⟨rest, rfl⟩ := List.head?_eq_some_iff.1 hts
      rfl
    · rw [if_neg hcrlf, lineBreak?]
      · exact hlf
      · rintro rest rfl rfl
        exact hcrlf ⟨rfl, rfl⟩

/-- What stands behind a character that is in no line break does not matter for a line break in
front of it. -/
theorem lineBreak?_append {c : Char} (hc : isBreakChar c = false) (ts us : List Token) :
    lineBreak? (ts ++ .char c :: us) =
      (lineBreak? ts).map fun (written, rest) => (written, rest ++ .char c :: us) := by
  unfold isBreakChar at hc
  rw [Bool.or_eq_false_iff, Bool.or_eq_false_iff, beq_eq_false_iff_ne, beq_eq_false_iff_ne] at hc
  obtain ⟨⟨hblank, hcr⟩, hlf⟩ := hc
  induction ts with
  | nil =>
    rw [List.nil_append, lineBreak?_char, if_neg hlf, if_neg fun h => hcr h.1, hblank]
    rfl
  | cons token ts ih =>
    cases token with
    | marker written => rfl
    | char d =>
      -- the character behind a carriage return is the same one, or it is no line feed
      have hhead : (ts ++ .char c :: us).head? = some (.char '\n') ↔
          ts.head? = some (.char '\n') := by
        cases ts with
        | nil => simpa using hlf
        | cons token ts => rfl
      rw [List.cons_append, lineBreak?_char, lineBreak?_char]
      simp only [hhead]
      split
      · rfl
      · split
        · next hbreak =>
          obtain ⟨rest, rfl⟩ := List.head?_eq_some_iff.1 hbreak.2
          rfl
        · split
          · rw [ih, Option.map_map, Option.map_map]
            rfl
          · rfl

/-- The tokens on both sides of a character that is in no marker. -/
theorem tokens_append_cons {c : Char} (hc : Unmarking c) (a b : Text) :
    tokens (a ++ c :: b) = tokens a ++ .char c :: tokens b := by
  induction a with
  | nil => rw [List.nil_append, tokens_cons, push_of_ne hc.ne_backslash]; rfl
  | cons d a ih =>
    rw [List.cons_append, tokens_cons, tokens_cons, ih]
    unfold push
    split
    · rw [lineBreak?_append hc.not_break]
      cases lineBreak? (tokens a) <;> rfl
    · rfl

end Continuation

theorem joinLines_append_cons {c : Char} (hc : Unmarking c) (mode : ContinuationMode)
    (a b : Text) : joinLines mode (a ++ c :: b) = joinLines mode a ++ c :: joinLines mode b := by
  unfold joinLines
  rw [Continuation.tokens_append_cons hc, List.flatMap_append, List.flatMap_cons]
  rfl

/-- Joining lines brings no character but the line feeds that stay for markers. -/
theorem mem_of_mem_joinLines {x : Char} (hx : x ≠ '\n') {mode : ContinuationMode} {t : Text}
    (h : x ∈ joinLines mode t) : x ∈ t := by
  induction t with
  | nil => exact h
  | cons c t ih =>
    by_cases hc : c = '\\'
    · subst hc
      by_cases hbreak : Continuation.StartsBreak t
      · obtain ⟨written, rest, -, hjoin, hmarker⟩ :=
          Continuation.exists_joinLines_marker hbreak mode
        rw [hmarker, List.mem_append] at h
        rcases h with h | h
        · cases mode with
          | join => exact absurd h List.not_mem_nil
          | keepLineBreak => exact absurd (List.mem_singleton.1 h) hx
        · exact List.mem_cons_of_mem _ (ih (hjoin ▸ List.mem_append_right written h))
      · rw [Continuation.joinLines_backslash hbreak] at h
        exact List.mem_cons.2 ((List.mem_cons.1 h).imp_right ih)
    · rw [Continuation.joinLines_cons_of_ne hc] at h
      exact List.mem_cons.2 ((List.mem_cons.1 h).imp_right ih)

/-! ## Paste marks -/

theorem removePasteMarks_cons (c : Char) (t : Text) :
    removePasteMarks (c :: t) = pushUnpasted c (removePasteMarks t) := rfl

theorem pushUnpasted_of_ne {c : Char} (hc : c ≠ '#') (t : Text) : pushUnpasted c t = c :: t := by
  rw [pushUnpasted]
  exact fun _ h => absurd h hc

/-- A character that is no paste mark is kept, and no `#` in front of it pairs with one behind. -/
theorem removePasteMarks_append_cons {c : Char} (hc : c ≠ '#') (a b : Text) :
    removePasteMarks (a ++ c :: b) = removePasteMarks a ++ c :: removePasteMarks b := by
  induction a with
  | nil => exact pushUnpasted_of_ne hc _
  | cons d a ih =>
    rw [List.cons_append, removePasteMarks_cons, removePasteMarks_cons, ih]
    by_cases hd : d = '#'
    · subst hd
      cases removePasteMarks a with
      | nil =>
        rw [List.nil_append, pushUnpasted, pushUnpasted]
        · rfl
        · simp
        · simpa using hc
      | cons x s =>
        by_cases hx : x = '#'
        · rw [hx]
          rfl
        · rw [List.cons_append, pushUnpasted, pushUnpasted]
          · rfl
          · simpa using hx
          · simpa using hx
    · rw [pushUnpasted_of_ne hd, pushUnpasted_of_ne hd, List.cons_append]

/-! ## Both kinds of marks -/

/-- A text without its continuation markers and paste marks. -/
def unmark (mode : ContinuationMode) (t : Text) : Text := removePasteMarks (joinLines mode t)

section unmark

variable {c : Char} {mode : ContinuationMode}

/-- The texts on both sides of a character that is in no mark lose their marks by themselves. -/
theorem unmark_append_cons (hc : Unmarking c) (mode : ContinuationMode) (a b : Text) :
    unmark mode (a ++ c :: b) = unmark mode a ++ c :: unmark mode b := by
  unfold unmark
  rw [joinLines_append_cons hc, removePasteMarks_append_cons hc.ne_mark]

/-- A split of what is left at a character that is in no mark comes from a split of the text. -/
theorem exists_split_of_unmark (hc : Unmarking c) {t p q : Text}
    (h : unmark mode t = p ++ c :: q) :
    ∃ a b, t = a ++ c :: b ∧ unmark mode a = p ∧ unmark mode b = q := by
  refine exists_split_of_eq_append_cons (unmark_append_cons hc mode) (fun s hmem => ?_) h
  have hlf : c ≠ '\n' := by
    rintro rfl
    exact absurd hc.not_break (by decide)
  exact mem_of_mem_joinLines hlf ((Continuation.mem_removePasteMarks_iff hc.ne_mark _).1 hmem)

/-- A word of what is left is the stretch of the text from its first character to its last one,
marks taken out. -/
theorem exists_stretch_of_wordAt_unmark {t before w after : Text}
    (h : WordAt (unmark mode t) before w after) :
    ∃ a s b, t = a ++ (s ++ b) ∧ unmark mode a = before ∧ unmark mode s = w ∧
      unmark mode b = after := by
  obtain ⟨c, v, rfl⟩ := List.exists_cons_of_ne_nil h.isWord.ne_nil
  have hc := unmarking_of_isWordChar (h.isWord.all c List.mem_cons_self)
  obtain ⟨a, r, rfl, ha, hr⟩ := exists_split_of_unmark hc h.eq
  have hnil : unmark mode [] = [] := rfl
  have hsingle : ∀ d, Unmarking d → ∀ s, unmark mode (s ++ [d]) = unmark mode s ++ [d] :=
    fun d hd s => by rw [unmark_append_cons hd, hnil]
  rcases List.eq_nil_or_concat v with rfl | ⟨m, d, rfl⟩
  · exact ⟨a, [c], r, rfl, ha, hsingle c hc [], hr⟩
  · have hd := unmarking_of_isWordChar (h.isWord.all d (by simp))
    have hlast : unmark mode r = m ++ d :: after := by
      rw [hr]
      simp
    obtain ⟨r₁, b, rfl, hr₁, hb⟩ := exists_split_of_unmark hd hlast
    refine ⟨a, c :: (r₁ ++ [d]), b, by simp, ha, ?_, hb⟩
    have hfirst := unmark_append_cons hc mode [] (r₁ ++ [d])
    rw [List.nil_append, hnil, List.nil_append] at hfirst
    rw [hfirst, hsingle d hd, hr₁, List.concat_eq_append]

end unmark

/-! ## String marks -/

theorem resolveStringMarks_cons (c : Char) (t : Text) :
    resolveStringMarks (c :: t) = pushString c (resolveStringMarks t) := rfl

theorem pushString_of_ne {c : Char} (hc : c ≠ '#') (t : Text) : pushString c t = c :: t := by
  unfold pushString
  rw [if_neg hc]

/-- A mark in front of a word puts it in quotes, unless it starts like an include directive. -/
theorem pushString_word {w t : Text} (hw : IsWord w) (ht : StartsOutside t) :
    pushString '#' (w ++ t) =
      if isInclude w then '#' :: (w ++ t) else '"' :: (w ++ '"' :: t) := by
  obtain ⟨htake, hdrop⟩ := ht.run_append hw.all
  have hempty : w.isEmpty = false := by
    rw [List.isEmpty_eq_false_iff]
    exact hw.ne_nil
  unfold pushString
  rw [if_pos rfl, htake, hdrop]
  dsimp only
  rw [hempty, Bool.false_or]

/-- A mark with no word behind it stays. -/
theorem pushString_of_startsOutside {t : Text} (ht : StartsOutside t) :
    pushString '#' t = '#' :: t := by
  have hword : t.takeWhile isWordChar = [] := (ht.run_append (v := []) (by simp)).1
  unfold pushString
  rw [if_pos rfl, hword]
  rfl

theorem startsOutside_pushString {c : Char} (hc : isWordChar c = false) (t : Text) :
    StartsOutside (pushString c t) := by
  by_cases hmark : c = '#'
  · subst hmark
    rcases startsOutside_or_exists_word t with ht | ⟨w, rest, rfl, hw, hrest⟩
    · rw [pushString_of_startsOutside ht]
      exact startsOutside_cons hc t
    · rw [pushString_word hw hrest]
      split
      · exact startsOutside_cons hc _
      · exact startsOutside_cons (by decide) _
  · rw [pushString_of_ne hmark]
    exact startsOutside_cons hc t

theorem startsOutside_resolveStringMarks {t : Text} (h : StartsOutside t) :
    StartsOutside (resolveStringMarks t) := by
  cases t with
  | nil => exact startsOutside_nil
  | cons c t => exact startsOutside_pushString (h c rfl) _

theorem resolveStringMarks_word {w : Text} (hw : ∀ c ∈ w, isWordChar c = true) (t : Text) :
    resolveStringMarks (w ++ t) = w ++ resolveStringMarks t := by
  induction w with
  | nil => rfl
  | cons c w ih =>
    obtain ⟨hc, hrest⟩ := List.forall_mem_cons.1 hw
    rw [List.cons_append, resolveStringMarks_cons, ih hrest,
      pushString_of_ne (unmarking_of_isWordChar hc).ne_mark, List.cons_append]

/-- String marks are resolved on both sides of a border by themselves, if no word goes on behind
it. -/
theorem resolveStringMarks_append (a : Text) {b : Text} (hb : StartsOutside b) :
    resolveStringMarks (a ++ b) = resolveStringMarks a ++ resolveStringMarks b := by
  have hb' := startsOutside_resolveStringMarks hb
  induction a with
  | nil => rfl
  | cons c a ih =>
    rw [List.cons_append, resolveStringMarks_cons, resolveStringMarks_cons, ih]
    by_cases hmark : c = '#'
    · subst hmark
      rcases startsOutside_or_exists_word (resolveStringMarks a) with ha | ⟨w, rest, ha, hw, hrest⟩
      · rw [pushString_of_startsOutside ha,
          pushString_of_startsOutside (ha.append fun _ => hb'), List.cons_append]
      · rw [ha, List.append_assoc, pushString_word hw hrest,
          pushString_word hw (hrest.append fun _ => hb')]
        split <;> simp
    · rw [pushString_of_ne hmark, pushString_of_ne hmark, List.cons_append]

/-- Putting words in quotes changes no word. -/
theorem words_pushString {c : Char} (hc : isWordChar c = false) (t : Text) :
    words (pushString c t) = words t := by
  by_cases hmark : c = '#'
  · subst hmark
    have hquote : isWordChar '"' = false := by decide
    rcases startsOutside_or_exists_word t with ht | ⟨w, rest, rfl, hw, hrest⟩
    · rw [pushString_of_startsOutside ht, words_gap hc]
    · rw [pushString_word hw hrest]
      split
      · rw [words_gap hc]
      · rw [words_gap hquote, words_word hw (startsOutside_cons hquote rest), words_gap hquote,
          words_word hw hrest]
  · rw [pushString_of_ne hmark, words_gap hc]

theorem words_resolveStringMarks (t : Text) : words (resolveStringMarks t) = words t := by
  induction t using word_induction with
  | nil => rfl
  | gap c t hc ih => rw [resolveStringMarks_cons, words_pushString hc, ih, words_gap hc]
  | word w t hw ht ih =>
    rw [resolveStringMarks_word hw.all, words_word hw (startsOutside_resolveStringMarks ht), ih,
      words_word hw ht]

/-- A single character that is no word character is still there when string marks are resolved. -/
theorem resolveStringMarks_singleton (c : Char) : resolveStringMarks [c] = [c] := by
  by_cases hmark : c = '#'
  · rw [hmark]
    rfl
  · exact pushString_of_ne hmark []

theorem endsOutside_resolveStringMarks {t : Text} (h : EndsOutside t) :
    EndsOutside (resolveStringMarks t) := by
  rcases List.eq_nil_or_concat t with rfl | ⟨s, c, rfl⟩
  · exact endsOutside_nil
  · rw [List.concat_eq_append] at h ⊢
    have hc := (endsOutside_concat s c).1 h
    rw [resolveStringMarks_append s (startsOutside_cons hc []), resolveStringMarks_singleton,
      endsOutside_concat]
    exact hc

/-- The word behind `before` is put in quotes. -/
def Quoted (before word : Text) : Prop := before.getLast? = some '#' ∧ isInclude word = false

/-- String marks are resolved on both sides of a word by themselves, and the word stays as it is or
is put in quotes. -/
theorem resolveStringMarks_around_word {before w after : Text} (hbefore : EndsOutside before)
    (hw : IsWord w) (hafter : StartsOutside after) :
    (¬ Quoted before w ∧ resolveStringMarks (before ++ (w ++ after)) =
        resolveStringMarks before ++ (w ++ resolveStringMarks after)) ∨
      (Quoted before w ∧ ∃ front, before = front ++ ['#'] ∧
        resolveStringMarks (before ++ (w ++ after)) =
          resolveStringMarks front ++ ('"' :: (w ++ '"' :: resolveStringMarks after))) := by
  have hword := resolveStringMarks_word hw.all after
  rcases List.eq_nil_or_concat before with rfl | ⟨front, c, rfl⟩
  · exact .inl ⟨fun h => absurd h.1 (by simp), hword⟩
  · rw [List.concat_eq_append] at hbefore ⊢
    have hc := (endsOutside_concat front c).1 hbefore
    have hsplit : front ++ [c] ++ (w ++ after) = front ++ c :: (w ++ after) := by simp
    rw [hsplit, resolveStringMarks_append front (startsOutside_cons hc _),
      resolveStringMarks_append front (startsOutside_cons hc []), resolveStringMarks_singleton,
      resolveStringMarks_cons, hword]
    by_cases hquoted : c = '#' ∧ isInclude w = false
    · obtain ⟨rfl, hinclude⟩ := hquoted
      refine .inr ⟨⟨List.getLast?_concat, hinclude⟩, front, rfl, ?_⟩
      rw [pushString_word hw (startsOutside_resolveStringMarks hafter), hinclude]
      rfl
    · refine .inl ⟨fun h => hquoted ⟨?_, h.2⟩, ?_⟩
      · simpa using h.1
      · rw [List.append_assoc, List.singleton_append]
        congr 1
        by_cases hmark : c = '#'
        · subst hmark
          have hinclude : isInclude w = true := by simpa using hquoted
          rw [pushString_word hw (startsOutside_resolveStringMarks hafter), hinclude, if_pos rfl]
        · rw [pushString_of_ne hmark]

end FlatHeader
