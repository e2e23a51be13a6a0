import FlatHeader.Cleanup
import FlatHeader.Proofs.Words

/-!
# Continuation markers

`OnlyMarkers t` says that every backslash of `t` belongs to a continuation marker. It is about each
backslash and what follows it, so it is kept by joining texts and by taking an end of a text
(`OnlyMarkers.append`, `OnlyMarkers.of_append_right`). A beginning of a text can lose the line break
of its last marker; it does not where the border cannot lie within a marker
(`OnlyMarkers.of_append_left_of_head`, `OnlyMarkers.of_append_left_of_last`).

Cleaning up such a text leaves no backslash, and leaves one in every other text
(`backslash_mem_cleanUp_iff`).
-/

namespace FlatHeader.Continuation

open Text

/-! ## Line breaks behind blanks -/

/-- What follows the backslash of a continuation marker: blanks and a line break come next. -/
inductive StartsBreak : Text → Prop
  | lf (t : Text) : StartsBreak ('\n' :: t)
  | crlf (t : Text) : StartsBreak ('\r' :: '\n' :: t)
  | blank {c : Char} {t : Text} (hc : isBlank c = true) (h : StartsBreak t) : StartsBreak (c :: t)

theorem not_startsBreak_nil : ¬ StartsBreak [] := by
  intro h
  cases h

theorem startsBreak_cons (c : Char) (t : Text) :
    StartsBreak (c :: t) ↔
      c = '\n' ∨ (c = '\r' ∧ t.head? = some '\n') ∨ (isBlank c = true ∧ StartsBreak t) := by
  constructor
  · intro h
    cases h with
    | lf => exact .inl rfl
    | crlf => exact .inr (.inl ⟨rfl, rfl⟩)
    | blank hc h => exact .inr (.inr ⟨hc, h⟩)
  · rintro (rfl | ⟨rfl, ht⟩ | ⟨hc, h⟩)
    · exact .lf t
    · obtain ⟨s, rfl⟩ := List.head?_eq_some_iff.1 ht
      exact .crlf s
    · exact .blank hc h

instance decidableStartsBreak : DecidablePred StartsBreak
  | [] => isFalse not_startsBreak_nil
  | c :: t =>
    have := decidableStartsBreak t
    decidable_of_iff' _ (startsBreak_cons c t)

/-- Whether a character can stand between the backslash of a marker and its last character, or be
that last one. -/
def isBreakChar (c : Char) : Bool := isBlank c || c == '\r' || c == '\n'

theorem StartsBreak.head {t : Text} (h : StartsBreak t) :
    ∃ c, t.head? = some c ∧ isBreakChar c = true := by
  cases h with
  | lf => exact ⟨'\n', rfl, by decide⟩
  | crlf => exact ⟨'\r', rfl, by decide⟩
  | @blank c t hc h => exact ⟨c, rfl, by rw [isBreakChar, hc]; rfl⟩

theorem StartsBreak.append {a : Text} (h : StartsBreak a) (b : Text) : StartsBreak (a ++ b) := by
  induction h with
  | lf t => exact .lf (t ++ b)
  | crlf t => exact .crlf (t ++ b)
  | blank hc _ ih => exact .blank hc ih

/-- A line break that a border cuts off: only blanks and a carriage return stand before the border,
and the line break goes on behind it. -/
theorem StartsBreak.of_append {a b : Text} (h : StartsBreak (a ++ b)) :
    StartsBreak a ∨
      ((∀ c ∈ a, isBlank c = true ∨ c = '\r') ∧ ∃ c, b.head? = some c ∧ isBreakChar c = true) := by
  induction a with
  | nil =>
    right
    exact ⟨fun c hc => absurd hc List.not_mem_nil, h.head⟩
  | cons c a ih =>
    rw [List.cons_append, startsBreak_cons] at h
    rcases h with rfl | ⟨rfl, ha⟩ | ⟨hc, h⟩
    · exact .inl (.lf a)
    · -- the carriage return may be the last character before the border
      cases a with
      | nil =>
        right
        refine ⟨fun d hd => .inr (List.mem_singleton.1 hd), '\n', ha, by decide⟩
      | cons d a =>
        rw [List.cons_append, List.head?_cons, Option.some.injEq] at ha
        rw [ha]
        exact .inl (.crlf a)
    · rcases ih h with h | ⟨hall, hb⟩
      · exact .inl (.blank hc h)
      · right
        refine ⟨fun d hd => ?_, hb⟩
        rcases List.mem_cons.1 hd with rfl | hd
        · exact .inl hc
        · exact hall d hd

/-! ## Texts whose backslashes belong to markers -/

/-- Every backslash belongs to a continuation marker. -/
def OnlyMarkers (t : Text) : Prop := ∀ before after, t = before ++ '\\' :: after → StartsBreak after

theorem onlyMarkers_of_not_mem {t : Text} (h : '\\' ∉ t) : OnlyMarkers t := by
  intro before after ht
  rw [ht] at h
  exact absurd (List.mem_append_right before List.mem_cons_self) h

theorem onlyMarkers_nil : OnlyMarkers [] := onlyMarkers_of_not_mem List.not_mem_nil

theorem onlyMarkers_cons (c : Char) (t : Text) :
    OnlyMarkers (c :: t) ↔ (c = '\\' → StartsBreak t) ∧ OnlyMarkers t := by
  constructor
  · intro h
    refine ⟨fun hc => h [] t (by rw [hc]; rfl), fun before after ht => ?_⟩
    exact h (c :: before) after (by rw [ht]; rfl)
  · rintro ⟨hc, ht⟩ before after heq
    cases before with
    | nil =>
      obtain ⟨rfl, rfl⟩ := List.cons.inj heq
      exact hc rfl
    | cons d before => exact ht before after (List.cons.inj heq).2

instance decidableOnlyMarkers : DecidablePred OnlyMarkers
  | [] => isTrue onlyMarkers_nil
  | c :: t =>
    have := decidableOnlyMarkers t
    decidable_of_iff' _ (onlyMarkers_cons c t)

namespace OnlyMarkers

variable {a b t : Text}

theorem append (ha : OnlyMarkers a) (hb : OnlyMarkers b) : OnlyMarkers (a ++ b) := by
  induction a with
  | nil => exact hb
  | cons c a ih =>
    rw [onlyMarkers_cons] at ha
    rw [List.cons_append, onlyMarkers_cons]
    exact ⟨fun hc => (ha.1 hc).append b, ih ha.2⟩

/-- An end of a text keeps all that follows its backslashes. -/
theorem of_append_right (h : OnlyMarkers (a ++ b)) : OnlyMarkers b := by
  intro before after hb
  exact h (a ++ before) after (by rw [hb, List.append_assoc])

theorem of_suffix (h : OnlyMarkers t) (hs : a <:+ t) : OnlyMarkers a := by
  obtain ⟨s, rfl⟩ := hs
  exact h.of_append_right

/-- The markers of a beginning are whole unless one of them goes on behind the border. -/
theorem of_append_left (h : OnlyMarkers (a ++ b))
    (hborder : ∀ before after, a = before ++ '\\' :: after →
      (∀ c ∈ after, isBlank c = true ∨ c = '\r') →
      ¬ ∃ c, b.head? = some c ∧ isBreakChar c = true) : OnlyMarkers a := by
  intro before after ha
  have hbreak : StartsBreak (after ++ b) :=
    h before (after ++ b) (by rw [ha, List.append_assoc, List.cons_append])
  rcases hbreak.of_append with hafter | ⟨hall, hb⟩
  · exact hafter
  · exact absurd hb (hborder before after ha hall)

/-- No marker goes on behind the border if no character of a line break stands there. -/
theorem of_append_left_of_head (h : OnlyMarkers (a ++ b))
    (hb : ∀ c ∈ b.head?, isBreakChar c = false) : OnlyMarkers a := by
  refine h.of_append_left fun before after _ _ => ?_
  intro hhead
  obtain ⟨c, hc, hbreak⟩ := hhead
  rw [hb c hc] at hbreak
  exact absurd hbreak (by decide)

/-- No marker goes on behind the border if the character before it is neither a backslash nor
within a line break. -/
theorem of_append_left_of_last (h : OnlyMarkers (a ++ b))
    (ha : ∀ c ∈ a.getLast?, c ≠ '\\' ∧ isBlank c = false ∧ c ≠ '\r') : OnlyMarkers a := by
  refine h.of_append_left fun before after hsplit hall => ?_
  -- the last character is the backslash or one of those behind it
  rcases List.eq_nil_or_concat after with rfl | ⟨s, c, rfl⟩
  · refine absurd rfl (ha '\\' ?_).1
    rw [hsplit, List.getLast?_concat]
    rfl
  · have hlast : c ∈ a.getLast? := by
      rw [hsplit, List.concat_eq_append, ← List.cons_append, ← List.append_assoc,
        List.getLast?_concat]
      rfl
    obtain ⟨-, hblank, hcr⟩ := ha c hlast
    rcases hall c (by simp) with hc | hc
    · rw [hblank] at hc
      exact absurd hc (by decide)
    · exact absurd hc hcr

end OnlyMarkers

/-! ## Exchanging words

Words hold no character of a marker, so exchanging them keeps the markers. -/

theorem isWordChar_eq_false_of_isBreakChar {c : Char} (h : isBreakChar c = true) :
    isWordChar c = false := by
  unfold isBreakChar isBlank at h
  simp only [Bool.or_eq_true, beq_iff_eq] at h
  rcases h with ((rfl | rfl) | rfl) | rfl <;> decide

theorem onlyMarkers_of_isWord {w : Text} (h : IsWord w) : OnlyMarkers w :=
  onlyMarkers_of_not_mem (h.not_mem (by decide))

theorem StartsBreak.mapWords {t : Text} (h : StartsBreak t) (f : Text → Text) :
    StartsBreak (mapWords f t) := by
  induction h with
  | lf t =>
    rw [mapWords_gap f (by decide)]
    exact .lf _
  | crlf t =>
    rw [mapWords_gap f (by decide), mapWords_gap f (by decide)]
    exact .crlf _
  | @blank c t hc _ ih =>
    rw [mapWords_gap f (isWordChar_eq_false_of_isBreakChar (by rw [isBreakChar, hc]; rfl))]
    exact .blank hc ih

theorem OnlyMarkers.mapWords {f : Text → Text} {t : Text} (ht : OnlyMarkers t)
    (hf : ∀ w, IsWord w → OnlyMarkers (f w)) : OnlyMarkers (mapWords f t) := by
  induction t using word_induction with
  | nil => exact onlyMarkers_nil
  | gap c t hc ih =>
    rw [onlyMarkers_cons] at ht
    rw [mapWords_gap f hc, onlyMarkers_cons]
    exact ⟨fun hb => (ht.1 hb).mapWords f, ih ht.2⟩
  | word w t hw hout ih =>
    rw [mapWords_word f hw hout]
    exact (hf w hw).append (ih ht.of_append_right)

/-! ## Resolving the markers -/

/-- The line break that is found holds no backslash, and what follows it is resolved by itself. -/
theorem lineBreak?_eq_some {tokens rest : List Token} {written : Text}
    (h : lineBreak? tokens = some (written, rest)) (mode : ContinuationMode) :
    '\\' ∉ written ∧ tokens.flatMap (render mode) = written ++ rest.flatMap (render mode) := by
  induction tokens using lineBreak?.induct generalizing written with
  | case1 rest' =>
    rw [lineBreak?, Option.some.injEq, Prod.mk.injEq] at h
    obtain ⟨rfl, rfl⟩ := h
    exact ⟨by decide, rfl⟩
  | case2 rest' =>
    rw [lineBreak?, Option.some.injEq, Prod.mk.injEq] at h
    obtain ⟨rfl, rfl⟩ := h
    exact ⟨by decide, rfl⟩
  | case3 c rest' hlf hcrlf hc ih =>
    rw [lineBreak?, if_pos hc, Option.map_eq_some_iff] at h
    · obtain ⟨⟨written', rest''⟩, hrest, heq⟩ := h
      obtain ⟨rfl, rfl⟩ := Prod.mk.inj heq
      obtain ⟨hmem, hflat⟩ := ih hrest
      refine ⟨?_, ?_⟩
      · rw [List.mem_cons, not_or]
        refine ⟨?_, hmem⟩
        intro hbackslash
        rw [← hbackslash] at hc
        exact absurd hc (by decide)
      · rw [List.flatMap_cons, hflat, List.cons_append]
        rfl
    · exact hlf
    · exact hcrlf
  | case4 c rest' hlf hcrlf hc =>
    rw [lineBreak?, if_neg hc] at h
    · exact absurd h (by simp)
    · exact hlf
    · exact hcrlf
  | case5 tokens hlf hcrlf hchar =>
    rw [lineBreak?] at h
    · exact absurd h (by simp)
    · exact hlf
    · exact hcrlf
    · exact hchar

theorem tokens_cons (c : Char) (t : Text) : tokens (c :: t) = push c (tokens t) := rfl

theorem push_of_ne {c : Char} (h : c ≠ '\\') (ts : List Token) : push c ts = .char c :: ts := by
  unfold push
  rw [if_neg h]

/-- A character other than a backslash is a token of its own. -/
theorem head?_tokens_eq_iff {c : Char} (hc : c ≠ '\\') (t : Text) :
    (tokens t).head? = some (.char c) ↔ t.head? = some c := by
  cases t with
  | nil => simp [tokens]
  | cons d t =>
    rw [tokens_cons, List.head?_cons]
    by_cases hd : d = '\\'
    · subst hd
      unfold push
      rw [if_pos rfl]
      split
      · simpa using hc.symm
      · simp
    · rw [push_of_ne hd, List.head?_cons]
      simp

theorem isSome_lineBreak?_char (c : Char) (ts : List Token) :
    (lineBreak? (.char c :: ts)).isSome = true ↔
      c = '\n' ∨ (c = '\r' ∧ ts.head? = some (.char '\n')) ∨
        (isBlank c = true ∧ (lineBreak? ts).isSome = true) := by
  by_cases hlf : c = '\n'
  · subst hlf
    exact iff_of_true rfl (.inl rfl)
  by_cases hcrlf : c = '\r' ∧ ts.head? = some (.char '\n')
  · obtain ⟨rfl, hts⟩ := hcrlf
    obtain ⟨rest, rfl⟩ := List.head?_eq_some_iff.1 hts
    exact iff_of_true rfl (.inr (.inl ⟨rfl, rfl⟩))
  · rw [or_iff_right hlf, or_iff_right hcrlf, lineBreak?]
    · by_cases hc : isBlank c = true
      · rw [if_pos hc, Option.isSome_map, and_iff_right hc]
      · rw [if_neg hc]
        exact iff_of_false (by decide) fun h => hc h.1
    · exact hlf
    · rintro rest rfl rfl
      exact hcrlf ⟨rfl, rfl⟩

/-- A line break is found exactly where one comes next. -/
theorem isSome_lineBreak?_tokens (t : Text) :
    (lineBreak? (tokens t)).isSome = true ↔ StartsBreak t := by
  induction t with
  | nil => exact iff_of_false (by decide) not_startsBreak_nil
  | cons c t ih =>
    rw [startsBreak_cons, tokens_cons]
    by_cases hc : c = '\\'
    · -- neither a backslash nor a marker is part of a line break
      subst hc
      refine iff_of_false ?_ (by simp [isBlank])
      unfold push
      rw [if_pos rfl]
      split
      · exact Bool.false_ne_true
      · rw [isSome_lineBreak?_char]
        simp [isBlank]
    · rw [push_of_ne hc, isSome_lineBreak?_char, ih, head?_tokens_eq_iff (by decide)]

theorem joinLines_cons_of_ne {c : Char} (h : c ≠ '\\') (mode : ContinuationMode) (t : Text) :
    joinLines mode (c :: t) = c :: joinLines mode t := by
  unfold joinLines
  rw [tokens_cons, push_of_ne h, List.flatMap_cons]
  rfl

/-- Behind a backslash that starts a marker the text is resolved without the line break, and the
line break holds no backslash. -/
theorem exists_joinLines_marker {t : Text} (h : StartsBreak t) (mode : ContinuationMode) :
    ∃ written rest, '\\' ∉ written ∧ joinLines mode t = written ++ rest ∧
      joinLines mode ('\\' :: t) = render mode (.marker ('\\' :: written)) ++ rest := by
  rw [← isSome_lineBreak?_tokens, Option.isSome_iff_exists] at h
  obtain ⟨⟨written, rest⟩, hbreak⟩ := h
  obtain ⟨hmem, hflat⟩ := lineBreak?_eq_some hbreak mode
  refine ⟨written, rest.flatMap (render mode), hmem, hflat, ?_⟩
  unfold joinLines
  rw [tokens_cons, push, if_pos rfl, hbreak, List.flatMap_cons]

theorem joinLines_backslash {t : Text} (h : ¬ StartsBreak t) (mode : ContinuationMode) :
    joinLines mode ('\\' :: t) = '\\' :: joinLines mode t := by
  rw [← isSome_lineBreak?_tokens, Bool.not_eq_true, Option.isSome_eq_false_iff,
    Option.isNone_iff_eq_none] at h
  unfold joinLines
  rw [tokens_cons, push, if_pos rfl, h, List.flatMap_cons]
  rfl

/-- The backslashes that stay are those that belong to no marker. -/
theorem backslash_mem_joinLines_iff (mode : ContinuationMode) (t : Text) :
    '\\' ∈ joinLines mode t ↔ ¬ OnlyMarkers t := by
  induction t with
  | nil => exact iff_of_false List.not_mem_nil (not_not.2 onlyMarkers_nil)
  | cons c t ih =>
    rw [onlyMarkers_cons]
    by_cases hc : c = '\\'
    · subst hc
      by_cases hbreak : StartsBreak t
      · -- the line break goes with the marker, but it held no backslash anyway
        obtain ⟨written, rest, hwritten, hjoin, hjoin'⟩ := exists_joinLines_marker hbreak mode
        rw [hjoin, List.mem_append, or_iff_right hwritten] at ih
        have hmarker : '\\' ∉ render mode (.marker ('\\' :: written)) := by
          cases mode <;> simp [render]
        rw [hjoin', List.mem_append, or_iff_right hmarker, ih]
        simp [hbreak]
      · rw [joinLines_backslash hbreak]
        simp [hbreak]
    · rw [joinLines_cons_of_ne hc, List.mem_cons, or_iff_right (Ne.symm hc), ih]
      simp [hc]

/-! ## The other marks

All characters but those of the marks themselves, and the quotes that are put around words, are kept
in their order. -/

theorem filter_removePasteMarks {p : Char → Bool} (hmark : p '#' = false) (t : Text) :
    (removePasteMarks t).filter p = t.filter p := by
  induction t with
  | nil => rfl
  | cons c t ih =>
    have hcons : removePasteMarks (c :: t) = pushUnpasted c (removePasteMarks t) := rfl
    rw [hcons]
    unfold pushUnpasted
    split
    · next s hs =>
      rw [hs, List.filter_cons, hmark] at ih
      rw [List.filter_cons, hmark]
      exact ih
    · rw [List.filter_cons, List.filter_cons, ih]

theorem filter_resolveStringMarks {p : Char → Bool} (hmark : p '#' = false) (hquote : p '"' = false)
    (t : Text) : (resolveStringMarks t).filter p = t.filter p := by
  induction t with
  | nil => rfl
  | cons c t ih =>
    have hcons : resolveStringMarks (c :: t) = pushString c (resolveStringMarks t) := rfl
    have hskip : ∀ d, p d = false → ∀ s : Text, (d :: s).filter p = s.filter p :=
      fun d hd s => by rw [List.filter_cons, hd, if_neg (by decide)]
    rw [hcons]
    unfold pushString
    by_cases hc : c = '#'
    · rw [if_pos hc, hc, hskip _ hmark]
      dsimp only
      split
      · rw [hskip _ hmark, ih]
      · rw [hskip _ hquote, List.filter_append, hskip _ hquote, ← List.filter_append,
          List.takeWhile_append_dropWhile, ih]
    · rw [if_neg hc, List.filter_cons, List.filter_cons, ih]

theorem mem_iff_of_filter_eq {x : Char} {s t : Text}
    (h : s.filter (· == x) = t.filter (· == x)) : x ∈ s ↔ x ∈ t := by
  have hself : ∀ l : Text, x ∈ l ↔ x ∈ l.filter (· == x) := fun l => by simp
  rw [hself s, h, ← hself]

theorem mem_removePasteMarks_iff {x : Char} (hx : x ≠ '#') (t : Text) :
    x ∈ removePasteMarks t ↔ x ∈ t :=
  mem_iff_of_filter_eq (filter_removePasteMarks (p := (· == x)) (beq_false_of_ne hx.symm) t)

theorem mem_resolveStringMarks_iff {x : Char} (hmark : x ≠ '#') (hquote : x ≠ '"') (t : Text) :
    x ∈ resolveStringMarks t ↔ x ∈ t :=
  mem_iff_of_filter_eq
    (filter_resolveStringMarks (p := (· == x)) (beq_false_of_ne hmark.symm)
      (beq_false_of_ne hquote.symm) t)

/-- Cleaning up leaves exactly the backslashes that belong to no marker. -/
theorem backslash_mem_cleanUp_iff (mode : ContinuationMode) (t : Text) :
    '\\' ∈ cleanUp mode t ↔ ¬ OnlyMarkers t := by
  unfold cleanUp
  rw [mem_resolveStringMarks_iff (by decide) (by decide), mem_removePasteMarks_iff (by decide),
    backslash_mem_joinLines_iff]

end FlatHeader.Continuation
