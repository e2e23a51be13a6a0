import FlatHeader.Proofs.ContinuationModes
import FlatHeader.Proofs.Continuations

/-!
# What cleaning up keeps

The stages of cleaning up take away the characters of marks and bring in quotes and line feeds. All
other characters come through, in their order (`filter_joinLines`). Quotes come in pairs, one pair
for each `#` in front of a word that is put in quotes (`count_resolveStringMarks`). A line feed that
ends no continuation marker stays, and the texts on its two sides are cleaned by themselves
(`cleanUp_append_lf`).
-/

namespace FlatHeader

open Text Continuation

/-! ## Characters that are in no mark -/

/-- Whether a character is one of those that cleaning up takes away or brings in. -/
def isMarkChar (c : Char) : Bool := "\\ \t\r\n#\"".toList.contains c

/-- Joining lines loses nothing but the characters of markers, and changes no order. -/
theorem filter_joinLines {p : Char → Bool} (hslash : p '\\' = false)
    (hbreak : ∀ c, isBreakChar c = true → p c = false) (mode : ContinuationMode) (t : Text) :
    (joinLines mode t).filter p = t.filter p := by
  have hnone : ∀ s : Text, (∀ c ∈ s, p c = false) → s.filter p = [] := fun s hs =>
    List.filter_eq_nil_iff.2 fun c hc => by rw [hs c hc]; decide
  induction t using marker_induction with
  | last s hs => rw [joinLines_eq_self hs]
  | cut s m t hs hm ih =>
    have hlf : p '\n' = false := hbreak '\n' (by decide)
    have hmarker : m.filter p = [] := by
      obtain ⟨blanks, cr, rfl, hblanks, hcr⟩ := hm
      refine hnone _ (List.forall_mem_cons.2 ⟨hslash, fun c hc => hbreak c ?_⟩)
      rcases List.mem_append.1 hc with hc | hc
      · rw [isBreakChar, hblanks c hc]
        rfl
      · rcases hcr with rfl | rfl
        · rw [List.mem_singleton.1 hc]
          decide
        · rcases List.mem_pair.1 hc with rfl | rfl <;> decide
    have hrender : (render mode (.marker m)).filter p = [] := by
      cases mode with
      | join => rfl
      | keepLineBreak => exact hnone _ (List.forall_mem_singleton.2 hlf)
    rw [joinLines_cut hs hm]
    simp only [List.filter_append, hmarker, hrender, ih]

theorem filter_cleanUp (mode : ContinuationMode) (t : Text) :
    (cleanUp mode t).filter (!isMarkChar ·) = t.filter (!isMarkChar ·) := by
  unfold cleanUp
  rw [filter_resolveStringMarks (by decide) (by decide), filter_removePasteMarks (by decide)]
  refine filter_joinLines (by decide) (fun c hc => ?_) mode t
  unfold isBreakChar isBlank at hc
  simp only [Bool.or_eq_true, beq_iff_eq] at hc
  rcases hc with ((rfl | rfl) | rfl) | rfl <;> decide

/-- The stages in front of the string marks bring no quote and take none away. -/
theorem count_quote_unmark (mode : ContinuationMode) (t : Text) :
    (unmark mode t).count '"' = t.count '"' := by
  unfold unmark
  rw [List.count_eq_length_filter, List.count_eq_length_filter, filter_removePasteMarks (by decide),
    filter_joinLines (by decide)]
  intro c hc
  by_contra hquote
  rw [Bool.not_eq_false, beq_iff_eq] at hquote
  rw [hquote] at hc
  exact absurd hc (by decide)

/-! ## Words in quotes -/

/-- A word comes next that does not start like an include directive. -/
def QuotableNext (t : Text) : Prop :=
  ∃ w rest, t = w ++ rest ∧ IsWord w ∧ StartsOutside rest ∧ isInclude w = false

theorem quotableNext_word_iff {w rest : Text} (hw : IsWord w) (hrest : StartsOutside rest) :
    QuotableNext (w ++ rest) ↔ isInclude w = false := by
  constructor
  · rintro ⟨w', rest', heq, hw', hrest', hinclude⟩
    -- both are the longest run of word characters
    have hsame : w = w' := by
      rw [← (hrest.run_append hw.all).1, heq, (hrest'.run_append hw'.all).1]
    rwa [hsame]
  · exact fun hinclude => ⟨w, rest, rfl, hw, hrest, hinclude⟩

theorem not_quotableNext_of_startsOutside {t : Text} (ht : StartsOutside t) : ¬ QuotableNext t := by
  rintro ⟨w, rest, rfl, hw, -, -⟩
  exact hw.not_startsOutside rest ht

instance decidableQuotableNext (t : Text) : Decidable (QuotableNext t) :=
  decidable_of_iff
    (t.takeWhile isWordChar ≠ [] ∧ isInclude (t.takeWhile isWordChar) = false) <| by
    rcases startsOutside_or_exists_word t with ht | ⟨w, rest, rfl, hw, hrest⟩
    · have hword : t.takeWhile isWordChar = [] := (ht.run_append (v := []) (by simp)).1
      exact iff_of_false (fun h => h.1 hword) (not_quotableNext_of_startsOutside ht)
    · rw [(hrest.run_append hw.all).1, quotableNext_word_iff hw hrest, and_iff_right hw.ne_nil]

/-- The number of `#` in a text that stand in front of a word and put it in quotes. -/
def quotedMarks : Text → ℕ
  | [] => 0
  | c :: t => (if c = '#' ∧ QuotableNext t then 1 else 0) + quotedMarks t

/-- The word that a text starts with is not changed by the marks behind it. -/
theorem quotableNext_resolveStringMarks_iff (t : Text) :
    QuotableNext (resolveStringMarks t) ↔ QuotableNext t := by
  rcases startsOutside_or_exists_word t with ht | ⟨w, rest, rfl, hw, hrest⟩
  · exact iff_of_false (not_quotableNext_of_startsOutside (startsOutside_resolveStringMarks ht))
      (not_quotableNext_of_startsOutside ht)
  · rw [resolveStringMarks_word hw.all, quotableNext_word_iff hw hrest,
      quotableNext_word_iff hw (startsOutside_resolveStringMarks hrest)]

/-- A `#` stays unless it puts a word in quotes. -/
theorem pushString_of_not_quotableNext {c : Char} {t : Text} (h : ¬ (c = '#' ∧ QuotableNext t)) :
    pushString c t = c :: t := by
  by_cases hc : c = '#'
  · subst hc
    rcases startsOutside_or_exists_word t with ht | ⟨w, rest, rfl, hw, hrest⟩
    · exact pushString_of_startsOutside ht
    · rw [quotableNext_word_iff hw hrest, and_iff_right rfl, Bool.not_eq_false] at h
      rw [pushString_word hw hrest, if_pos h]
  · exact pushString_of_ne hc t

/-- Two quotes come for each `#` that puts a word in quotes, and this `#` goes. -/
theorem count_resolveStringMarks (t : Text) :
    (resolveStringMarks t).count '"' = t.count '"' + 2 * quotedMarks t ∧
      (resolveStringMarks t).count '#' + quotedMarks t = t.count '#' := by
  induction t with
  | nil => exact ⟨rfl, rfl⟩
  | cons c t ih =>
    obtain ⟨hquotes, hmarks⟩ := ih
    rw [resolveStringMarks_cons, quotedMarks]
    by_cases hquoted : c = '#' ∧ QuotableNext t
    · rw [if_pos hquoted]
      obtain ⟨rfl, hnext⟩ := hquoted
      obtain ⟨w, rest, heq, hw, hrest, hinclude⟩ := (quotableNext_resolveStringMarks_iff t).2 hnext
      have hpush : pushString '#' (resolveStringMarks t) = '"' :: (w ++ '"' :: rest) := by
        rw [heq, pushString_word hw hrest, hinclude]
        rfl
      rw [heq, List.count_append] at hquotes hmarks
      rw [hpush]
      simp only [List.count_cons, List.count_append, beq_iff_eq, Char.reduceEq, if_true, if_false]
      omega
    · have hpush : pushString c (resolveStringMarks t) = c :: resolveStringMarks t := by
        rw [← quotableNext_resolveStringMarks_iff] at hquoted
        exact pushString_of_not_quotableNext hquoted
      rw [if_neg hquoted, hpush, List.count_cons, List.count_cons, List.count_cons, List.count_cons]
      omega

/-! ## Line feeds -/

/-- A line break that ends with the line feed behind a text: blanks and maybe a carriage return are
all that stands before it. -/
theorem Continuation.StartsBreak.of_append_lf {a b : Text} (h : StartsBreak (a ++ '\n' :: b)) :
    StartsBreak a ∨ ∃ blanks cr, a = blanks ++ cr ∧ (∀ c ∈ blanks, isBlank c = true) ∧
      (cr = [] ∨ cr = ['\r']) := by
  induction a with
  | nil => exact .inr ⟨[], [], rfl, List.forall_mem_nil _, .inl rfl⟩
  | cons c a ih =>
    rw [List.cons_append, startsBreak_cons] at h
    rcases h with rfl | ⟨rfl, hhead⟩ | ⟨hc, h⟩
    · exact .inl (.lf a)
    · cases a with
      | nil => exact .inr ⟨[], ['\r'], rfl, List.forall_mem_nil _, .inr rfl⟩
      | cons d a =>
        obtain rfl := Option.some.inj hhead
        exact .inl (.crlf a)
    · rcases ih h with hbreak | ⟨blanks, cr, rfl, hblanks, hcr⟩
      · exact .inl (.blank hc hbreak)
      · exact .inr ⟨c :: blanks, cr, rfl, List.forall_mem_cons.2 ⟨hc, hblanks⟩, hcr⟩

/-- Lines are joined on both sides of a line feed by themselves, if it ends no marker. -/
theorem joinLines_append_lf {before : Text} (h : ¬ EndsWithMarker before) (mode : ContinuationMode)
    (after : Text) :
    joinLines mode (before ++ '\n' :: after) =
      joinLines mode before ++ '\n' :: joinLines mode after := by
  induction before using marker_induction with
  | last s hs =>
    have hborder : Behind '\\' (fun u => ¬ StartsBreak (u ++ '\n' :: after)) s := by
      intro front u heq hbreak
      rcases hbreak.of_append_lf with hbreak | ⟨blanks, cr, rfl, hblanks, hcr⟩
      · exact hs front u heq hbreak
      · exact h ⟨front, blanks, cr, heq, hblanks, hcr⟩
    rw [joinLines_append_of_behind hborder, joinLines_eq_self hs,
      joinLines_cons_of_ne (by decide)]
  | cut s m t hs hm ih =>
    have ht : ¬ EndsWithMarker t := fun hmark => by
      have hwhole := (hmark.append_left m).append_left s
      exact h hwhole
    rw [List.append_assoc, List.append_assoc, joinLines_cut hs hm, joinLines_cut hs hm, ih ht]
    simp only [List.append_assoc]

/-- A line feed that ends no marker stays, and the texts on its two sides are cleaned by
themselves. -/
theorem cleanUp_append_lf {before : Text} (h : ¬ EndsWithMarker before) (mode : ContinuationMode)
    (after : Text) :
    cleanUp mode (before ++ '\n' :: after) = cleanUp mode before ++ '\n' :: cleanUp mode after := by
  show resolveMarks (joinLines mode (before ++ '\n' :: after)) =
    resolveMarks (joinLines mode before) ++ '\n' :: resolveMarks (joinLines mode after)
  rw [joinLines_append_lf h, resolveMarks_append_cons (by decide) (by decide)]

/-! ## The whole text -/

/-- Cleaning up loses and reorders nothing but marks. Leaving out backslashes, blanks, line breaks,
`#` and quotes, a text and the cleaned text are the same. Two quotes come for each `#` that puts a
word in quotes, where continuation markers and `##` are gone already, and no other `#` goes with
them. Every line feed that ends no continuation marker is still there, between what comes of the
text before it and what comes of the text behind it. -/
theorem cleanUp_keeps (mode : ContinuationMode) (t : Text) :
    (cleanUp mode t).filter (!isMarkChar ·) = t.filter (!isMarkChar ·) ∧
      (cleanUp mode t).count '"' = t.count '"' + 2 * quotedMarks (unmark mode t) ∧
      (cleanUp mode t).count '#' + quotedMarks (unmark mode t) = (unmark mode t).count '#' ∧
      ∀ before after, t = before ++ '\n' :: after → ¬ EndsWithMarker before →
        cleanUp mode t = cleanUp mode before ++ '\n' :: cleanUp mode after := by
  obtain ⟨hquotes, hmarks⟩ := count_resolveStringMarks (unmark mode t)
  rw [count_quote_unmark] at hquotes
  refine ⟨filter_cleanUp mode t, hquotes, hmarks, fun before after heq hmark => ?_⟩
  rw [heq, cleanUp_append_lf hmark]

/-- A run of three `#` in front of a word of two-byte characters, a partial marker, a word that is
quoted already, an include directive, and a marker in front of a line feed that ends none. -/
theorem cleanUp_keeps_runs :
    cleanUp .join "###βγ\\ x\n\"#c\" #include \\\r\n\n#".toList =
        "\"βγ\"\\ x\n\"\"c\"\" #include \n#".toList ∧
      quotedMarks (unmark .join "###βγ\\ x\n\"#c\" #include \\\r\n\n#".toList) = 2 ∧
      ¬ EndsWithMarker "###βγ\\ x\n\"#c\" #include \\\r\n".toList ∧
      cleanUp .join "###βγ\\ x\n\"#c\" #include \\\r\n\n#".toList =
        cleanUp .join "###βγ\\ x\n\"#c\" #include \\\r\n".toList ++
          '\n' :: cleanUp .join ['#'] := by
  have hmark : ¬ EndsWithMarker "###βγ\\ x\n\"#c\" #include \\\r\n".toList := by
    rw [← isContinued_concat_lf_iff]
    decide
  obtain ⟨-, -, -, hlf⟩ :=
    cleanUp_keeps .join "###βγ\\ x\n\"#c\" #include \\\r\n\n#".toList
  exact ⟨by decide +kernel, by decide +kernel, hmark, hlf _ ['#'] (by rfl) hmark⟩

end FlatHeader
