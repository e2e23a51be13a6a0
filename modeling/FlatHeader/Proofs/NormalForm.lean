import FlatHeader.Proofs.MarkerPieces

/-!
# Texts that are clean

Each stage of cleaning up leaves a text in which it finds nothing to do, where what a stage looks
for is told from the text behind a character. Paste marks go first, so it has to be shown that
putting words in quotes makes no new ones: what starts with `#` afterwards started with `#` before
(`head?_of_resolveStringMarks`). Joining lines has no such end. A marker that goes can leave a
backslash in front of another line break, and then there is a marker again.
-/

namespace FlatHeader

open Text

/-! ## Paste marks -/

/-- No `#` has another one behind it. -/
def Unpasted (t : Text) : Prop := Behind '#' (fun after => after.head? ≠ some '#') t

theorem unpasted_cons (c : Char) (t : Text) :
    Unpasted (c :: t) ↔ (c = '#' → t.head? ≠ some '#') ∧ Unpasted t := behind_cons c t

theorem unpasted_iff (t : Text) : Unpasted t ↔ ¬ ['#', '#'] <:+: t := by
  constructor
  · rintro h ⟨before, after, rfl⟩
    exact h before ('#' :: after) (by simp) rfl
  · rintro h before after rfl hhead
    obtain ⟨rest, rfl⟩ := List.head?_eq_some_iff.1 hhead
    exact h ⟨before, rest, by simp⟩

/-- Adding a character makes no paste mark: one that would be made is deleted. -/
theorem Unpasted.pushUnpasted {t : Text} (h : Unpasted t) (c : Char) :
    Unpasted (pushUnpasted c t) := by
  unfold FlatHeader.pushUnpasted
  split
  · exact ((unpasted_cons _ _).1 h).2
  · next hpair =>
    refine (unpasted_cons _ _).2 ⟨fun hc hhead => ?_, h⟩
    obtain ⟨rest, ht⟩ := List.head?_eq_some_iff.1 hhead
    exact hpair rest hc ht

theorem unpasted_removePasteMarks (t : Text) : Unpasted (removePasteMarks t) := by
  induction t with
  | nil => exact behind_nil
  | cons c t ih => exact ih.pushUnpasted c

theorem removePasteMarks_eq_self {t : Text} (h : Unpasted t) : removePasteMarks t = t := by
  induction t with
  | nil => rfl
  | cons c t ih =>
    obtain ⟨hc, ht⟩ := (unpasted_cons c t).1 h
    rw [removePasteMarks_cons, ih ht, pushUnpasted]
    rintro rest hmark rfl
    exact hc hmark rfl

/-! ## String marks -/

/-- A `#` stays in front of this text: nothing comes next, or a character that is neither `#` nor
in a word, or a word that starts like an include directive. -/
inductive MarkStays : Text → Prop
  | last : MarkStays []
  | outside {c : Char} (t : Text) (hmark : c ≠ '#') (hc : isWordChar c = false) : MarkStays (c :: t)
  | directive {w t : Text} (hw : IsWord w) (ht : StartsOutside t) (hinclude : isInclude w = true) :
      MarkStays (w ++ t)

theorem MarkStays.head?_ne {t : Text} (h : MarkStays t) : t.head? ≠ some '#' := by
  cases h with
  | last => simp
  | outside t hmark hc => simpa using hmark
  | @directive w t hw ht hinclude =>
    obtain ⟨c, v, rfl⟩ := List.exists_cons_of_ne_nil hw.ne_nil
    rw [List.cons_append, List.head?_cons, Ne, Option.some.injEq]
    exact (unmarking_of_isWordChar (hw.all c List.mem_cons_self)).ne_mark

theorem MarkStays.pushString_eq {t : Text} (h : MarkStays t) : pushString '#' t = '#' :: t := by
  cases h with
  | last => exact pushString_of_startsOutside startsOutside_nil
  | outside t hmark hc => exact pushString_of_startsOutside (startsOutside_cons hc t)
  | directive hw ht hinclude => rw [pushString_word hw ht, if_pos hinclude]

/-- A character is put in front of a text, or the word that the text starts with is put in
quotes. -/
theorem pushString_cases (c : Char) (t : Text) :
    (pushString c t = c :: t ∧ (c = '#' → t.head? ≠ some '#' → MarkStays t)) ∨
      ∃ w rest, t = w ++ rest ∧ IsWord w ∧ pushString c t = '"' :: (w ++ '"' :: rest) := by
  by_cases hc : c = '#'
  · subst hc
    rcases startsOutside_or_exists_word t with ht | ⟨w, rest, rfl, hw, hrest⟩
    · refine .inl ⟨pushString_of_startsOutside ht, fun _ hhead => ?_⟩
      cases t with
      | nil => exact .last
      | cons d t => exact .outside t (fun hd => hhead (by rw [hd]; rfl)) (ht d rfl)
    · rw [pushString_word hw hrest]
      cases hinclude : isInclude w with
      | true => exact .inl ⟨rfl, fun _ _ => .directive hw hrest hinclude⟩
      | false => exact .inr ⟨w, rest, rfl, hw, rfl⟩
  · exact .inl ⟨pushString_of_ne hc t, fun h => absurd h hc⟩

theorem head?_of_resolveStringMarks {t : Text} (h : (resolveStringMarks t).head? = some '#') :
    t.head? = some '#' := by
  cases t with
  | nil => exact h
  | cons c t =>
    rw [resolveStringMarks_cons] at h
    rcases pushString_cases c (resolveStringMarks t) with ⟨hpush, -⟩ | ⟨w, rest, -, -, hpush⟩
    · rwa [hpush] at h
    · rw [hpush, List.head?_cons, Option.some.injEq] at h
      exact absurd h (by decide)

/-- In a text without paste marks only those `#` are left that stay. -/
theorem markStays_resolveStringMarks {t : Text} (h : Unpasted t) :
    Behind '#' MarkStays (resolveStringMarks t) := by
  induction t with
  | nil => exact behind_nil
  | cons c t ih =>
    obtain ⟨hc, ht⟩ := (unpasted_cons c t).1 h
    rw [resolveStringMarks_cons]
    rcases pushString_cases c (resolveStringMarks t) with
      ⟨hpush, hstays⟩ | ⟨w, rest, hword, hw, hpush⟩
    · rw [hpush, behind_cons]
      exact ⟨fun hmark => hstays hmark fun hhead => hc hmark (head?_of_resolveStringMarks hhead),
        ih ht⟩
    · -- the quotes stand apart from the marks behind the word
      have hrest : Behind '#' MarkStays rest := by
        rw [hword, behind_append] at ih
        exact (ih ht).2
      have hquote : '"' ≠ '#' := by decide
      rw [hpush, behind_cons, behind_append, behind_cons]
      exact ⟨fun h => absurd h hquote, behind_of_not_mem (hw.not_mem (by decide)),
        fun h => absurd h hquote, hrest⟩

theorem resolveStringMarks_eq_self {t : Text} (h : Behind '#' MarkStays t) :
    resolveStringMarks t = t := by
  induction t with
  | nil => rfl
  | cons c t ih =>
    obtain ⟨hc, ht⟩ := (behind_cons c t).1 h
    rw [resolveStringMarks_cons, ih ht]
    by_cases hmark : c = '#'
    · rw [hmark, (hc hmark).pushString_eq]
    · rw [pushString_of_ne hmark]

/-! ## All marks -/

/-- A cleaned text has no `##`, and each `#` in it is the last character, or comes before a
character that is neither `#` nor in a word, or before a word that starts like an include directive.
So if the text has no continuation marker, cleaning it again changes nothing, whichever way markers
are resolved. -/
theorem cleanUp_normal (mode : ContinuationMode) (t : Text) :
    ¬ ['#', '#'] <:+: cleanUp mode t ∧
      (∀ before after, cleanUp mode t = before ++ '#' :: after → MarkStays after) ∧
      ((∀ before after, cleanUp mode t = before ++ '\\' :: after →
          ¬ Continuation.StartsBreak after) →
        ∀ mode', cleanUp mode' (cleanUp mode t) = cleanUp mode t) := by
  have hstays : Behind '#' MarkStays (cleanUp mode t) :=
    markStays_resolveStringMarks (unpasted_removePasteMarks (joinLines mode t))
  have hunpasted : Unpasted (cleanUp mode t) :=
    fun before after heq => (hstays before after heq).head?_ne
  refine ⟨(unpasted_iff _).1 hunpasted, hstays, fun hmarkers mode' => ?_⟩
  generalize cleanUp mode t = out at hstays hunpasted hmarkers
  calc cleanUp mode' out
      = resolveStringMarks (removePasteMarks out) := by
        unfold cleanUp
        rw [joinLines_eq_self hmarkers]
    _ = resolveStringMarks out := by rw [removePasteMarks_eq_self hunpasted]
    _ = out := resolveStringMarks_eq_self hstays

/-- Runs of `#`, words on both sides of one, an include directive that ends at a mark, and a
backslash that is in no marker. -/
theorem cleanUp_normal_runs :
    cleanUp .join "#a###b #include#x ##\\ \\\n####c#".toList =
        "\"a\"\"b\" #include\"x\" \\ c#".toList ∧
      ¬ ['#', '#'] <:+: "\"a\"\"b\" #include\"x\" \\ c#".toList ∧
      MarkStays "include\"x\" \\ c#".toList ∧ MarkStays [] ∧
      ∀ mode', cleanUp mode' "\"a\"\"b\" #include\"x\" \\ c#".toList =
        "\"a\"\"b\" #include\"x\" \\ c#".toList := by
  have hout : cleanUp .join "#a###b #include#x ##\\ \\\n####c#".toList =
      "\"a\"\"b\" #include\"x\" \\ c#".toList := by rfl
  have hmarkers : Behind '\\' (fun after => ¬ Continuation.StartsBreak after)
      "\"a\"\"b\" #include\"x\" \\ c#".toList := by decide
  obtain ⟨hpaste, hstays, hfixed⟩ :=
    cleanUp_normal .join "#a###b #include#x ##\\ \\\n####c#".toList
  rw [hout] at hpaste hstays hfixed
  exact ⟨hout, hpaste, hstays "\"a\"\"b\" ".toList _ (by rfl),
    hstays "\"a\"\"b\" #include\"x\" \\ c".toList _ (by rfl), hfixed hmarkers⟩

/-- A marker that goes can leave a backslash in front of another line break. -/
example : cleanUp .join "\\\\\n\n".toList = "\\\n".toList ∧
    cleanUp .join "\\\n".toList = [] := by decide

end FlatHeader
