import FlatHeader.Proofs.MarkerPieces

/-!
# The two continuation modes

Joining lines puts the pieces between continuation markers together, with a line feed for each
marker or without. The later stages look at what stands on both sides of a former marker, so there
the modes can differ: `#` may come to stand in front of another `#` or of a word, and a word may go
on. Where neither `#` nor a word stands in front of a marker, the pieces are resolved by themselves
in both modes, and the results are the same up to their line feeds
(`filter_cleanUp_keepLineBreak`).
-/

namespace FlatHeader

open Text Continuation

/-! ## The marks behind the first stage -/

/-- A text in which `##` and `#word` are resolved. -/
def resolveMarks (t : Text) : Text := resolveStringMarks (removePasteMarks t)

/-- A character that is neither `#` nor in a word keeps the marks on its two sides apart. -/
theorem resolveMarks_append_cons {c : Char} (hmark : c ≠ '#') (hc : isWordChar c = false)
    (a b : Text) : resolveMarks (a ++ c :: b) = resolveMarks a ++ c :: resolveMarks b := by
  unfold resolveMarks
  rw [removePasteMarks_append_cons hmark, resolveStringMarks_append _ (startsOutside_cons hc _),
    resolveStringMarks_cons, pushString_of_ne hmark]

/-- A text is empty or ends with a character that is neither `#` nor in a word. -/
def EndsPlain (t : Text) : Prop := ∀ c ∈ t.getLast?, c ≠ '#' ∧ isWordChar c = false

theorem resolveMarks_append {a : Text} (ha : EndsPlain a) (b : Text) :
    resolveMarks (a ++ b) = resolveMarks a ++ resolveMarks b := by
  rcases List.eq_nil_or_concat' a with rfl | ⟨r, c, rfl⟩
  · rfl
  · obtain ⟨hmark, hc⟩ := ha c List.getLast?_concat
    rw [List.append_assoc, List.singleton_append, resolveMarks_append_cons hmark hc,
      resolveMarks_append_cons hmark hc, List.append_assoc]
    rfl

/-! ## Line feeds for markers -/

/-- No marker comes directly behind `#` or behind a word. -/
def MarkersApart (t : Text) : Prop :=
  ∀ before c after, t = before ++ c :: after → StartsMarker after →
    c ≠ '#' ∧ isWordChar c = false

theorem markersApart_cons (c : Char) (t : Text) :
    MarkersApart (c :: t) ↔
      (StartsMarker t → c ≠ '#' ∧ isWordChar c = false) ∧ MarkersApart t := by
  constructor
  · intro h
    refine ⟨h [] c t rfl, fun before d after ht => ?_⟩
    exact h (c :: before) d after (by rw [ht]; rfl)
  · rintro ⟨hc, ht⟩ before d after heq
    cases before with
    | nil =>
      obtain ⟨rfl, rfl⟩ := List.cons.inj heq
      exact hc
    | cons e before => exact ht before d after (List.cons.inj heq).2

instance decidableMarkersApart : DecidablePred MarkersApart
  | [] => isTrue fun before _ _ h => absurd h.symm (by simp)
  | c :: t =>
    have := decidableMarkersApart t
    decidable_of_iff' _ (markersApart_cons c t)

theorem MarkersApart.of_cut {s m t : Text} (h : MarkersApart (s ++ (m ++ t))) (hm : IsMarker m) :
    EndsPlain s ∧ MarkersApart t := by
  constructor
  · intro c hc
    obtain ⟨r, rfl⟩ := List.getLast?_eq_some_iff.1 hc
    exact h r c (m ++ t) (by simp) (hm.startsMarker_append t)
  · intro before c after ht
    exact h (s ++ (m ++ before)) c after (by rw [ht]; simp)

/-- The two continuation modes agree up to line feeds, if no marker comes directly behind `#` or
behind a word: then a cleaned text with a line feed for each marker and one without have the same
characters in the same order, line feeds aside. -/
theorem filter_cleanUp_keepLineBreak {t : Text} (h : MarkersApart t) :
    (cleanUp .keepLineBreak t).filter (· != '\n') = (cleanUp .join t).filter (· != '\n') := by
  show (resolveMarks (joinLines .keepLineBreak t)).filter (· != '\n') =
    (resolveMarks (joinLines .join t)).filter (· != '\n')
  induction t using marker_induction with
  | last s hs => rw [joinLines_eq_self hs, joinLines_eq_self hs]
  | cut s m t hs hm ih =>
    obtain ⟨hplain, ht⟩ := h.of_cut hm
    have hkeep : resolveMarks (joinLines .keepLineBreak (s ++ (m ++ t))) =
        resolveMarks s ++ '\n' :: resolveMarks (joinLines .keepLineBreak t) := by
      rw [joinLines_cut hs hm, ← resolveMarks_append_cons (by decide) (by decide)]
      rfl
    have hjoin : resolveMarks (joinLines .join (s ++ (m ++ t))) =
        resolveMarks s ++ resolveMarks (joinLines .join t) := by
      rw [joinLines_cut hs hm, ← resolveMarks_append hplain]
      rfl
    rw [hkeep, hjoin, List.filter_append, List.filter_append, List.filter_cons_of_neg (by decide),
      ih ht]

/-- Markers at the beginning, behind a backslash, behind each other and in front of `#`, with both
kinds of line breaks. -/
theorem filter_cleanUp_keepLineBreak_between_marks :
    MarkersApart "\\\n#a;\\\\ \t\r\n\\\n##b -\\\n###c\n".toList ∧
    cleanUp .keepLineBreak "\\\n#a;\\\\ \t\r\n\\\n##b -\\\n###c\n".toList =
      "\n\"a\";\\\n\nb -\n\"c\"\n".toList ∧
    cleanUp .join "\\\n#a;\\\\ \t\r\n\\\n##b -\\\n###c\n".toList = "\"a\";\\b -\"c\"\n".toList ∧
    "\n\"a\";\\\n\nb -\n\"c\"\n".toList.filter (· != '\n') =
      "\"a\";\\b -\"c\"\n".toList.filter (· != '\n') := by
  have hapart : MarkersApart "\\\n#a;\\\\ \t\r\n\\\n##b -\\\n###c\n".toList := by decide
  have hkeep : cleanUp .keepLineBreak "\\\n#a;\\\\ \t\r\n\\\n##b -\\\n###c\n".toList =
      "\n\"a\";\\\n\nb -\n\"c\"\n".toList := by rfl
  have hjoin : cleanUp .join "\\\n#a;\\\\ \t\r\n\\\n##b -\\\n###c\n".toList =
      "\"a\";\\b -\"c\"\n".toList := by rfl
  have hsame := filter_cleanUp_keepLineBreak hapart
  rw [hkeep, hjoin] at hsame
  exact ⟨hapart, hkeep, hjoin, hsame⟩

/-- Behind `#` the modes differ: where the lines are joined, the word comes next. -/
example : cleanUp .keepLineBreak "#\\\na".toList = "#\na".toList ∧
    cleanUp .join "#\\\na".toList = "\"a\"".toList := by decide

end FlatHeader
