import FlatHeader.Proofs.Stages

/-!
# The pieces between continuation markers

A text is cut at its continuation markers (`marker_induction`). Joining lines leaves the pieces as
they are and puts them together again, with a line feed for each marker or without
(`joinLines_cut`). A backslash that stands in a piece finds no line break behind it, neither in the
piece nor in the marker that comes next.
-/

namespace FlatHeader

open Text Continuation

/-! ## Cutting a text at its markers -/

namespace Continuation

/-- A continuation marker as it is written: a backslash, blanks and a line break. -/
def IsMarker (m : Text) : Prop :=
  ∃ blanks cr, m = '\\' :: (blanks ++ (cr ++ ['\n'])) ∧
    (∀ c ∈ blanks, isBlank c = true) ∧ (cr = [] ∨ cr = ['\r'])

/-- A continuation marker comes next. -/
def StartsMarker (t : Text) : Prop := ∃ after, t = '\\' :: after ∧ StartsBreak after

/-- No continuation marker starts in a text. -/
def MarkerFree (t : Text) : Prop := Behind '\\' (fun after => ¬ StartsBreak after) t

theorem StartsBreak.lf_mem {t : Text} (h : StartsBreak t) : '\n' ∈ t := by
  induction h with
  | lf t => exact List.mem_cons_self
  | crlf t => exact List.mem_cons_of_mem _ List.mem_cons_self
  | blank _ _ ih => exact List.mem_cons_of_mem _ ih

/-- A marker has a line feed, so a text without has no marker. -/
theorem markerFree_of_not_mem {t : Text} (h : '\n' ∉ t) : MarkerFree t := by
  rintro before after rfl hbreak
  exact h (List.mem_append_right before (List.mem_cons_of_mem _ hbreak.lf_mem))

instance decidableStartsMarker : DecidablePred StartsMarker
  | [] => isFalse fun ⟨_, h, _⟩ => List.cons_ne_nil _ _ h.symm
  | c :: t => decidable_of_iff (c = '\\' ∧ StartsBreak t)
    ⟨fun ⟨hc, ht⟩ => ⟨t, by rw [hc], ht⟩, fun ⟨_, heq, h⟩ =>
      ⟨(List.cons.inj heq).1, (List.cons.inj heq).2 ▸ h⟩⟩

theorem IsMarker.startsMarker_append {m : Text} (hm : IsMarker m) (t : Text) :
    StartsMarker (m ++ t) := by
  obtain ⟨blanks, cr, rfl, hblanks, hcr⟩ := hm
  refine ⟨blanks ++ (cr ++ ['\n']) ++ t, rfl, ?_⟩
  induction blanks with
  | nil =>
    rcases hcr with rfl | rfl
    · exact .lf t
    · exact .crlf t
  | cons c blanks ih =>
    obtain ⟨hc, hrest⟩ := List.forall_mem_cons.1 hblanks
    exact .blank hc (ih hrest)

/-- A backslash with a line break behind it starts a marker. -/
theorem StartsBreak.exists_marker {t : Text} (h : StartsBreak t) :
    ∃ m rest, IsMarker m ∧ '\\' :: t = m ++ rest := by
  induction h with
  | lf t => exact ⟨['\\', '\n'], t, ⟨[], [], rfl, List.forall_mem_nil _, .inl rfl⟩, rfl⟩
  | crlf t => exact ⟨['\\', '\r', '\n'], t, ⟨[], ['\r'], rfl, List.forall_mem_nil _, .inr rfl⟩, rfl⟩
  | @blank c t hc _ ih =>
    obtain ⟨m, rest, ⟨blanks, cr, rfl, hblanks, hcr⟩, heq⟩ := ih
    refine ⟨'\\' :: c :: (blanks ++ (cr ++ ['\n'])), rest,
      ⟨c :: blanks, cr, rfl, List.forall_mem_cons.2 ⟨hc, hblanks⟩, hcr⟩, ?_⟩
    rw [(List.cons.inj heq).2]
    rfl

/-- No marker starts before the first one: a line break does not reach to the backslash of the next
marker. -/
theorem MarkerFree.behind_append {s m : Text} (hs : MarkerFree s) (hm : IsMarker m) (t : Text) :
    Behind '\\' (fun after => ¬ StartsBreak (after ++ (m ++ t))) s := by
  intro before after heq hbreak
  rcases hbreak.of_append with hbreak | ⟨-, c, hc, hbreakChar⟩
  · exact hs before after heq hbreak
  · obtain ⟨rest, hrest, -⟩ := hm.startsMarker_append t
    rw [hrest, List.head?_cons, Option.some.injEq] at hc
    rw [← hc] at hbreakChar
    exact absurd hbreakChar (by decide)

/-- A text has no marker, or it is cut by its first one. -/
theorem markerFree_or_exists_marker (t : Text) :
    MarkerFree t ∨ ∃ s m rest, t = s ++ (m ++ rest) ∧ MarkerFree s ∧ IsMarker m := by
  induction t with
  | nil => exact .inl behind_nil
  | cons c t ih =>
    by_cases hstart : c = '\\' ∧ StartsBreak t
    · obtain ⟨rfl, hbreak⟩ := hstart
      obtain ⟨m, rest, hm, heq⟩ := hbreak.exists_marker
      exact .inr ⟨[], m, rest, heq, behind_nil, hm⟩
    · rcases ih with hfree | ⟨s, m, rest, rfl, hfree, hm⟩
      · exact .inl ((behind_cons c t).2 ⟨fun hc hbreak => hstart ⟨hc, hbreak⟩, hfree⟩)
      · refine .inr ⟨c :: s, m, rest, rfl, (behind_cons c s).2 ⟨fun hc hbreak => ?_, hfree⟩, hm⟩
        exact hstart ⟨hc, hbreak.append (m ++ rest)⟩

/-- The induction over the pieces of a text between its markers, from the first one on. -/
theorem marker_induction {motive : Text → Prop} (last : ∀ s, MarkerFree s → motive s)
    (cut : ∀ s m t, MarkerFree s → IsMarker m → motive t → motive (s ++ (m ++ t))) :
    ∀ t, motive t := by
  intro t
  induction hn : t.length using Nat.strong_induction_on generalizing t with
  | h n ih =>
    rcases markerFree_or_exists_marker t with hfree | ⟨s, m, rest, rfl, hfree, hm⟩
    · exact last t hfree
    · refine cut s m rest hfree hm (ih rest.length ?_ rest rfl)
      obtain ⟨blanks, cr, rfl, -, -⟩ := hm
      rw [List.length_append, List.length_append, List.length_cons] at hn
      omega

end Continuation

/-! ## Joining the pieces -/

/-- A text stays as it is in front of another one, if together they have no marker that starts in
it. -/
theorem joinLines_append_of_behind {s t : Text}
    (h : Behind '\\' (fun after => ¬ StartsBreak (after ++ t)) s) (mode : ContinuationMode) :
    joinLines mode (s ++ t) = s ++ joinLines mode t := by
  induction s with
  | nil => rfl
  | cons c s ih =>
    obtain ⟨hc, hs⟩ := (behind_cons c s).1 h
    rw [List.cons_append, List.cons_append, ← ih hs]
    by_cases hslash : c = '\\'
    · rw [hslash, joinLines_backslash (hc hslash)]
    · exact joinLines_cons_of_ne hslash mode _

theorem joinLines_eq_self {t : Text} (h : MarkerFree t) (mode : ContinuationMode) :
    joinLines mode t = t := by
  have hend : Behind '\\' (fun after => ¬ StartsBreak (after ++ [])) t := by
    simpa only [MarkerFree, List.append_nil] using h
  have happend := joinLines_append_of_behind hend mode
  rwa [List.append_nil, show joinLines mode [] = [] from rfl, List.append_nil] at happend

/-- Behind the backslash of a marker the line break is found and nothing else is taken away. -/
theorem lineBreak?_tokens {blanks cr : Text} (hblanks : ∀ c ∈ blanks, isBlank c = true)
    (hcr : cr = [] ∨ cr = ['\r']) (t : Text) :
    lineBreak? (tokens (blanks ++ (cr ++ '\n' :: t))) =
      some (blanks ++ (cr ++ ['\n']), tokens t) := by
  induction blanks with
  | nil =>
    rcases hcr with rfl | rfl
    · rfl
    · rfl
  | cons c blanks ih =>
    obtain ⟨hc, hrest⟩ := List.forall_mem_cons.1 hblanks
    have hne : c ≠ '\\' ∧ c ≠ '\n' ∧ c ≠ '\r' := by
      refine ⟨?_, ?_, ?_⟩ <;> rintro rfl <;> exact absurd hc (by decide)
    rw [List.cons_append, tokens_cons, push_of_ne hne.1, lineBreak?_char, if_neg hne.2.1,
      if_neg fun h => hne.2.2 h.1, if_pos hc, ih hrest]
    rfl

/-- Where a text is cut by its first marker, this one is resolved and then the rest. -/
theorem joinLines_cut {s m : Text} (hs : MarkerFree s) (hm : IsMarker m) (mode : ContinuationMode)
    (t : Text) :
    joinLines mode (s ++ (m ++ t)) = s ++ (render mode (.marker m) ++ joinLines mode t) := by
  have hmarker : joinLines mode (m ++ t) = render mode (.marker m) ++ joinLines mode t := by
    obtain ⟨blanks, cr, rfl, hblanks, hcr⟩ := hm
    unfold joinLines
    rw [List.cons_append, List.append_assoc, List.append_assoc, List.singleton_append, tokens_cons,
      push, if_pos rfl, lineBreak?_tokens hblanks hcr, List.flatMap_cons]
  rw [joinLines_append_of_behind (hs.behind_append hm t), hmarker]

end FlatHeader
