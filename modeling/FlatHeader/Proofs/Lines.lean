import FlatHeader.Text.Line
import Mathlib.Data.List.DropRight
import Mathlib.Tactic

/-!
# The lines and the ends of a text

A text is cut into pieces before a separator or into lines behind the line feeds. Either way the
first cut decides (`splitOn_cut`, `lines_break`), and `separator_induction` goes on with the rest.
Of a line, the line break and trailing characters are taken off; what that leaves is said by
equations for a text whose end is known. What a text has behind each of its characters of one kind
is `Behind`.
-/

namespace FlatHeader.Text

/-! ## Taking off the end -/

theorem dropEndWhile_eq_rdropWhile (p : Char → Bool) (t : Text) :
    dropEndWhile p t = t.rdropWhile p := rfl

/-- What is left has no such character at its end. -/
theorem getLast?_dropEndWhile {p : Char → Bool} {t : Text} {c : Char}
    (h : (dropEndWhile p t).getLast? = some c) : p c = false := by
  rw [dropEndWhile_eq_rdropWhile] at h
  have hne : t.rdropWhile p ≠ [] := by
    intro hnil
    rw [hnil] at h
    exact absurd h (by simp)
  have hlast := List.rdropWhile_last_not p t hne
  rw [List.getLast?_eq_some_getLast hne, Option.some.injEq] at h
  rw [h] at hlast
  exact Bool.eq_false_iff.2 hlast

theorem dropEndWhile_isPrefix (p : Char → Bool) (t : Text) : dropEndWhile p t <+: t :=
  List.rdropWhile_prefix p t

theorem dropEndWhile_append_of_all {p : Char → Bool} {s : Text} (h : ∀ c ∈ s, p c = true)
    (t : Text) : dropEndWhile p (t ++ s) = dropEndWhile p t := by
  unfold dropEndWhile
  rw [List.reverse_append, List.dropWhile_append_of_pos fun c hc => h c (List.mem_reverse.1 hc)]

theorem dropEndWhile_concat_of_neg {p : Char → Bool} {c : Char} (h : p c = false) (t : Text) :
    dropEndWhile p (t ++ [c]) = t ++ [c] :=
  List.rdropWhile_concat_neg p t c (by rw [h]; decide)

/-- Nothing is left of a text exactly if it is white space. -/
theorem trim_eq_nil_iff (t : Text) :
    trim t = [] ↔ ∀ c ∈ t, Unicode.isWhiteSpace c = true := by
  unfold trim trimStart
  rw [dropEndWhile_eq_rdropWhile, List.rdropWhile_eq_nil_iff]
  constructor
  · intro h c hc
    rw [← List.takeWhile_append_dropWhile (p := Unicode.isWhiteSpace) (l := t)] at hc
    rcases List.mem_append.1 hc with hc | hc
    · exact List.mem_takeWhile_imp hc
    · exact h c hc
  · exact fun h c hc => h c ((List.dropWhile_suffix _).subset hc)

/-- A text without the character it ends with, if that is `c`. -/
theorem dropEnd?_concat (c d : Char) (t : Text) :
    dropEnd? c (t ++ [d]) = if d = c then some t else none := by
  unfold dropEnd?
  rw [List.reverse_concat]
  simp

theorem dropEnd?_getD_of_ne {c : Char} {t : Text} (h : t.getLast? ≠ some c) :
    (dropEnd? c t).getD t = t := by
  rcases List.eq_nil_or_concat t with rfl | ⟨s, d, rfl⟩
  · rfl
  · rw [List.concat_eq_append, List.getLast?_concat] at h
    rw [List.concat_eq_append, dropEnd?_concat, if_neg fun hd => h (by rw [hd]), Option.getD_none]

theorem dropEnd?_getD_isPrefix (c : Char) (t : Text) : (dropEnd? c t).getD t <+: t := by
  rcases List.eq_nil_or_concat t with rfl | ⟨s, d, rfl⟩
  · exact List.prefix_rfl
  · rw [List.concat_eq_append, dropEnd?_concat]
    split
    · exact List.prefix_append s [d]
    · exact List.prefix_rfl

/-- Only the last of two texts loses its end. -/
theorem dropEnd?_getD_append (c : Char) (a : Text) {b : Text} (h : b ≠ []) :
    (dropEnd? c (a ++ b)).getD (a ++ b) = a ++ (dropEnd? c b).getD b := by
  rcases List.eq_nil_or_concat b with rfl | ⟨s, d, rfl⟩
  · exact absurd rfl h
  · rw [List.concat_eq_append, ← List.append_assoc, dropEnd?_concat, dropEnd?_concat]
    split
    · rfl
    · rw [Option.getD_none, Option.getD_none, List.append_assoc]

/-! ## Line breaks -/

/-- A line break that ends a text is taken off. -/
theorem withoutLineBreak_lf {t : Text} (h : t.getLast? ≠ some '\r') :
    withoutLineBreak (t ++ ['\n']) = t := by
  unfold withoutLineBreak
  rw [dropEnd?_concat, if_pos rfl]
  exact dropEnd?_getD_of_ne h

theorem withoutLineBreak_crlf (t : Text) : withoutLineBreak (t ++ ['\r', '\n']) = t := by
  have hsplit : t ++ ['\r', '\n'] = (t ++ ['\r']) ++ ['\n'] := by rw [List.append_assoc]; rfl
  unfold withoutLineBreak
  rw [hsplit, dropEnd?_concat, if_pos rfl]
  show (dropEnd? '\r' (t ++ ['\r'])).getD (t ++ ['\r']) = t
  rw [dropEnd?_concat, if_pos rfl, Option.getD_some]

theorem withoutLineBreak_isPrefix (t : Text) : withoutLineBreak t <+: t :=
  (dropEnd?_getD_isPrefix '\r' _).trans (dropEnd?_getD_isPrefix '\n' t)

/-- Of whole lines and one more, only the last loses its line break. -/
theorem withoutLineBreak_append {a b : Text} (ha : a = [] ∨ a.getLast? = some '\n') (hb : b ≠ []) :
    withoutLineBreak (a ++ b) = a ++ withoutLineBreak b := by
  unfold withoutLineBreak
  rw [dropEnd?_getD_append '\n' a hb]
  -- if nothing but a line feed is left to take off, a carriage return before it would be at the
  -- end of `a`
  by_cases hnil : (dropEnd? '\n' b).getD b = []
  · have hlast : a.getLast? ≠ some '\r' := by
      rcases ha with rfl | ha
      · simp
      · rw [ha]
        decide
    rw [hnil, List.append_nil]
    show (dropEnd? '\r' a).getD a = a ++ []
    rw [dropEnd?_getD_of_ne hlast, List.append_nil]
  · exact dropEnd?_getD_append '\r' a hnil

/-! ## Pieces -/

/-- The induction over the pieces of a text between separators, from the first one on. -/
theorem separator_induction (separator : Char) {motive : Text → Prop}
    (last : ∀ s, separator ∉ s → motive s)
    (cut : ∀ s t, separator ∉ s → motive t → motive (s ++ separator :: t)) : ∀ t, motive t := by
  intro t
  induction hn : t.length using Nat.strong_induction_on generalizing t with
  | h n ih =>
    by_cases hmem : separator ∈ t
    · obtain ⟨s, r, rfl, hs⟩ := List.eq_append_cons_of_mem hmem
      rw [List.length_append, List.length_cons] at hn
      exact cut s r hs (ih r.length (by omega) r rfl)
    · exact last t hmem

/-- A separator of a text is the first one or stands behind the first one. -/
theorem append_cons_cases {separator : Char} {s t before after : Text} (hs : separator ∉ s)
    (h : s ++ separator :: t = before ++ separator :: after) :
    (before = s ∧ after = t) ∨
      ∃ front, before = s ++ separator :: front ∧ t = front ++ separator :: after := by
  rcases List.append_eq_append_iff.1 h with ⟨front, rfl, ht⟩ | ⟨front, rfl, hafter⟩
  · cases front with
    | nil =>
      rw [List.nil_append, List.cons.injEq] at ht
      exact .inl ⟨List.append_nil s, ht.2.symm⟩
    | cons c front =>
      rw [List.cons_append, List.cons.injEq] at ht
      obtain ⟨rfl, rfl⟩ := ht
      exact .inr ⟨front, rfl, rfl⟩
  · cases front with
    | nil =>
      rw [List.nil_append, List.cons.injEq] at hafter
      exact .inl ⟨(List.append_nil before).symm, hafter.2⟩
    | cons c front =>
      rw [List.cons_append, List.cons.injEq] at hafter
      obtain ⟨rfl, -⟩ := hafter
      exact absurd (List.mem_append_right before List.mem_cons_self) hs

theorem splitOn_cons (separator c : Char) (t : Text) :
    splitOn separator (c :: t) =
      if c = separator then [] :: splitOn separator t
      else (splitOn separator t).modifyHead (c :: ·) := rfl

/-- What stands before a text, without separators, belongs to its first piece. -/
theorem splitOn_append {separator : Char} {s t p : Text} {rest : List Text} (h : separator ∉ s)
    (ht : splitOn separator t = p :: rest) : splitOn separator (s ++ t) = (s ++ p) :: rest := by
  induction s with
  | nil => exact ht
  | cons c s ih =>
    rw [List.mem_cons, not_or] at h
    rw [List.cons_append, splitOn_cons, if_neg (Ne.symm h.1), ih h.2, List.modifyHead_cons]
    rfl

theorem splitOn_last {separator : Char} {s : Text} (h : separator ∉ s) :
    splitOn separator s = [s] := by
  have hs : splitOn separator (s ++ []) = [s ++ []] := splitOn_append h rfl
  rwa [List.append_nil] at hs

/-- The first piece of a text ends before the first separator. -/
theorem splitOn_cut {separator : Char} {s : Text} (h : separator ∉ s) (t : Text) :
    splitOn separator (s ++ separator :: t) = s :: splitOn separator t := by
  have ht : splitOn separator (separator :: t) = [] :: splitOn separator t := by
    rw [splitOn_cons, if_pos rfl]
  rw [splitOn_append h ht, List.append_nil]

theorem mem_intercalate {separator : Text} {c : Char} {l : List Text}
    (h : c ∈ separator.intercalate l) : c ∈ separator ∨ ∃ p ∈ l, c ∈ p := by
  induction l with
  | nil => exact absurd h List.not_mem_nil
  | cons p rest ih =>
    by_cases hnil : rest = []
    · rw [hnil, List.intercalate_singleton] at h
      exact .inr ⟨p, List.mem_cons_self, h⟩
    · rw [List.intercalate_cons_of_ne_nil hnil, List.append_assoc, List.mem_append,
        List.mem_append] at h
      rcases h with h | h | h
      · exact .inr ⟨p, List.mem_cons_self, h⟩
      · exact .inl h
      · exact (ih h).imp_right fun ⟨q, hq, hc⟩ => ⟨q, List.mem_cons_of_mem p hq, hc⟩

/-- A text has at least one piece. -/
theorem splitOn_ne_nil (separator : Char) (t : Text) : splitOn separator t ≠ [] := by
  induction t using separator_induction separator with
  | last s hs => rw [splitOn_last hs]; exact List.cons_ne_nil _ _
  | cut s t hs ih => rw [splitOn_cut hs]; exact List.cons_ne_nil _ _

/-- White space in front of a text goes when its pieces are trimmed. -/
theorem map_trim_splitOn_append {separator : Char} {gap : Text} (hseparator : separator ∉ gap)
    (hgap : ∀ c ∈ gap, Unicode.isWhiteSpace c = true) (t : Text) :
    (splitOn separator (gap ++ t)).map trim = (splitOn separator t).map trim := by
  obtain ⟨p, rest, hsplit⟩ := List.exists_cons_of_ne_nil (splitOn_ne_nil separator t)
  have htrim : trim (gap ++ p) = trim p := by
    unfold trim trimStart
    rw [List.dropWhile_append_of_pos hgap]
  rw [splitOn_append hseparator hsplit, hsplit, List.map_cons, List.map_cons, htrim]

/-- The pieces that were joined with separators and white space, if they have no separators and no
white space at their ends. -/
theorem map_trim_splitOn_intercalate {separator : Char} {gap : Text} {l : List Text}
    (hgap : ∀ c ∈ gap, Unicode.isWhiteSpace c = true) (hseparator : separator ∉ gap)
    (hl : ∀ p ∈ l, separator ∉ p ∧ trim p = p) (hne : l ≠ []) :
    (splitOn separator ((separator :: gap).intercalate l)).map trim = l := by
  induction l with
  | nil => exact absurd rfl hne
  | cons p rest ih =>
    obtain ⟨⟨hp, htrim⟩, hrest⟩ := List.forall_mem_cons.1 hl
    by_cases hnil : rest = []
    · rw [hnil, List.intercalate_singleton, splitOn_last hp, List.map_singleton, htrim]
    · rw [List.intercalate_cons_of_ne_nil hnil, List.append_assoc, List.cons_append,
        splitOn_cut hp, List.map_cons, map_trim_splitOn_append hseparator hgap, ih hrest hnil,
        htrim]

/-- The pieces with the separators between them are the text. -/
theorem intercalate_splitOn (separator : Char) (t : Text) :
    [separator].intercalate (splitOn separator t) = t := by
  induction t using separator_induction separator with
  | last s hs => rw [splitOn_last hs, List.intercalate_singleton]
  | cut s t hs ih =>
    rw [splitOn_cut hs, List.intercalate_cons_of_ne_nil (splitOn_ne_nil separator t), ih,
      List.append_assoc, List.singleton_append]

/-- No piece has a separator. -/
theorem not_mem_of_mem_splitOn {separator : Char} {p t : Text} (h : p ∈ splitOn separator t) :
    separator ∉ p := by
  induction t using separator_induction separator with
  | last s hs =>
    rw [splitOn_last hs, List.mem_singleton] at h
    rwa [h]
  | cut s t hs ih =>
    rw [splitOn_cut hs, List.mem_cons] at h
    rcases h with rfl | h
    · exact hs
    · exact ih h

/-- The last piece of a text is empty exactly if the text is, or ends with a separator. -/
theorem getLastD_splitOn_eq_nil_iff (separator : Char) (t : Text) :
    (splitOn separator t).getLastD [] = [] ↔ t = [] ∨ t.getLast? = some separator := by
  induction t using separator_induction separator with
  | last s hs =>
    have hlast : s.getLast? ≠ some separator := fun h => hs (List.mem_of_getLast? h)
    rw [splitOn_last hs, or_iff_left hlast]
    rfl
  | cut s t hs ih =>
    obtain ⟨p, rest, hsplit⟩ := List.exists_cons_of_ne_nil (splitOn_ne_nil separator t)
    have hlast : (s ++ separator :: t).getLast? = some separator ↔
        t = [] ∨ t.getLast? = some separator := by
      rw [List.getLast?_append_of_ne_nil s (List.cons_ne_nil _ t)]
      by_cases hnil : t = []
      · rw [hnil]
        exact iff_of_true rfl (.inl rfl)
      · rw [List.getLast?_cons_of_ne_nil hnil, or_iff_right hnil]
    rw [hsplit, List.getLastD_cons] at ih
    have hne : s ++ separator :: t ≠ [] := by simp
    rw [splitOn_cut hs, hsplit, List.getLastD_cons, List.getLastD_cons, ih, or_iff_right hne, hlast]

/-- A piece of a text ends with the text or before a separator. -/
theorem exists_append_of_mem_splitOn {separator : Char} {p t : Text}
    (h : p ∈ splitOn separator t) :
    ∃ before after, t = before ++ (p ++ after) ∧ ∀ c ∈ after.head?, c = separator := by
  induction t using separator_induction separator with
  | last s hs =>
    rw [splitOn_last hs, List.mem_singleton] at h
    exact ⟨[], [], by rw [h, List.append_nil]; rfl, by simp⟩
  | cut s t hs ih =>
    rw [splitOn_cut hs, List.mem_cons] at h
    rcases h with rfl | h
    · exact ⟨[], separator :: t, rfl, by simp⟩
    · obtain ⟨before, after, ht, hafter⟩ := ih h
      exact ⟨s ++ separator :: before, after, by rw [ht]; simp, hafter⟩

/-! ## Behind a character -/

section behind

/-- Behind every `x` in the text stands a text of which `P` holds. -/
def Behind (x : Char) (P : Text → Prop) (t : Text) : Prop :=
  ∀ before after, t = before ++ x :: after → P after

variable {x : Char} {P : Text → Prop}

theorem behind_of_not_mem {t : Text} (h : x ∉ t) : Behind x P t := by
  intro before after ht
  rw [ht] at h
  exact absurd (List.mem_append_right before List.mem_cons_self) h

theorem behind_nil : Behind x P [] := behind_of_not_mem List.not_mem_nil

theorem behind_cons (c : Char) (t : Text) :
    Behind x P (c :: t) ↔ (c = x → P t) ∧ Behind x P t := by
  constructor
  · intro h
    refine ⟨fun hc => h [] t (by rw [hc]; rfl), fun before after ht => ?_⟩
    exact h (c :: before) after (by rw [ht]; rfl)
  · rintro ⟨hc, ht⟩ before after heq
    cases before with
    | nil =>
      obtain ⟨rfl, rfl⟩ := List.cons.inj heq
      exact hc rfl
    | cons d before => exact ht before after (List.cons.inj heq).2

/-- In a longer text, what stands behind a character goes on behind the border. -/
theorem behind_append (a b : Text) :
    Behind x P (a ++ b) ↔ Behind x (fun s => P (s ++ b)) a ∧ Behind x P b := by
  induction a with
  | nil => exact ⟨fun h => ⟨behind_nil, h⟩, fun h => h.2⟩
  | cons c a ih => rw [List.cons_append, behind_cons, behind_cons, ih, and_assoc]

instance decidableBehind (x : Char) (P : Text → Prop) [DecidablePred P] :
    (t : Text) → Decidable (Behind x P t)
  | [] => isTrue behind_nil
  | c :: t =>
    have := decidableBehind x P t
    decidable_of_iff' _ (behind_cons c t)

end behind

/-! ## Lines -/

/-- Only the last character can be a line feed. -/
def OneLine (t : Text) : Prop := ∀ before after, t = before ++ '\n' :: after → after = []

theorem oneLine_of_not_mem {t : Text} (h : '\n' ∉ t) : OneLine t := by
  intro before after ht
  rw [ht] at h
  exact absurd (List.mem_append_right before List.mem_cons_self) h

theorem oneLine_concat_lf {t : Text} (h : '\n' ∉ t) : OneLine (t ++ ['\n']) := by
  intro before after heq
  rcases List.eq_nil_or_concat after with rfl | ⟨s, c, rfl⟩
  · rfl
  · rw [List.concat_eq_append, ← List.cons_append, ← List.append_assoc] at heq
    have hinit := (List.append_inj' heq rfl).1
    rw [hinit] at h
    exact absurd (List.mem_append_right before List.mem_cons_self) h

/-- A line has no line feed, or one at its end. -/
theorem OneLine.cases {t : Text} (h : OneLine t) :
    '\n' ∉ t ∨ ∃ s, '\n' ∉ s ∧ t = s ++ ['\n'] := by
  by_cases hmem : '\n' ∈ t
  · obtain ⟨s, after, rfl, hs⟩ := List.eq_append_cons_of_mem hmem
    rw [h s after rfl]
    exact .inr ⟨s, hs, rfl⟩
  · exact .inl hmem

theorem OneLine.of_suffix {t s : Text} (h : OneLine t) (hs : s <:+ t) : OneLine s := by
  obtain ⟨r, rfl⟩ := hs
  intro before after heq
  exact h (r ++ before) after (by rw [heq, List.append_assoc])

theorem lines_cons (c : Char) (t : Text) :
    lines (c :: t) = if c = '\n' then [c] :: lines t else lines.push c (lines t) := rfl

/-- What stands before a text, without line feeds, belongs to its first line. -/
theorem lines_append {s t line : Text} {rest : List Text} (h : '\n' ∉ s)
    (ht : lines t = line :: rest) : lines (s ++ t) = (s ++ line) :: rest := by
  induction s with
  | nil => exact ht
  | cons c s ih =>
    rw [List.mem_cons, not_or] at h
    rw [List.cons_append, lines_cons, if_neg (Ne.symm h.1), ih h.2]
    rfl

/-- The first line of a text ends with the first line feed. -/
theorem lines_break {s : Text} (h : '\n' ∉ s) (t : Text) :
    lines (s ++ '\n' :: t) = (s ++ ['\n']) :: lines t := by
  have ht : lines ('\n' :: t) = ['\n'] :: lines t := by
    rw [lines_cons, if_pos rfl]
  exact lines_append h ht

theorem lines_last {s : Text} (h : '\n' ∉ s) (hne : s ≠ []) : lines s = [s] := by
  obtain ⟨r, c, rfl⟩ := (List.eq_nil_or_concat s).resolve_left hne
  rw [List.concat_eq_append, List.mem_append, List.mem_singleton, not_or] at h
  have hc : lines [c] = [[c]] := by
    rw [lines_cons, if_neg (Ne.symm h.2)]
    rfl
  rw [List.concat_eq_append, lines_append h.1 hc]

theorem mem_lines_last {s line : Text} (h : '\n' ∉ s) (hline : line ∈ lines s) :
    line = s ∧ s ≠ [] := by
  by_cases hne : s = []
  · rw [hne] at hline
    exact absurd hline List.not_mem_nil
  · rw [lines_last h hne, List.mem_singleton] at hline
    exact ⟨hline, hne⟩

/-- Behind a text that ends with its line the lines of another text follow. There are as many lines
in front of them as line feeds. -/
theorem lines_append_of_ends {s : Text} (h : s = [] ∨ s.getLast? = some '\n') (t : Text) :
    lines (s ++ t) = lines s ++ lines t ∧ (lines s).length = s.count '\n' := by
  induction s using separator_induction '\n' with
  | last s hs =>
    obtain rfl := h.resolve_right fun hlast => hs (List.mem_of_getLast? hlast)
    exact ⟨rfl, rfl⟩
  | cut s r hs ih =>
    have hr : r = [] ∨ r.getLast? = some '\n' := by
      by_cases hnil : r = []
      · exact .inl hnil
      · right
        have hlast := h.resolve_left (by simp)
        rwa [List.getLast?_append_of_ne_nil s (List.cons_ne_nil _ r),
          List.getLast?_cons_of_ne_nil hnil] at hlast
    obtain ⟨hlines, hcount⟩ := ih hr
    rw [List.append_assoc, List.cons_append, lines_break hs, lines_break hs, hlines,
      List.count_append, List.count_eq_zero_of_not_mem hs, List.count_cons_self, List.length_cons,
      hcount, Nat.zero_add]
    exact ⟨rfl, rfl⟩

/-- The lines at the beginning of a text are the lines of a text of their own. -/
theorem lines_flatten_of_append {t : Text} {above below : List Text}
    (h : lines t = above ++ below) : lines above.flatten = above := by
  induction t using separator_induction '\n' generalizing above with
  | last s hs =>
    cases above with
    | nil => rfl
    | cons line above =>
      have hline : line ∈ lines s := by
        rw [h]
        exact List.mem_cons_self
      obtain ⟨rfl, hne⟩ := mem_lines_last hs hline
      rw [lines_last hs hne, List.cons_append, List.cons.injEq] at h
      rw [(List.append_eq_nil_iff.1 h.2.symm).1, List.flatten_singleton, lines_last hs hne]
  | cut s t hs ih =>
    cases above with
    | nil => rfl
    | cons line above =>
      rw [lines_break hs, List.cons_append, List.cons.injEq] at h
      obtain ⟨rfl, hrest⟩ := h
      rw [List.flatten_cons, List.append_assoc, List.singleton_append, lines_break hs, ih hrest]

/-- All lines but the last one end with a line feed. -/
theorem getLast?_of_mem_dropLast_lines {line t : Text} (h : line ∈ (lines t).dropLast) :
    line.getLast? = some '\n' := by
  induction t using separator_induction '\n' with
  | last s hs =>
    by_cases hne : s = []
    · rw [hne] at h
      exact absurd h List.not_mem_nil
    · rw [lines_last hs hne] at h
      exact absurd h List.not_mem_nil
  | cut s t hs ih =>
    rw [lines_break hs] at h
    by_cases hnil : lines t = []
    · rw [hnil] at h
      exact absurd h List.not_mem_nil
    · rw [List.dropLast_cons_of_ne_nil hnil, List.mem_cons] at h
      rcases h with rfl | h
      · exact List.getLast?_concat
      · exact ih h

/-- A line is not empty and ends with its line feed. -/
theorem ne_nil_and_oneLine_of_mem_lines {line t : Text} (h : line ∈ lines t) :
    line ≠ [] ∧ OneLine line := by
  induction t using separator_induction '\n' with
  | last s hs =>
    obtain ⟨rfl, hne⟩ := mem_lines_last hs h
    exact ⟨hne, oneLine_of_not_mem hs⟩
  | cut s t hs ih =>
    rw [lines_break hs, List.mem_cons] at h
    rcases h with rfl | h
    · exact ⟨by simp, oneLine_concat_lf hs⟩
    · exact ih h

end FlatHeader.Text
