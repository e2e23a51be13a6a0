import FlatHeader.Proofs.LineSteps
import FlatHeader.Proofs.Tables

/-!
# The bodies of extracted definitions

A body goes on as long as its lines are continued, and a line is continued where a continuation
marker ends it. In a source whose backslashes all belong to markers, a line is therefore continued
exactly if it has a backslash (`isContinued_iff`), and the last line of a body has none. So the
markers of a body are whole: `Table.parse_onlyMarkers`.
-/

namespace FlatHeader

open Text Continuation

/-! ## Lines with a marker -/

/-- A line, or the rest of one, whose backslashes all belong to markers. -/
structure MarkedLine (line : Text) : Prop where
  onlyMarkers : OnlyMarkers line
  oneLine : OneLine line

/-- Behind the backslash of a marker there is nothing but blanks before the line break. -/
theorem exists_blanks_of_startsBreak {t : Text} (h : StartsBreak t) (hline : OneLine t) :
    ∃ blanks, (∀ c ∈ blanks, isBlank c = true) ∧
      (t = blanks ++ ['\n'] ∨ t = blanks ++ ['\r', '\n']) := by
  induction h with
  | lf t =>
    rw [hline [] t rfl]
    exact ⟨[], by simp, .inl rfl⟩
  | crlf t =>
    rw [hline ['\r'] t rfl]
    exact ⟨[], by simp, .inr rfl⟩
  | @blank c t hc _ ih =>
    obtain ⟨blanks, hblanks, ht⟩ := ih (hline.of_suffix (List.suffix_cons c t))
    refine ⟨c :: blanks, ?_, ht.imp (congrArg (c :: ·)) (congrArg (c :: ·))⟩
    intro d hd
    rcases List.mem_cons.1 hd with rfl | hd
    · exact hc
    · exact hblanks d hd

/-- A line that a marker ends is continued. -/
theorem isContinued_of_marker (before : Text) {blanks : Text}
    (hblanks : ∀ c ∈ blanks, isBlank c = true) :
    isContinued (before ++ '\\' :: blanks ++ ['\n']) = true ∧
      isContinued (before ++ '\\' :: blanks ++ ['\r', '\n']) = true := by
  have hends : (dropEndWhile isBlank (before ++ '\\' :: blanks)).getLast? = some '\\' := by
    have hsplit : before ++ '\\' :: blanks = before ++ ['\\'] ++ blanks := by simp
    rw [hsplit, dropEndWhile_append_of_all hblanks, dropEndWhile_concat_of_neg (by decide),
      List.getLast?_concat]
  -- before a line feed by itself stands the backslash or a blank
  have hlast : (before ++ '\\' :: blanks).getLast? ≠ some '\r' := by
    rw [List.getLast?_append_of_ne_nil _ (by simp)]
    intro hcr
    rcases List.mem_cons.1 (List.mem_of_getLast? hcr) with hcr | hcr
    · exact absurd hcr (by decide)
    · exact absurd (hblanks _ hcr) (by decide)
  unfold isContinued
  rw [withoutLineBreak_lf hlast, withoutLineBreak_crlf, beq_iff_eq]
  exact ⟨hends, hends⟩

namespace MarkedLine

variable {line : Text}

theorem of_suffix {rest : Text} (hl : MarkedLine line) (hs : rest <:+ line) : MarkedLine rest :=
  ⟨hl.onlyMarkers.of_suffix hs, hl.oneLine.of_suffix hs⟩

/-- A marker ends its line. -/
theorem exists_marker (hl : MarkedLine line) (h : '\\' ∈ line) :
    ∃ before blanks, (∀ c ∈ blanks, isBlank c = true) ∧
      (line = before ++ '\\' :: blanks ++ ['\n'] ∨
        line = before ++ '\\' :: blanks ++ ['\r', '\n']) := by
  obtain ⟨before, after, rfl⟩ := List.append_of_mem h
  have hsuffix : after <:+ before ++ '\\' :: after :=
    (List.suffix_cons '\\' after).trans (List.suffix_append before _)
  obtain ⟨blanks, hblanks, hafter⟩ :=
    exists_blanks_of_startsBreak (hl.onlyMarkers before after rfl) (hl.oneLine.of_suffix hsuffix)
  refine ⟨before, blanks, hblanks, ?_⟩
  -- the line break is one character or two
  rcases hafter with rfl | rfl
  · left
    simp
  · right
    simp

theorem getLast?_eq_lf (hl : MarkedLine line) (h : '\\' ∈ line) :
    line.getLast? = some '\n' := by
  obtain ⟨before, blanks, -, heq | heq⟩ := hl.exists_marker h
  · rw [heq, List.getLast?_append_of_ne_nil _ (by simp)]
    rfl
  · rw [heq, List.getLast?_append_of_ne_nil _ (by simp)]
    rfl

/-- A line is continued exactly if it has a backslash. -/
theorem isContinued_iff (hl : MarkedLine line) : isContinued line = true ↔ '\\' ∈ line := by
  constructor
  · intro h
    unfold isContinued at h
    rw [beq_iff_eq] at h
    have hmem := List.mem_of_getLast? h
    exact ((dropEndWhile_isPrefix _ _).trans (withoutLineBreak_isPrefix line)).mem hmem
  · intro h
    obtain ⟨before, blanks, hblanks, heq⟩ := hl.exists_marker h
    obtain ⟨hlf, hcrlf⟩ := isContinued_of_marker before hblanks
    rcases heq with rfl | rfl
    · exact hlf
    · exact hcrlf

end MarkedLine

/-! ## Reading a body -/

/-- What a body holds while its lines are read: whole markers and whole lines. -/
structure OpenDefinition.Whole (d : OpenDefinition) : Prop where
  onlyMarkers : OnlyMarkers d.body
  ends : d.body = [] ∨ d.body.getLast? = some '\n'

namespace OpenDefinition

variable {d : OpenDefinition} {line : Text}

/-- A body that is open behind the definition line. -/
theorem whole_of_firstBodyPart (hl : MarkedLine line) (h : isContinued line = true)
    (hbody : d.body = firstBodyPart line) : d.Whole := by
  have hsuffix := firstBodyPart_suffix line
  rw [← hbody] at hsuffix
  refine ⟨hl.onlyMarkers.of_suffix hsuffix, ?_⟩
  by_cases hnil : d.body = []
  · exact .inl hnil
  · right
    obtain ⟨s, hs⟩ := hsuffix
    rw [← hl.getLast?_eq_lf (hl.isContinued_iff.1 h), ← hs, List.getLast?_append_of_ne_nil s hnil]

/-- A body that ends on the definition line holds no backslash. -/
theorem onlyMarkers_close_of_firstBodyPart (hl : MarkedLine line) (h : ¬ isContinued line = true)
    (hbody : d.body = firstBodyPart line) : OnlyMarkers d.close.body := by
  rw [hl.isContinued_iff] at h
  refine onlyMarkers_of_not_mem fun hmem => h ?_
  have hmem' : '\\' ∈ firstBodyPart line := hbody ▸ (withoutLineBreak_isPrefix d.body).mem hmem
  exact (firstBodyPart_suffix line).mem hmem'

/-- A continued line leaves the body open. -/
theorem Whole.continued (hd : d.Whole) (hl : MarkedLine line) (h : isContinued line = true) :
    Whole { d with body := d.body ++ line } := by
  refine ⟨hd.onlyMarkers.append hl.onlyMarkers, .inr ?_⟩
  show (d.body ++ line).getLast? = some '\n'
  rw [List.getLast?_append, hl.getLast?_eq_lf (hl.isContinued_iff.1 h), Option.some_or]

/-- The last line brings no marker, so the line break that is taken off belongs to none. -/
theorem Whole.onlyMarkers_close (hd : d.Whole) (hl : MarkedLine line) (hne : line ≠ [])
    (h : ¬ isContinued line = true) :
    OnlyMarkers (OpenDefinition.close { d with body := d.body ++ line }).body := by
  show OnlyMarkers (withoutLineBreak (d.body ++ line))
  rw [hl.isContinued_iff] at h
  rw [withoutLineBreak_append hd.ends hne]
  refine hd.onlyMarkers.append (onlyMarkers_of_not_mem fun hmem => h ?_)
  exact (withoutLineBreak_isPrefix line).mem hmem

end OpenDefinition

/-! ## The whole source -/

/-- The markers of all extracted bodies are whole, if those of the lines are. -/
theorem bodyInvariant_onlyMarkers :
    Extraction.BodyInvariant (fun line => MarkedLine line ∧ line ≠ []) OpenDefinition.Whole
      (fun d => OnlyMarkers d.body) where
  opens := by
    rintro n open? line d ⟨hl, -⟩ - hopen hstep
    cases hstep with
    | continued hcont => exact (hopen _ rfl).continued hl hcont
    | opened hname hread hcont =>
      have hrest := hl.of_suffix (hname.suffix_of_readSignature hread)
      exact OpenDefinition.whole_of_firstBodyPart hrest hcont rfl
  closes := by
    rintro n open? line d ⟨hl, hne⟩ hopen hstep
    cases hstep with
    | ended hcont => exact (hopen _ rfl).onlyMarkers_close hl hne hcont
    | defined hname hread hcont =>
      have hrest := hl.of_suffix (hname.suffix_of_readSignature hread)
      exact OpenDefinition.onlyMarkers_close_of_firstBodyPart hrest hcont rfl

/-- The lines of a source have whole markers too. -/
theorem markedLine_of_mem_lines {line t : Text} (ht : OnlyMarkers t) (h : line ∈ lines t) :
    MarkedLine line := by
  refine ⟨?_, (ne_nil_and_oneLine_of_mem_lines h).2⟩
  induction t using separator_induction '\n' with
  | last s hs =>
    rw [(mem_lines_last hs h).1]
    exact ht
  | cut s t hs ih =>
    -- the line ends with its line feed, so the border to the next line is in no marker
    have hsplit : s ++ '\n' :: t = s ++ ['\n'] ++ t := by simp
    rw [hsplit] at ht
    rw [lines_break hs, List.mem_cons] at h
    rcases h with rfl | h
    · refine ht.of_append_left_of_last fun c hc => ?_
      rw [List.getLast?_concat, Option.mem_some_iff] at hc
      rw [← hc]
      decide
    · exact ih ht.of_append_right h

/-- Reading definitions cuts no marker: if every backslash of the source belongs to one, then so
does every backslash of the bodies. -/
theorem Table.parse_onlyMarkers {source : Text} {table : Table} (hsource : OnlyMarkers source)
    (h : Table.parse source = .ok table) : ∀ d ∈ table.definitions, OnlyMarkers d.body := by
  have hlines : ∀ line ∈ lines source, MarkedLine line ∧ line ≠ [] := fun line hline =>
    ⟨markedLine_of_mem_lines hsource hline, (ne_nil_and_oneLine_of_mem_lines hline).1⟩
  have hbodies := bodyInvariant_onlyMarkers.definitions hlines 1 none
    fun o ho => absurd ho (by simp)
  unfold Table.parse Extraction.table at h
  split at h
  · exact absurd h (by simp)
  · intro d hd
    rw [← Except.ok.inj h] at hd
    obtain ⟨l, hl, rfl⟩ := List.mem_map.1 (Table.mem_of_mem_ofList hd)
    exact hbodies l hl

end FlatHeader
