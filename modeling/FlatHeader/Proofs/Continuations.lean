import FlatHeader.Proofs.MarkerPieces
import FlatHeader.Proofs.Rendering

/-!
# One notion of continuation

Extraction looks for a backslash at the end of a line, line breaks and blanks taken off. Joining
lines looks for a line break behind every backslash. Both find the same continuations: a line is
continued exactly if it ends with a marker (`isContinued_iff_endsWithMarker`), so every line feed
that gets into a body ends one (`Extraction.ofLines_wellRead`), and where lines are joined every one
of them is found in a marker (`count_lf_joinLines`).
-/

namespace FlatHeader

open Text Continuation

/-! ## Lines that end with a marker -/

theorem EndsWithMarker.append_left {s : Text} (h : EndsWithMarker s) (a : Text) :
    EndsWithMarker (a ++ s) := by
  obtain ⟨before, blanks, cr, rfl, hblanks, hcr⟩ := h
  exact ⟨a ++ before, blanks, cr, by rw [List.append_assoc], hblanks, hcr⟩

/-- A backslash that is left when the blanks at the end are taken off stands in front of them. -/
theorem exists_blanks_of_dropEndWhile {t : Text}
    (h : (dropEndWhile isBlank t).getLast? = some '\\') :
    ∃ before blanks, t = before ++ '\\' :: blanks ∧ ∀ c ∈ blanks, isBlank c = true := by
  obtain ⟨before, hbefore⟩ := List.getLast?_eq_some_iff.1 h
  have hsplit : t = dropEndWhile isBlank t ++ t.rtakeWhile isBlank :=
    List.rdropWhile_append_rtakeWhile.symm
  rw [hbefore, List.append_assoc] at hsplit
  exact ⟨before, t.rtakeWhile isBlank, hsplit, fun c hc => List.mem_rtakeWhile_imp hc⟩

/-- A line that ends with a line feed is continued exactly if a marker stands in front of that. -/
theorem isContinued_concat_lf_iff (s : Text) :
    isContinued (s ++ ['\n']) = true ↔ EndsWithMarker s := by
  refine ⟨fun h => ?_, EndsWithMarker.isContinued⟩
  have hlast : (dropEndWhile isBlank ((dropEnd? '\r' s).getD s)).getLast? = some '\\' := by
    rw [isContinued, withoutLineBreak, dropEnd?_concat, if_pos rfl, beq_iff_eq] at h
    exact h
  obtain ⟨before, blanks, hsplit, hblanks⟩ := exists_blanks_of_dropEndWhile hlast
  -- a carriage return may have been taken off with the line feed
  rcases List.eq_nil_or_concat' s with rfl | ⟨r, c, rfl⟩
  · exact absurd hsplit (by simp [dropEnd?])
  · rw [dropEnd?_concat] at hsplit
    by_cases hc : c = '\r'
    · rw [if_pos hc, Option.getD_some] at hsplit
      exact ⟨before, blanks, ['\r'], by rw [hsplit, hc]; simp, hblanks, .inr rfl⟩
    · rw [if_neg hc, Option.getD_none] at hsplit
      exact ⟨before, blanks, [], by rw [hsplit, List.append_nil], hblanks, .inl rfl⟩

/-- The line feed at the end of a line has no part in it. -/
theorem isContinued_iff_endsWithMarker {s : Text} (hlf : s.getLast? ≠ some '\n') :
    isContinued s = true ↔ EndsWithMarker s := by
  rw [← isContinued_concat_lf_iff, isContinued, isContinued, withoutLineBreak, withoutLineBreak,
    dropEnd?_concat, if_pos rfl, dropEnd?_getD_of_ne hlf, Option.getD_some]

/-- Only the end of a line decides whether the line is continued. -/
theorem isContinued_of_suffix {s line : Text} (hs : s <:+ line) (h : isContinued s = true) :
    isContinued line = true := by
  obtain ⟨a, rfl⟩ := hs
  rcases List.eq_nil_or_concat' s with rfl | ⟨r, c, rfl⟩
  · exact absurd h (by decide)
  · by_cases hc : c = '\n'
    · rw [hc, isContinued_concat_lf_iff] at h
      rw [hc, ← List.append_assoc, isContinued_concat_lf_iff]
      exact h.append_left a
    · have hlf : (r ++ [c]).getLast? ≠ some '\n' := by
        rw [List.getLast?_concat]
        exact fun h => hc (Option.some.inj h)
      rw [isContinued_iff_endsWithMarker hlf] at h
      rw [isContinued_iff_endsWithMarker]
      · exact h.append_left a
      · rwa [List.getLast?_append_of_ne_nil a (by simp)]

/-! ## Texts whose line feeds end markers -/

/-- More lines may follow. -/
theorem OnlyContinued.append {a b : Text} (ha : OnlyContinued a) (hb : OnlyContinued b) :
    OnlyContinued (a ++ b) := by
  intro before after heq
  rcases List.append_eq_append_iff.1 heq with ⟨front, rfl, hfront⟩ | ⟨front, rfl, hafter⟩
  · exact (hb front after hfront).append_left a
  · cases front with
    | nil =>
      have hmark := (hb [] after hafter.symm).append_left before
      rwa [List.append_nil] at hmark
    | cons c front =>
      obtain ⟨rfl, -⟩ := List.cons.inj hafter
      exact ha before front rfl

/-! ## What a definition line declares -/

/-- A name and parameters that a definition line can declare. -/
structure IsSignature (name : Text) (parameters : Option (List Text)) : Prop where
  name : isIdentifier name = true
  parameters : ∀ l ∈ parameters, (∀ p ∈ l, isIdentifier p = true) ∧ l.Nodup

/-! ## Reading a body -/

/-- A definition as it is while its body is read, with whole lines that end with markers. -/
structure OpenDefinition.WellRead (d : OpenDefinition) : Prop where
  signature : IsSignature d.name d.parameters
  continued : OnlyContinued d.body
  ends : d.body = [] ∨ d.body.getLast? = some '\n'

/-- A definition as it is when it has been read. The last line of its body is not continued. -/
structure Definition.WellRead (d : Definition) : Prop where
  signature : IsSignature d.name d.parameters
  continued : OnlyContinued d.body
  ended : (dropEndWhile isBlank (lastLine d.body)).getLast? ≠ some '\\'

theorem lf_not_mem_withoutLineBreak {line : Text} (h : OneLine line) :
    '\n' ∉ withoutLineBreak line := by
  rcases h.cases with hlf | ⟨s, hs, rfl⟩
  · exact fun hmem => hlf ((withoutLineBreak_isPrefix line).mem hmem)
  · rw [withoutLineBreak, dropEnd?_concat, if_pos rfl, Option.getD_some]
    exact fun hmem => hs ((dropEnd?_getD_isPrefix '\r' s).mem hmem)

/-- Blanks are skipped in front of a marker only. -/
theorem EndsWithMarker.skipBlanks {s : Text} (h : EndsWithMarker s) (t : Text) :
    EndsWithMarker (skipBlanks s) ∧ Text.skipBlanks (s ++ t) = Text.skipBlanks s ++ t := by
  obtain ⟨before, blanks, cr, rfl, hblanks, hcr⟩ := h
  have hskip : ∀ a u : Text,
      Text.skipBlanks (a ++ '\\' :: u) = Text.skipBlanks a ++ '\\' :: u := by
    intro a u
    unfold Text.skipBlanks
    rw [List.dropWhile_append]
    split
    · next hnil =>
      rw [List.isEmpty_iff.1 hnil]
      rfl
    · rfl
  rw [List.append_assoc, List.cons_append, hskip, hskip]
  exact ⟨⟨_, blanks, cr, rfl, hblanks, hcr⟩, by simp⟩

namespace OpenDefinition

variable {d : OpenDefinition} {line : Text}

/-- A continued line leaves the body open. -/
theorem WellRead.continued_line {s : Text} (hd : d.WellRead) (hs : '\n' ∉ s)
    (hmark : EndsWithMarker s) : WellRead { d with body := d.body ++ (s ++ ['\n']) } := by
  have hline : OnlyContinued (s ++ ['\n']) :=
    (onlyContinued_cut_iff hs []).2 ⟨hmark, onlyContinued_of_not_mem List.not_mem_nil⟩
  refine ⟨hd.signature, hd.continued.append hline, .inr ?_⟩
  rw [← List.append_assoc, List.getLast?_concat]

/-- A line that is not continued ends the body. -/
theorem WellRead.close (hd : d.WellRead) (hline : OneLine line) (hne : d.body = [] ∨ line ≠ [])
    (h : ¬ isContinued line = true) :
    (OpenDefinition.close { d with body := d.body ++ line }).WellRead := by
  have hbody : withoutLineBreak (d.body ++ line) = d.body ++ withoutLineBreak line := by
    rcases hne with hnil | hne
    · rw [hnil, List.nil_append, List.nil_append]
    · exact withoutLineBreak_append hd.ends hne
  have hlf := lf_not_mem_withoutLineBreak hline
  have hlast : lastLine (d.body ++ withoutLineBreak line) = withoutLineBreak line := by
    rcases hd.ends with hnil | hends
    · rw [hnil, List.nil_append, lastLine_of_not_mem hlf]
    · obtain ⟨s, hs⟩ := List.getLast?_eq_some_iff.1 hends
      rw [hs, List.append_assoc, List.singleton_append, lastLine_cut, lastLine_of_not_mem hlf]
  refine ⟨hd.signature, ?_, ?_⟩
  · show OnlyContinued (withoutLineBreak (d.body ++ line))
    rw [hbody]
    exact hd.continued.append (onlyContinued_of_not_mem hlf)
  · show (dropEndWhile isBlank (lastLine (withoutLineBreak (d.body ++ line)))).getLast? ≠ some '\\'
    rw [hbody, hlast]
    simpa [isContinued] using h

/-- What a continued definition line holds of the body leaves the body open. -/
theorem wellRead_of_firstBodyPart {s : Text} (hsignature : IsSignature d.name d.parameters)
    (hs : '\n' ∉ s) (hmark : EndsWithMarker s) (hbody : d.body = firstBodyPart (s ++ ['\n'])) :
    d.WellRead := by
  have hempty : WellRead { d with body := [] } :=
    ⟨hsignature, onlyContinued_of_not_mem List.not_mem_nil, .inl rfl⟩
  unfold firstBodyPart at hbody
  split at hbody
  · rw [← hbody] at hempty
    exact hempty
  · obtain ⟨hskip, heq⟩ := hmark.skipBlanks ['\n']
    have hlf : '\n' ∉ skipBlanks s := fun hmem => hs ((skipBlanks_suffix s).mem hmem)
    have hline := hempty.continued_line hlf hskip
    rw [List.nil_append, ← heq, ← hbody] at hline
    exact hline

end OpenDefinition

/-! ## The whole source -/

/-- Whole lines that are continued leave a body open as `OpenDefinition.WellRead` says. -/
theorem bodyInvariant_wellRead :
    Extraction.BodyInvariant (fun line => line ≠ [] ∧ OneLine line) OpenDefinition.WellRead
      Definition.WellRead where
  opens := by
    rintro n open? line d ⟨-, hline⟩ hlf hopen hstep
    cases hstep with
    | continued hcont =>
      obtain ⟨s, hs, rfl⟩ := hline.cases.resolve_left fun h => h (List.mem_of_getLast? hlf)
      exact (hopen _ rfl).continued_line hs ((isContinued_concat_lf_iff s).1 hcont)
    | @opened line name t r parameters hname hread hcont =>
      have hsuffix := hname.suffix_of_readSignature hread
      -- what is left of the line ends with it
      have hr : r.getLast? = some '\n' := by
        obtain ⟨p, rfl⟩ := hsuffix
        have hnil : r ≠ [] := by
          rintro rfl
          exact absurd hcont (by decide)
        rwa [List.getLast?_append_of_ne_nil p hnil] at hlf
      obtain ⟨s, hs, rfl⟩ := (hline.of_suffix hsuffix).cases.resolve_left
        fun h => h (List.mem_of_getLast? hr)
      exact OpenDefinition.wellRead_of_firstBodyPart
        ⟨hname.isIdentifier, parameters_of_readSignature hread⟩ hs
        ((isContinued_concat_lf_iff s).1 hcont) rfl
  closes := by
    rintro n open? line d ⟨hne, hline⟩ hopen hstep
    cases hstep with
    | ended hcont => exact (hopen _ rfl).close hline (.inr hne) hcont
    | @defined line name t r parameters hname hread hcont =>
      have hempty : OpenDefinition.WellRead ⟨n, name, parameters, []⟩ :=
        ⟨⟨hname.isIdentifier, parameters_of_readSignature hread⟩,
          onlyContinued_of_not_mem List.not_mem_nil, .inl rfl⟩
      have hpart := firstBodyPart_suffix r
      have hone := hline.of_suffix (hpart.trans (hname.suffix_of_readSignature hread))
      exact hempty.close hone (.inl rfl) fun h => hcont (isContinued_of_suffix hpart h)

/-- Whatever lines a source has, its definitions are read as `Definition.WellRead` says. -/
theorem Extraction.ofLines_wellRead (t : Text) (n : ℕ) (open? : Option OpenDefinition)
    (hopen : ∀ o ∈ open?, o.WellRead) :
    ∀ d ∈ (ofLines n open? (lines t)).definitions, d.definition.WellRead :=
  bodyInvariant_wellRead.definitions (fun _ hline => ne_nil_and_oneLine_of_mem_lines hline) n open?
    hopen

/-! ## Joining lines -/

/-- A line that ends with a marker is cut in front of it. -/
theorem EndsWithMarker.exists_marker {s : Text} (h : EndsWithMarker s) :
    ∃ before m, before <+: s ∧ IsMarker m ∧ s ++ ['\n'] = before ++ m := by
  obtain ⟨before, blanks, cr, rfl, hblanks, hcr⟩ := h
  exact ⟨before, _, List.prefix_append before _, ⟨blanks, cr, rfl, hblanks, hcr⟩, by simp⟩

/-- Where all line feeds end markers, joining lines finds every one of them: each goes with its
marker, or one stays in the place of each. -/
theorem count_lf_joinLines {t : Text} (h : OnlyContinued t) :
    (joinLines .join t).count '\n' = 0 ∧
      (joinLines .keepLineBreak t).count '\n' = t.count '\n' := by
  induction t using separator_induction '\n' with
  | last s hs =>
    have hfree := markerFree_of_not_mem hs
    rw [joinLines_eq_self hfree, joinLines_eq_self hfree]
    exact ⟨List.count_eq_zero_of_not_mem hs, rfl⟩
  | cut s t hs ih =>
    obtain ⟨hmark, ht⟩ := (onlyContinued_cut_iff hs t).1 h
    obtain ⟨hjoin, hkeep⟩ := ih ht
    obtain ⟨before, m, hbefore, hm, hsplit⟩ := hmark.exists_marker
    have hlf : '\n' ∉ before := fun hmem => hs (hbefore.mem hmem)
    have hcut : s ++ '\n' :: t = before ++ (m ++ t) := by
      rw [← List.append_assoc, ← hsplit, List.append_assoc, List.singleton_append]
    have hcount : ∀ mode, (joinLines mode (s ++ '\n' :: t)).count '\n' =
        (render mode (.marker m)).count '\n' + (joinLines mode t).count '\n' := fun mode => by
      rw [hcut, joinLines_cut (markerFree_of_not_mem hlf) hm, List.count_append, List.count_append,
        List.count_eq_zero_of_not_mem hlf, Nat.zero_add]
    rw [hcount, hcount, hjoin, hkeep, List.count_append, List.count_eq_zero_of_not_mem hs,
      List.count_cons_self]
    exact ⟨rfl, by rw [Nat.zero_add, Nat.add_comm]; rfl⟩

/-- The stages behind the joining of lines keep line feeds. -/
theorem count_lf_cleanUp (mode : ContinuationMode) (t : Text) :
    (cleanUp mode t).count '\n' = (joinLines mode t).count '\n' := by
  unfold cleanUp
  rw [List.count_eq_length_filter, List.count_eq_length_filter,
    filter_resolveStringMarks (by decide) (by decide), filter_removePasteMarks (by decide)]

/-! ## The bodies of a table -/

/-- Extraction and joining agree on what a continuation is. In the table of any source, every
definition has an identifier as its name and, if it has parameters, different identifiers as these.
Every line feed of its body ends a continuation marker, and what stands behind the last one is not
continued. So joining the lines of the body leaves no line feed, and where line feeds are kept for
the markers, there are as many of them as the body has. -/
theorem Table.parse_continued {source : Text} {table : Table}
    (h : Table.parse source = .ok table) :
    ∀ d ∈ table.definitions,
      isIdentifier d.name = true ∧
      (∀ l ∈ d.parameters, (∀ p ∈ l, isIdentifier p = true) ∧ l.Nodup) ∧
      (∀ before after, d.body = before ++ '\n' :: after → EndsWithMarker before) ∧
      (dropEndWhile isBlank (lastLine d.body)).getLast? ≠ some '\\' ∧
      '\n' ∉ cleanUp .join d.body ∧
      (cleanUp .keepLineBreak d.body).count '\n' = d.body.count '\n' := by
  have hread := Extraction.ofLines_wellRead source 1 none fun o ho => absurd ho (by simp)
  unfold Table.parse Extraction.table at h
  split at h
  · exact absurd h (by simp)
  · intro d hd
    rw [← Except.ok.inj h] at hd
    obtain ⟨l, hl, rfl⟩ := List.mem_map.1 (Table.mem_of_mem_ofList hd)
    obtain ⟨⟨hname, hparameters⟩, hcontinued, hended⟩ := hread l hl
    obtain ⟨hjoin, hkeep⟩ := count_lf_joinLines hcontinued
    refine ⟨hname, hparameters, hcontinued, hended, ?_, ?_⟩
    · rw [← List.count_eq_zero, count_lf_cleanUp, hjoin]
    · rw [count_lf_cleanUp, hkeep]

/-- A body whose first line ends with two backslashes, blanks and both characters of a line break,
whose second line is nothing but a marker, and whose last line ends the source with a carriage
return. The first backslash belongs to no marker. -/
theorem Table.parse_continued_mixed_breaks :
    ∃ table d, Table.parse "#define F(x, y) x\\\\ \t\r\n\\\nz\r".toList = .ok table ∧
      d ∈ table.definitions ∧ d.body = "x\\\\ \t\r\n\\\nz".toList ∧
      EndsWithMarker "x\\\\ \t\r".toList ∧
      cleanUp .join d.body = "x\\z".toList ∧ '\n' ∉ cleanUp .join d.body ∧
      (cleanUp .keepLineBreak d.body).count '\n' = d.body.count '\n' := by
  have hparse : Table.parse "#define F(x, y) x\\\\ \t\r\n\\\nz\r".toList =
      .ok (.ofList [⟨['F'], some [['x'], ['y']], "x\\\\ \t\r\n\\\nz".toList⟩]) := by rfl
  have hmem : Definition.mk ['F'] (some [['x'], ['y']]) "x\\\\ \t\r\n\\\nz".toList ∈
      (Table.ofList [⟨['F'], some [['x'], ['y']], "x\\\\ \t\r\n\\\nz".toList⟩]).definitions :=
    List.mem_singleton_self _
  obtain ⟨-, -, hmark, -, hjoin, hkeep⟩ := Table.parse_continued hparse _ hmem
  exact ⟨_, _, hparse, hmem, rfl, hmark _ "\\\nz".toList rfl, rfl, hjoin, hkeep⟩

end FlatHeader
