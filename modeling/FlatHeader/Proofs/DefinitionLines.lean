import FlatHeader.Proofs.Bodies
import FlatHeader.Proofs.Words

/-!
# Reading a definition line by line

Whatever the lines of a body look like, `ofLines_body` attributes them to the open definition up to
the one line without a marker. The part of the definition line behind the signature belongs to the
body too, unless the line holds nothing there but a continuation marker. Whether it does is decided
by the first character that is no white space: if that is a backslash, the line is taken to hold a
marker only, and what is left of it is lost (`Table.parse_definitionLine`).
-/

namespace FlatHeader

open Text Continuation

/-! ## Bodies -/

/-- A line, its line feed taken off, that ends with a continuation marker: a backslash, then blanks,
then maybe a carriage return. -/
def EndsWithMarker (line : Text) : Prop :=
  ∃ before blanks cr, line = before ++ '\\' :: (blanks ++ cr) ∧
    (∀ c ∈ blanks, isBlank c = true) ∧ (cr = [] ∨ cr = ['\r'])

/-- What stands behind the last line feed of a text. -/
def lastLine (t : Text) : Text := t.rtakeWhile (· != '\n')

/-- A body whose lines are continued except for the last one. A carriage return at its end would
be lost with the line break that is written behind it. -/
structure IsBody (body : Text) : Prop where
  marked : ∀ before after, body = before ++ '\n' :: after → EndsWithMarker before
  no_cr : body.getLast? ≠ some '\r'
  unmarked : (dropEndWhile isBlank (lastLine body)).getLast? ≠ some '\\'

theorem lastLine_of_not_mem {s : Text} (h : '\n' ∉ s) : lastLine s = s := by
  unfold lastLine
  rw [List.rtakeWhile_eq_self_iff]
  intro c hc
  exact bne_iff_ne.2 fun heq => h (heq ▸ hc)

/-- A marker does not reach back over a line feed. -/
theorem endsWithMarker_cut_iff (s t : Text) :
    EndsWithMarker (s ++ '\n' :: t) ↔ EndsWithMarker t := by
  constructor
  · rintro ⟨before, blanks, cr, heq, hblanks, hcr⟩
    rcases List.append_eq_append_iff.1 heq with ⟨front, -, ht⟩ | ⟨front, -, hmark⟩
    · cases front with
      | nil => exact absurd (List.cons.inj ht).1 (by decide)
      | cons c front => exact ⟨front, blanks, cr, (List.cons.inj ht).2, hblanks, hcr⟩
    · -- the line feed would stand in the marker
      have hmem : '\n' ∈ '\\' :: (blanks ++ cr) := by
        rw [hmark]
        exact List.mem_append_right front List.mem_cons_self
      rcases List.mem_append.1 (List.mem_of_ne_of_mem (by decide) hmem) with hmem | hmem
      · exact absurd (hblanks _ hmem) (by decide)
      · rcases hcr with rfl | rfl
        · exact absurd hmem List.not_mem_nil
        · exact absurd hmem (by decide)
  · rintro ⟨before, blanks, cr, rfl, hblanks, hcr⟩
    exact ⟨s ++ '\n' :: before, blanks, cr, by simp, hblanks, hcr⟩

/-- Every line feed of a text ends a continuation marker. -/
def OnlyContinued (t : Text) : Prop :=
  ∀ before after, t = before ++ '\n' :: after → EndsWithMarker before

theorem onlyContinued_of_not_mem {t : Text} (h : '\n' ∉ t) : OnlyContinued t := by
  intro before after ht
  rw [ht] at h
  exact absurd (List.mem_append_right before List.mem_cons_self) h

/-- The line feeds of a text are that of its first line and those behind it. -/
theorem onlyContinued_cut_iff {s : Text} (hs : '\n' ∉ s) (t : Text) :
    OnlyContinued (s ++ '\n' :: t) ↔ EndsWithMarker s ∧ OnlyContinued t := by
  constructor
  · intro h
    refine ⟨h s t rfl, fun before after ht => ?_⟩
    rw [← endsWithMarker_cut_iff s before]
    exact h (s ++ '\n' :: before) after (by rw [ht, List.append_assoc, List.cons_append])
  · rintro ⟨hmark, ht⟩ before after heq
    rcases append_cons_cases hs heq with ⟨rfl, -⟩ | ⟨front, rfl, hfront⟩
    · exact hmark
    · rw [endsWithMarker_cut_iff]
      exact ht front after hfront

theorem lastLine_cut (s t : Text) : lastLine (s ++ '\n' :: t) = lastLine t := by
  unfold lastLine
  induction t using List.reverseRecOn with
  | nil => rw [List.rtakeWhile_concat_neg _ s _ (by decide), List.rtakeWhile_nil]
  | append_singleton t c ih =>
    rw [← List.cons_append, ← List.append_assoc]
    by_cases hc : (c != '\n') = true
    · rw [List.rtakeWhile_concat_pos _ _ c hc, List.rtakeWhile_concat_pos _ t c hc, ih]
    · rw [List.rtakeWhile_concat_neg _ _ c hc, List.rtakeWhile_concat_neg _ t c hc]

/-- A body of one line. -/
theorem isBody_last_iff {s : Text} (hs : '\n' ∉ s) :
    IsBody s ↔ s.getLast? ≠ some '\r' ∧ (dropEndWhile isBlank s).getLast? ≠ some '\\' := by
  have hlast := lastLine_of_not_mem hs
  constructor
  · intro h
    exact ⟨h.no_cr, hlast ▸ h.unmarked⟩
  · rintro ⟨hcr, hmark⟩
    exact ⟨onlyContinued_of_not_mem hs, hcr, hlast.symm ▸ hmark⟩

/-- The first line of a body is continued by the lines of a body. -/
theorem isBody_cut_iff {s : Text} (hs : '\n' ∉ s) (t : Text) :
    IsBody (s ++ '\n' :: t) ↔ EndsWithMarker s ∧ IsBody t := by
  have hcr : (s ++ '\n' :: t).getLast? ≠ some '\r' ↔ t.getLast? ≠ some '\r' := by
    rw [List.getLast?_append_of_ne_nil s (List.cons_ne_nil _ t)]
    cases t with
    | nil => decide
    | cons c t => rw [List.getLast?_cons_cons]
  constructor
  · intro h
    obtain ⟨hmark, ht⟩ := (onlyContinued_cut_iff hs t).1 h.marked
    exact ⟨hmark, ht, hcr.1 h.no_cr, lastLine_cut s t ▸ h.unmarked⟩
  · rintro ⟨hmark, ht⟩
    exact ⟨(onlyContinued_cut_iff hs t).2 ⟨hmark, ht.marked⟩, hcr.2 ht.no_cr,
      (lastLine_cut s t).symm ▸ ht.unmarked⟩

/-- A line that ends with a marker is continued. -/
theorem EndsWithMarker.isContinued {s : Text} (h : EndsWithMarker s) :
    isContinued (s ++ ['\n']) = true := by
  obtain ⟨before, blanks, cr, rfl, hblanks, rfl | rfl⟩ := h
  · have heq : before ++ '\\' :: (blanks ++ []) ++ ['\n'] = before ++ '\\' :: blanks ++ ['\n'] := by
      simp
    rw [heq]
    exact (isContinued_of_marker before hblanks).1
  · have heq : before ++ '\\' :: (blanks ++ ['\r']) ++ ['\n'] =
        before ++ '\\' :: blanks ++ ['\r', '\n'] := by
      simp
    rw [heq]
    exact (isContinued_of_marker before hblanks).2

/-- The lines of a body belong to the definition that is open, and the last of them closes it. -/
theorem Extraction.ofLines_body (n : ℕ) (d : OpenDefinition) {body : Text} (hbody : IsBody body)
    (hd : d.body = [] ∨ d.body.getLast? = some '\n') (rest : Text) :
    ofLines n (some d) (lines (body ++ '\n' :: rest)) =
      cons ⟨d.line, ⟨d.name, d.parameters, d.body ++ body⟩⟩
        (ofLines (n + body.count '\n' + 1) none (lines rest)) := by
  induction body using separator_induction '\n' generalizing n d with
  | last s hs =>
    obtain ⟨hcr, hmark⟩ := (isBody_last_iff hs).1 hbody
    have hstop : isContinued (s ++ ['\n']) = false := by
      unfold isContinued
      rw [withoutLineBreak_lf hcr]
      simpa using hmark
    have hclose : withoutLineBreak (d.body ++ (s ++ ['\n'])) = d.body ++ s := by
      rw [withoutLineBreak_append hd (by simp), withoutLineBreak_lf hcr]
    rw [lines_break hs, ofLines, hstop, List.count_eq_zero_of_not_mem hs]
    simp only [OpenDefinition.close, hclose]
    rfl
  | cut s t hs ih =>
    obtain ⟨hmark, ht⟩ := (isBody_cut_iff hs t).1 hbody
    have hopen := ih (n + 1) { d with body := d.body ++ (s ++ ['\n']) } ht (.inr (by simp))
    have hcount : n + (s ++ '\n' :: t).count '\n' + 1 = n + 1 + t.count '\n' + 1 := by
      rw [List.count_append, List.count_eq_zero_of_not_mem hs, List.count_cons_self]
      omega
    rw [List.append_assoc, List.cons_append, lines_break hs, ofLines, hmark.isContinued, if_pos rfl,
      hopen, hcount]
    simp

/-! ## Signatures -/

/-- What stands between the parentheses of a parameter list declares its pieces between commas,
white space aside, or no parameter if there is only white space. -/
def Declares (list : Text) (l : List Text) : Prop :=
  (trim list = [] ∧ l = []) ∨ (splitOn ',' list).map trim = l

/-- A parameter list that is closed on its line is read as the parameters it declares. -/
theorem readParameters_of_declares {list : Text} {l : List Text}
    (hlist : ∀ c ∈ list, c ≠ ')' ∧ c ≠ '\n') (hdeclares : Declares list l)
    (hl : ∀ p ∈ l, isIdentifier p = true) (hnodup : l.Nodup) (rest : Text) :
    readParameters (list ++ ')' :: rest) = .ok (l, rest) := by
  have hpieces : declaredPieces list = l := by
    unfold declaredPieces
    rcases hdeclares with ⟨hblank, rfl⟩ | hpieces
    · -- nothing at all is one piece too
      have hcomma : ',' ∉ list := fun hmem => by
        have hspace := (trim_eq_nil_iff list).1 hblank ',' hmem
        exact absurd hspace (by decide)
      rw [splitOn_last hcomma, List.map_singleton, hblank]
      rfl
    · have hne : l ≠ [[]] := by
        rintro rfl
        exact absurd (hl [] List.mem_cons_self) (by decide)
      rw [hpieces]
      exact if_neg hne
  rw [readParameters_append (fun h => (hlist _ h).1 rfl) (fun h => (hlist _ h).2 rfl), hpieces,
    checkParameters_self hl hnodup]
  rfl

/-- What may stand between a name and the body: blanks, or a parameter list and maybe blanks. -/
inductive SignatureText : Option (List Text) → Text → Prop
  | objectLike {c : Char} {blanks : Text} (hc : isBlank c = true)
      (hblanks : ∀ c ∈ blanks, isBlank c = true) : SignatureText none (c :: blanks)
  | functionLike {list blanks : Text} {l : List Text} (hlist : ∀ c ∈ list, c ≠ ')' ∧ c ≠ '\n')
      (hdeclares : Declares list l) (hl : ∀ p ∈ l, isIdentifier p = true) (hnodup : l.Nodup)
      (hblanks : ∀ c ∈ blanks, isBlank c = true) :
      SignatureText (some l) ('(' :: (list ++ ')' :: blanks))

namespace SignatureText

variable {parameters : Option (List Text)} {signature : Text}

/-- A signature is read up to the blanks at its end. -/
theorem readSignature_append (h : SignatureText parameters signature) (rest : Text) :
    ∃ blanks, (∀ c ∈ blanks, isBlank c = true) ∧
      readSignature (signature ++ rest) = .ok (parameters, blanks ++ rest) := by
  cases h with
  | @objectLike c blanks hc hblanks =>
    refine ⟨c :: blanks, List.forall_mem_cons.2 ⟨hc, hblanks⟩, ?_⟩
    have hopen : c ≠ '(' := by
      rintro rfl
      exact absurd hc (by decide)
    unfold readSignature
    split
    · next t heq => exact absurd (List.cons.inj heq).1 hopen
    · rfl
  | @functionLike list blanks l hlist hdeclares hl hnodup hblanks =>
    refine ⟨blanks, hblanks, ?_⟩
    rw [List.cons_append, List.append_assoc, List.cons_append, readSignature,
      readParameters_of_declares hlist hdeclares hl hnodup]
    rfl

theorem startsOutside (h : SignatureText parameters signature) (rest : Text) :
    StartsOutside (signature ++ rest) := by
  cases h with
  | objectLike hc _ =>
    exact startsOutside_cons (isWordChar_eq_false_of_isBreakChar (by rw [isBreakChar, hc]; rfl)) _
  | functionLike => exact startsOutside_cons (by decide) _

theorem lf_not_mem (h : SignatureText parameters signature) : '\n' ∉ signature := by
  have hblank : ∀ blanks : Text, (∀ c ∈ blanks, isBlank c = true) → '\n' ∉ blanks :=
    fun blanks hblanks hmem => absurd (hblanks _ hmem) (by decide)
  cases h with
  | objectLike hc hblanks => exact hblank _ (List.forall_mem_cons.2 ⟨hc, hblanks⟩)
  | functionLike hlist _ _ _ hblanks =>
    rw [List.mem_cons, List.mem_append, List.mem_cons, not_or, not_or, not_or]
    exact ⟨by decide, fun hmem => (hlist _ hmem).2 rfl, by decide, hblank _ hblanks⟩

end SignatureText

/-! ## The definition line -/

/-- The first character that is no white space, in a line that a marker ends, is one of the text in
front of the marker or the backslash of the marker. -/
theorem head?_trimStart_marker {blanks : Text} (hblanks : ∀ c ∈ blanks, isBlank c = true)
    (r : Text) :
    (trimStart (blanks ++ (r ++ ['\\', '\n']))).head? = (trimStart r).head?.or (some '\\') := by
  have hspace : ∀ c ∈ blanks, Unicode.isWhiteSpace c = true := by
    intro c hc
    have hblank := hblanks c hc
    rw [isBlank, Bool.or_eq_true, beq_iff_eq, beq_iff_eq] at hblank
    rcases hblank with rfl | rfl
    · decide
    · decide
  unfold trimStart
  rw [List.dropWhile_append_of_pos hspace, List.dropWhile_append]
  cases hdrop : r.dropWhile Unicode.isWhiteSpace with
  | nil => rfl
  | cons c t => rfl

theorem isContinued_marker (s : Text) : isContinued (s ++ ['\\', '\n']) = true := by
  have hsplit : s ++ ['\\', '\n'] = s ++ ['\\'] ++ ['\n'] := by rw [List.append_assoc]; rfl
  rw [hsplit]
  exact EndsWithMarker.isContinued ⟨s, [], [], rfl, List.forall_mem_nil _, .inl rfl⟩

/-- What a definition line gives to the body, if `r` and a continuation marker stand behind the
signature: both, or nothing if the first character that is no white space is a backslash. -/
def markedPart (r : Text) : Text :=
  if (trimStart r).head?.or (some '\\') = some '\\' then [] else r ++ ['\\', '\n']

theorem markedPart_ends (r : Text) : markedPart r = [] ∨ (markedPart r).getLast? = some '\n' := by
  unfold markedPart
  split
  · exact .inl rfl
  · exact .inr (by simp)

theorem firstBodyPart_marker {blanks : Text} (hblanks : ∀ c ∈ blanks, isBlank c = true) {r : Text}
    (hr : ∀ c ∈ r.head?, isBlank c = false) :
    firstBodyPart (blanks ++ (r ++ ['\\', '\n'])) = markedPart r := by
  have hcontinued : isContinued (blanks ++ (r ++ ['\\', '\n'])) = true := by
    rw [← List.append_assoc]
    exact isContinued_marker (blanks ++ r)
  have hhead : ∀ c ∈ (r ++ ['\\', '\n']).head?, isBlank c = false := by
    cases r with
    | nil => exact fun c hc => Option.mem_some_iff.1 hc ▸ rfl
    | cons c r => exact hr
  unfold firstBodyPart
  rw [hcontinued, head?_trimStart_marker hblanks, Bool.true_and,
    skipBlanks_append_of_blanks hblanks hhead]
  simp only [beq_iff_eq]
  rfl

/-- A definition line up to its line feed: a name, its signature, and a part of the body that a
marker ends. -/
def definitionLine (name signature r : Text) : Text :=
  "#define ".toList ++ (name ++ (signature ++ (r ++ ['\\'])))

/-- A definition line and the lines of a body are extracted as one definition, and extraction goes
on behind them. -/
theorem Extraction.ofLines_definitionLine (n : ℕ) {name signature r body : Text}
    {parameters : Option (List Text)} (hname : isIdentifier name = true)
    (hsignature : SignatureText parameters signature) (hr : '\n' ∉ r)
    (hstart : ∀ c ∈ r.head?, isBlank c = false) (hbody : IsBody body) (rest : Text) :
    ofLines n none (lines (definitionLine name signature r ++ '\n' :: (body ++ '\n' :: rest))) =
      cons ⟨n, ⟨name, parameters, markedPart r ++ body⟩⟩
        (ofLines (n + body.count '\n' + 2) none (lines rest)) := by
  obtain ⟨blanks, hblanks, hread⟩ := hsignature.readSignature_append (r ++ ['\\', '\n'])
  have hlf : '\n' ∉ definitionLine name signature r := by
    have hword := (isWord_of_isIdentifier hname).not_mem (c := '\n') (by decide)
    unfold definitionLine
    simp only [List.mem_append, not_or]
    exact ⟨by decide, hword, hsignature.lf_not_mem, hr, by decide⟩
  have hline : definitionLine name signature r ++ ['\n'] =
      "#define ".toList ++ (name ++ (signature ++ (r ++ ['\\', '\n']))) := by
    unfold definitionLine
    simp only [List.append_assoc, List.singleton_append]
  have hdefined : DefinesName (definitionLine name signature r ++ ['\n']) name
      (signature ++ (r ++ ['\\', '\n'])) := by
    rw [hline]
    exact @DefinesName.directive [] [] [' '] name _ (List.forall_mem_nil _) (List.forall_mem_nil _)
      (List.forall_mem_singleton.2 rfl) (List.cons_ne_nil ' ' []) hname
      (hsignature.startsOutside _)
  have hcontinued : isContinued (blanks ++ (r ++ ['\\', '\n'])) = true := by
    rw [← List.append_assoc]
    exact isContinued_marker (blanks ++ r)
  rw [lines_break hlf, (LineStep.opened hdefined hread hcontinued).ofLines_cons,
    firstBodyPart_marker hblanks hstart]
  show ofLines (n + 1) (some ⟨n, name, parameters, markedPart r⟩) _ = _
  rw [ofLines_body (n + 1) _ hbody (markedPart_ends r)]
  congr 2
  omega

/-! ## Definitions of two lines -/

/-- A definition line and the last line of a body. -/
def twoLines (name signature r l : Text) : Text :=
  definitionLine name signature r ++ '\n' :: (l ++ ['\n'])

theorem Table.parse_twoLines {name signature r l : Text} {parameters : Option (List Text)}
    (hname : isIdentifier name = true) (hsignature : SignatureText parameters signature)
    (hr : '\n' ∉ r) (hstart : ∀ c ∈ r.head?, isBlank c = false) (hl : '\n' ∉ l)
    (hcr : l.getLast? ≠ some '\r') (hmark : (dropEndWhile isBlank l).getLast? ≠ some '\\') :
    Table.parse (twoLines name signature r l) =
      .ok (.ofList [⟨name, parameters, markedPart r ++ l⟩]) := by
  unfold Table.parse Extraction.table Extraction.ofSource twoLines
  rw [Extraction.ofLines_definitionLine 1 hname hsignature hr hstart
    ((isBody_last_iff hl).2 ⟨hcr, hmark⟩) []]
  rfl

/-- On a continued definition line, the text behind the signature is the first part of the body
exactly if it has a character that is no white space and the first one is not a backslash. Otherwise
nothing of it is in the body. -/
theorem Table.parse_definitionLine {name signature r l : Text} {parameters : Option (List Text)}
    (hname : isIdentifier name = true) (hsignature : SignatureText parameters signature)
    (hr : '\n' ∉ r) (hstart : ∀ c ∈ r.head?, isBlank c = false) (hl : '\n' ∉ l)
    (hcr : l.getLast? ≠ some '\r') (hmark : (dropEndWhile isBlank l).getLast? ≠ some '\\') :
    (Table.parse (twoLines name signature r l) =
        .ok (.ofList [⟨name, parameters, r ++ '\\' :: '\n' :: l⟩]) ↔
      ∃ c ∈ (trimStart r).head?, c ≠ '\\') ∧
    ((∀ c ∈ (trimStart r).head?, c = '\\') →
      Table.parse (twoLines name signature r l) = .ok (.ofList [⟨name, parameters, l⟩])) := by
  have hparse := Table.parse_twoLines hname hsignature hr hstart hl hcr hmark
  unfold markedPart at hparse
  have hdropped : Table.parse (twoLines name signature r l) =
        .ok (.ofList [⟨name, parameters, l⟩]) →
      Table.parse (twoLines name signature r l) ≠
        .ok (.ofList [⟨name, parameters, r ++ '\\' :: '\n' :: l⟩]) := by
    intro hshort hlong
    have htables := congrArg Table.definitions (Except.ok.inj (hshort.symm.trans hlong))
    have hbodies : l = r ++ '\\' :: '\n' :: l :=
      congrArg Definition.body (List.singleton_inj.1 htables)
    have hlen := congrArg List.length hbodies
    simp only [List.length_append, List.length_cons] at hlen
    omega
  cases hhead : (trimStart r).head? with
  | none =>
    rw [hhead, Option.none_or, if_pos rfl, List.nil_append] at hparse
    exact ⟨iff_of_false (hdropped hparse) (by simp), fun _ => hparse⟩
  | some c =>
    simp only [hhead, Option.some_or, Option.some.injEq] at hparse
    by_cases hc : c = '\\'
    · rw [if_pos hc, List.nil_append] at hparse
      exact ⟨iff_of_false (hdropped hparse) (by simp [hc]), fun _ => hparse⟩
    · rw [if_neg hc, List.append_assoc] at hparse
      exact ⟨iff_of_true hparse ⟨c, rfl, hc⟩, fun h => absurd (h c rfl) hc⟩

/-- A body that starts with a quotation mark is kept, whatever is quoted, behind a parameter list
with blanks in it. -/
theorem Table.parse_definitionLine_quotation :
    Table.parse "#define F( x,y)\t\"\\n\" \\\n  x\n".toList =
      .ok (.ofList [⟨['F'], some [['x'], ['y']], "\"\\n\" \\\n  x".toList⟩]) := by
  have hlist : ∀ c ∈ " x,y".toList, c ≠ ')' ∧ c ≠ '\n' := by
    show ∀ c ∈ [' ', 'x', ',', 'y'], c ≠ ')' ∧ c ≠ '\n'
    simp
  have hsignature : SignatureText (some [['x'], ['y']]) "( x,y)\t".toList :=
    @SignatureText.functionLike " x,y".toList ['\t'] [['x'], ['y']] hlist
      (.inr (by decide +kernel)) (by decide) (by decide) (List.forall_mem_singleton.2 rfl)
  have hstart : ∀ c ∈ "\"\\n\" ".toList.head?, isBlank c = false := by
    intro c hc
    obtain rfl : '"' = c := Option.mem_some_iff.1 hc
    rfl
  have hkept := @Table.parse_definitionLine ['F'] "( x,y)\t".toList "\"\\n\" ".toList
    "  x".toList (some [['x'], ['y']]) rfl hsignature (by decide) hstart (by decide) (by decide)
    (by decide)
  exact hkept.1.2 ⟨'"', by decide, by decide⟩

/-- An escape at the beginning of a body that goes on is lost. -/
theorem Table.parse_definitionLine_of_leading_escape :
    isIdentifier ['X'] = true ∧ '\n' ∉ "\\y".toList ∧ "\\y".toList.head? = some '\\' ∧
    '\n' ∉ ['z'] ∧ (dropEndWhile isBlank ['z']).getLast? = some 'z' ∧
    Table.parse "#define X \\y\\\nz\n".toList = .ok (.ofList [⟨['X'], none, ['z']⟩]) ∧
    Table.parse "#define X \\y\\\nz\n".toList ≠
      .ok (.ofList [⟨['X'], none, "\\y\\\nz".toList⟩]) :=
  ⟨by decide, by decide, by decide, by decide, by decide, by rfl, by decide⟩

end FlatHeader
