import FlatHeader.Proofs.Markers
import FlatHeader.Proofs.Signatures

/-!
# One line of a source

Extraction goes from line to line with what is open. A line that is read while a body is open goes
on with it or ends it. Any other line is skipped or refused, or it defines a name, and then its body
is open or ends on the line. These are all the steps (`Extraction.exists_lineStep`), so what every
definition of a source has is shown by what a line makes of an open body and by what it closes
(`Extraction.BodyInvariant.definitions`).
-/

namespace FlatHeader

open Text Continuation

/-! ## Definition lines -/

theorem skipBlanks_suffix (t : Text) : skipBlanks t <:+ t := List.dropWhile_suffix isBlank

theorem skipBlanks_of_head? {t : Text} (h : ∀ c ∈ t.head?, isBlank c = false) :
    skipBlanks t = t := by
  cases t with
  | nil => rfl
  | cons c t => exact List.dropWhile_cons_of_neg (by rw [h c rfl]; decide)

/-- Blanks are skipped up to the first character that is none. -/
theorem skipBlanks_append_of_blanks {blanks : Text} (hblanks : ∀ c ∈ blanks, isBlank c = true)
    {r : Text} (hr : ∀ c ∈ r.head?, isBlank c = false) : skipBlanks (blanks ++ r) = r := by
  unfold skipBlanks
  rw [List.dropWhile_append_of_pos hblanks]
  exact skipBlanks_of_head? hr

theorem skipBlanks_append {w : Text} (hw : IsWord w) (t : Text) : skipBlanks (w ++ t) = w ++ t := by
  obtain ⟨c, v, rfl⟩ := List.exists_cons_of_ne_nil hw.ne_nil
  refine skipBlanks_of_head? fun d hd => ?_
  obtain rfl : c = d := Option.mem_some_iff.1 hd
  by_contra hblank
  have hbreak : isBreakChar c = true := by
    rw [isBreakChar, Bool.eq_true_of_not_eq_false hblank]
    rfl
  exact hw.not_mem (isWordChar_eq_false_of_isBreakChar hbreak) List.mem_cons_self

/-- What is skipped is blanks. -/
theorem exists_blanks_append_skipBlanks (t : Text) :
    ∃ blanks, t = blanks ++ skipBlanks t ∧ ∀ c ∈ blanks, isBlank c = true :=
  ⟨t.takeWhile isBlank, List.takeWhile_append_dropWhile.symm, fun _ hc => List.mem_takeWhile_imp hc⟩

/-- A line that defines `name`: blanks, `#`, blanks, `define`, at least one blank, the name, and
behind it a `rest` that does not go on with it. -/
inductive DefinesName : Text → Text → Text → Prop
  | directive {before between blanks name rest : Text} (hbefore : ∀ c ∈ before, isBlank c = true)
      (hbetween : ∀ c ∈ between, isBlank c = true) (hblanks : ∀ c ∈ blanks, isBlank c = true)
      (hne : blanks ≠ []) (hname : isIdentifier name = true) (hrest : StartsOutside rest) :
      DefinesName (before ++ '#' :: (between ++ ("define".toList ++ (blanks ++ (name ++ rest)))))
        name rest

theorem definedName?_eq_some_iff {line name rest : Text} :
    definedName? line = some (name, rest) ↔ DefinesName line name rest := by
  constructor
  · intro h
    unfold definedName? at h
    split at h
    · next t hmark =>
      split at h
      · next c s hdefine =>
        split at h
        · next hc =>
          obtain ⟨before, hline, hbefore⟩ := exists_blanks_append_skipBlanks line
          obtain ⟨between, ht, hbetween⟩ := exists_blanks_append_skipBlanks t
          obtain ⟨blanks, hs, hblanks⟩ := exists_blanks_append_skipBlanks s
          obtain ⟨hread, hname, hrest⟩ := identifier?_eq_some_iff.1 h
          have hsplit : line = before ++ '#' :: (between ++
              ("define".toList ++ (c :: blanks ++ (name ++ rest)))) := by
            rw [← hread, List.cons_append, ← hs, List.isPrefixOf?_eq_some_iff_append_eq.1 hdefine,
              ← ht, ← hmark, ← hline]
          rw [hsplit]
          exact .directive hbefore hbetween (List.forall_mem_cons.2 ⟨hc, hblanks⟩)
            (List.cons_ne_nil c blanks) hname hrest
        · exact absurd h (by simp)
      · exact absurd h (by simp)
    · exact absurd h (by simp)
  · intro h
    cases h with
    | @directive before between blanks name rest hbefore hbetween hblanks hne hname hrest =>
      obtain ⟨c, blanks, rfl⟩ := List.exists_cons_of_ne_nil hne
      obtain ⟨hc, hmore⟩ := List.forall_mem_cons.1 hblanks
      have hmark := @skipBlanks_append_of_blanks before hbefore
        ('#' :: (between ++ ("define".toList ++ (c :: blanks ++ (name ++ rest)))))
        (by simp [isBlank])
      have hdefine := @skipBlanks_append_of_blanks between hbetween
        ("define".toList ++ (c :: blanks ++ (name ++ rest))) (by simp [isBlank])
      have hprefix : "define".toList.isPrefixOf? ("define".toList ++
          (c :: blanks ++ (name ++ rest))) = some (c :: (blanks ++ (name ++ rest))) :=
        List.isPrefixOf?_eq_some_iff_append_eq.2 rfl
      -- the blanks in front of the name are skipped behind the first one
      have hskip : skipBlanks (blanks ++ (name ++ rest)) = name ++ rest := by
        unfold skipBlanks
        rw [List.dropWhile_append_of_pos hmore]
        exact skipBlanks_append (isWord_of_isIdentifier hname) rest
      simp only [definedName?, hmark, hdefine, hprefix, hc, if_true, hskip,
        identifier?_append hname hrest]

theorem definedName?_eq_none_iff {line : Text} :
    definedName? line = none ↔ ∀ name rest, ¬ DefinesName line name rest := by
  rw [Option.eq_none_iff_forall_not_mem, Prod.forall]
  exact forall₂_congr fun name rest => not_congr definedName?_eq_some_iff

namespace DefinesName

variable {line name rest : Text}

theorem isIdentifier (h : DefinesName line name rest) : isIdentifier name = true := by
  cases h with
  | directive _ _ _ _ hname _ => exact hname

theorem startsOutside (h : DefinesName line name rest) : StartsOutside rest := by
  cases h with
  | directive _ _ _ _ _ hrest => exact hrest

/-- Any other text that does not go on with the name may stand behind it. -/
theorem exists_front (h : DefinesName line name rest) :
    ∃ front, line = front ++ (name ++ rest) ∧
      ∀ other, StartsOutside other → DefinesName (front ++ (name ++ other)) name other := by
  cases h with
  | @directive before between blanks name rest hbefore hbetween hblanks hne hname hrest =>
    refine ⟨before ++ '#' :: (between ++ ("define".toList ++ blanks)), by simp, fun other ho => ?_⟩
    have hother := DefinesName.directive hbefore hbetween hblanks hne hname ho
    simpa using hother

theorem suffix (h : DefinesName line name rest) : rest <:+ line := by
  obtain ⟨front, rfl, -⟩ := h.exists_front
  exact ⟨front ++ name, List.append_assoc front name rest⟩

/-- What is left behind the signature ends the line. -/
theorem suffix_of_readSignature {t : Text} {parameters : Option (List Text)}
    (h : DefinesName line name t) (hread : readSignature t = .ok (parameters, rest)) :
    rest <:+ line :=
  (FlatHeader.suffix_of_readSignature hread).trans h.suffix

end DefinesName

theorem firstBodyPart_suffix (rest : Text) : firstBodyPart rest <:+ rest := by
  unfold firstBodyPart
  split
  · exact List.nil_suffix
  · exact skipBlanks_suffix rest

/-! ## Steps -/

namespace Extraction

/-- What comes of a line: something or nothing is open behind it, or a definition is there, or there
is an error. -/
inductive Effect
  | opens (next? : Option OpenDefinition)
  | closes (d : Located)
  | fails (e : Error)

/-- What is extracted from line `n` on if this comes of the line and `rest` follows. -/
def Effect.andThen (n : ℕ) (rest : List Text) : Effect → Extraction
  | opens next? => ofLines (n + 1) next? rest
  | closes d => cons d (ofLines (n + 1) none rest)
  | fails e => ⟨[], some e⟩

/-- What comes of line `n`, by what is open and by what the line holds. -/
inductive LineStep (n : ℕ) : Option OpenDefinition → Text → Effect → Prop
  | continued {d : OpenDefinition} {line : Text} (hcont : isContinued line = true) :
      LineStep n (some d) line (.opens (some { d with body := d.body ++ line }))
  | ended {d : OpenDefinition} {line : Text} (hcont : ¬ isContinued line = true) :
      LineStep n (some d) line
        (.closes ⟨d.line, OpenDefinition.close { d with body := d.body ++ line }⟩)
  | skipped {line : Text} (hname : ∀ name rest, ¬ DefinesName line name rest) :
      LineStep n none line (.opens none)
  | refused {line name t : Text} {reason : Malformation} (hname : DefinesName line name t)
      (hread : readSignature t = .error reason) :
      LineStep n none line (.fails (.malformedDefinition name (some n) reason))
  | opened {line name t rest : Text} {parameters : Option (List Text)}
      (hname : DefinesName line name t) (hread : readSignature t = .ok (parameters, rest))
      (hcont : isContinued rest = true) :
      LineStep n none line (.opens (some ⟨n, name, parameters, firstBodyPart rest⟩))
  | defined {line name t rest : Text} {parameters : Option (List Text)}
      (hname : DefinesName line name t) (hread : readSignature t = .ok (parameters, rest))
      (hcont : ¬ isContinued rest = true) :
      LineStep n none line
        (.closes ⟨n, OpenDefinition.close ⟨n, name, parameters, firstBodyPart rest⟩⟩)

variable {n : ℕ} {open? : Option OpenDefinition} {line : Text} {effect : Effect}

theorem exists_lineStep (n : ℕ) (open? : Option OpenDefinition) (line : Text) :
    ∃ effect, LineStep n open? line effect := by
  cases open? with
  | some d =>
    by_cases hcont : isContinued line = true
    · exact ⟨_, .continued hcont⟩
    · exact ⟨_, .ended hcont⟩
  | none =>
    cases hname : definedName? line with
    | none => exact ⟨_, .skipped (definedName?_eq_none_iff.1 hname)⟩
    | some found =>
      obtain ⟨name, t⟩ := found
      cases hread : readSignature t with
      | error reason => exact ⟨_, .refused (definedName?_eq_some_iff.1 hname) hread⟩
      | ok signature =>
        obtain ⟨parameters, rest⟩ := signature
        by_cases hcont : isContinued rest = true
        · exact ⟨_, .opened (definedName?_eq_some_iff.1 hname) hread hcont⟩
        · exact ⟨_, .defined (definedName?_eq_some_iff.1 hname) hread hcont⟩

theorem LineStep.ofLines_cons (h : LineStep n open? line effect) (rest : List Text) :
    ofLines n open? (line :: rest) = effect.andThen n rest := by
  cases h with
  | continued hcont => rw [ofLines, if_pos hcont]; rfl
  | ended hcont => rw [ofLines, if_neg hcont]; rfl
  | skipped hname => rw [ofLines, definedName?_eq_none_iff.2 hname]; rfl
  | refused hname hread =>
    rw [ofLines, definedName?_eq_some_iff.2 hname]
    simp only [hread, Effect.andThen]
  | opened hname hread hcont =>
    rw [ofLines, definedName?_eq_some_iff.2 hname]
    simp only [hread, if_pos hcont, Effect.andThen]
  | defined hname hread hcont =>
    rw [ofLines, definedName?_eq_some_iff.2 hname]
    simp only [hread, if_neg hcont, Effect.andThen]

/-- Nothing is left of the definition that is open behind the last line. -/
theorem definitions_ofLines_nil (n : ℕ) (open? : Option OpenDefinition) :
    (ofLines n open? []).definitions = [] := by
  cases open? <;> rfl

/-! ## Invariants of the bodies -/

/-- What all open bodies have behind whole lines, and therefore all definitions, if the lines of the
source are such lines. -/
structure BodyInvariant (Line : Text → Prop) (Inv : OpenDefinition → Prop)
    (P : Definition → Prop) : Prop where
  opens : ∀ {n : ℕ} {open? : Option OpenDefinition} {line : Text} {d : OpenDefinition},
    Line line → line.getLast? = some '\n' → (∀ o ∈ open?, Inv o) →
    LineStep n open? line (.opens (some d)) → Inv d
  closes : ∀ {n : ℕ} {open? : Option OpenDefinition} {line : Text} {d : Located},
    Line line → (∀ o ∈ open?, Inv o) → LineStep n open? line (.closes d) → P d.definition

/-- The invariant is carried from line to line. No line stands behind one without line feed, so it
does not matter what that one leaves open. -/
theorem BodyInvariant.ofLines {Line : Text → Prop} {Inv : OpenDefinition → Prop}
    {P : Definition → Prop} (h : BodyInvariant Line Inv P) {ls : List Text}
    (hls : ∀ line ∈ ls, Line line) (hlf : ∀ line ∈ ls.dropLast, line.getLast? = some '\n')
    (n : ℕ) (open? : Option OpenDefinition) (hopen : ls ≠ [] → ∀ o ∈ open?, Inv o) :
    ∀ d ∈ (ofLines n open? ls).definitions, P d.definition := by
  induction ls generalizing n open? with
  | nil =>
    intro d hd
    rw [definitions_ofLines_nil] at hd
    exact absurd hd List.not_mem_nil
  | cons line rest ih =>
    obtain ⟨hline, hrest⟩ := List.forall_mem_cons.1 hls
    have hinv := hopen (List.cons_ne_nil line rest)
    have hlater : rest ≠ [] → (line :: rest).dropLast = line :: rest.dropLast :=
      List.dropLast_cons_of_ne_nil
    have hnext : ∀ next?, (rest ≠ [] → ∀ o ∈ next?, Inv o) →
        ∀ d ∈ (Extraction.ofLines (n + 1) next? rest).definitions, P d.definition := by
      refine ih hrest (fun l hl => hlf l ?_) (n + 1)
      rw [hlater (List.ne_nil_of_mem (List.mem_of_mem_dropLast hl))]
      exact List.mem_cons_of_mem line hl
    obtain ⟨effect, hstep⟩ := exists_lineStep n open? line
    rw [hstep.ofLines_cons]
    cases effect with
    | opens next? =>
      refine hnext next? fun hne o ho => ?_
      obtain rfl := Option.mem_def.1 ho
      have hends := hlf line (by rw [hlater hne]; exact List.mem_cons_self)
      exact h.opens hline hends hinv hstep
    | closes d =>
      intro d' hd'
      rcases List.mem_cons.1 hd' with rfl | hd'
      · exact h.closes hline hinv hstep
      · exact hnext none (fun _ o ho => absurd ho (by simp)) d' hd'
    | fails e => exact fun d hd => absurd hd List.not_mem_nil

/-- The definitions of a whole source have the property. -/
theorem BodyInvariant.definitions {Line : Text → Prop} {Inv : OpenDefinition → Prop}
    {P : Definition → Prop} (h : BodyInvariant Line Inv P) {t : Text}
    (ht : ∀ line ∈ lines t, Line line) (n : ℕ) (open? : Option OpenDefinition)
    (hopen : ∀ o ∈ open?, Inv o) :
    ∀ d ∈ (Extraction.ofLines n open? (lines t)).definitions, P d.definition :=
  h.ofLines ht (fun _ hline => getLast?_of_mem_dropLast_lines hline) n open? fun _ => hopen

end Extraction

end FlatHeader
