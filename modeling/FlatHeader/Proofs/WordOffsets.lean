import FlatHeader.Proofs.Calls
import FlatHeader.Proofs.Offsets

/-!
# Words with their byte offsets

The words of a text stand at byte offsets. `wordsAt` reads them off the pieces of the text, in
equations that go with `word_induction`. A `WordReader` finds the same words with nothing but a
position in bytes: it cuts the text at that position, looks for the next word, and goes on behind
it. A cut that would go through a character fails, and `WordReader.yields_wordsFrom` shows that none
does.

The replacement of a word and the search for a call are loops over these words
(`replaceLoop?_wordsAt`, `Call.firstAmong?_wordsAt`).
-/

namespace FlatHeader

open Text

namespace Text

/-! ## The words and where they start -/

/-- The words among pieces with their byte offsets, where `n` bytes stand before the first piece. -/
def placeWords (n : ℕ) : List Piece → List (ℕ × Text)
  | [] => []
  | .word w :: rest => (n, w) :: placeWords (n + byteSize w) rest
  | .gap s :: rest => placeWords (n + byteSize s) rest

/-- The words of a text that has `n` bytes before it, with their byte offsets. -/
def wordsFrom (n : ℕ) (t : Text) : List (ℕ × Text) := placeWords n (pieces t)

/-- The words of a text with their byte offsets, in order. -/
def wordsAt (t : Text) : List (ℕ × Text) := wordsFrom 0 t

theorem map_snd_placeWords (n : ℕ) (ps : List Piece) :
    (placeWords n ps).map Prod.snd = ps.filterMap Piece.word? := by
  induction ps generalizing n with
  | nil => rfl
  | cons p ps ih =>
    cases p with
    | word w => exact congrArg (w :: ·) (ih _)
    | gap s => exact ih _

/-- Without their offsets they are the words of the text. -/
theorem map_snd_wordsFrom (n : ℕ) (t : Text) : (wordsFrom n t).map Prod.snd = words t :=
  map_snd_placeWords n (pieces t)

theorem wordsFrom_gap {c : Char} (h : isWordChar c = false) (n : ℕ) (t : Text) :
    wordsFrom n (c :: t) = wordsFrom (n + c.utf8Size) t := by
  unfold wordsFrom
  rw [pieces_cons]
  rcases push_of_outside h (pieces t) with ⟨g, rest, hps, hg⟩ | hg
  · rw [hg, hps]
    simp only [placeWords, byteSize_cons, Nat.add_assoc]
  · rw [hg]
    rfl

theorem wordsFrom_word {w t : Text} (hw : IsWord w) (ht : StartsOutside t) (n : ℕ) :
    wordsFrom n (w ++ t) = (n, w) :: wordsFrom (n + byteSize w) t := by
  unfold wordsFrom
  rw [pieces_word hw ht]
  rfl

/-- More bytes before a text shift its words. -/
theorem wordsFrom_add (m n : ℕ) (t : Text) :
    wordsFrom (m + n) t = (wordsFrom n t).map (Prod.map (m + ·) id) := by
  induction t using word_induction generalizing n with
  | nil => rfl
  | gap c t hc ih => rw [wordsFrom_gap hc, wordsFrom_gap hc, Nat.add_assoc, ih]
  | word w t hw ht ih =>
    rw [wordsFrom_word hw ht, wordsFrom_word hw ht, Nat.add_assoc, ih]
    rfl

/-- On both sides of a character that belongs to no word the words are found separately. -/
theorem wordsFrom_append_cons {c : Char} (hc : isWordChar c = false) (n : ℕ) (a b : Text) :
    wordsFrom n (a ++ c :: b) = wordsFrom n a ++ wordsFrom (n + byteSize (a ++ [c])) b := by
  induction a using word_induction generalizing n with
  | nil => exact wordsFrom_gap hc n b
  | gap d a hd ih =>
    rw [List.cons_append, wordsFrom_gap hd, wordsFrom_gap hd, ih, List.cons_append, byteSize_cons,
      Nat.add_assoc]
  | word w a hw ha ih =>
    have hac : StartsOutside (a ++ c :: b) := ha.append fun _ => startsOutside_cons hc b
    rw [List.append_assoc, wordsFrom_word hw hac, wordsFrom_word hw ha, ih, List.append_assoc,
      byteSize_append w, Nat.add_assoc]
    rfl

/-- What is listed are the words that stand in the text, each with the bytes before it. -/
theorem mem_wordsFrom_iff {n m : ℕ} {w t : Text} :
    (m, w) ∈ wordsFrom n t ↔ ∃ before after, WordAt t before w after ∧ m = n + byteSize before := by
  induction t using word_induction generalizing n with
  | nil =>
    refine iff_of_false List.not_mem_nil ?_
    rintro ⟨before, after, hat, -⟩
    exact not_wordAt_nil hat
  | gap c t hc ih =>
    rw [wordsFrom_gap hc, ih]
    simp only [wordAt_cons_iff hc]
    constructor
    · rintro ⟨before, after, hat, rfl⟩
      exact ⟨c :: before, after, ⟨before, hat, rfl⟩, by rw [byteSize_cons, Nat.add_assoc]⟩
    · rintro ⟨-, after, ⟨before, hat, rfl⟩, rfl⟩
      exact ⟨before, after, hat, by rw [byteSize_cons, Nat.add_assoc]⟩
  | word v t hv ht ih =>
    rw [wordsFrom_word hv ht, List.mem_cons, Prod.mk.injEq, ih]
    simp only [wordAt_word_iff hv ht]
    constructor
    · rintro (⟨rfl, rfl⟩ | ⟨before, after, hat, rfl⟩)
      · exact ⟨[], t, .inl ⟨rfl, rfl, rfl⟩, rfl⟩
      · exact ⟨v ++ before, after, .inr ⟨before, hat, rfl⟩, by rw [byteSize_append, Nat.add_assoc]⟩
    · rintro ⟨before, after, ⟨rfl, rfl, rfl⟩ | ⟨front, hat, rfl⟩, rfl⟩
      · exact .inl ⟨rfl, rfl⟩
      · exact .inr ⟨front, after, hat, by rw [byteSize_append, Nat.add_assoc]⟩

theorem mem_wordsAt_iff {n : ℕ} {w t : Text} :
    (n, w) ∈ wordsAt t ↔ ∃ before after, WordAt t before w after ∧ byteSize before = n := by
  unfold wordsAt
  simp only [mem_wordsFrom_iff, Nat.zero_add, eq_comm]

/-- The words are listed from left to right, and something stands between each and the next. -/
theorem pairwise_wordsFrom (n : ℕ) (t : Text) :
    (wordsFrom n t).Pairwise fun p q => p.1 + byteSize p.2 < q.1 := by
  induction t using word_induction generalizing n with
  | nil => exact List.Pairwise.nil
  | gap c t hc ih =>
    rw [wordsFrom_gap hc]
    exact ih _
  | word w t hw ht ih =>
    rw [wordsFrom_word hw ht]
    refine List.Pairwise.cons (fun q hq => ?_) (ih _)
    obtain ⟨before, after, hat, hsize⟩ := mem_wordsFrom_iff.1 hq
    -- the next word does not start where this one ends, since the rest starts outside words
    have hne : byteSize before ≠ 0 := by
      rw [Ne, byteSize_eq_zero_iff]
      rintro rfl
      rw [hat.eq] at ht
      exact hat.isWord.not_startsOutside after ht
    show n + byteSize w < q.1
    omega

/-- Every word character is within a word that is listed. -/
theorem exists_mem_wordsFrom (n : ℕ) {t before after : Text} {c : Char}
    (ht : t = before ++ c :: after) (hc : isWordChar c = true) :
    ∃ p ∈ wordsFrom n t, p.1 ≤ n + byteSize before ∧ n + byteSize before < p.1 + byteSize p.2 := by
  induction t using word_induction generalizing n before with
  | nil => exact absurd ht (by simp)
  | gap d t hd ih =>
    cases before with
    | nil =>
      rw [(List.cons.inj ht).1, hc] at hd
      exact absurd hd (by decide)
    | cons e before =>
      obtain ⟨rfl, htail⟩ := List.cons.inj ht
      obtain ⟨p, hp, hle, hlt⟩ := ih (n + d.utf8Size) htail
      rw [wordsFrom_gap hd, byteSize_cons, ← Nat.add_assoc]
      exact ⟨p, hp, hle, hlt⟩
  | word w t hw htout ih =>
    rw [wordsFrom_word hw htout]
    rcases List.append_eq_append_iff.1 ht with ⟨front, rfl, htail⟩ | ⟨s, rfl, hs⟩
    · obtain ⟨p, hp, hle, hlt⟩ := ih (n + byteSize w) htail
      rw [byteSize_append, ← Nat.add_assoc]
      exact ⟨p, List.mem_cons_of_mem _ hp, hle, hlt⟩
    · cases s with
      | nil =>
        -- the rest starts outside words, so the character is not its first one
        exact absurd (htout c (by rw [← List.nil_append t, ← hs]; rfl)) (by rw [hc]; decide)
      | cons d s =>
        refine ⟨_, List.mem_cons_self, Nat.le_add_right _ _, ?_⟩
        have hpos := d.utf8Size_pos
        show n + byteSize before < n + byteSize (before ++ d :: s)
        rw [byteSize_append, byteSize_cons]
        omega

/-! ## Reading by positions -/

/-- A reader of words: the text, and the byte offset of what is not read yet. -/
structure WordReader where
  text : Text
  position : ℕ

namespace WordReader

/-- What a reader finds next: a word with its byte offset and the reader behind it, or nothing if no
word character is left. It fails if it cuts the text anywhere but at a character border. -/
def next? (r : WordReader) : Option (Option ((ℕ × Text) × WordReader)) := do
  let (_, unread) ← splitAtByte? r.position r.text
  if unread.all (!isWordChar ·) then
    return none
  let start := r.position + byteSize (unread.takeWhile (!isWordChar ·))
  let (_, behind) ← splitAtByte? start r.text
  let stop := start + byteSize (behind.takeWhile isWordChar)
  let word ← between? r.text start stop
  return some ((start, word), { r with position := stop })

/-- A reader gives these words one after the other, and then comes to its end. -/
inductive Yields : WordReader → List (ℕ × Text) → Prop
  | done {r : WordReader} (h : r.next? = some none) : Yields r []
  | step {r s : WordReader} {item : ℕ × Text} {items : List (ℕ × Text)}
      (h : r.next? = some (some (item, s))) (hrest : Yields s items) : Yields r (item :: items)

/-- There is only one way to go over a text. -/
theorem Yields.unique {r : WordReader} {items items' : List (ℕ × Text)} (h : r.Yields items)
    (h' : r.Yields items') : items = items' := by
  induction h generalizing items' with
  | done h =>
    cases h' with
    | done _ => rfl
    | step h' _ => exact absurd (h.symm.trans h') (by simp)
  | step h _ ih =>
    cases h' with
    | done h' => exact absurd (h.symm.trans h') (by simp)
    | step h' hrest' =>
      obtain ⟨rfl, rfl⟩ := Prod.mk.inj (Option.some.inj (Option.some.inj (h.symm.trans h')))
      rw [ih hrest']

variable {front gap : Text}

/-- Where no word character is left, the reader is at its end. -/
theorem next?_gap (hgap : ∀ c ∈ gap, isWordChar c = false) :
    next? ⟨front ++ gap, byteSize front⟩ = some none := by
  have hall : gap.all (!isWordChar ·) = true :=
    List.all_eq_true.2 fun c hc => by rw [hgap c hc]; rfl
  unfold next?
  dsimp only
  rw [splitAtByte?_append, Option.bind_eq_bind, Option.bind_some]
  exact if_pos hall

/-- The reader skips what belongs to no word, takes the word behind it, and stops at its end. -/
theorem next?_word (hgap : ∀ c ∈ gap, isWordChar c = false) {w t : Text} (hw : IsWord w)
    (ht : StartsOutside t) :
    next? ⟨front ++ (gap ++ (w ++ t)), byteSize front⟩ =
      some (some ((byteSize (front ++ gap), w),
        ⟨front ++ (gap ++ (w ++ t)), byteSize (front ++ (gap ++ w))⟩)) := by
  obtain ⟨c, v, hcons⟩ := List.exists_cons_of_ne_nil hw.ne_nil
  have hc : isWordChar c = true := hw.all c (by rw [hcons]; exact List.mem_cons_self)
  have hall : ¬ (gap ++ (w ++ t)).all (!isWordChar ·) = true := by
    rw [List.all_eq_true]
    intro h
    have hfirst := h c (by rw [hcons]; simp)
    rw [hc] at hfirst
    exact absurd hfirst (by decide)
  have hskip : (gap ++ (w ++ t)).takeWhile (!isWordChar ·) = gap := by
    rw [List.takeWhile_append_of_pos fun d hd => by rw [hgap d hd]; rfl, hcons, List.cons_append,
      List.takeWhile_cons_of_neg (by rw [hc]; decide), List.append_nil]
  have hstart : splitAtByte? (byteSize front + byteSize gap) (front ++ (gap ++ (w ++ t))) =
      some (front ++ gap, w ++ t) := by
    rw [← byteSize_append, ← List.append_assoc, splitAtByte?_append]
  have hword : between? (front ++ (gap ++ (w ++ t))) (byteSize front + byteSize gap)
      (byteSize front + byteSize gap + byteSize w) = some w := by
    rw [← byteSize_append, ← List.append_assoc, between?_append]
  unfold next?
  dsimp only
  rw [splitAtByte?_append, Option.bind_eq_bind, Option.bind_some]
  dsimp only
  rw [if_neg hall, hskip, hstart, Option.bind_some]
  dsimp only
  rw [(ht.run_append hw.all).1, hword, Option.bind_eq_bind, Option.bind_some, byteSize_append,
    byteSize_append, byteSize_append, Nat.add_assoc]
  rfl

/-- From any place on, a reader finds the words that stand behind that place. -/
theorem yields_wordsFrom (front gap t : Text) (hgap : ∀ c ∈ gap, isWordChar c = false) :
    Yields ⟨front ++ (gap ++ t), byteSize front⟩ (wordsFrom (byteSize (front ++ gap)) t) := by
  induction t using word_induction generalizing front gap with
  | nil =>
    rw [List.append_nil]
    exact .done (next?_gap hgap)
  | gap c t hc ih =>
    have hmore : ∀ d ∈ gap ++ [c], isWordChar d = false := by
      intro d hd
      rcases List.mem_append.1 hd with hd | hd
      · exact hgap d hd
      · rw [List.mem_singleton.1 hd, hc]
    have hrest := ih front (gap ++ [c]) hmore
    rw [byteSize_append_concat, List.append_assoc gap, List.singleton_append] at hrest
    rwa [wordsFrom_gap hc]
  | word w t hw ht ih =>
    rw [wordsFrom_word hw ht]
    refine .step (next?_word hgap hw ht) ?_
    have hrest := ih (front ++ (gap ++ w)) [] fun c hc => absurd hc List.not_mem_nil
    rw [List.append_nil, List.nil_append] at hrest
    simpa only [List.append_assoc, byteSize_append, Nat.add_assoc] using hrest

end WordReader

/-- The scanner finds exactly the words of a text, with their byte offsets. Going over a text never
cuts a character and comes to an end, and what it gives is `wordsAt`: the words of the text in
order, from left to right and apart from each other. Listed are exactly the runs of word characters
that go on at neither side, each with the bytes before it, so each is what the text has at its
offset, and no word character is outside all of them. Around a character that belongs to no word the
two sides are scanned separately. -/
theorem wordsAt_exact (t : Text) :
    WordReader.Yields ⟨t, 0⟩ (wordsAt t) ∧
    (∀ items, WordReader.Yields ⟨t, 0⟩ items → items = wordsAt t) ∧
    (wordsAt t).map Prod.snd = words t ∧
    ((wordsAt t).Pairwise fun p q => p.1 + byteSize p.2 < q.1) ∧
    (∀ n w, (n, w) ∈ wordsAt t ↔
      ∃ before after, WordAt t before w after ∧ byteSize before = n) ∧
    (∀ p ∈ wordsAt t, between? t p.1 (p.1 + byteSize p.2) = some p.2) ∧
    (∀ before c after, t = before ++ c :: after → isWordChar c = true →
      ∃ p ∈ wordsAt t, p.1 ≤ byteSize before ∧ byteSize before < p.1 + byteSize p.2) ∧
    ∀ a c b, t = a ++ c :: b → isWordChar c = false →
      wordsAt t = wordsAt a ++ (wordsAt b).map (Prod.map (byteSize (a ++ [c]) + ·) id) := by
  have hyields : WordReader.Yields ⟨t, 0⟩ (wordsAt t) :=
    WordReader.yields_wordsFrom [] [] t fun c hc => absurd hc List.not_mem_nil
  refine ⟨hyields, fun items h => h.unique hyields, map_snd_wordsFrom 0 t, pairwise_wordsFrom 0 t,
    fun n w => mem_wordsAt_iff, fun p hp => ?_, fun before c after ht hc => ?_,
    fun a c b ht hc => ?_⟩
  · obtain ⟨before, after, hat, hsize⟩ := mem_wordsAt_iff.1 hp
    rw [← hsize, hat.eq, between?_append]
  · have hcovered := exists_mem_wordsFrom 0 ht hc
    rwa [Nat.zero_add] at hcovered
  · have hsides := wordsFrom_append_cons hc 0 a b
    rwa [← ht, Nat.zero_add, ← Nat.add_zero (byteSize (a ++ [c])), wordsFrom_add] at hsides

/-- Words with characters of two bytes and of three, at the beginning, at the end and right behind a
character that is in none. -/
theorem wordsAt_exact_wide :
    WordReader.Yields ⟨"Δx##→é1".toList, 0⟩ [(0, "Δx".toList), (8, "é1".toList)] ∧
    between? "Δx##→é1".toList 8 (8 + byteSize "é1".toList) = some "é1".toList ∧
    isWordChar 'é' = true ∧
    (∃ p ∈ [(0, "Δx".toList), (8, "é1".toList)], p.1 ≤ 8 ∧ 8 < p.1 + byteSize p.2) ∧
    isWordChar '→' = false ∧
    [(0, "Δx".toList), (8, "é1".toList)] =
      wordsAt "Δx##".toList ++ (wordsAt "é1".toList).map (Prod.map (8 + ·) id) := by
  have hwords : wordsAt "Δx##→é1".toList = [(0, "Δx".toList), (8, "é1".toList)] := by
    decide +kernel
  obtain ⟨hyields, -, -, -, -, hbetween, hcovered, hsides⟩ := wordsAt_exact "Δx##→é1".toList
  rw [hwords] at hyields hbetween hcovered hsides
  have hletter : isWordChar 'é' = true := by decide +kernel
  have harrow : isWordChar '→' = false := by decide +kernel
  exact ⟨hyields, hbetween (8, "é1".toList) (by simp), hletter,
    hcovered "Δx##→".toList 'é' ['1'] (by rfl) hletter, harrow,
    hsides "Δx##".toList '→' "é1".toList (by rfl) harrow⟩

/-! ## Replacing a word by positions -/

/-- The loop that replaces a word: what stands between the end of one replaced word and the start of
the next is copied, and at the end what is left. It fails if it cuts the text anywhere but at a
character border. -/
def replaceLoop? (word replacement t : Text) (copied : ℕ) : List (ℕ × Text) → Option Text
  | [] => (splitAtByte? copied t).map Prod.snd
  | (start, w) :: items =>
    if w = word then do
      let gap ← between? t copied start
      let rest ← replaceLoop? word replacement t (start + byteSize w) items
      return gap ++ (replacement ++ rest)
    else replaceLoop? word replacement t copied items

/-- The loop from any place on, with a stretch behind that place still to be copied. -/
theorem replaceLoop?_wordsFrom (word replacement front kept t : Text) :
    replaceLoop? word replacement (front ++ (kept ++ t)) (byteSize front)
      (wordsFrom (byteSize (front ++ kept)) t) = some (kept ++ replaceWord word replacement t) := by
  induction t using word_induction generalizing front kept with
  | nil =>
    show (splitAtByte? (byteSize front) (front ++ (kept ++ []))).map Prod.snd = some (kept ++ [])
    rw [splitAtByte?_append, Option.map_some]
  | gap c t hc ih =>
    have hrest := ih front (kept ++ [c])
    rw [byteSize_append_concat, List.append_assoc kept, List.append_assoc kept,
      List.singleton_append, List.singleton_append] at hrest
    rw [wordsFrom_gap hc, hrest, replaceWord_eq_mapWords, replaceWord_eq_mapWords,
      mapWords_gap _ hc]
  | word w t hw ht ih =>
    rw [wordsFrom_word hw ht, replaceLoop?, replaceWord_eq_mapWords, mapWords_word _ hw ht,
      ← replaceWord_eq_mapWords]
    by_cases h : w = word
    · -- what is to be copied ends here, and the loop starts again behind the word
      have hgap : between? (front ++ (kept ++ (w ++ t))) (byteSize front)
          (byteSize (front ++ kept)) = some kept := by
        rw [byteSize_append, between?_append]
      have hrest := ih (front ++ (kept ++ w)) []
      simp only [List.append_nil, List.nil_append, List.append_assoc] at hrest
      rw [if_pos h, if_pos h, hgap, ← byteSize_append, List.append_assoc, hrest]
      rfl
    · have hrest := ih front (kept ++ w)
      rw [List.append_assoc kept, List.append_assoc kept, ← List.append_assoc front kept w,
        byteSize_append] at hrest
      rw [if_neg h, if_neg h, hrest]

/-- Replacing a word is the loop over the words of the text: no cut of it goes through a
character. -/
theorem replaceLoop?_wordsAt (word replacement t : Text) :
    replaceLoop? word replacement t 0 (wordsAt t) = some (replaceWord word replacement t) :=
  replaceLoop?_wordsFrom word replacement [] [] t

end Text

/-! ## Searching for a call by positions -/

namespace Call

/-- What the name of `d` at a byte offset reads as. It fails if the offset is not at a character
border. -/
def readAt? (d : Definition) (t : Text) (start : ℕ) (w : Text) :
    Option (Except Error (Option Call)) := do
  let (before, _) ← splitAtByte? start t
  let (_, after) ← splitAtByte? (start + byteSize w) t
  return ofWord? d before.reverse w after

/-- The search for a call among the words of a text: words that do not count and names that are no
calls are passed over. -/
def firstAmong? (lookup : Text → Option Definition) (t : Text) :
    List (ℕ × Text) → Option (Except Error (Option Call))
  | [] => some (.ok none)
  | (start, w) :: items =>
    match lookup w with
    | none => firstAmong? lookup t items
    | some d => do
      match ← readAt? d t start w with
      | .ok none => firstAmong? lookup t items
      | found => return found

theorem readAt?_of_wordAt {t before w after : Text} (h : WordAt t before w after) (d : Definition) :
    readAt? d t (byteSize before) w = some (ofWord? d before.reverse w after) := by
  have hbefore : splitAtByte? (byteSize before) t = some (before, w ++ after) := by
    rw [h.eq, splitAtByte?_append]
  have hafter : splitAtByte? (byteSize before + byteSize w) t = some (before ++ w, after) := by
    rw [h.eq, ← byteSize_append, ← List.append_assoc, splitAtByte?_append]
  unfold readAt?
  rw [hbefore, hafter]
  rfl

variable {lookup : Text → Option Definition} {t : Text}

/-- A word that is not live is passed over. -/
theorem firstAmong?_cons_of_not_live {before w after : Text} (hat : WordAt t before w after)
    (hlive : ∀ d, ¬ LiveAt lookup t before w after d) (items : List (ℕ × Text)) :
    firstAmong? lookup t ((byteSize before, w) :: items) = firstAmong? lookup t items := by
  rw [firstAmong?]
  cases hd : lookup w with
  | none => rfl
  | some d =>
    have hnone : ofWord? d before.reverse w after = .ok none :=
      (ofWord?_eq_none_iff d _ w after).2 fun h => hlive d ⟨hat, hd, h⟩
    simp only [readAt?_of_wordAt hat, hnone, Option.bind_eq_bind, Option.bind_some]

/-- A live word is read. -/
theorem firstAmong?_cons_of_live {before w after : Text} {d : Definition}
    (hl : LiveAt lookup t before w after d) (items : List (ℕ × Text)) :
    firstAmong? lookup t ((byteSize before, w) :: items) =
      some (ofWord? d before.reverse w after) := by
  have hne : ofWord? d before.reverse w after ≠ .ok none := fun h =>
    (ofWord?_eq_none_iff d _ w after).1 h hl.live
  rw [firstAmong?, hl.lookup]
  simp only [readAt?_of_wordAt hl.wordAt, Option.bind_eq_bind, Option.bind_some, Option.pure_def]

/-- Words that are not live are passed over. -/
theorem firstAmong?_append {front : List (ℕ × Text)}
    (hfront : ∀ p ∈ front, ∃ before after, WordAt t before p.2 after ∧ byteSize before = p.1 ∧
      ∀ d, ¬ LiveAt lookup t before p.2 after d) (rest : List (ℕ × Text)) :
    firstAmong? lookup t (front ++ rest) = firstAmong? lookup t rest := by
  induction front with
  | nil => rfl
  | cons p front ih =>
    obtain ⟨⟨before, after, hat, hsize, hlive⟩, hmore⟩ := List.forall_mem_cons.1 hfront
    rw [List.cons_append, ← Prod.mk.eta (p := p), ← hsize, firstAmong?_cons_of_not_live hat hlive,
      ih hmore]

/-- The scanner for calls is the search over the words of the text with their byte offsets. -/
theorem firstAmong?_wordsAt (lookup : Text → Option Definition) (t : Text) :
    firstAmong? lookup t (wordsAt t) = some (first? lookup t) := by
  rcases first?_cases lookup t with ⟨hfirst, hnone⟩ | ⟨before, w, after, d, hl, hleft, hfirst⟩
  · have hpassed : ∀ p ∈ wordsAt t, ∃ before after, WordAt t before p.2 after ∧
        byteSize before = p.1 ∧ ∀ d, ¬ LiveAt lookup t before p.2 after d := by
      intro p hp
      obtain ⟨before, after, hat, hsize⟩ := mem_wordsAt_iff.1 hp
      exact ⟨before, after, hat, hsize, hnone before p.2 after⟩
    rw [hfirst, ← List.append_nil (wordsAt t), firstAmong?_append hpassed]
    rfl
  · obtain ⟨front, rest, hsplit⟩ :=
      List.append_of_mem (mem_wordsAt_iff.2 ⟨before, after, hl.wordAt, rfl⟩)
    have hpairwise := pairwise_wordsFrom 0 t
    rw [show wordsFrom 0 t = _ from hsplit, List.pairwise_append] at hpairwise
    rw [hsplit, firstAmong?_append _, firstAmong?_cons_of_live hl, hfirst]
    intro p hp
    have hmem : p ∈ wordsAt t := by
      rw [hsplit]
      exact List.mem_append_left _ hp
    obtain ⟨before', after', hat, hsize⟩ := mem_wordsAt_iff.1 hmem
    refine ⟨before', after', hat, hsize, fun d' hl' => ?_⟩
    -- the first live word does not stand further to the right than this one
    have hlt : p.1 + byteSize p.2 < byteSize before := hpairwise.2.2 p hp _ List.mem_cons_self
    obtain ⟨s, rfl⟩ : before <+: before' := List.prefix_of_prefix_length_le
      ⟨_, hl.wordAt.eq.symm⟩ ⟨_, hat.eq.symm⟩ (hleft before' p.2 after' d' hl')
    rw [byteSize_append] at hsize
    omega

end Call

end FlatHeader
