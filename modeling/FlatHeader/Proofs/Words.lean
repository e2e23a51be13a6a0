import FlatHeader.Text.Word
import Mathlib.Data.List.TakeWhile
import Mathlib.Tactic

/-!
# The words of a text

`pieces` cuts a text into words and gaps. Everything that is done to whole words (listing them,
replacing them) is read off two equations, one for a text that starts with a character outside
words and one for a text that starts with a whole word. `word_induction` is the induction that goes
with them.

Two texts that do not merge into one word where they meet (`joins a b = false`) can be treated one
after the other: `words_append` and `mapWords_append`.
-/

namespace FlatHeader.Text

/-! ## The borders of a text -/

/-- No word reaches the beginning of a text: the text is empty or starts outside words. -/
def StartsOutside (t : Text) : Prop := ∀ c ∈ t.head?, isWordChar c = false

/-- No word reaches the end of a text: the text is empty or ends outside words. -/
def EndsOutside (t : Text) : Prop := ∀ c ∈ t.getLast?, isWordChar c = false

theorem startsOutside_nil : StartsOutside [] := by
  intro c hc
  simp at hc

theorem endsOutside_nil : EndsOutside [] := by
  intro c hc
  simp at hc

theorem startsOutside_cons {c : Char} (h : isWordChar c = false) (t : Text) :
    StartsOutside (c :: t) := by
  intro d hd
  rw [List.head?_cons, Option.mem_some_iff] at hd
  rw [← hd, h]

theorem endsOutside_concat (a : Text) (c : Char) :
    EndsOutside (a ++ [c]) ↔ isWordChar c = false := by
  unfold EndsOutside
  rw [List.getLast?_concat]
  simp

/-- A text in front matters for the end only if nothing follows it. -/
theorem EndsOutside.append_left {a b : Text} (hb : EndsOutside b) (ha : b = [] → EndsOutside a) :
    EndsOutside (a ++ b) := by
  by_cases hnil : b = []
  · rw [hnil, List.append_nil]
    exact ha hnil
  · intro c hc
    rw [List.getLast?_append_of_ne_nil a hnil] at hc
    exact hb c hc

theorem EndsOutside.of_append_right {a b : Text} (h : EndsOutside (a ++ b)) : EndsOutside b := by
  intro c hc
  have hne : b ≠ [] := fun hnil => by simp [hnil] at hc
  exact h c (by rwa [List.getLast?_append_of_ne_nil a hne])

theorem StartsOutside.of_append_left {a b : Text} (h : StartsOutside (a ++ b)) :
    StartsOutside a := by
  intro c hc
  have hne : a ≠ [] := fun hnil => by simp [hnil] at hc
  exact h c (by rwa [List.head?_append_of_ne_nil a hne])

/-- A text behind matters for the beginning only if nothing stands before it. -/
theorem StartsOutside.append {a b : Text} (ha : StartsOutside a) (hb : a = [] → StartsOutside b) :
    StartsOutside (a ++ b) := by
  by_cases hnil : a = []
  · rw [hnil, List.nil_append]
    exact hb hnil
  · intro c hc
    rw [List.head?_append_of_ne_nil a hnil] at hc
    exact ha c hc

/-- A run of word characters ends where a text starts outside words. -/
theorem StartsOutside.run_append {v t : Text} (ht : StartsOutside t)
    (hv : ∀ c ∈ v, isWordChar c = true) :
    (v ++ t).takeWhile isWordChar = v ∧ (v ++ t).dropWhile isWordChar = t := by
  rw [List.takeWhile_append_of_pos hv, List.dropWhile_append_of_pos hv]
  cases t with
  | nil => simp
  | cons c t =>
    have hc : ¬ isWordChar c = true := by
      rw [ht c rfl]
      decide
    rw [List.takeWhile_cons_of_neg hc, List.dropWhile_cons_of_neg hc, List.append_nil]
    exact ⟨rfl, rfl⟩

/-- Two texts keep apart exactly if one of them has no word at the border. -/
theorem joins_eq_false_iff (a b : Text) :
    joins a b = false ↔ EndsOutside a ∨ StartsOutside b := by
  unfold joins EndsOutside StartsOutside
  cases a.getLast? with
  | none => simp
  | some c =>
    cases b.head? with
    | none => simp
    | some d =>
      simp only [Option.mem_some_iff, forall_eq']
      exact Bool.and_eq_false_iff

/-- Two texts merge exactly if a word character stands on either side of the border. -/
theorem joins_eq_true_iff (a b : Text) :
    joins a b = true ↔ ∃ c d, a.getLast? = some c ∧ b.head? = some d ∧
      isWordChar c = true ∧ isWordChar d = true := by
  unfold joins
  cases a.getLast? with
  | none => simp
  | some c =>
    cases b.head? with
    | none => simp
    | some d => simp

theorem joins_of_startsOutside (a : Text) {b : Text} (h : StartsOutside b) :
    joins a b = false := (joins_eq_false_iff a b).2 (.inr h)

theorem joins_of_endsOutside {a : Text} (h : EndsOutside a) (b : Text) :
    joins a b = false := (joins_eq_false_iff a b).2 (.inl h)

/-- Where a border lies depends on the last character only. -/
theorem joins_cons_of_ne_nil (c : Char) {a : Text} (h : a ≠ []) (b : Text) :
    joins (c :: a) b = joins a b := by
  unfold joins
  rw [List.getLast?_cons_of_ne_nil h]

/-- What ends outside words can be taken off in front of a border. -/
theorem joins_append_left {l : Text} (h : EndsOutside l) (a b : Text) :
    joins (l ++ a) b = joins a b := by
  by_cases hnil : a = []
  · rw [hnil, List.append_nil, joins_of_endsOutside h, joins_of_endsOutside endsOutside_nil]
  · unfold joins
    rw [List.getLast?_append_of_ne_nil l hnil]

/-- What starts outside words can be taken off behind a border. -/
theorem joins_append_right {r : Text} (h : StartsOutside r) (a b : Text) :
    joins a (b ++ r) = joins a b := by
  by_cases hnil : b = []
  · rw [hnil, List.nil_append, joins_of_startsOutside a h,
      joins_of_startsOutside a startsOutside_nil]
  · unfold joins
    rw [List.head?_append_of_ne_nil b hnil]

theorem joins_append_of_ne_nil (w : Text) {a : Text} (h : a ≠ []) (b : Text) :
    joins (w ++ a) b = joins a b := by
  unfold joins
  rw [List.getLast?_append_of_ne_nil w h]

/-- White space stands outside words. -/
theorem isWordChar_of_isWhiteSpace {c : Char} (h : Unicode.isWhiteSpace c = true) :
    isWordChar c = false := by
  have hall : ∀ n ∈ [0x09, 0x0A, 0x0B, 0x0C, 0x0D, 0x20, 0x85, 0xA0, 0x1680, 0x2000, 0x2001,
      0x2002, 0x2003, 0x2004, 0x2005, 0x2006, 0x2007, 0x2008, 0x2009, 0x200A, 0x2028, 0x2029,
      0x202F, 0x205F, 0x3000], isWordChar (Char.ofNat n) = false := by decide +kernel
  rw [← Char.ofNat_toNat c]
  refine hall c.toNat ?_
  simp only [Unicode.isWhiteSpace] at h
  simp only [List.mem_cons, List.not_mem_nil, or_false]
  split at h
  · simp only [Bool.or_eq_true, Bool.and_eq_true, decide_eq_true_eq, beq_iff_eq] at h
    omega
  · simp only [Bool.or_eq_true, Bool.and_eq_true, decide_eq_true_eq, beq_iff_eq] at h
    omega

/-! ## Whole words -/

/-- A text that is one word. -/
structure IsWord (w : Text) : Prop where
  ne_nil : w ≠ []
  all : ∀ c ∈ w, isWordChar c = true

namespace IsWord

variable {w : Text}

theorem not_mem (hw : IsWord w) {c : Char} (hc : isWordChar c = false) : c ∉ w := by
  intro hmem
  rw [hw.all c hmem] at hc
  exact absurd hc (by decide)

/-- Nothing is trimmed off a word. -/
theorem trim_eq (hw : IsWord w) : trim w = w := by
  have hspace : ∀ c ∈ w, Unicode.isWhiteSpace c = false := by
    intro c hc
    by_contra h
    rw [Bool.not_eq_false] at h
    exact hw.not_mem (isWordChar_of_isWhiteSpace h) hc
  have hdrop : ∀ t : Text, (∀ c ∈ t, Unicode.isWhiteSpace c = false) →
      t.dropWhile Unicode.isWhiteSpace = t := by
    intro t ht
    cases t with
    | nil => rfl
    | cons c t => rw [List.dropWhile_cons_of_neg (by rw [ht c List.mem_cons_self]; decide)]
  unfold trim trimStart dropEndWhile
  rw [hdrop w hspace, hdrop w.reverse fun c hc => hspace c (List.mem_reverse.1 hc),
    List.reverse_reverse]

theorem not_startsOutside (hw : IsWord w) (t : Text) : ¬ StartsOutside (w ++ t) := by
  intro h
  obtain ⟨c, v, rfl⟩ := List.exists_cons_of_ne_nil hw.ne_nil
  exact hw.not_mem (h c rfl) List.mem_cons_self

theorem not_endsOutside (hw : IsWord w) : ¬ EndsOutside w := by
  intro h
  have hlast := h _ (List.getLast?_eq_some_getLast hw.ne_nil)
  exact hw.not_mem hlast (List.getLast_mem hw.ne_nil)

/-- Only a text that starts outside words keeps apart from a word before it. -/
theorem startsOutside_of_joins (hw : IsWord w) {b : Text} (h : joins w b = false) :
    StartsOutside b :=
  ((joins_eq_false_iff w b).1 h).resolve_left hw.not_endsOutside

/-- A word does not lie across a border at which two texts keep apart. -/
theorem eq_nil_of_joins {s v a b : Text} (hw : IsWord (s ++ v))
    (h : joins (a ++ s) (v ++ b) = false) : s = [] ∨ v = [] := by
  rcases List.eq_nil_or_concat s with rfl | ⟨r, c, rfl⟩
  · exact .inl rfl
  · cases v with
    | nil => exact .inr rfl
    | cons d v =>
      have hc : isWordChar c = true := hw.all c (by simp)
      have hd : isWordChar d = true := hw.all d (by simp)
      have hjoins : joins (a ++ r.concat c) (d :: v ++ b) = true :=
        (joins_eq_true_iff _ _).2 ⟨c, d, by simp, rfl, hc, hd⟩
      rw [h] at hjoins
      exact absurd hjoins (by decide)

end IsWord

/-- The induction over the words and the characters between them, from the left. -/
theorem word_induction {motive : Text → Prop} (nil : motive [])
    (gap : ∀ c t, isWordChar c = false → motive t → motive (c :: t))
    (word : ∀ w t, IsWord w → StartsOutside t → motive t → motive (w ++ t)) :
    ∀ t, motive t := by
  intro t
  induction hn : t.length using Nat.strong_induction_on generalizing t with
  | h n ih =>
    cases t with
    | nil => exact nil
    | cons c t =>
      rw [List.length_cons] at hn
      by_cases hc : isWordChar c = true
      · -- the word is the longest run from here, and at least one character long
        have hsplit : (c :: t).takeWhile isWordChar ++ (c :: t).dropWhile isWordChar = c :: t :=
          List.takeWhile_append_dropWhile
        rw [← hsplit]
        refine word _ _ ⟨?_, fun d hd => List.mem_takeWhile_imp hd⟩ ?_ (ih _ ?_ _ rfl)
        · rw [List.takeWhile_cons_of_pos hc]
          exact List.cons_ne_nil _ _
        · intro d hd
          have h := List.head?_dropWhile_not isWordChar (c :: t)
          rw [Option.mem_def] at hd
          rw [hd] at h
          simpa using h
        · rw [List.dropWhile_cons_of_pos hc]
          have := (List.dropWhile_sublist isWordChar (l := t)).length_le
          omega
      · rw [Bool.not_eq_true] at hc
        exact gap c t hc (ih t.length (by omega) t rfl)

/-- A text starts outside words, or with a whole word. -/
theorem startsOutside_or_exists_word (t : Text) :
    StartsOutside t ∨ ∃ w rest, t = w ++ rest ∧ IsWord w ∧ StartsOutside rest := by
  induction t using word_induction with
  | nil => exact .inl startsOutside_nil
  | gap c t hc => exact .inl (startsOutside_cons hc t)
  | word w t hw ht => exact .inr ⟨w, t, rfl, hw, ht⟩

/-- A text ends outside words, or with a whole word. -/
theorem endsOutside_or_exists_word (t : Text) :
    EndsOutside t ∨ ∃ front w, t = front ++ w ∧ EndsOutside front ∧ IsWord w := by
  induction t using word_induction with
  | nil => exact .inl endsOutside_nil
  | gap c t hc ih =>
    have hsingle : EndsOutside [c] := (endsOutside_concat [] c).2 hc
    rcases ih with ht | ⟨front, w, rfl, hfront, hw⟩
    · exact .inl (ht.append_left (a := [c]) fun _ => hsingle)
    · exact .inr ⟨[c] ++ front, w, rfl, hfront.append_left fun _ => hsingle, hw⟩
  | word v t hv ht ih =>
    rcases ih with ht' | ⟨front, w, rfl, hfront, hw⟩
    · by_cases hnil : t = []
      · exact .inr ⟨[], v, by rw [hnil, List.append_nil, List.nil_append], endsOutside_nil, hv⟩
      · exact .inl (ht'.append_left fun h => absurd h hnil)
    · -- the last word is not the first one, so something outside words stands before it
      have hne : front ≠ [] := by
        rintro rfl
        rw [List.nil_append, ← List.append_nil w] at ht
        exact hw.not_startsOutside [] ht
      exact .inr ⟨v ++ front, w, by rw [List.append_assoc],
        hfront.append_left fun h => absurd h hne, hw⟩

/-! ## Pieces -/

theorem pieces_cons (c : Char) (t : Text) : pieces (c :: t) = Piece.push c (pieces t) := rfl

/-- A character outside words is in the first gap, which it may have to itself. -/
theorem push_of_outside {c : Char} (h : isWordChar c = false) (ps : List Piece) :
    (∃ g rest, ps = .gap g :: rest ∧ Piece.push c ps = .gap (c :: g) :: rest) ∨
      Piece.push c ps = .gap [c] :: ps := by
  unfold Piece.push
  rw [if_neg (by rw [h]; decide)]
  split
  · next g rest => exact .inl ⟨g, rest, rfl, rfl⟩
  · exact .inr rfl

theorem push_word {c : Char} (h : isWordChar c = true) (w : Text) (ps : List Piece) :
    Piece.push c (.word w :: ps) = .word (c :: w) :: ps := by
  unfold Piece.push
  rw [if_pos h]

theorem push_of_head_gap {c : Char} (h : isWordChar c = true) {ps : List Piece}
    (hps : ∀ p ∈ ps.head?, p.word? = none) : Piece.push c ps = .word [c] :: ps := by
  unfold Piece.push
  rw [if_pos h]
  split
  · next w rest => exact absurd (hps _ rfl) (by simp [Piece.word?])
  · rfl

/-- The first piece of a text that starts outside words is no word. -/
theorem word?_head_pieces {t : Text} (h : StartsOutside t) :
    ∀ p ∈ (pieces t).head?, p.word? = none := by
  cases t with
  | nil => simp [pieces]
  | cons c t =>
    intro p hp
    rw [pieces_cons] at hp
    rcases push_of_outside (h c rfl) (pieces t) with ⟨g, rest, -, hg⟩ | hg
    · rw [hg, List.head?_cons, Option.mem_some_iff] at hp
      rw [← hp, Piece.word?]
    · rw [hg, List.head?_cons, Option.mem_some_iff] at hp
      rw [← hp, Piece.word?]

/-- A word at the beginning of a text is its first piece. -/
theorem pieces_word {w t : Text} (hw : IsWord w) (ht : StartsOutside t) :
    pieces (w ++ t) = .word w :: pieces t := by
  obtain ⟨hne, hall⟩ := hw
  induction w with
  | nil => exact absurd rfl hne
  | cons c w ih =>
    have hc := hall c List.mem_cons_self
    rw [List.cons_append, pieces_cons]
    by_cases hnil : w = []
    · rw [hnil, List.nil_append, push_of_head_gap hc (word?_head_pieces ht)]
    · rw [ih hnil fun d hd => hall d (List.mem_cons_of_mem c hd), push_word hc]

/-! ## Reading a text piece by piece

Both the list of the words and the exchange of words go over the pieces once. What they share is
proved for `readPieces`, with one function for the words and one for the other characters. -/

/-- What is read off a text, with `f` for each word and `g` for each character between words. -/
def readPieces {α : Type} (f : Text → List α) (g : Char → List α) (t : Text) : List α :=
  (pieces t).flatMap fun
    | .word w => f w
    | .gap s => s.flatMap g

section readPieces

variable {α : Type} (f : Text → List α) (g : Char → List α)

theorem readPieces_gap {c : Char} (h : isWordChar c = false) (t : Text) :
    readPieces f g (c :: t) = g c ++ readPieces f g t := by
  unfold readPieces
  rw [pieces_cons]
  rcases push_of_outside h (pieces t) with ⟨s, rest, hps, hs⟩ | hs
  · rw [hs, hps]
    simp only [List.flatMap_cons, List.append_assoc]
  · rw [hs]
    simp only [List.flatMap_cons, List.flatMap_nil, List.append_nil]

theorem readPieces_word {w t : Text} (hw : IsWord w) (ht : StartsOutside t) :
    readPieces f g (w ++ t) = f w ++ readPieces f g t := by
  unfold readPieces
  rw [pieces_word hw ht, List.flatMap_cons]

/-- Two texts that do not merge are read one after the other. -/
theorem readPieces_append {a b : Text} (h : joins a b = false) :
    readPieces f g (a ++ b) = readPieces f g a ++ readPieces f g b := by
  induction a using word_induction with
  | nil => rfl
  | gap c a hc ih =>
    rw [List.cons_append, readPieces_gap f g hc, readPieces_gap f g hc]
    by_cases ha : a = []
    · rw [ha, List.append_assoc]; rfl
    · rw [joins_cons_of_ne_nil c ha] at h
      rw [ih h, List.append_assoc]
  | word w a hw ha ih =>
    -- the border is at `w` itself or behind a text that `w` does not touch
    by_cases hnil : a = []
    · subst hnil
      have hself := readPieces_word f g hw startsOutside_nil
      rw [List.append_nil] at h hself ⊢
      rw [readPieces_word f g hw (hw.startsOutside_of_joins h), hself, List.append_assoc]
      rfl
    · have hab : StartsOutside (a ++ b) := by
        intro c hc
        rw [List.head?_append_of_ne_nil _ hnil] at hc
        exact ha c hc
      rw [joins_append_of_ne_nil w hnil] at h
      rw [List.append_assoc, readPieces_word f g hw hab, readPieces_word f g hw ha, ih h,
        List.append_assoc]

end readPieces

/-! ## The list of the words -/

theorem words_eq_readPieces (t : Text) : words t = readPieces (fun w => [w]) (fun _ => []) t := by
  unfold words readPieces
  rw [List.filterMap_eq_flatMap_toList]
  congr 1
  funext p
  cases p <;> simp [Piece.word?]

@[simp] theorem words_nil : words [] = [] := rfl

theorem words_gap {c : Char} (h : isWordChar c = false) (t : Text) :
    words (c :: t) = words t := by
  rw [words_eq_readPieces, words_eq_readPieces, readPieces_gap _ _ h, List.nil_append]

theorem words_word {w t : Text} (hw : IsWord w) (ht : StartsOutside t) :
    words (w ++ t) = w :: words t := by
  rw [words_eq_readPieces, words_eq_readPieces, readPieces_word _ _ hw ht, List.singleton_append]

theorem words_of_isWord {w : Text} (h : IsWord w) : words w = [w] := by
  have hself := words_word h startsOutside_nil
  rwa [List.append_nil, words_nil] at hself

/-- The words of two texts that do not merge are the words of both. -/
theorem words_append {a b : Text} (h : joins a b = false) :
    words (a ++ b) = words a ++ words b := by
  rw [words_eq_readPieces, words_eq_readPieces, words_eq_readPieces, readPieces_append _ _ h]

/-- A character that belongs to no word keeps the words around it apart. -/
theorem words_append_cons {c : Char} (h : isWordChar c = false) (a b : Text) :
    words (a ++ c :: b) = words a ++ words b := by
  rw [words_append (joins_of_startsOutside a (startsOutside_cons h b)), words_gap h]

/-- There is only one word at the end of a text. -/
theorem IsWord.last_unique {a b v w : Text} (hv : IsWord v) (hw : IsWord w) (ha : EndsOutside a)
    (hb : EndsOutside b) (h : a ++ v = b ++ w) : v = w := by
  have hwords := congrArg words h
  rw [words_append (joins_of_endsOutside ha v), words_append (joins_of_endsOutside hb w),
    words_of_isWord hv, words_of_isWord hw] at hwords
  exact List.singleton_inj.1 (List.append_inj' hwords rfl).2

/-! ## The exchange of words -/

/-- A text in which every word is exchanged, all at once, and nothing else is changed. -/
def mapWords (f : Text → Text) (t : Text) : Text :=
  (pieces t).flatMap fun
    | .word w => f w
    | .gap s => s

/-- Replacing one word exchanges that word and keeps all others. -/
theorem replaceWord_eq_mapWords (word replacement t : Text) :
    replaceWord word replacement t = mapWords (fun w => if w = word then replacement else w) t := by
  unfold replaceWord mapWords
  congr 1
  funext p
  cases p <;> simp [Piece.text]

theorem mapWords_eq_readPieces (f : Text → Text) (t : Text) :
    mapWords f t = readPieces f (fun c => [c]) t := by
  unfold mapWords readPieces
  congr 1
  funext p
  cases p <;> simp

@[simp] theorem mapWords_nil (f : Text → Text) : mapWords f [] = [] := rfl

theorem mapWords_gap (f : Text → Text) {c : Char} (h : isWordChar c = false) (t : Text) :
    mapWords f (c :: t) = c :: mapWords f t := by
  rw [mapWords_eq_readPieces, mapWords_eq_readPieces, readPieces_gap _ _ h, List.singleton_append]

theorem mapWords_word (f : Text → Text) {w t : Text} (hw : IsWord w) (ht : StartsOutside t) :
    mapWords f (w ++ t) = f w ++ mapWords f t := by
  rw [mapWords_eq_readPieces, mapWords_eq_readPieces, readPieces_word _ _ hw ht]

/-- Two texts that do not merge are changed one after the other. -/
theorem mapWords_append (f : Text → Text) {a b : Text} (h : joins a b = false) :
    mapWords f (a ++ b) = mapWords f a ++ mapWords f b := by
  rw [mapWords_eq_readPieces, mapWords_eq_readPieces, mapWords_eq_readPieces,
    readPieces_append _ _ h]

theorem StartsOutside.mapWords {t : Text} (h : StartsOutside t) (f : Text → Text) :
    StartsOutside (mapWords f t) := by
  cases t with
  | nil => exact startsOutside_nil
  | cons c t =>
    have hc : isWordChar c = false := h c rfl
    rw [mapWords_gap f hc]
    exact startsOutside_cons hc _

theorem mapWords_id (t : Text) : mapWords id t = t := by
  induction t using word_induction with
  | nil => rfl
  | gap c t hc ih => rw [mapWords_gap id hc, ih]
  | word w t hw ht ih => rw [mapWords_word id hw ht, ih, id_eq]

/-- What a word is exchanged for matters only for the words that occur. -/
theorem mapWords_congr {f g : Text → Text} {t : Text} (h : ∀ w ∈ words t, f w = g w) :
    mapWords f t = mapWords g t := by
  induction t using word_induction with
  | nil => rfl
  | gap c t hc ih =>
    rw [words_gap hc] at h
    rw [mapWords_gap f hc, mapWords_gap g hc, ih h]
  | word w t hw ht ih =>
    rw [words_word hw ht] at h
    rw [mapWords_word f hw ht, mapWords_word g hw ht, h w List.mem_cons_self,
      ih fun v hv => h v (List.mem_cons_of_mem w hv)]

/-- A text is unchanged if its words are. -/
theorem mapWords_eq_self {f : Text → Text} {t : Text} (h : ∀ w ∈ words t, f w = w) :
    mapWords f t = t := by
  rw [mapWords_congr (g := id) h, mapWords_id]

theorem isWord_of_mem_words {w t : Text} (h : w ∈ words t) : IsWord w := by
  induction t using word_induction with
  | nil => exact absurd h List.not_mem_nil
  | gap c t hc ih =>
    rw [words_gap hc] at h
    exact ih h
  | word v t hv ht ih =>
    rw [words_word hv ht] at h
    rcases List.mem_cons.1 h with rfl | h
    · exact hv
    · exact ih h

theorem mapWords_of_isWord (f : Text → Text) {w : Text} (h : IsWord w) : mapWords f w = f w := by
  have hself := mapWords_word f h startsOutside_nil
  rwa [List.append_nil, mapWords_nil, List.append_nil] at hself

/-- Exchanging words neither merges nor splits any: each is exchanged for the words of its
replacement. -/
theorem words_mapWords (f : Text → Text) (t : Text) :
    words (mapWords f t) = (words t).flatMap fun w => words (f w) := by
  induction t using word_induction with
  | nil => rfl
  | gap c t hc ih => rw [mapWords_gap f hc, words_gap hc, words_gap hc, ih]
  | word w t hw ht ih =>
    rw [mapWords_word f hw ht, words_append (joins_of_startsOutside _ (ht.mapWords f)),
      words_word hw ht, List.flatMap_cons, ih]

/-- Two exchanges after each other are one, in which the second acts on the replacements of the
first. -/
theorem mapWords_mapWords (f g : Text → Text) (t : Text) :
    mapWords g (mapWords f t) = mapWords (fun w => mapWords g (f w)) t := by
  induction t using word_induction with
  | nil => rfl
  | gap c t hc ih => rw [mapWords_gap f hc, mapWords_gap g hc, mapWords_gap _ hc, ih]
  | word w t hw ht ih =>
    rw [mapWords_word f hw ht, mapWords_append g (joins_of_startsOutside _ (ht.mapWords f)),
      mapWords_word _ hw ht, ih]

/-! ## Where a word stands -/

/-- In the text `t` the word `w` stands between `before` and `after`: it is a run of word
characters that goes on at neither side. -/
structure WordAt (t before w after : Text) : Prop where
  eq : t = before ++ (w ++ after)
  isWord : IsWord w
  left : EndsOutside before
  right : StartsOutside after

namespace WordAt

variable {t before w after : Text}

theorem words_eq (h : WordAt t before w after) : words t = words before ++ w :: words after := by
  rw [h.eq, words_append (joins_of_endsOutside h.left _), words_word h.isWord h.right]

theorem mapWords_eq (h : WordAt t before w after) (f : Text → Text) :
    mapWords f t = mapWords f before ++ (f w ++ mapWords f after) := by
  rw [h.eq, mapWords_append f (joins_of_endsOutside h.left _), mapWords_word f h.isWord h.right]

/-- Only one word starts at a place. -/
theorem unique {before' w' after' : Text} (h : WordAt t before w after)
    (h' : WordAt t before' w' after') (hlen : before.length = before'.length) :
    before = before' ∧ w = w' ∧ after = after' := by
  obtain ⟨hbefore, hrest⟩ := List.append_inj (h.eq.symm.trans h'.eq) hlen
  -- both words are the run of word characters from there
  have hw : w = w' := by
    rw [← (h.right.run_append h.isWord.all).1, hrest, (h'.right.run_append h'.isWord.all).1]
  rw [hw] at hrest
  exact ⟨hbefore, hw, List.append_cancel_left hrest⟩

/-- In a single word no word stands behind others. -/
theorem before_eq_nil (h : WordAt t before w after) (ht : IsWord t) : before = [] := by
  rcases List.eq_nil_or_concat before with rfl | ⟨s, c, rfl⟩
  · rfl
  · rw [List.concat_eq_append] at h
    have hc : isWordChar c = true := ht.all c (by rw [h.eq]; simp)
    rw [(endsOutside_concat s c).1 h.left] at hc
    exact absurd hc (by decide)

/-- In a text that ends outside words something stands behind every word. -/
theorem after_ne_nil (h : WordAt t before w after) (ht : EndsOutside t) : after ≠ [] := by
  rintro rfl
  rw [h.eq, List.append_nil] at ht
  exact h.isWord.not_endsOutside ht.of_append_right

/-- The same word, in a text with more in front. -/
theorem append_left {v : Text} (h : WordAt t before w after) (hv : before = [] → EndsOutside v) :
    WordAt (v ++ t) (v ++ before) w after :=
  ⟨by rw [h.eq, List.append_assoc], h.isWord, h.left.append_left hv, h.right⟩

end WordAt

/-- A word that stands in one of two texts stands in both together if they do not merge, and no
other word stands there. -/
theorem wordAt_append_iff {a b before w after : Text} (h : joins a b = false) :
    WordAt (a ++ b) before w after ↔
      (∃ rest, WordAt a before w rest ∧ after = rest ++ b) ∨
        ∃ front, WordAt b front w after ∧ before = a ++ front := by
  constructor
  · intro hat
    rcases List.append_eq_append_iff.1 hat.eq with ⟨front, rfl, hb⟩ | ⟨s, rfl, hs⟩
    · exact .inr ⟨front, ⟨hb, hat.isWord, hat.left.of_append_right, hat.right⟩, rfl⟩
    · rcases List.append_eq_append_iff.1 hs with ⟨rest, rfl, rfl⟩ | ⟨v, rfl, rfl⟩
      · exact .inl ⟨rest, ⟨rfl, hat.isWord, hat.left, hat.right.of_append_left⟩, rfl⟩
      · -- the word ends behind the border, so it starts there: it does not lie across
        rcases hat.isWord.eq_nil_of_joins h with rfl | rfl
        · exact .inr ⟨[], ⟨rfl, hat.isWord, endsOutside_nil, hat.right⟩, by simp⟩
        · exact .inl ⟨[], ⟨by simp, hat.isWord, hat.left, startsOutside_nil⟩, rfl⟩
  · rintro (⟨rest, hat, rfl⟩ | ⟨front, hat, rfl⟩)
    · refine ⟨by rw [hat.eq]; simp, hat.isWord, hat.left, hat.right.append fun hnil => ?_⟩
      rw [hat.eq, hnil, List.append_nil, joins_append_of_ne_nil before hat.isWord.ne_nil] at h
      exact hat.isWord.startsOutside_of_joins h
    · refine hat.append_left fun hnil => ?_
      rw [hat.eq, hnil] at h
      exact ((joins_eq_false_iff _ _).1 h).resolve_right (hat.isWord.not_startsOutside after)

theorem not_wordAt_nil {before w after : Text} : ¬ WordAt [] before w after := by
  intro hat
  exact absurd hat.words_eq (by simp)

/-- Behind a character that belongs to no word, the words are those of the rest. -/
theorem wordAt_cons_iff {c : Char} (hc : isWordChar c = false) {t before w after : Text} :
    WordAt (c :: t) before w after ↔ ∃ front, WordAt t front w after ∧ before = c :: front := by
  have hsingle : EndsOutside [c] := (endsOutside_concat [] c).2 hc
  rw [← List.singleton_append, wordAt_append_iff (joins_of_endsOutside hsingle t)]
  refine or_iff_right ?_
  -- the character by itself has no words
  rintro ⟨rest, hat, -⟩
  have hwords := hat.words_eq
  rw [words_gap hc, words_nil] at hwords
  exact absurd hwords (by simp)

/-- The words of a text that starts with a word: this one, and those of the rest. -/
theorem wordAt_word_iff {v t : Text} (hv : IsWord v) (ht : StartsOutside t)
    {before w after : Text} :
    WordAt (v ++ t) before w after ↔
      (before = [] ∧ w = v ∧ after = t) ∨
        ∃ front, WordAt t front w after ∧ before = v ++ front := by
  rw [wordAt_append_iff (joins_of_startsOutside v ht)]
  refine or_congr ⟨?_, ?_⟩ Iff.rfl
  · rintro ⟨rest, hat, rfl⟩
    have hfirst : WordAt v [] v [] :=
      ⟨(List.append_nil v).symm, hv, endsOutside_nil, startsOutside_nil⟩
    obtain ⟨hbefore, hw, hrest⟩ := hat.unique hfirst (by rw [hat.before_eq_nil hv])
    exact ⟨hbefore, hw, by rw [hrest, List.nil_append]⟩
  · rintro ⟨rfl, rfl, rfl⟩
    exact ⟨[], ⟨(List.append_nil w).symm, hv, endsOutside_nil, startsOutside_nil⟩, rfl⟩

/-- The words around a character that belongs to none. -/
theorem wordAt_append_cons_iff {c : Char} (hc : isWordChar c = false) {a b before w after : Text} :
    WordAt (a ++ c :: b) before w after ↔
      (∃ rest, WordAt a before w rest ∧ after = rest ++ c :: b) ∨
        ∃ front, WordAt b front w after ∧ before = a ++ c :: front := by
  rw [wordAt_append_iff (joins_of_startsOutside a (startsOutside_cons hc b))]
  refine or_congr Iff.rfl ⟨?_, ?_⟩
  · rintro ⟨front, hat, rfl⟩
    obtain ⟨front', hat', rfl⟩ := (wordAt_cons_iff hc).1 hat
    exact ⟨front', hat', rfl⟩
  · rintro ⟨front, hat, rfl⟩
    exact ⟨c :: front, (wordAt_cons_iff hc).2 ⟨front, hat, rfl⟩, rfl⟩

/-- The words of a text are the texts that stand in it as a word somewhere. -/
theorem mem_words_iff {w t : Text} : w ∈ words t ↔ ∃ before after, WordAt t before w after := by
  constructor
  · intro h
    induction t using word_induction with
    | nil => exact absurd h List.not_mem_nil
    | gap c t hc ih =>
      rw [words_gap hc] at h
      obtain ⟨before, after, hat⟩ := ih h
      exact ⟨c :: before, after, (wordAt_cons_iff hc).2 ⟨before, hat, rfl⟩⟩
    | word v t hv ht ih =>
      rw [words_word hv ht] at h
      rcases List.mem_cons.1 h with rfl | h
      · exact ⟨[], t, rfl, hv, endsOutside_nil, ht⟩
      · obtain ⟨before, after, hat⟩ := ih h
        exact ⟨v ++ before, after, (wordAt_word_iff hv ht).2 (.inr ⟨before, hat, rfl⟩)⟩
  · rintro ⟨before, after, hat⟩
    rw [hat.words_eq]
    exact List.mem_append_right _ List.mem_cons_self

/-! ## Identifiers -/

/-- What may start a name may also continue it. -/
theorem isWordChar_of_isNameStart {c : Char} (h : isNameStart c = true) : isWordChar c = true := by
  unfold isNameStart at h
  unfold isWordChar Unicode.isXidContinue
  rcases Bool.or_eq_true_iff.1 h with h | h
  · rw [beq_iff_eq.1 h]
    decide
  · rw [h, Bool.true_or]

theorem isWord_of_isIdentifier {w : Text} (h : isIdentifier w = true) : IsWord w := by
  cases w with
  | nil => exact absurd h (by decide)
  | cons c t =>
    rw [isIdentifier, Bool.and_eq_true, List.all_eq_true] at h
    exact ⟨List.cons_ne_nil c t,
      List.forall_mem_cons.2 ⟨isWordChar_of_isNameStart h.1, h.2⟩⟩

/-- An identifier is read up to the first character outside words. -/
theorem identifier?_append {w t : Text} (hw : isIdentifier w = true) (ht : StartsOutside t) :
    identifier? (w ++ t) = some (w, t) := by
  cases w with
  | nil => exact absurd hw (by decide)
  | cons c v =>
    rw [isIdentifier, Bool.and_eq_true, List.all_eq_true] at hw
    obtain ⟨htake, hdrop⟩ := ht.run_append hw.2
    rw [List.cons_append, identifier?, if_pos hw.1, htake, hdrop]

/-- What is read of a text is the identifier that it starts with, in its full length. -/
theorem identifier?_eq_some_iff {t w rest : Text} :
    identifier? t = some (w, rest) ↔
      t = w ++ rest ∧ isIdentifier w = true ∧ StartsOutside rest := by
  constructor
  · intro h
    unfold identifier? at h
    split at h
    · exact absurd h (by simp)
    · next c t =>
      split at h
      · next hc =>
        obtain ⟨rfl, rfl⟩ := Prod.mk.inj (Option.some.inj h)
        refine ⟨by rw [List.cons_append, List.takeWhile_append_dropWhile], ?_, fun d hd => ?_⟩
        · rw [isIdentifier, hc, Bool.true_and, List.all_eq_true]
          exact fun d hd => List.mem_takeWhile_imp hd
        · have hstop := List.head?_dropWhile_not isWordChar t
          rwa [Option.mem_def.1 hd] at hstop
      · exact absurd h (by simp)
  · rintro ⟨rfl, hw, hrest⟩
    exact identifier?_append hw hrest

end FlatHeader.Text
