import FlatHeader.Proofs.MarkerPieces

/-!
# Exchanging stretches of a text

Two functions exchange stretches of a text and copy everything else: `replaceWord` exchanges the
runs of word characters that are equal to a word, and `joinLines` exchanges the continuation
markers. `Exchanged` says what that means without a word on how the text is gone through: the text
is cut into characters that are kept and stretches that are taken out, the stretches are exactly
those in question, with what stands before and behind each, and in the result others stand in their
place. There is only one such result (`Exchanged.iff_eq`).

Since the parts of a cut follow one another, stretches that are exchanged do not overlap
(`Exchanged.apart`). For continuation markers this is a property of their form, and it comes out of
the cut.
-/

namespace FlatHeader

open Text

/-! ## Cuts -/

namespace Text

/-- A part of a text that is cut up: a character that is kept, or a stretch that is taken out. -/
inductive Part where
  | kept (c : Char)
  | taken (m : Text)
deriving DecidableEq

/-- The characters of a part. -/
def Part.text : Part → Text
  | kept c => [c]
  | taken m => m

/-- A part with `f` of it in its place, if it is one that is taken out. -/
def Part.exchange (f : Text → Text) : Part → Text
  | kept c => [c]
  | taken m => f m

/-- A text cut into parts. -/
abbrev Cut := List Part

namespace Cut

/-- The text that is cut up. -/
def text (c : Cut) : Text := c.flatMap Part.text

/-- The text in which `f` of it stands in the place of every stretch that is taken out. -/
def exchange (f : Text → Text) (c : Cut) : Text := c.flatMap (Part.exchange f)

/-- The stretch `m` between `before` and `after` is taken out. -/
def Takes (c : Cut) (before m after : Text) : Prop :=
  ∃ front rest : Cut, c = front ++ .taken m :: rest ∧ front.text = before ∧ rest.text = after

variable {c d : Cut} {before m after : Text}

theorem text_append (c d : Cut) : (c ++ d : Cut).text = c.text ++ d.text := List.flatMap_append

theorem not_takes_nil : ¬ Takes [] before m after := by
  rintro ⟨front, rest, heq, -⟩
  exact absurd heq (by simp)

/-- Behind a character that is kept, the stretches of the rest are taken out. -/
theorem takes_kept_iff (x : Char) :
    Takes (.kept x :: c) before m after ↔ ∃ front, before = x :: front ∧ c.Takes front m after := by
  constructor
  · rintro ⟨front, rest, heq, rfl, rfl⟩
    cases front with
    | nil => exact absurd heq (by simp)
    | cons p front =>
      obtain ⟨rfl, rfl⟩ := List.cons.inj heq
      exact ⟨text front, rfl, front, rest, rfl, rfl, rfl⟩
  · rintro ⟨-, rfl, front, rest, rfl, rfl, rfl⟩
    exact ⟨.kept x :: front, rest, rfl, rfl, rfl⟩

/-- A stretch that is taken out is one of the stretches. -/
theorem takes_taken_iff (v : Text) :
    Takes (.taken v :: c) before m after ↔
      (before = [] ∧ m = v ∧ after = c.text) ∨
        ∃ front, before = v ++ front ∧ c.Takes front m after := by
  constructor
  · rintro ⟨front, rest, heq, rfl, rfl⟩
    cases front with
    | nil =>
      obtain ⟨hpart, rfl⟩ := List.cons.inj heq
      obtain rfl := Part.taken.inj hpart
      exact .inl ⟨rfl, rfl, rfl⟩
    | cons p front =>
      obtain ⟨rfl, rfl⟩ := List.cons.inj heq
      exact .inr ⟨text front, rfl, front, rest, rfl, rfl, rfl⟩
  · rintro (⟨rfl, rfl, rfl⟩ | ⟨-, rfl, front, rest, rfl, rfl, rfl⟩)
    · exact ⟨[], c, rfl, rfl, rfl⟩
    · exact ⟨.taken v :: front, rest, rfl, rfl, rfl⟩

/-- A stretch at or behind another one is that one, or starts where it has ended. -/
theorem taken_cases {front mid rest rest' : Cut} {m m' : Text}
    (h : .taken m :: rest = mid ++ .taken m' :: rest') :
    (mid = [] ∧ m = m' ∧ rest = rest') ∨ front.text ++ m <+: Cut.text (front ++ mid) := by
  cases mid with
  | nil =>
    obtain ⟨hpart, hrest⟩ := List.cons.inj h
    exact .inl ⟨rfl, Part.taken.inj hpart, hrest⟩
  | cons p mid =>
    obtain ⟨rfl, -⟩ := List.cons.inj h
    refine .inr ⟨text mid, ?_⟩
    rw [text_append, List.append_assoc]
    rfl

/-- Two stretches that are taken out are the same, or one ends before the other starts. -/
theorem Takes.apart {before' m' after' : Text} (h : c.Takes before m after)
    (h' : c.Takes before' m' after') :
    (before = before' ∧ m = m' ∧ after = after') ∨
      before ++ m <+: before' ∨ before' ++ m' <+: before := by
  obtain ⟨front, rest, rfl, rfl, rfl⟩ := h
  obtain ⟨front', rest', heq, rfl, rfl⟩ := h'
  rcases List.append_eq_append_iff.1 heq with ⟨mid, rfl, hmid⟩ | ⟨mid, rfl, hmid⟩
  · rcases taken_cases hmid with ⟨rfl, rfl, rfl⟩ | hbehind
    · exact .inl ⟨by rw [List.append_nil], rfl, rfl⟩
    · exact .inr (.inl hbehind)
  · rcases taken_cases hmid with ⟨rfl, rfl, rfl⟩ | hbehind
    · exact .inl ⟨by rw [List.append_nil], rfl, rfl⟩
    · exact .inr (.inr hbehind)

theorem takes_first (m : Text) (c : Cut) : Takes (.taken m :: c) [] m c.text :=
  ⟨[], c, rfl, rfl, rfl⟩

theorem takes_kept_cons_iff (x : Char) :
    Takes (.kept x :: c) (x :: before) m after ↔ c.Takes before m after := by
  rw [takes_kept_iff]
  simp

theorem takes_taken_append_iff {v : Text} (hv : v ≠ []) :
    Takes (.taken v :: c) (v ++ before) m after ↔ c.Takes before m after := by
  rw [takes_taken_iff]
  simp [hv]

/-- A cut from which a stretch at the beginning is taken out starts with that stretch, if none is
empty. -/
theorem exists_taken_of_takes (h : d.Takes [] m after)
    (hne : ∀ v after, d.Takes [] v after → v ≠ []) : ∃ rest : Cut, d = .taken m :: rest := by
  cases d with
  | nil => exact absurd h not_takes_nil
  | cons p d =>
    cases p with
    | kept x =>
      obtain ⟨front, hnil, -⟩ := (takes_kept_iff x).1 h
      exact absurd hnil (by simp)
    | taken v =>
      rcases (takes_taken_iff v).1 h with ⟨-, rfl, -⟩ | ⟨front, hnil, -⟩
      · exact ⟨d, rfl⟩
      · exact absurd (List.append_eq_nil_iff.1 hnil.symm).1 (hne v _ (takes_first v d))

/-- Two cuts of a text that take out the same stretches are the same, if no stretch is empty. -/
theorem eq_of_takes_iff (hne : ∀ before m after, c.Takes before m after → m ≠ [])
    (htext : c.text = d.text)
    (htakes : ∀ before m after, c.Takes before m after ↔ d.Takes before m after) : c = d := by
  induction c generalizing d with
  | nil =>
    cases d with
    | nil => rfl
    | cons p d =>
      cases p with
      | kept x => exact absurd htext (by simp [text, Part.text])
      | taken v => exact absurd ((htakes [] v _).2 (takes_first v d)) not_takes_nil
  | cons p c ih =>
    cases p with
    | kept x =>
      cases d with
      | nil => exact absurd htext (by simp [text, Part.text])
      | cons q d =>
        cases q with
        | kept y =>
          obtain ⟨rfl, htail⟩ := List.cons.inj htext
          rw [ih (fun before m after h => hne (x :: before) m after ((takes_kept_cons_iff x).2 h))
            htail fun before m after => (takes_kept_cons_iff x).symm.trans
              ((htakes _ m after).trans (takes_kept_cons_iff x))]
        | taken v =>
          obtain ⟨rest, heq⟩ := exists_taken_of_takes ((htakes [] v _).2 (takes_first v d)) (hne [])
          exact absurd heq (by simp)
    | taken m =>
      have hm : m ≠ [] := hne [] m _ (takes_first m c)
      obtain ⟨rest, rfl⟩ := exists_taken_of_takes ((htakes [] m _).1 (takes_first m c))
        fun v after h => hne [] v after ((htakes [] v after).2 h)
      rw [ih (fun before v after h => hne (m ++ before) v after ((takes_taken_append_iff hm).2 h))
        (List.append_cancel_left htext) fun before v after => (takes_taken_append_iff hm).symm.trans
          ((htakes _ v after).trans (takes_taken_append_iff hm))]

end Cut

/-! ## Texts with stretches exchanged -/

/-- The text `u` is `t` with `f m` in the place of every stretch `m` that stands between `before`
and `after` with `P before m after`, and everything else copied in order. -/
def Exchanged (P : Text → Text → Text → Prop) (f : Text → Text) (t u : Text) : Prop :=
  ∃ c : Cut, c.text = t ∧ (∀ before m after, c.Takes before m after ↔ P before m after) ∧
    u = c.exchange f

namespace Exchanged

variable {P Q : Text → Text → Text → Prop} {f : Text → Text} {t u : Text}

theorem nil (hP : ∀ before m after, ¬ P before m after) : Exchanged P f [] [] :=
  ⟨[], rfl, fun before m after => iff_of_false Cut.not_takes_nil (hP before m after), rfl⟩

/-- A text in front, in which no stretch starts, is kept. -/
theorem keep {s : Text} (h : Exchanged P f t u)
    (hQ : ∀ before m after, Q before m after ↔ ∃ front, before = s ++ front ∧ P front m after) :
    Exchanged Q f (s ++ t) (s ++ u) := by
  induction s generalizing Q with
  | nil =>
    obtain ⟨c, htext, htakes, hu⟩ := h
    refine ⟨c, htext, fun before m after => ?_, hu⟩
    rw [hQ, htakes]
    simp
  | cons x s ih =>
    obtain ⟨c, htext, htakes, hu⟩ :=
      ih (Q := fun before m after => ∃ front, before = s ++ front ∧ P front m after)
        fun before m after => Iff.rfl
    refine ⟨.kept x :: c, congrArg (x :: ·) htext, fun before m after => ?_,
      congrArg (x :: ·) hu⟩
    rw [Cut.takes_kept_iff, hQ]
    simp only [htakes]
    constructor
    · rintro ⟨-, rfl, front, rfl, hP⟩
      exact ⟨front, rfl, hP⟩
    · rintro ⟨front, rfl, hP⟩
      exact ⟨s ++ front, rfl, front, rfl, hP⟩

/-- A stretch in front of the others is exchanged. -/
theorem take {v : Text} (h : Exchanged P f t u)
    (hQ : ∀ before m after, Q before m after ↔
      (before = [] ∧ m = v ∧ after = t) ∨ ∃ front, before = v ++ front ∧ P front m after) :
    Exchanged Q f (v ++ t) (f v ++ u) := by
  obtain ⟨c, rfl, htakes, rfl⟩ := h
  refine ⟨.taken v :: c, rfl, fun before m after => ?_, rfl⟩
  rw [Cut.takes_taken_iff, hQ]
  simp only [htakes]

/-- Stretches that are exchanged do not overlap. -/
theorem apart (h : Exchanged P f t u) {before m after before' m' after' : Text}
    (hm : P before m after) (hm' : P before' m' after') :
    (before = before' ∧ m = m' ∧ after = after') ∨
      before ++ m <+: before' ∨ before' ++ m' <+: before := by
  obtain ⟨c, -, htakes, -⟩ := h
  exact ((htakes before m after).2 hm).apart ((htakes before' m' after').2 hm')

/-- There is only one text with the stretches exchanged, if none of them is empty. -/
theorem iff_eq (h : Exchanged P f t u) (hne : ∀ before m after, P before m after → m ≠ [])
    (u' : Text) : Exchanged P f t u' ↔ u' = u := by
  constructor
  · rintro ⟨d, hdtext, hdtakes, rfl⟩
    obtain ⟨c, hctext, hctakes, rfl⟩ := h
    have hcut : d = c := by
      refine Cut.eq_of_takes_iff (fun before m after hd => ?_) (hdtext.trans hctext.symm) ?_
      · exact hne before m after ((hdtakes before m after).1 hd)
      · exact fun before m after => (hdtakes before m after).trans (hctakes before m after).symm
    rw [hcut]
  · rintro rfl
    exact h

end Exchanged

/-! ## Replacing a word -/

/-- The words equal to `w` are exchanged. -/
theorem exchanged_replaceWord (w r t : Text) :
    Exchanged (fun before m after => m = w ∧ WordAt t before m after) (fun _ => r) t
      (replaceWord w r t) := by
  rw [replaceWord_eq_mapWords]
  induction t using word_induction with
  | nil => exact .nil fun before m after h => not_wordAt_nil h.2
  | gap c t hc ih =>
    rw [mapWords_gap _ hc]
    refine ih.keep (s := [c]) fun before m after => ?_
    rw [wordAt_cons_iff hc]
    constructor
    · rintro ⟨hm, front, hat, rfl⟩
      exact ⟨front, rfl, hm, hat⟩
    · rintro ⟨front, rfl, hm, hat⟩
      exact ⟨hm, front, hat, rfl⟩
  | word v t hv ht ih =>
    rw [mapWords_word _ hv ht]
    by_cases hvw : v = w
    · rw [if_pos hvw]
      refine ih.take fun before m after => ?_
      rw [wordAt_word_iff hv ht]
      constructor
      · rintro ⟨hm, hfirst | ⟨front, hat, rfl⟩⟩
        · exact .inl hfirst
        · exact .inr ⟨front, rfl, hm, hat⟩
      · rintro (⟨rfl, rfl, rfl⟩ | ⟨front, rfl, hm, hat⟩)
        · exact ⟨hvw, .inl ⟨rfl, rfl, rfl⟩⟩
        · exact ⟨hm, .inr ⟨front, hat, rfl⟩⟩
    · rw [if_neg hvw]
      refine ih.keep fun before m after => ?_
      rw [wordAt_word_iff hv ht]
      constructor
      · rintro ⟨hm, ⟨-, rfl, -⟩ | ⟨front, hat, rfl⟩⟩
        · exact absurd hm hvw
        · exact ⟨front, rfl, hm, hat⟩
      · rintro ⟨front, rfl, hm, hat⟩
        exact ⟨hm, .inr ⟨front, hat, rfl⟩⟩

/-- The words of a text in which a word is replaced: each stays, or the words of the replacement
stand in its place. -/
theorem words_replaceWord (w r t : Text) :
    words (replaceWord w r t) = (words t).flatMap fun v => if v = w then words r else [v] := by
  rw [replaceWord_eq_mapWords, words_mapWords]
  refine List.flatMap_congr fun v hv => ?_
  split
  · rfl
  · exact words_of_isWord (isWord_of_mem_words hv)

theorem replaceWord_eq_self {w t : Text} (h : w ∉ words t) (r : Text) : replaceWord w r t = t := by
  rw [replaceWord_eq_mapWords]
  refine mapWords_eq_self fun v hv => if_neg ?_
  rintro rfl
  exact h hv

/-- Two words are replaced one after the other as if both were replaced at once, if the second is
not brought in by the first. -/
theorem replaceWord_replaceWord {v w r : Text} (hr : v ∉ words r) (q t : Text) :
    replaceWord v q (replaceWord w r t) =
      mapWords (fun u => if u = w then r else if u = v then q else u) t := by
  rw [replaceWord_eq_mapWords w, replaceWord_eq_mapWords v, mapWords_mapWords]
  refine mapWords_congr fun u hu => ?_
  rw [← replaceWord_eq_mapWords]
  split
  · exact replaceWord_eq_self hr q
  · rw [replaceWord_eq_mapWords, mapWords_of_isWord _ (isWord_of_mem_words hu)]

/-- Replacing a word acts on the words of a text only. Exactly the maximal runs of word characters
that are equal to the word are exchanged, and everything else is copied in order; no other text is
the result of that. The words of the result are those of the text with the words of the replacement
in the place of each that is replaced, so no neighbours merge. Nothing changes where the word does
not occur, and two words that are not brought in by each other's replacement can be replaced in
either order. -/
theorem replaceWord_exchanges (w r t : Text) :
    (∀ u, Exchanged (fun before m after => m = w ∧ WordAt t before m after) (fun _ => r) t u ↔
      u = replaceWord w r t) ∧
    (words (replaceWord w r t) = (words t).flatMap fun v => if v = w then words r else [v]) ∧
    (w ∉ words t → replaceWord w r t = t) ∧
    ∀ v q, v ≠ w → v ∉ words r → w ∉ words q →
      replaceWord v q (replaceWord w r t) = replaceWord w r (replaceWord v q t) := by
  refine ⟨(exchanged_replaceWord w r t).iff_eq fun before m after h => h.2.isWord.ne_nil,
    words_replaceWord w r t, fun hw => replaceWord_eq_self hw r, fun v q hvw hr hq => ?_⟩
  rw [replaceWord_replaceWord hr, replaceWord_replaceWord hq]
  refine mapWords_congr fun u _ => ?_
  by_cases hu : u = w
  · rw [if_pos hu, if_neg fun huv => hvw (huv.symm.trans hu), if_pos hu]
  · rw [if_neg hu, if_neg hu]

/-- A word at both ends of a text and within, next to words that it is a part of, with nothing put
in its place. -/
theorem replaceWord_exchanges_at_ends :
    Exchanged (fun before m after => m = "a".toList ∧ WordAt "a+ab a##a1 a".toList before m after)
      (fun _ => []) "a+ab a##a1 a".toList "+ab ##a1 ".toList ∧
    words "+ab ##a1 ".toList = ["ab".toList, "a1".toList] ∧
    "b".toList ∉ words "a+ab a##a1 a".toList ∧
    replaceWord "b".toList "x".toList "a+ab a##a1 a".toList = "a+ab a##a1 a".toList ∧
    "a1".toList ≠ "a".toList ∧ "a1".toList ∉ words [] ∧ "a".toList ∉ words "a2 b".toList ∧
    replaceWord "a".toList [] (replaceWord "a1".toList "a2 b".toList "a+ab a##a1 a".toList) =
      "+ab ##a2 b ".toList := by
  have hresult : replaceWord "a".toList [] "a+ab a##a1 a".toList = "+ab ##a1 ".toList := by rfl
  obtain ⟨hexchanged, hwords, -, hcomm⟩ := replaceWord_exchanges "a".toList [] "a+ab a##a1 a".toList
  obtain ⟨-, -, hself, -⟩ := replaceWord_exchanges "b".toList "x".toList "a+ab a##a1 a".toList
  have hswap := hcomm "a1".toList "a2 b".toList (by decide) (by decide) (by decide)
  rw [hresult] at hexchanged hwords
  exact ⟨(hexchanged _).2 rfl, hwords.trans (by rfl), by decide, hself (by decide), by decide,
    by decide, by decide, hswap.symm.trans (by rfl)⟩

end Text

/-! ## Resolving continuation markers -/

namespace Continuation

/-- In the text `t` the continuation marker `m` stands between `before` and `after`. -/
structure MarkerAt (t before m after : Text) : Prop where
  eq : t = before ++ (m ++ after)
  isMarker : IsMarker m

/-- The first character of a marker is its only backslash. -/
theorem IsMarker.exists_tail {m : Text} (h : IsMarker m) :
    ∃ tail, m = '\\' :: tail ∧ '\\' ∉ tail := by
  obtain ⟨blanks, cr, rfl, hblanks, hcr⟩ := h
  refine ⟨blanks ++ (cr ++ ['\n']), rfl, fun hmem => ?_⟩
  rcases List.mem_append.1 hmem with hmem | hmem
  · exact absurd (hblanks _ hmem) (by decide)
  · rcases hcr with rfl | rfl <;> exact absurd hmem (by decide)

/-- The last character of a marker is its only line feed. -/
theorem IsMarker.exists_init {m : Text} (h : IsMarker m) :
    ∃ init, m = init ++ ['\n'] ∧ '\n' ∉ init := by
  obtain ⟨blanks, cr, rfl, hblanks, hcr⟩ := h
  refine ⟨'\\' :: (blanks ++ cr), by simp, fun hmem => ?_⟩
  rcases List.mem_append.1 (List.mem_of_ne_of_mem (by decide) hmem) with hmem | hmem
  · exact absurd (hblanks _ hmem) (by decide)
  · rcases hcr with rfl | rfl <;> exact absurd hmem (by decide)

/-- Only one marker starts at a place. -/
theorem IsMarker.unique {m m' t t' : Text} (h : IsMarker m) (h' : IsMarker m')
    (heq : m ++ t = m' ++ t') : m = m' ∧ t = t' := by
  obtain ⟨init, rfl, hinit⟩ := h.exists_init
  obtain ⟨init', rfl, hinit'⟩ := h'.exists_init
  rw [List.append_assoc, List.append_assoc, List.singleton_append, List.singleton_append] at heq
  rcases append_cons_cases hinit heq with ⟨rfl, rfl⟩ | ⟨front, rfl, -⟩
  · exact ⟨rfl, rfl⟩
  · exact absurd (List.mem_append_right init List.mem_cons_self) hinit'

/-- A text in which no marker starts before the ones of the rest. -/
theorem markerAt_append_iff {s t : Text}
    (hs : Behind '\\' (fun after => ¬ StartsBreak (after ++ t)) s) (before m after : Text) :
    MarkerAt (s ++ t) before m after ↔
      ∃ front, before = s ++ front ∧ MarkerAt t front m after := by
  constructor
  · rintro ⟨heq, hm⟩
    rcases List.append_eq_append_iff.1 heq with ⟨front, rfl, ht⟩ | ⟨r, rfl, hr⟩
    · exact ⟨front, rfl, ht, hm⟩
    · cases r with
      | nil => exact ⟨[], by simp, hr.symm, hm⟩
      | cons c r =>
        -- the backslash of the marker stands in `s`
        obtain ⟨rest, hrest, hbreak⟩ := hm.startsMarker_append after
        rw [hrest, List.cons_append, List.cons.injEq] at hr
        obtain ⟨rfl, rfl⟩ := hr
        exact absurd hbreak (hs before r rfl)
  · rintro ⟨front, rfl, rfl, hm⟩
    exact ⟨by rw [List.append_assoc], hm⟩

/-- The markers of a text that starts with a marker: this one, and those of the rest. -/
theorem markerAt_marker_iff {v : Text} (hv : IsMarker v) (t before m after : Text) :
    MarkerAt (v ++ t) before m after ↔
      (before = [] ∧ m = v ∧ after = t) ∨
        ∃ front, before = v ++ front ∧ MarkerAt t front m after := by
  obtain ⟨tail, rfl, htail⟩ := hv.exists_tail
  constructor
  · rintro ⟨heq, hm⟩
    cases before with
    | nil =>
      obtain ⟨hmv, hafter⟩ := hm.unique hv heq.symm
      exact .inl ⟨rfl, hmv, hafter⟩
    | cons c before =>
      -- behind its first character the marker has no backslash
      rw [List.cons_append, List.cons_append, List.cons.injEq] at heq
      obtain ⟨rfl, heq⟩ := heq
      obtain ⟨front, rfl, ht⟩ := (markerAt_append_iff (behind_of_not_mem htail) _ _ _).1 ⟨heq, hm⟩
      exact .inr ⟨front, rfl, ht⟩
  · rintro (⟨rfl, rfl, rfl⟩ | ⟨front, rfl, rfl, hm⟩)
    · exact ⟨rfl, hv⟩
    · exact ⟨by rw [List.append_assoc], hm⟩

end Continuation

open Continuation

/-- The continuation markers are exchanged for what the mode leaves of them. -/
theorem exchanged_joinLines (mode : ContinuationMode) (t : Text) :
    Exchanged (MarkerAt t) (fun m => render mode (.marker m)) t (joinLines mode t) := by
  induction t using marker_induction with
  | last s hs =>
    have hempty : Exchanged (MarkerAt []) (fun m => render mode (.marker m)) [] [] := by
      refine .nil fun before m after h => ?_
      obtain ⟨rest, hrest, -⟩ := h.isMarker.startsMarker_append after
      have heq := h.eq
      rw [hrest] at heq
      exact absurd heq (by simp)
    have hend : Behind '\\' (fun after => ¬ StartsBreak (after ++ [])) s := by
      simpa only [MarkerFree, List.append_nil] using hs
    have hkeep := hempty.keep (markerAt_append_iff hend)
    rw [joinLines_eq_self hs]
    rwa [List.append_nil] at hkeep
  | cut s m t hs hm ih =>
    rw [joinLines_cut hs hm]
    exact (ih.take (markerAt_marker_iff hm t)).keep (markerAt_append_iff (hs.behind_append hm t))

/-- Joining lines replaces exactly the continuation markers of a text. Two of them are the same or
do not overlap. Each is replaced, by nothing or by a line feed, and every other character is kept
in order; no other text is the result of that. What is replaced stands in the text itself, so
nothing goes that only the removal of a marker makes one. -/
theorem joinLines_exchanges (t : Text) :
    (∀ before m after before' m' after', MarkerAt t before m after →
      MarkerAt t before' m' after' →
        (before = before' ∧ m = m' ∧ after = after') ∨
          before ++ m <+: before' ∨ before' ++ m' <+: before) ∧
    (∀ u, Exchanged (MarkerAt t) (fun _ => []) t u ↔ u = joinLines .join t) ∧
    ∀ u, Exchanged (MarkerAt t) (fun _ => ['\n']) t u ↔ u = joinLines .keepLineBreak t := by
  have hne : ∀ before m after, MarkerAt t before m after → m ≠ [] := by
    intro before m after h
    obtain ⟨tail, rfl, -⟩ := h.isMarker.exists_tail
    exact List.cons_ne_nil _ tail
  refine ⟨fun before m after before' m' after' h h' => ?_, ?_, ?_⟩
  · exact (exchanged_joinLines .join t).apart h h'
  · exact (exchanged_joinLines .join t).iff_eq hne
  · exact (exchanged_joinLines .keepLineBreak t).iff_eq hne

/-- Doubled backslashes, blanks in front of a line break and of a bare carriage return, markers one
behind the other, and a backslash at the end. Where a marker went, another one has come up, and it
stays. -/
theorem joinLines_exchanges_between_backslashes :
    ∃ t : Text, t = "a\\\\ \t\r\n\\\n\\ \rb\\\\\n\n\\".toList ∧
      MarkerAt t "a\\".toList "\\ \t\r\n".toList "\\\n\\ \rb\\\\\n\n\\".toList ∧
      MarkerAt t "a\\\\ \t\r\n".toList "\\\n".toList "\\ \rb\\\\\n\n\\".toList ∧
      "a\\".toList ++ "\\ \t\r\n".toList <+: "a\\\\ \t\r\n".toList ∧
      Exchanged (MarkerAt t) (fun _ => []) t "a\\\\ \rb\\\n\\".toList ∧
      MarkerAt "a\\\\ \rb\\\n\\".toList "a\\\\ \rb".toList "\\\n".toList "\\".toList ∧
      Exchanged (MarkerAt t) (fun _ => ['\n']) t "a\\\n\n\\ \rb\\\n\n\\".toList := by
  obtain ⟨hapart, hjoin, hkeep⟩ := joinLines_exchanges "a\\\\ \t\r\n\\\n\\ \rb\\\\\n\n\\".toList
  have hblank : IsMarker "\\ \t\r\n".toList :=
    ⟨[' ', '\t'], ['\r'], by rfl, by simp [isBlank], .inr rfl⟩
  have hplain : IsMarker "\\\n".toList := ⟨[], [], by rfl, List.forall_mem_nil _, .inl rfl⟩
  have hfirst : MarkerAt "a\\\\ \t\r\n\\\n\\ \rb\\\\\n\n\\".toList "a\\".toList "\\ \t\r\n".toList
      "\\\n\\ \rb\\\\\n\n\\".toList := ⟨by rfl, hblank⟩
  have hsecond : MarkerAt "a\\\\ \t\r\n\\\n\\ \rb\\\\\n\n\\".toList "a\\\\ \t\r\n".toList
      "\\\n".toList "\\ \rb\\\\\n\n\\".toList := ⟨by rfl, hplain⟩
  have hbehind := (hapart _ _ _ _ _ _ hfirst hsecond).resolve_left (by decide)
  exact ⟨_, rfl, hfirst, hsecond, hbehind.resolve_right (by decide), (hjoin _).2 (by rfl),
    ⟨by rfl, hplain⟩, (hkeep _).2 (by rfl)⟩

end FlatHeader
