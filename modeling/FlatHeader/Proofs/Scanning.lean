import FlatHeader.Proofs.ArgumentLists
import FlatHeader.Proofs.Offsets
import FlatHeader.Proofs.Outcomes
import Mathlib

/-!
# The word that decides

Of all live words of a text one decides what a step does: the first one, or the first one of the
first definition of the table that has any (`Expander.Decides`). `Call.Reads` lists what a live word
reads as, by the parentheses behind it. No other word has a part in the result, neither in a call
nor in an error: `expandOnce?_scan`.
-/

namespace FlatHeader

open Text

/-! ## Reading a live word -/

/-- Whether the name of `d` starts a whole call where the text `after` stands behind it: the
definition is object-like, or the first parenthesis behind the opening one is a closing one. -/
def Definition.Closed (d : Definition) (after : Text) : Prop :=
  d.isFunctionLike = false ∨
    ∃ list rest, after = '(' :: (list ++ ')' :: rest) ∧ NoParens list

namespace Call

/-- What the name `w` of `d` behind `before` reads as if it is live, by the text behind it. -/
inductive Reads (d : Definition) (before w : Text) : Text → Except Error (Option Call) → Prop
  | objectLike {after : Text} (hd : d.isFunctionLike = false) :
      Reads d before w after (.ok (some ⟨before, d, none, w, after⟩))
  | closed {list rest : Text} (hd : d.isFunctionLike = true) (hlist : NoParens list) :
      Reads d before w ('(' :: (list ++ ')' :: rest))
        (.ok (some ⟨before, d, some (splitArguments d list), w ++ '(' :: list ++ [')'], rest⟩))
  | nested {list rest : Text} (hd : d.isFunctionLike = true) (hlist : NoParens list) :
      Reads d before w ('(' :: (list ++ '(' :: rest))
        (.error (.nestedParentheses w (byteSize (before ++ (w ++ '(' :: list)))))
  | unclosed {list : Text} (hd : d.isFunctionLike = true) (hlist : NoParens list) :
      Reads d before w ('(' :: list) (.error (.unterminatedCall w (byteSize before)))

/-- A live word reads as `Reads` says. -/
theorem reads_ofWord? {d : Definition} {after : Text} (h : d.Live after) (before w : Text) :
    Reads d before w after (ofWord? d before.reverse w after) := by
  cases hd : d.isFunctionLike with
  | false =>
    rw [ofWord?_of_objectLike hd, List.reverse_reverse]
    exact .objectLike hd
  | true =>
    have hopen : after.head? = some '(' := h.resolve_left (by rw [hd]; decide)
    obtain ⟨t, rfl⟩ := List.head?_eq_some_iff.1 hopen
    have hread : ofWord? d before.reverse w ('(' :: t) =
        match fromParen t with
        | [] => .error (.unterminatedCall w (byteSize before.reverse))
        | ')' :: rest => .ok (some ⟨before.reverse.reverse, d,
            some (splitArguments d (upToParen t)), w ++ '(' :: upToParen t ++ [')'], rest⟩)
        | _ => .error (.nestedParentheses w
            (byteSize (upToParen t ++ '(' :: w ++ before.reverse))) := by
      unfold ofWord?
      rw [hd]
      rfl
    rw [hread]
    rcases noParens_cases t with ht | ⟨list, rest, hlist, rfl⟩ | ⟨list, rest, hlist, rfl⟩
    · have hnil : fromParen t = [] := by
        have happend := (upToParen_append ht []).2
        rwa [List.append_nil] at happend
      rw [hnil, byteSize_reverse]
      exact .unclosed hd ht
    · obtain ⟨hup, hfrom⟩ := upToParen_append_cons hlist (.inr rfl) rest
      rw [hup, hfrom, List.reverse_reverse]
      exact .closed hd hlist
    · obtain ⟨hup, hfrom⟩ := upToParen_append_cons hlist (.inl rfl) rest
      rw [hup, hfrom]
      -- the scanner counts the bytes of what it has seen, from the last character on
      have hsize : byteSize (list ++ '(' :: w ++ before.reverse) =
          byteSize (before ++ (w ++ '(' :: list)) := by
        simp only [byteSize_append, byteSize_cons, byteSize_reverse]
        omega
      rw [hsize]
      exact .nested hd hlist

/-- A live word reads as a call exactly if the call is closed. -/
theorem Reads.isOk_iff {d : Definition} {before w after : Text} {r : Except Error (Option Call)}
    (h : Reads d before w after r) : (∃ c, r = .ok (some c)) ↔ d.Closed after := by
  cases h with
  | objectLike hd => exact iff_of_true ⟨_, rfl⟩ (.inl hd)
  | closed hd hlist => exact iff_of_true ⟨_, rfl⟩ (.inr ⟨_, _, rfl, hlist⟩)
  | nested hd hlist =>
    refine iff_of_false (by simp) ?_
    rintro (hlike | ⟨list', rest', heq, hlist'⟩)
    · rw [hd] at hlike
      exact absurd hlike (by decide)
    · have hclose := eq_of_noParens_append_cons hlist hlist' (.inl rfl) (.inr rfl)
        (List.cons.inj heq).2
      exact absurd hclose.2.1 (by decide)
  | unclosed hd hlist =>
    refine iff_of_false (by simp) ?_
    rintro (hlike | ⟨list', rest', heq, -⟩)
    · rw [hd] at hlike
      exact absurd hlike (by decide)
    · rw [(List.cons.inj heq).2] at hlist
      exact hlist.2 (List.mem_append_right list' List.mem_cons_self)

end Call

/-! ## Arguments -/

/-- The arguments that a list between two parentheses gives to `d`: its pieces between commas,
trimmed, or none if there is nothing in the list and nothing to give. -/
def ArgumentsOf (d : Definition) (list : Text) (l : List Text) : Prop :=
  if d.parameters = some [] ∧ ∀ c ∈ list, Unicode.isWhiteSpace c = true then l = []
  else ∃ pieces, pieces ≠ [] ∧ [','].intercalate pieces = list ∧ (∀ p ∈ pieces, ',' ∉ p) ∧
    l = pieces.map trim

theorem Call.argumentsOf_splitArguments (d : Definition) (list : Text) :
    ArgumentsOf d list (splitArguments d list) := by
  have hblank : (decide (trim list = []) && d.parameters == some []) = true ↔
      d.parameters = some [] ∧ ∀ c ∈ list, Unicode.isWhiteSpace c = true := by
    rw [Bool.and_eq_true, decide_eq_true_eq, beq_iff_eq, trim_eq_nil_iff, and_comm]
  unfold ArgumentsOf splitArguments
  split
  · next h => rw [if_pos (hblank.2 h)]
  · next h =>
    rw [if_neg fun hif => h (hblank.1 hif)]
    exact ⟨splitOn ',' list, splitOn_ne_nil ',' list, intercalate_splitOn ',' list,
      fun p hp => not_mem_of_mem_splitOn hp, rfl⟩

/-- No argument has a comma, or a parenthesis that the list does not have. -/
theorem Call.plain_of_mem_splitArguments {d : Definition} {list a : Text} (hlist : NoParens list)
    (ha : a ∈ splitArguments d list) : ',' ∉ a ∧ NoParens a := by
  have hsubset := (splitArguments_subset d ha).1
  refine ⟨fun hcomma => ?_, fun h => hlist.1 (hsubset h), fun h => hlist.2 (hsubset h)⟩
  unfold splitArguments at ha
  split at ha
  · exact absurd ha List.not_mem_nil
  · obtain ⟨piece, hpiece, rfl⟩ := List.mem_map.1 ha
    exact not_mem_of_mem_splitOn hpiece (trim_subset piece hcomma)

/-! ## The word that decides -/

/-- The word that decides what a step on `t` does: the first live word, or, in definition order, the
first live word of the first definition that has any. -/
def Expander.Decides (x : Expander) (t before w after : Text) (d : Definition) : Prop :=
  LiveAt x.table.get? t before w after d ∧
    match x.selection with
    | .leftmost => ∀ before' w' after' d', LiveAt x.table.get? t before' w' after' d' →
        before.length ≤ before'.length
    | .definitionOrder =>
      (∃ earlier later, x.table.definitions = earlier ++ d :: later ∧
        ∀ before' w' after' d', LiveAt x.table.get? t before' w' after' d' → d' ∉ earlier) ∧
      ∀ before' w' after', LiveAt x.table.get? t before' w' after' d →
        before.length ≤ before'.length

/-- Where a text has live words, there is a first one. -/
theorem exists_first_liveAt {lookup : Text → Option Definition} {t : Text}
    (h : ∃ before w after d, LiveAt lookup t before w after d) :
    ∃ before w after d, LiveAt lookup t before w after d ∧
      ∀ before' w' after' d', LiveAt lookup t before' w' after' d' →
        before.length ≤ before'.length := by
  obtain ⟨before, w, after, d, hl⟩ := h
  rcases Call.first?_cases lookup t with ⟨-, hall⟩ | ⟨before', w', after', d', hl', hfirst, -⟩
  · exact absurd hl (hall before w after d)
  · exact ⟨before', w', after', d', hl', hfirst⟩

/-- The live words of a definition of a table, among those of the table and by themselves. -/
theorem liveAt_get?_iff_single {table : Table} {d : Definition} (hd : d ∈ table.definitions)
    (t before w after : Text) :
    LiveAt table.get? t before w after d ↔
      LiveAt (fun word => if word = d.name then some d else none) t before w after d := by
  rw [liveAt_get?_iff, liveAt_single_iff]
  exact ⟨fun ⟨hat, _, hname, hlive⟩ => ⟨hat, rfl, hname, hlive⟩,
    fun ⟨hat, _, hname, hlive⟩ => ⟨hat, hd, hname, hlive⟩⟩

/-- Definitions without live words are passed over, and the first live word of the next one is
read. -/
theorem firstOfDefinitions?_of_first {t before w after : Text} {d : Definition}
    {earlier later : List Definition}
    (hearlier : ∀ e ∈ earlier, ∀ before' w' after' d',
      ¬ LiveAt (fun word => if word = e.name then some e else none) t before' w' after' d')
    (hl : LiveAt (fun word => if word = d.name then some d else none) t before w after d)
    (hfirst : ∀ before' w' after' d',
      LiveAt (fun word => if word = d.name then some d else none) t before' w' after' d' →
        before.length ≤ before'.length) :
    firstOfDefinitions? t (earlier ++ d :: later) = Call.ofWord? d before.reverse w after := by
  induction earlier with
  | nil =>
    have hread := Call.first?_of_first _ hl hfirst
    have hne : Call.ofWord? d before.reverse w after ≠ .ok none := fun h =>
      (Call.ofWord?_eq_none_iff _ _ _ _).1 h hl.live
    rw [List.nil_append, firstOfDefinitions?, hread]
    split
    · next h => exact absurd h hne
    · rfl
  | cons e earlier ih =>
    obtain ⟨he, hrest⟩ := List.forall_mem_cons.1 hearlier
    rw [List.cons_append, firstOfDefinitions?, (Call.first?_eq_none_iff _ t).2 he]
    exact ih hrest

namespace Expander

variable {x : Expander} {t : Text}

/-- If any word is live, then one of them decides. -/
theorem exists_decides (h : ∃ before w after d, LiveAt x.table.get? t before w after d) :
    ∃ before w after d, x.Decides t before w after d := by
  unfold Decides
  cases x.selection with
  | leftmost => exact exists_first_liveAt h
  | definitionOrder =>
    classical
    obtain ⟨before, w, after, d, hl⟩ := h
    -- the first definition with a live word
    have hfind : (x.table.definitions.find? fun d =>
        decide (∃ before w after, LiveAt x.table.get? t before w after d)).isSome := by
      rw [List.find?_isSome]
      exact ⟨d, ((liveAt_get?_iff x.table t _ _ _ _).1 hl).2.1,
        decide_eq_true ⟨before, w, after, hl⟩⟩
    obtain ⟨e, he⟩ := Option.isSome_iff_exists.1 hfind
    obtain ⟨hcalled, earlier, later, hsplit, hnone⟩ := List.find?_eq_some_iff_append.1 he
    obtain ⟨before', w', after', hl'⟩ := of_decide_eq_true hcalled
    have hmem : e ∈ x.table.definitions := by
      rw [hsplit]
      exact List.mem_append_right _ List.mem_cons_self
    have hsingle := liveAt_get?_iff_single hmem t
    obtain ⟨before, w, after, f, hf, hfirst⟩ :=
      exists_first_liveAt ⟨before', w', after', e, (hsingle _ _ _).1 hl'⟩
    obtain rfl := ((liveAt_single_iff e f t _ _ _).1 hf).2.1
    refine ⟨before, w, after, f, (hsingle _ _ _).2 hf,
      ⟨earlier, later, hsplit, fun before' w' after' d' hl' hd' => ?_⟩,
      fun before' w' after' hl' => hfirst before' w' after' f ((hsingle _ _ _).1 hl')⟩
    have hnot := hnone d' hd'
    rw [Bool.not_eq_true', decide_eq_false_iff_not] at hnot
    exact hnot ⟨before', w', after', hl'⟩

/-- The word that decides is what is read. -/
theorem select_of_decides {before w after : Text} {d : Definition}
    (h : x.Decides t before w after d) :
    x.select t = Call.ofWord? d before.reverse w after := by
  unfold Decides at h
  unfold select
  cases hx : x.selection with
  | leftmost =>
    rw [hx] at h
    exact Call.first?_of_first _ h.1 h.2
  | definitionOrder =>
    rw [hx] at h
    obtain ⟨hl, ⟨earlier, later, hsplit, hearlier⟩, hfirst⟩ := h
    have hmem : ∀ e ∈ earlier ++ d :: later, e ∈ x.table.definitions := fun e he => by
      rwa [hsplit]
    have hd : d ∈ earlier ++ d :: later := List.mem_append_right _ List.mem_cons_self
    have hsingle := liveAt_get?_iff_single (hmem d hd) t
    dsimp only
    rw [hsplit]
    refine firstOfDefinitions?_of_first (fun e he before' w' after' d' hl' => ?_)
      ((hsingle _ _ _).1 hl) fun before' w' after' d' hl' => ?_
    · obtain rfl := ((liveAt_single_iff e d' t _ _ _).1 hl').2.1
      have he' := hmem d' (List.mem_append_left _ he)
      exact hearlier _ _ _ d' ((liveAt_get?_iff_single he' t _ _ _).2 hl') he
    · obtain rfl := ((liveAt_single_iff d d' t _ _ _).1 hl').2.1
      exact hfirst _ _ _ ((hsingle _ _ _).2 hl')

/-- What a step works on is what the word that decides reads as. -/
theorem Decides.reads {before w after : Text} {d : Definition} (h : x.Decides t before w after d) :
    Call.Reads d before w after (x.select t) := by
  rw [select_of_decides h]
  exact Call.reads_ofWord? h.1.live before w

theorem expandOnce?_of_select_some {c : Call} (h : x.select t = .ok (some c)) :
    x.expandOnce? t = c.replacement.map fun replacement => some (c.splice replacement) := by
  unfold expandOnce?
  rw [h]

/-- Where a call is selected, a step fails only if the definition refuses the arguments. -/
theorem refuses_of_expandOnce? {c : Call} {e : Error} (h : x.select t = .ok (some c))
    (he : x.expandOnce? t = .error e) : c.definition.Refuses c.arguments e := by
  rw [expandOnce?_of_select_some h] at he
  cases hr : c.replacement with
  | error e' =>
    rw [hr] at he
    obtain rfl : e' = e := Except.error.inj he
    exact Definition.refuses_of_substitute hr
  | ok r =>
    rw [hr] at he
    exact absurd he (by simp [Except.map])

end Expander

/-! ## The call of the word that decides -/

/-- The call that the name `w` of `d` between `before` and `after` starts: the name itself, or the
name with the list behind it. The offsets of the call are at character borders, and between them
stands what is written. -/
structure Call.StartsAt (c : Call) (t before w after : Text) (d : Definition) : Prop where
  definition_eq : c.definition = d
  before_eq : c.before = before
  start_eq : c.start = byteSize before
  span : between? t c.start c.stop = some c.written
  objectLike : d.isFunctionLike = false →
    c.written = w ∧ c.arguments = none ∧ c.after = after
  functionLike : d.isFunctionLike = true →
    ∃ list l, c.written = w ++ '(' :: list ++ [')'] ∧ after = '(' :: (list ++ ')' :: c.after) ∧
      NoParens list ∧ c.arguments = some l ∧ ArgumentsOf d list l ∧
      ∀ a ∈ l, ',' ∉ a ∧ NoParens a

theorem Call.Reads.startsAt {d : Definition} {t before w after : Text} {c : Call}
    (h : Reads d before w after (.ok (some c))) (ht : t = before ++ (w ++ after)) :
    c.StartsAt t before w after d := by
  have hspan : t = c.before ++ (c.written ++ c.after) →
      between? t c.start c.stop = some c.written := by
    intro hsplit
    rw [hsplit]
    exact between?_append _ _ _
  cases h with
  | objectLike hd =>
    refine ⟨rfl, rfl, rfl, hspan ht, fun _ => ⟨rfl, rfl, rfl⟩, fun hlike => ?_⟩
    rw [hd] at hlike
    exact absurd hlike (by decide)
  | @closed list rest hd hlist =>
    refine ⟨rfl, rfl, rfl, hspan (by rw [ht]; simp), fun hlike => ?_, fun _ => ?_⟩
    · rw [hd] at hlike
      exact absurd hlike (by decide)
    · exact ⟨list, _, rfl, rfl, hlist, rfl, argumentsOf_splitArguments d list,
        fun a ha => plain_of_mem_splitArguments hlist ha⟩

/-- What one step does to a text. There is no step exactly if no word is live, and otherwise one of
the live words decides: the first one, or in definition order the first one of the first definition
that has any. If it is not closed, the step fails with an error about this word; if it is, then no
error about a list that is not closed or has a parenthesis in it comes from anywhere, and the step
replaces the call that this word starts. -/
theorem expandOnce?_scan (x : Expander) (t : Text) :
    (x.expandOnce? t = .ok none ↔
      ∀ before w after d, ¬ LiveAt x.table.get? t before w after d) ∧
    ((∃ before w after d, LiveAt x.table.get? t before w after d) →
      ∃ before w after d, x.Decides t before w after d) ∧
    ∀ before w after d, x.Decides t before w after d →
      (¬ d.Closed after →
        ∃ offset, x.expandOnce? t = .error (.nestedParentheses w offset) ∨
          x.expandOnce? t = .error (.unterminatedCall w offset)) ∧
      (d.Closed after →
        (∀ name offset, x.expandOnce? t ≠ .error (.nestedParentheses name offset) ∧
          x.expandOnce? t ≠ .error (.unterminatedCall name offset)) ∧
        ∃ c : Call, c.StartsAt t before w after d ∧
          x.expandOnce? t = c.replacement.map fun replacement => some (c.splice replacement)) := by
  refine ⟨?_, Expander.exists_decides,
    fun before w after d h => ⟨fun hopen => ?_, fun hclosed => ?_⟩⟩
  · rw [Expander.expandOnce?_eq_none_iff, Expander.select_eq_none_iff]
  · have hreads := Expander.Decides.reads h
    generalize hr : x.select t = r at hreads
    cases hreads with
    | objectLike hd => exact absurd (.inl hd) hopen
    | closed hd hlist => exact absurd (.inr ⟨_, _, rfl, hlist⟩) hopen
    | nested hd hlist => exact ⟨_, .inl (Expander.expandOnce?_of_select_error hr)⟩
    | unclosed hd hlist => exact ⟨_, .inr (Expander.expandOnce?_of_select_error hr)⟩
  · have hreads := Expander.Decides.reads h
    obtain ⟨c, hc⟩ := hreads.isOk_iff.2 hclosed
    rw [hc] at hreads
    -- a substitution fails for other reasons
    have hlists : ∀ arguments name offset,
        ¬ c.definition.Refuses arguments (.nestedParentheses name offset) ∧
          ¬ c.definition.Refuses arguments (.unterminatedCall name offset) :=
      fun _ _ _ => ⟨nofun, nofun⟩
    exact ⟨fun name offset =>
        ⟨fun he => (hlists _ name offset).1 (Expander.refuses_of_expandOnce? hc he),
          fun he => (hlists _ name offset).2 (Expander.refuses_of_expandOnce? hc he)⟩,
      c, hreads.startsAt h.1.wordAt.eq, Expander.expandOnce?_of_select_some hc⟩

/-- The first live word is not closed, since a list is opened behind it, and decides from the left.
In definition order the other word decides, and its list, which holds an em space, gives no
argument. -/
theorem expandOnce?_scan_opened_list :
    (∃ offset,
      (Expander.mk (.ofList [⟨['G'], some [], ['g']⟩, ⟨['F'], some [['x']], ['x']⟩])
          .leftmost 1).expandOnce? "F(é G(\u2003)".toList =
        .error (.nestedParentheses ['F'] offset) ∨
      (Expander.mk (.ofList [⟨['G'], some [], ['g']⟩, ⟨['F'], some [['x']], ['x']⟩])
          .leftmost 1).expandOnce? "F(é G(\u2003)".toList =
        .error (.unterminatedCall ['F'] offset)) ∧
    ∃ c : Call, c.StartsAt "F(é G(\u2003)".toList "F(é ".toList ['G'] "(\u2003)".toList
        ⟨['G'], some [], ['g']⟩ ∧
      (Expander.mk (.ofList [⟨['G'], some [], ['g']⟩, ⟨['F'], some [['x']], ['x']⟩])
          .definitionOrder 1).expandOnce? "F(é G(\u2003)".toList =
        c.replacement.map fun replacement => some (c.splice replacement) := by
  have hscan := fun selection => expandOnce?_scan
    ⟨.ofList [⟨['G'], some [], ['g']⟩, ⟨['F'], some [['x']], ['x']⟩], selection, 1⟩
    "F(é G(\u2003)".toList
  refine ⟨((hscan .leftmost).2.2 [] ['F'] "(é G(\u2003)".toList ⟨['F'], some [['x']], ['x']⟩
      ⟨⟨⟨rfl, isWord_of_isIdentifier (by decide), nofun, startsOutside_cons (by decide) _⟩, rfl,
        .inr rfl⟩, fun _ _ _ _ _ => Nat.zero_le _⟩).1 ?_,
    (((hscan .definitionOrder).2.2 "F(é ".toList ['G'] "(\u2003)".toList ⟨['G'], some [], ['g']⟩
      ⟨⟨⟨rfl, isWord_of_isIdentifier (by decide), (endsOutside_concat "F(é".toList _).2 (by decide),
          startsOutside_cons (by decide) _⟩, rfl, .inr rfl⟩,
        ⟨[], [⟨['F'], some [['x']], ['x']⟩], rfl, fun _ _ _ _ _ => List.not_mem_nil⟩,
        fun before' w' after' hl => ?_⟩).2 (.inr ⟨['\u2003'], [], rfl, by decide, by decide⟩)).2⟩
  · rintro (h | ⟨list, rest, h, hlist⟩)
    · exact absurd h (by decide)
    · have hsplit : "é G".toList ++ '(' :: ['\u2003', ')'] = list ++ ')' :: rest :=
        (List.cons.inj h).2
      have hclose := Text.eq_of_noParens_append_cons ⟨by decide, by decide⟩ hlist (.inl rfl)
        (.inr rfl) hsplit
      exact absurd hclose.2.1 (by decide)
  · -- the name is the fifth character
    obtain ⟨-, -, rfl, -⟩ := (liveAt_get?_iff _ _ _ _ _ _).1 hl
    have hget : ("F(é G(\u2003)".toList)[before'.length]? = some 'G' := by
      rw [hl.wordAt.eq]
      simp
    by_contra hlt
    have hlt' : before'.length < 4 := Nat.lt_of_not_le hlt
    interval_cases before'.length <;> exact absurd hget (by decide)

end FlatHeader
