import FlatHeader.Proofs.Splicing

/-!
# Independent parts of a text

A character that belongs to no word and opens no argument list keeps the parts of a text around it
apart: a word is live in the whole text exactly if it is live in its part. So what is selected in
the whole text is what is selected in one of the parts (`Expander.select_append`), and a step on the
whole text is a step on that part. The steps on the two parts may be interleaved, but a run on the
whole text has as many steps as the runs on the parts have together (`Expander.Run.append`).
-/

namespace FlatHeader

open Text

/-! ## A call in a longer text -/

namespace Call

/-- The same call with more text around it. -/
def within (left right : Text) (call : Call) : Call :=
  { call with before := left ++ call.before, after := call.after ++ right }

/-- A call that can be read is read in the same way with more text around it. -/
theorem ofWord?_within {d : Definition} {before w after : Text} {call : Call}
    (h : ofWord? d before.reverse w after = .ok (some call)) (left right : Text) :
    ofWord? d (left ++ before).reverse w (after ++ right) =
      .ok (some (call.within left right)) := by
  rcases ofWord?_eq_some_cases h with ⟨hlike, rfl⟩ | ⟨list, rest, hlike, rfl, hlist, rfl⟩
  · rw [ofWord?_of_objectLike hlike, within, List.reverse_reverse, List.reverse_reverse]
  · -- the list is closed before the text ends, so nothing behind the text matters
    have hsplit : '(' :: (list ++ ')' :: rest) ++ right =
        '(' :: (list ++ ')' :: (rest ++ right)) := by
      simp
    rw [hsplit, ofWord?_of_closed hlike hlist, within, List.reverse_reverse, List.reverse_reverse]

/-- A replacement is put in the same way with more text around the call, if no word reaches the
call from there. -/
theorem splice_within {left right : Text} (hleft : EndsOutside left) (hright : StartsOutside right)
    (call : Call) (r : Text) :
    (call.within left right).splice r = left ++ (call.splice r ++ right) := by
  unfold splice within
  rw [joins_append_left hleft, joins_append_right hright]
  simp only [List.append_assoc]

end Call

/-! ## Live words of the parts -/

/-- A character that keeps the texts around it apart: it belongs to no word and opens no argument
list. -/
structure Separates (c : Char) : Prop where
  outside : isWordChar c = false
  ne_open : c ≠ '('

/-- A separator behind a name is as good as the end of the text. -/
theorem Separates.live_append_iff {c : Char} (hc : Separates c) (d : Definition)
    (after b : Text) : d.Live (after ++ c :: b) ↔ d.Live after := by
  unfold Definition.Live
  cases after with
  | nil => simp [hc.ne_open]
  | cons x after => rfl

section parts

variable {c : Char} (hc : Separates c) (a b : Text)
include hc

/-- The live words of the whole text are those of its parts. -/
theorem liveAt_append_cons_iff (lookup : Text → Option Definition) (before w after : Text)
    (d : Definition) :
    LiveAt lookup (a ++ c :: b) before w after d ↔
      (∃ rest, LiveAt lookup a before w rest d ∧ after = rest ++ c :: b) ∨
        ∃ front, LiveAt lookup b front w after d ∧ before = a ++ c :: front := by
  constructor
  · rintro ⟨hat, hlookup, hlive⟩
    rcases (wordAt_append_cons_iff hc.outside).1 hat with ⟨rest, hpart, rfl⟩ | ⟨front, hpart, rfl⟩
    · exact .inl ⟨rest, ⟨hpart, hlookup, (hc.live_append_iff d rest b).1 hlive⟩, rfl⟩
    · exact .inr ⟨front, ⟨hpart, hlookup, hlive⟩, rfl⟩
  · rintro (⟨rest, hl, rfl⟩ | ⟨front, hl, rfl⟩)
    · exact ⟨(wordAt_append_cons_iff hc.outside).2 (.inl ⟨rest, hl.wordAt, rfl⟩), hl.lookup,
        (hc.live_append_iff d rest b).2 hl.live⟩
    · exact ⟨(wordAt_append_cons_iff hc.outside).2 (.inr ⟨front, hl.wordAt, rfl⟩), hl.lookup,
        hl.live⟩

/-! ## What is selected -/

omit hc in
/-- What is selected in two texts and in the text that a separator makes of them: a call of one of
the two, with the other part around it. -/
inductive SelectedFrom (a b : Text) (c : Char) :
    Option Call → Option Call → Option Call → Prop
  | left (call : Call) (other : Option Call) :
      SelectedFrom a b c (some call) other (some (call.within [] (c :: b)))
  | right (other : Option Call) (call : Call) :
      SelectedFrom a b c other (some call) (some (call.within (a ++ [c]) []))
  | none : SelectedFrom a b c none none none

/-- The scanner finds the first call of the first part, and that of the second if there is none. -/
theorem Call.first?_append_cons (lookup : Text → Option Definition) {ra rb : Option Call}
    (ha : Call.first? lookup a = .ok ra) (hb : Call.first? lookup b = .ok rb) :
    ∃ r, Call.first? lookup (a ++ c :: b) = .ok r ∧ SelectedFrom a b c ra rb r := by
  rcases Call.first?_cases lookup a with ⟨hanone, halla⟩ | ⟨before, w, after, d, hl, hfirst, hread⟩
  · obtain rfl := Except.ok.inj (ha.symm.trans hanone)
    rcases Call.first?_cases lookup b with
      ⟨hbnone, hallb⟩ | ⟨before, w, after, d, hl, hfirst, hread⟩
    · obtain rfl := Except.ok.inj (hb.symm.trans hbnone)
      refine ⟨_, (Call.first?_eq_none_iff lookup _).2 fun before w after d hl => ?_, .none⟩
      rcases (liveAt_append_cons_iff hc a b lookup before w after d).1 hl with
        ⟨rest, hpart, -⟩ | ⟨front, hpart, -⟩
      · exact halla before w rest d hpart
      · exact hallb front w after d hpart
    · -- the first live word is that of the second part
      obtain ⟨call, rfl⟩ : ∃ call, rb = some call := by
        rw [← Option.ne_none_iff_exists']
        rintro rfl
        exact (Call.first?_eq_none_iff lookup b).1 hb before w after d hl
      rw [hb] at hread
      have hl' := (liveAt_append_cons_iff hc a b lookup _ w after d).2 (.inr ⟨before, hl, rfl⟩)
      refine ⟨_, ?_, .right _ call⟩
      rw [Call.first?_of_first lookup hl' fun before' w' after' d' h => ?_]
      · have hwithin := Call.ofWord?_within hread.symm (a ++ [c]) []
        rwa [List.append_nil, List.append_assoc] at hwithin
      · rcases (liveAt_append_cons_iff hc a b lookup before' w' after' d').1 h with
          ⟨rest, hpart, -⟩ | ⟨front, hpart, rfl⟩
        · exact absurd hpart (halla before' w' rest d')
        · have hle := hfirst front w' after' d' hpart
          simp only [List.length_append, List.length_cons]
          omega
  · obtain ⟨call, rfl⟩ : ∃ call, ra = some call := by
      rw [← Option.ne_none_iff_exists']
      rintro rfl
      exact (Call.first?_eq_none_iff lookup a).1 ha before w after d hl
    rw [ha] at hread
    have hl' := (liveAt_append_cons_iff hc a b lookup before w _ d).2 (.inl ⟨after, hl, rfl⟩)
    refine ⟨_, ?_, .left call rb⟩
    rw [Call.first?_of_first lookup hl' fun before' w' after' d' h => ?_]
    · exact Call.ofWord?_within hread.symm [] (c :: b)
    · rcases (liveAt_append_cons_iff hc a b lookup before' w' after' d').1 h with
        ⟨rest, hpart, -⟩ | ⟨front, -, rfl⟩
      · exact hfirst before' w' rest d' hpart
      · -- every word of the first part starts before the words of the second
        have hlen := congrArg List.length hl.wordAt.eq
        simp only [List.length_append, List.length_cons] at hlen ⊢
        omega

/-- The first definition that is called in either part is the first that is called in the whole
text. Definitions in front of it cannot fail, since they are tried in both parts as well. -/
theorem firstOfDefinitions?_append_cons (l : List Definition) {ra rb : Option Call}
    (ha : firstOfDefinitions? a l = .ok ra) (hb : firstOfDefinitions? b l = .ok rb) :
    ∃ r, firstOfDefinitions? (a ++ c :: b) l = .ok r ∧ SelectedFrom a b c ra rb r := by
  induction l with
  | nil =>
    obtain rfl : none = ra := Except.ok.inj ha
    obtain rfl : none = rb := Except.ok.inj hb
    exact ⟨none, rfl, .none⟩
  | cons d rest ih =>
    rw [firstOfDefinitions?] at ha hb
    cases hfa : Call.first? (fun word => if word = d.name then some d else none) a with
    | error e => simp [hfa] at ha
    | ok fa =>
      cases hfb : Call.first? (fun word => if word = d.name then some d else none) b with
      | error e => simp [hfb] at hb
      | ok fb =>
        obtain ⟨r, hr, hfrom⟩ := Call.first?_append_cons hc a b _ hfa hfb
        rw [firstOfDefinitions?, hr]
        simp only [hfa] at ha
        simp only [hfb] at hb
        cases hfrom with
        | none => exact ih ha hb
        | left call other =>
          obtain rfl := Except.ok.inj ha
          exact ⟨_, rfl, .left call rb⟩
        | right other call =>
          obtain rfl := Except.ok.inj hb
          exact ⟨_, rfl, .right ra call⟩

/-- Either way of selecting finds in the whole text what it finds in one of the parts. -/
theorem Expander.select_append {x : Expander} {ra rb : Option Call} (ha : x.select a = .ok ra)
    (hb : x.select b = .ok rb) :
    ∃ r, x.select (a ++ c :: b) = .ok r ∧ SelectedFrom a b c ra rb r := by
  unfold select at ha hb ⊢
  cases hx : x.selection with
  | leftmost =>
    rw [hx] at ha hb
    exact Call.first?_append_cons hc a b x.table.get? ha hb
  | definitionOrder =>
    rw [hx] at ha hb
    exact firstOfDefinitions?_append_cons hc a b x.table.definitions ha hb

/-- A step on the whole text is a step on the part that the selected call is in, and leaves the
other part as it is. -/
theorem Expander.expandOnce?_append_cases {x : Expander} {ra rb : Option Call}
    (ha : x.select a = .ok ra) (hb : x.select b = .ok rb) :
    (∃ call, ra = some call ∧ ∀ r, call.replacement = .ok r →
        x.expandOnce? (a ++ c :: b) = .ok (some (call.splice r ++ c :: b))) ∨
      (∃ call, rb = some call ∧ ∀ r, call.replacement = .ok r →
        x.expandOnce? (a ++ c :: b) = .ok (some (a ++ c :: call.splice r))) ∨
      (ra = none ∧ rb = none ∧ x.select (a ++ c :: b) = .ok none) := by
  obtain ⟨r, hr, hfrom⟩ := select_append hc a b ha hb
  cases hfrom with
  | left call other =>
    refine .inl ⟨call, rfl, fun text htext => ?_⟩
    refine expandOnce?_eq_some_iff.2 ⟨_, text, hr, htext, ?_⟩
    rw [Call.splice_within endsOutside_nil (startsOutside_cons hc.outside b), List.nil_append]
  | right other call =>
    refine .inr (.inl ⟨call, rfl, fun text htext => ?_⟩)
    refine expandOnce?_eq_some_iff.2 ⟨_, text, hr, htext, ?_⟩
    rw [Call.splice_within ((endsOutside_concat a c).2 hc.outside) startsOutside_nil,
      List.append_nil, List.append_assoc, List.singleton_append]
  | none => exact .inr (.inr ⟨rfl, rfl, hr⟩)

end parts

/-! ## Runs -/

/-- Runs on two parts that end in texts without calls make a run on the whole text, in whatever
order the calls of the parts are selected there. It ends in a text without calls as well. -/
theorem Expander.Run.append {x : Expander} {c : Char} (hc : Separates c) {a b a' b' : Text}
    {k l : ℕ} (ha : x.Run k a a') (hb : x.Run l b b') (hda : x.select a' = .ok none)
    (hdb : x.select b' = .ok none) :
    x.Run (k + l) (a ++ c :: b) (a' ++ c :: b') ∧ x.select (a' ++ c :: b') = .ok none := by
  constructor
  · induction hn : k + l generalizing a b k l with
    | zero =>
      obtain ⟨rfl, rfl⟩ : k = 0 ∧ l = 0 := by omega
      cases ha
      cases hb
      exact .refl _
    | succ n ih =>
      obtain ⟨ra, hra⟩ := ha.exists_select hda
      obtain ⟨rb, hrb⟩ := hb.exists_select hdb
      -- the call that comes first is the next one of its part, and the other part waits
      rcases expandOnce?_append_cases hc a b hra hrb with
        ⟨call, rfl, hstep⟩ | ⟨call, rfl, hstep⟩ | ⟨rfl, rfl, -⟩
      · obtain ⟨k, r, rfl, hr, ha'⟩ := ha.exists_step_of_select_some hda hra
        exact .step (hstep r hr) (ih ha' hb (by omega))
      · obtain ⟨l, r, rfl, hr, hb'⟩ := hb.exists_step_of_select_some hdb hrb
        exact .step (hstep r hr) (ih ha hb' (by omega))
      · obtain ⟨rfl, -⟩ := ha.eq_of_select_none hra
        obtain ⟨rfl, -⟩ := hb.eq_of_select_none hrb
        exact absurd hn (by omega)
  · rcases expandOnce?_append_cases hc a' b' hda hdb with ⟨_, h, -⟩ | ⟨_, h, -⟩ | ⟨-, -, h⟩
    · exact absurd h (by simp)
    · exact absurd h (by simp)
    · exact h

/-- Parts of a text that a separator keeps apart are expanded independently. In either selection,
if two texts have expansions, each with some limit that suffices for it, then the text that a
separator makes of them expands to the two results with the separator between them. That takes as
many steps as the two expansions together: every limit from that number on suffices, and at every
lower one the expansion does not terminate. -/
theorem expand_append_cons (table : Table) (selection : Selection) {c : Char}
    (hword : isWordChar c = false) (hparen : c ≠ '(') {t₁ t₂ o₁ o₂ : Text} {limit₁ limit₂ : ℕ}
    (h₁ : (Expander.mk table selection limit₁).expand t₁ = .ok o₁)
    (h₂ : (Expander.mk table selection limit₂).expand t₂ = .ok o₂) (limit : ℕ) :
    ((Expander.mk table selection limit₁).stepCount t₁ +
        (Expander.mk table selection limit₂).stepCount t₂ ≤ limit →
      (Expander.mk table selection limit).expand (t₁ ++ c :: t₂) = .ok (o₁ ++ c :: o₂)) ∧
    (limit < (Expander.mk table selection limit₁).stepCount t₁ +
        (Expander.mk table selection limit₂).stepCount t₂ →
      ∃ name snippet, (Expander.mk table selection limit).expand (t₁ ++ c :: t₂) =
        .error (.didNotTerminate name limit snippet)) := by
  obtain ⟨hrun₁, hend₁⟩ := Expander.run_stepCount_of_expand h₁
  obtain ⟨hrun₂, hend₂⟩ := Expander.run_stepCount_of_expand h₂
  have hrun := Expander.Run.append (x := ⟨table, selection, limit⟩) ⟨hword, hparen⟩
    hrun₁.of_limit hrun₂.of_limit hend₁ hend₂
  exact ⟨fun hle => Expander.expand_eq_ok_iff.2 ⟨_, hle, hrun⟩, fun hlt => hrun.1.go_eq_error hlt⟩

/-- A list that is open in front of the separator is closed within its part by a later step, and
not by the separator, though that is a parenthesis. The limit has to be the sum. -/
theorem expand_append_cons_open_list :
    isWordChar ')' = false ∧ ')' ≠ '(' ∧
    (Expander.mk (.ofList [⟨['A'], none, [')']⟩, ⟨['F'], some [['x']], ['[', 'x', ']']⟩])
      .definitionOrder 2).expand ['F', '(', '2', ' ', 'A'] = .ok ['[', '2', ']'] ∧
    (Expander.mk (.ofList [⟨['A'], none, [')']⟩, ⟨['F'], some [['x']], ['[', 'x', ']']⟩])
      .definitionOrder 1).expand ['F', '(', '3', ')'] = .ok ['[', '3', ']'] ∧
    (Expander.mk (.ofList [⟨['A'], none, [')']⟩, ⟨['F'], some [['x']], ['[', 'x', ']']⟩])
      .definitionOrder 3).expand ['F', '(', '2', ' ', 'A', ')', 'F', '(', '3', ')'] =
        .ok ['[', '2', ']', ')', '[', '3', ']'] ∧
    ∃ name snippet,
      (Expander.mk (.ofList [⟨['A'], none, [')']⟩, ⟨['F'], some [['x']], ['[', 'x', ']']⟩])
        .definitionOrder 2).expand ['F', '(', '2', ' ', 'A', ')', 'F', '(', '3', ')'] =
          .error (.didNotTerminate name 2 snippet) := by
  have h₁ : (Expander.mk (.ofList [⟨['A'], none, [')']⟩, ⟨['F'], some [['x']], ['[', 'x', ']']⟩])
      .definitionOrder 2).expand ['F', '(', '2', ' ', 'A'] = .ok ['[', '2', ']'] := by rfl
  have h₂ : (Expander.mk (.ofList [⟨['A'], none, [')']⟩, ⟨['F'], some [['x']], ['[', 'x', ']']⟩])
      .definitionOrder 1).expand ['F', '(', '3', ')'] = .ok ['[', '3', ']'] := by rfl
  have h := expand_append_cons _ _ (c := ')') (by decide) (by decide) h₁ h₂
  exact ⟨by decide, by decide, h₁, h₂, (h 3).1 (by decide), (h 2).2 (by decide)⟩

end FlatHeader
