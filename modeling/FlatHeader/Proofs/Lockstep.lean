import FlatHeader.Proofs.ArgumentLists
import FlatHeader.Proofs.Outcomes
import FlatHeader.Proofs.Splicing

/-!
# Two expansions side by side

Two tables whose definitions are called alike have their calls at the same places, so what is
selected differs in the definition at most (`Expander.select_alike`). If the replacements are the
same too, then the expansions go in lockstep and have the same result. `Lockstep` lists what that
takes for the texts of an invariant, and `Lockstep.go` is the run of all steps. It allows for errors
of the first expansion that the second one does not share.
-/

namespace FlatHeader

open Text

/-! ## What is selected -/

/-- Definitions that are called alike: they have one name and equally many parameters. -/
structure Definition.CalledAlike (d d' : Definition) : Prop where
  name : d'.name = d.name
  arity : d'.parameters.map List.length = d.parameters.map List.length

/-- What is selected in two ways: the same error, nothing, or one call of related definitions. -/
inductive SelectedAlike (R : Definition → Definition → Prop) :
    Except Error (Option Call) → Except Error (Option Call) → Prop
  | error (e : Error) : SelectedAlike R (.error e) (.error e)
  | none : SelectedAlike R (.ok none) (.ok none)
  | some (c : Call) {d' : Definition} (h : R c.definition d') :
      SelectedAlike R (.ok (some c)) (.ok (some { c with definition := d' }))

namespace Definition.CalledAlike

variable {d d' : Definition}

theorem refl (d : Definition) : d.CalledAlike d := ⟨rfl, rfl⟩

theorem isFunctionLike_eq (h : d.CalledAlike d') : d'.isFunctionLike = d.isFunctionLike := by
  have harity := congrArg Option.isSome h.arity
  rwa [Option.isSome_map, Option.isSome_map] at harity

theorem live_iff (h : d.CalledAlike d') (after : Text) : d'.Live after ↔ d.Live after := by
  unfold Live
  rw [h.isFunctionLike_eq]

/-- Whether there is no parameter is all that the arguments of a call depend on. -/
theorem splitArguments_eq (h : d.CalledAlike d') (list : Text) :
    Call.splitArguments d' list = Call.splitArguments d list := by
  have hnone : ∀ e : Definition,
      (e.parameters == some []) = (e.parameters.map List.length == some 0) := by
    intro e
    cases e.parameters with
    | none => rfl
    | some l => cases l <;> rfl
  unfold Call.splitArguments
  rw [hnone, hnone, h.arity]

end Definition.CalledAlike

section alike

variable {R : Definition → Definition → Prop} (hR : ∀ d d', R d d' → d.CalledAlike d')
include hR

theorem Call.ofWord?_alike {d d' : Definition} (h : R d d') (seen w after : Text) :
    SelectedAlike R (ofWord? d seen w after) (ofWord? d' seen w after) := by
  have halike := hR d d' h
  unfold ofWord?
  rw [halike.isFunctionLike_eq]
  simp only [halike.splitArguments_eq]
  split
  · exact .some ⟨seen.reverse, d, none, w, after⟩ h
  · split
    · split
      · exact .error _
      · next rest _ =>
        exact .some ⟨seen.reverse, d, _, _, rest⟩ h
      · exact .error _
    · exact .none

omit hR in
theorem related_cases {found found' : Option Definition} (h : Option.Rel R found found') :
    (found = none ∧ found' = none) ∨
      ∃ d d', R d d' ∧ found = some d ∧ found' = some d' := by
  cases h with
  | none => exact .inl ⟨rfl, rfl⟩
  | some hd => exact .inr ⟨_, _, hd, rfl, rfl⟩

/-- A live word for one of two related lookups is live for the other. -/
theorem LiveAt.alike {lookup lookup' : Text → Option Definition} {t before w after : Text}
    {d : Definition} (hl : LiveAt lookup t before w after d)
    (h : Option.Rel R (lookup w) (lookup' w)) :
    ∃ d', R d d' ∧ LiveAt lookup' t before w after d' := by
  rcases related_cases h with ⟨hnone, -⟩ | ⟨e, d', hd, he, hlookup⟩
  · exact absurd (hl.lookup.symm.trans hnone) (by simp)
  · obtain rfl := Option.some.inj (hl.lookup.symm.trans he)
    exact ⟨d', hd, hl.wordAt, hlookup, ((hR d d' hd).live_iff after).2 hl.live⟩

theorem LiveAt.of_alike {lookup lookup' : Text → Option Definition} {t before w after : Text}
    {d' : Definition} (hl : LiveAt lookup' t before w after d')
    (h : Option.Rel R (lookup w) (lookup' w)) : ∃ d, LiveAt lookup t before w after d := by
  rcases related_cases h with ⟨-, hnone⟩ | ⟨d, e, hd, hlookup, he⟩
  · exact absurd (hl.lookup.symm.trans hnone) (by simp)
  · obtain rfl := Option.some.inj (hl.lookup.symm.trans he)
    exact ⟨d, hl.wordAt, hlookup, ((hR d d' hd).live_iff after).1 hl.live⟩

/-- The first call is at the same place for lookups that are related on the words of the text. -/
theorem Call.first?_alike {lookup lookup' : Text → Option Definition} {t : Text}
    (h : ∀ w ∈ words t, Option.Rel R (lookup w) (lookup' w)) :
    SelectedAlike R (first? lookup t) (first? lookup' t) := by
  have hword : ∀ {l before w after d}, LiveAt l t before w after d →
      Option.Rel R (lookup w) (lookup' w) :=
    fun hl => h _ (mem_words_iff.2 ⟨_, _, hl.wordAt⟩)
  rcases first?_cases lookup t with ⟨hnone, hall⟩ | ⟨before, w, after, d, hl, hfirst, hread⟩
  · have hnone' : first? lookup' t = .ok none := by
      rw [first?_eq_none_iff]
      intro before w after d' hl'
      obtain ⟨d, hl⟩ := hl'.of_alike hR (hword hl')
      exact hall before w after d hl
    rw [hnone, hnone']
    exact .none
  · obtain ⟨d', hd, hl'⟩ := hl.alike hR (hword hl)
    have hread' := first?_of_first lookup' hl' fun before₂ w₂ after₂ d₂' hl₂' => by
      obtain ⟨d₂, hl₂⟩ := hl₂'.of_alike hR (hword hl₂')
      exact hfirst before₂ w₂ after₂ d₂ hl₂
    rw [hread, hread']
    exact ofWord?_alike hR hd before.reverse w after

theorem firstOfDefinitions?_alike {l l' : List Definition} (h : List.Forall₂ R l l') (t : Text) :
    SelectedAlike R (firstOfDefinitions? t l) (firstOfDefinitions? t l') := by
  induction h with
  | nil => exact .none
  | @cons d d' l l' hd _ ih =>
    have hone : SelectedAlike R (Call.first? (fun w => if w = d.name then some d else none) t)
        (Call.first? (fun w => if w = d'.name then some d' else none) t) :=
      Call.first?_alike hR fun w _ => by
        rw [(hR d d' hd).name]
        split
        · exact .some hd
        · exact .none
    rw [firstOfDefinitions?, firstOfDefinitions?]
    generalize Call.first? (fun w => if w = d.name then some d else none) t = found at hone ⊢
    generalize Call.first? (fun w => if w = d'.name then some d' else none) t = found' at hone ⊢
    cases hone with
    | error e => exact .error e
    | none => exact ih
    | some c hd' => exact .some c hd'

/-- Tables with related definitions in the same order look up related definitions. -/
theorem Table.get?_alike {table table' : Table}
    (h : List.Forall₂ R table.definitions table'.definitions) (name : Text) :
    Option.Rel R (table.get? name) (table'.get? name) := by
  unfold get?
  generalize table.definitions = l at h ⊢
  generalize table'.definitions = l' at h ⊢
  induction h with
  | nil => exact .none
  | @cons d d' l l' hd _ ih =>
    rw [List.find?_cons, List.find?_cons, (hR d d' hd).name]
    cases d.name == name with
    | true => exact .some hd
    | false => exact ih

/-- Both ways of selecting find calls at the same places. -/
theorem Expander.select_alike (x x' : Expander)
    (h : List.Forall₂ R x.table.definitions x'.table.definitions)
    (hselection : x'.selection = x.selection) (t : Text) :
    SelectedAlike R (x.select t) (x'.select t) := by
  unfold select
  rw [hselection]
  cases x.selection with
  | leftmost => exact Call.first?_alike hR fun w _ => Table.get?_alike hR h w
  | definitionOrder => exact firstOfDefinitions?_alike hR h t

end alike

/-! ## Where the words of a step come from -/

namespace Expander

variable {x : Expander} {t u w : Text}

/-- The words around a selected call and those of its arguments are words of the text. -/
theorem mem_words_of_select {c : Call} (h : x.select t = .ok (some c))
    (hw : w ∈ words c.before ∨ (∃ a ∈ c.arguments.getD [], w ∈ words a) ∨ w ∈ words c.after) :
    w ∈ words t := by
  rcases x.select_eq_some_cases t h with
    ⟨-, hnone, -, hat⟩ | ⟨list, -, hsome, -, -, hat⟩
  · rw [hat.words_eq, List.mem_append, List.mem_cons]
    rcases hw with hw | ⟨a, ha, -⟩ | hw
    · exact .inl hw
    · rw [hnone] at ha
      exact absurd ha List.not_mem_nil
    · exact .inr (.inr hw)
  · have hopen : isWordChar '(' = false := by decide
    have hclose : isWordChar ')' = false := by decide
    rw [hat.words_eq, words_gap hopen, words_append_cons hclose, List.mem_append, List.mem_cons,
      List.mem_append]
    rcases hw with hw | ⟨a, ha, hw⟩ | hw
    · exact .inl hw
    · rw [hsome, Option.getD_some] at ha
      exact .inr (.inr (.inl ((Call.splitArguments_subset c.definition ha).2 hw)))
    · exact .inr (.inr (.inr hw))

/-- A word behind a step was one before it, or is one of a body and no parameter there. -/
theorem mem_words_of_step (h : x.expandOnce? t = .ok (some u)) (hw : w ∈ words u) :
    w ∈ words t ∨ ∃ d ∈ x.table.definitions, w ∈ words d.body ∧ w ∉ d.parameters.getD [] := by
  obtain ⟨c, r, hselect, hr, rfl⟩ := expandOnce?_eq_some_iff.1 h
  obtain ⟨hstands, hd⟩ := x.standsIn_of_select t hselect
  rw [Call.words_splice hstands.endsOutside_before, List.mem_append, List.mem_append] at hw
  rcases hw with hw | hw | hw
  · exact .inl (mem_words_of_select hselect (.inl hw))
  · rcases Definition.mem_words_of_substitute hr hw with hbody | hargument
    · exact .inr ⟨c.definition, hd, hbody⟩
    · exact .inl (mem_words_of_select hselect (.inr (.inl hargument)))
  · exact .inl (mem_words_of_select hselect (.inr (.inr hw)))

/-! ## In lockstep -/

/-- What makes two expansions go in lockstep through the texts of `I`: calls of related definitions
are selected at the same places, and their replacements are the same, unless the first expansion
fails there with an error of `E`. -/
structure Lockstep (x x' : Expander) (R : Definition → Definition → Prop) (I : Text → Prop)
    (E : Error → Prop) : Prop where
  limit : x'.limit = x.limit
  name : ∀ d d', R d d' → d'.name = d.name
  select : ∀ t, I t → SelectedAlike R (x.select t) (x'.select t)
  replacement : ∀ t c d', I t → x.select t = .ok (some c) → R c.definition d' →
    d'.substitute c.arguments = c.replacement ∨ ∃ e, c.replacement = .error e ∧ E e
  step : ∀ t u, I t → x.expandOnce? t = .ok (some u) → I u

/-- Expansions in lockstep have the same result, unless the first one fails with an error of `E`. -/
theorem Lockstep.go {x' : Expander} {R : Definition → Definition → Prop} {I : Text → Prop}
    {E : Error → Prop} (h : Lockstep x x' R I E) (n : ℕ) (ht : I t) :
    expand.go x' n t = expand.go x n t ∨ ∃ e, expand.go x n t = .error e ∧ E e := by
  induction n generalizing t with
  | zero =>
    left
    have halike := h.select t ht
    rw [expand.go, expand.go]
    generalize x.select t = found at halike ⊢
    generalize x'.select t = found' at halike ⊢
    cases halike with
    | error e => rfl
    | none => rfl
    | some c hd =>
      dsimp only
      rw [h.name _ _ hd, h.limit]
  | succ n ih =>
    have halike := h.select t ht
    generalize hs : x.select t = found at halike
    generalize hs' : x'.select t = found' at halike
    cases halike with
    | error e => exact .inl (by rw [expand.go, expand.go, hs, hs'])
    | none => exact .inl (by rw [expand.go, expand.go, hs, hs'])
    | @some c d' hd =>
      rcases h.replacement t c d' ht hs hd with heq | ⟨e, he, hE⟩
      · cases hr : c.replacement with
        | error e =>
          have hr' : Call.replacement { c with definition := d' } = .error e := heq.trans hr
          rw [go_eq_iff.2 (.unsubstitutable n.succ_pos (.refl t) hs hr),
            go_eq_iff.2 (.unsubstitutable n.succ_pos (.refl t) hs' hr')]
          exact .inl rfl
        | ok r =>
          have hr' : Call.replacement { c with definition := d' } = .ok r := heq.trans hr
          have hstep := expandOnce?_eq_some_iff.2 ⟨c, r, hs, hr, rfl⟩
          have hstep' := expandOnce?_eq_some_iff.2 ⟨_, r, hs', hr', rfl⟩
          rw [go_succ_of_step hstep, go_succ_of_step hstep']
          exact ih (h.step t _ ht hstep)
      · exact .inr ⟨e, go_eq_iff.2 (.unsubstitutable n.succ_pos (.refl t) hs he), hE⟩

end Expander

end FlatHeader
