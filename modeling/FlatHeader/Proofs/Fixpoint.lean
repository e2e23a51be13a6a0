import FlatHeader.Proofs.Runs

/-!
# The result of an expansion is a fixpoint

What an expansion ends with has no live word, and texts without live words are the same for both
ways of selecting a call. So the result is one for both of them, whatever the limit.
-/

namespace FlatHeader

open Text

/-- The result of an expansion, in either selection and with any limit, has no call left: a word of
it that names a definition names a function-like one, and no parenthesis follows. No step is
possible on it and expanding it again changes nothing, in both selections. For any text, the two
selections agree on whether a step is to be taken. -/
theorem expand_fixpoint (table : Table) (t : Text) :
    (∀ selection limit out, (Expander.mk table selection limit).expand t = .ok out →
      (∀ before w after, WordAt out before w after → ∀ d ∈ table.definitions, d.name = w →
        d.isFunctionLike = true ∧ after.head? ≠ some '(') ∧
      (∀ selection' limit', (Expander.mk table selection' limit').expandOnce? out = .ok none) ∧
      (∀ selection' limit', (Expander.mk table selection' limit').expand out = .ok out)) ∧
    (∀ limit limit', (Expander.mk table .leftmost limit).expandOnce? t = .ok none ↔
      (Expander.mk table .definitionOrder limit').expandOnce? t = .ok none) := by
  constructor
  · intro selection limit out hout
    obtain ⟨-, -, -, hselect⟩ := Expander.expand_eq_ok_iff.1 hout
    have hlive := (Expander.select_eq_none_iff _ out).1 hselect
    have hnone : ∀ selection' limit',
        (Expander.mk table selection' limit').select out = .ok none :=
      fun _ _ => (Expander.select_eq_none_iff _ out).2 hlive
    refine ⟨?_, ?_, ?_⟩
    · intro before w after hat d hd hname
      have hdead : ¬ d.Live after := fun h =>
        hlive before w after d ((liveAt_get?_iff table out _ _ _ _).2 ⟨hat, hd, hname, h⟩)
      rw [Definition.Live, not_or, Bool.not_eq_false] at hdead
      exact hdead
    · intro selection' limit'
      exact Expander.expandOnce?_eq_none_iff.2 (hnone selection' limit')
    · intro selection' limit'
      exact Expander.go_of_select_none (hnone selection' limit') limit'
  · intro limit limit'
    rw [Expander.expandOnce?_eq_none_iff, Expander.expandOnce?_eq_none_iff,
      Expander.select_eq_none_iff, Expander.select_eq_none_iff]

/-- What one selection ends with is left alone by the other, also where no step is allowed. A name
without an argument list stays. -/
theorem expand_fixpoint_name_without_list :
    (Expander.mk (.ofList [⟨['f'], some [['x']], ['[', 'x', ' ', 'f', ']']⟩]) .leftmost 2).expand
        ['f', '(', '1', ')'] = .ok ['[', '1', ' ', 'f', ']'] ∧
      (Expander.mk (.ofList [⟨['f'], some [['x']], ['[', 'x', ' ', 'f', ']']⟩])
        .definitionOrder 0).expand ['[', '1', ' ', 'f', ']'] = .ok ['[', '1', ' ', 'f', ']'] := by
  refine ⟨by rfl, ?_⟩
  exact ((expand_fixpoint _ ['f', '(', '1', ')']).1 .leftmost 2 _ (by rfl)).2.2 .definitionOrder 0

end FlatHeader
