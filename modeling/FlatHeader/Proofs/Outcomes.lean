import FlatHeader.Proofs.Runs

/-!
# What an expansion ends with

An expansion repeats single steps, and `Outcome` lists the ways in which that can end, each with the
run that leads there. There is exactly one outcome for a text and a limit, and it is the result of
the expansion (`go_eq_iff`). The boundary step is where the order of the checks shows: after the
last allowed step a call that cannot be read still counts, and a call that cannot be substituted
does not.
-/

namespace FlatHeader

open Text

namespace Expander

/-- What at most `n` steps from a text end with: a text without calls, a text in which no call can
be selected, a call that cannot be substituted, or a call for which no step is left. -/
inductive Outcome (x : Expander) (n : ℕ) (t : Text) : Except Error Text → Prop
  | fixpoint {k : ℕ} {u : Text} (hk : k ≤ n) (hrun : x.Run k t u)
      (hu : x.select u = .ok none) : Outcome x n t (.ok u)
  | unreadable {k : ℕ} {u : Text} {e : Error} (hk : k ≤ n) (hrun : x.Run k t u)
      (hu : x.select u = .error e) : Outcome x n t (.error e)
  | unsubstitutable {k : ℕ} {u : Text} {c : Call} {e : Error} (hk : k < n) (hrun : x.Run k t u)
      (hu : x.select u = .ok (some c)) (hc : c.replacement = .error e) : Outcome x n t (.error e)
  | exhausted {u : Text} {c : Call} (hrun : x.Run n t u) (hu : x.select u = .ok (some c)) :
      Outcome x n t (.error (.didNotTerminate c.definition.name x.limit
        ((c.written ++ c.after).take snippetLength)))

variable {x : Expander} {t u : Text}

/-! ## One step -/

/-- A call cannot be read if its list is not closed or another parenthesis opens in it. -/
theorem select_eq_error_cases {e : Error} (h : x.select t = .error e) :
    (∃ name offset, e = .unterminatedCall name offset) ∨
      ∃ name offset, e = .nestedParentheses name offset := by
  rcases x.select_cases t with ⟨hnone, -⟩ | ⟨before, w, after, d, -, hread⟩
  · rw [hnone] at h
    exact absurd h (by simp)
  · rw [hread] at h
    unfold Call.ofWord? at h
    split at h
    · exact absurd h (by simp)
    · split at h
      · dsimp only at h
        split at h
        · exact .inl ⟨_, _, (Except.error.inj h).symm⟩
        · exact absurd h (by simp)
        · exact .inr ⟨_, _, (Except.error.inj h).symm⟩
      · exact absurd h (by simp)

/-- A call that cannot be read is what a single step fails with. -/
theorem expandOnce?_of_select_error {e : Error} (h : x.select t = .error e) :
    x.expandOnce? t = .error e := by
  unfold expandOnce?
  rw [h]

/-- A call that cannot be substituted is what a single step fails with. -/
theorem expandOnce?_of_replacement_error {c : Call} {e : Error} (h : x.select t = .ok (some c))
    (hc : c.replacement = .error e) : x.expandOnce? t = .error e := by
  unfold expandOnce?
  rw [h]
  simp only [hc]
  rfl

/-- Behind a step the same outcomes are left, with one step less. -/
theorem Outcome.step {n : ℕ} {r : Except Error Text} (h : x.expandOnce? t = .ok (some u))
    (hr : x.Outcome n u r) : x.Outcome (n + 1) t r := by
  cases hr with
  | fixpoint hk hrun hu => exact .fixpoint (Nat.succ_le_succ hk) (.step h hrun) hu
  | unreadable hk hrun hu => exact .unreadable (Nat.succ_le_succ hk) (.step h hrun) hu
  | unsubstitutable hk hrun hu hc =>
    exact .unsubstitutable (Nat.succ_lt_succ hk) (.step h hrun) hu hc
  | exhausted hrun hu => exact .exhausted (.step h hrun) hu

/-! ## All steps -/

/-- The bounded expansion has one of the outcomes. -/
theorem outcome_go (x : Expander) (n : ℕ) (t : Text) : x.Outcome n t (expand.go x n t) := by
  induction n generalizing t with
  | zero =>
    cases hs : x.select t with
    | error e =>
      rw [expand.go, hs]
      exact .unreadable le_rfl (.refl t) hs
    | ok c? =>
      cases c? with
      | none =>
        rw [go_of_select_none hs]
        exact .fixpoint le_rfl (.refl t) hs
      | some c =>
        rw [go_zero_of_select_some hs]
        exact .exhausted (.refl t) hs
  | succ n ih =>
    cases hs : x.select t with
    | error e =>
      rw [expand.go, hs]
      exact .unreadable (Nat.zero_le _) (.refl t) hs
    | ok c? =>
      cases c? with
      | none =>
        rw [go_of_select_none hs]
        exact .fixpoint (Nat.zero_le _) (.refl t) hs
      | some c =>
        cases hc : c.replacement with
        | error e =>
          rw [expand.go, hs]
          simp only [hc]
          exact .unsubstitutable (Nat.succ_pos n) (.refl t) hs hc
        | ok r =>
          have hstep := expandOnce?_eq_some_iff.2 ⟨c, r, hs, hc, rfl⟩
          rw [go_succ_of_step hstep]
          exact (ih _).step hstep

/-- The bounded expansion goes on behind a run with as many steps as are left. -/
theorem Run.go_add {k : ℕ} (h : x.Run k t u) (m : ℕ) :
    expand.go x (k + m) t = expand.go x m u := by
  induction h with
  | refl t => rw [Nat.zero_add]
  | @step k t v u hstep _ ih => rw [Nat.add_right_comm, go_succ_of_step hstep, ih]

/-- There is no other outcome than the result of the bounded expansion. -/
theorem go_eq_iff {n : ℕ} {r : Except Error Text} : expand.go x n t = r ↔ x.Outcome n t r := by
  constructor
  · rintro rfl
    exact outcome_go x n t
  · intro h
    cases h with
    | @fixpoint k u hk hrun hu =>
      obtain ⟨m, rfl⟩ := Nat.exists_eq_add_of_le hk
      rw [hrun.go_add, go_of_select_none hu]
    | @unreadable k u e hk hrun hu =>
      obtain ⟨m, rfl⟩ := Nat.exists_eq_add_of_le hk
      rw [hrun.go_add]
      cases m <;> rw [expand.go, hu]
    | @unsubstitutable k u c e hk hrun hu hc =>
      obtain ⟨m, rfl⟩ := Nat.exists_eq_add_of_lt hk
      rw [Nat.add_assoc, hrun.go_add, expand.go, hu]
      simp only [hc]
    | exhausted hrun hu => rw [← Nat.add_zero n, hrun.go_add, go_zero_of_select_some hu]

/-- A higher limit has the same outcome, unless the lower one was exhausted. -/
theorem Outcome.of_le {table : Table} {selection : Selection} {limit limit' n n' : ℕ}
    {r : Except Error Text} (h : (Expander.mk table selection limit).Outcome n t r) (hn : n ≤ n')
    (hr : ∀ name iterations snippet, r ≠ .error (.didNotTerminate name iterations snippet)) :
    (Expander.mk table selection limit').Outcome n' t r := by
  cases h with
  | fixpoint hk hrun hu => exact .fixpoint (hk.trans hn) hrun.of_limit hu
  | unreadable hk hrun hu => exact .unreadable (hk.trans hn) hrun.of_limit hu
  | unsubstitutable hk hrun hu hc => exact .unsubstitutable (hk.trans_le hn) hrun.of_limit hu hc
  | exhausted hrun hu => exact absurd rfl (hr _ _ _)

/-- The text from a selected call on. -/
theorem drop_before_of_select {c : Call} (h : x.select t = .ok (some c)) :
    t.drop c.before.length = c.written ++ c.after := by
  conv_lhs => rw [(x.standsIn_of_select t h).1.eq_append]
  exact List.drop_left

end Expander

/-- An expansion is the iteration of single steps up to an exact limit. It succeeds with a text if
and only if at most as many single steps as the limit lead there and no step is possible on it. If
selecting a call fails on a text that at most as many steps lead to, the expansion fails with that
error, which is about a list that is not closed or has another parenthesis in it; if the call that
is selected cannot be substituted and fewer steps led there, it fails with that error. Either is
what the single step on that text fails with. If all allowed steps succeed and a call can still be
selected, the expansion reports the limit, the name that is called and the text from the call on, up
to sixty characters. There is no other result, and any that is not about the limit stays the same
for all higher limits. -/
theorem expand_boundedIteration (x : Expander) (t : Text) :
    (∀ out, x.expand t = .ok out ↔
      ∃ k ≤ x.limit, x.Run k t out ∧ x.expandOnce? out = .ok none) ∧
    (∀ k u e, k ≤ x.limit → x.Run k t u → x.select u = .error e →
      x.expand t = .error e ∧ x.expandOnce? u = .error e ∧
        ((∃ name offset, e = .unterminatedCall name offset) ∨
          ∃ name offset, e = .nestedParentheses name offset)) ∧
    (∀ k u c e, k < x.limit → x.Run k t u → x.select u = .ok (some c) →
      c.replacement = .error e → x.expand t = .error e ∧ x.expandOnce? u = .error e) ∧
    (∀ u c, x.Run x.limit t u → x.select u = .ok (some c) →
      x.expand t =
        .error (.didNotTerminate c.definition.name x.limit ((u.drop c.before.length).take 60))) ∧
    (∀ r, x.expand t = r → x.Outcome x.limit t r ∧
      ((∀ name iterations snippet, r ≠ .error (.didNotTerminate name iterations snippet)) →
        ∀ limit', x.limit ≤ limit' → Expander.expand { x with limit := limit' } t = r)) := by
  refine ⟨fun out => ?_, ?_, ?_, ?_, ?_⟩
  · rw [Expander.expand_eq_ok_iff]
    simp only [Expander.expandOnce?_eq_none_iff]
  · intro k u e hk hrun hu
    exact ⟨Expander.go_eq_iff.2 (.unreadable hk hrun hu), Expander.expandOnce?_of_select_error hu,
      Expander.select_eq_error_cases hu⟩
  · intro k u c e hk hrun hu hc
    exact ⟨Expander.go_eq_iff.2 (.unsubstitutable hk hrun hu hc),
      Expander.expandOnce?_of_replacement_error hu hc⟩
  · intro u c hrun hu
    rw [Expander.drop_before_of_select hu]
    exact Expander.go_eq_iff.2 (.exhausted hrun hu)
  · intro r h
    have houtcome := Expander.go_eq_iff.1 h
    exact ⟨houtcome, fun hr limit' hle => Expander.go_eq_iff.2 (houtcome.of_le hle hr)⟩

/-- One step leads to a call that is not closed. It is reported at the limit of one step already. A
call with too many arguments is reported only if a step is left for it, and at the limit of no step
the call itself is reported. -/
theorem expand_boundedIteration_last_step :
    (Expander.mk (.ofList [⟨['A'], none, ['F', '(']⟩, ⟨['F'], some [], []⟩]) .leftmost 1).expand
        ['A'] = .error (.unterminatedCall ['F'] 0) ∧
    (Expander.mk (.ofList [⟨['A'], none, ['F', '(']⟩, ⟨['F'], some [], []⟩]) .leftmost 1).expand
        ['F', '(', 'x', ')'] = .error (.arityMismatch ['F'] 0 1) ∧
    (Expander.mk (.ofList [⟨['A'], none, ['F', '(']⟩, ⟨['F'], some [], []⟩]) .leftmost 0).expand
        ['F', '(', 'x', ')'] = .error (.didNotTerminate ['F'] 0 ['F', '(', 'x', ')']) ∧
    (Expander.mk (.ofList [⟨['A'], none, ['F', '(']⟩, ⟨['F'], some [], []⟩]) .leftmost 7).expand
        ['F', '(', ')', 'F'] = .ok ['F'] := by
  have hall := fun limit => expand_boundedIteration
    ⟨.ofList [⟨['A'], none, ['F', '(']⟩, ⟨['F'], some [], []⟩], .leftmost, limit⟩
  refine ⟨?_, ?_, ?_, ?_⟩
  · exact ((hall 1 ['A']).2.1 1 ['F', '('] _ le_rfl (.step (by rfl) (.refl _)) (by rfl)).1
  · exact ((hall 1 ['F', '(', 'x', ')']).2.2.1 0 _ _ _ one_pos (.refl _) (by rfl) (by rfl)).1
  · exact (hall 0 ['F', '(', 'x', ')']).2.2.2.1 _ _ (.refl _) (by rfl)
  · exact ((hall 1 ['F', '(', ')', 'F']).2.2.2.2 _ (by rfl)).2 (by simp) 7 (by decide)

end FlatHeader
