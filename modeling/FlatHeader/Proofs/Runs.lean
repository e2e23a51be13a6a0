import FlatHeader.Proofs.Calls
import FlatHeader.Proofs.Simultaneous

/-!
# Runs of an expansion

`Expander.Run x k t u` says that `k` single steps lead from `t` to `u`. The bounded expansion is a
run: it succeeds exactly if a run within the limit reaches a text without calls
(`expand_eq_ok_iff`), and then gives that text.
-/

namespace FlatHeader.Expander

open Text

variable (x : Expander)

/-- `k` successful steps lead from the first text to the second. -/
inductive Run : ℕ → Text → Text → Prop
  | refl (t : Text) : Run 0 t t
  | step {k : ℕ} {t u v : Text} (h : x.expandOnce? t = .ok (some u)) (hr : Run k u v) :
      Run (k + 1) t v

variable {x} {t u : Text}

/-! ## One step -/

theorem expandOnce?_eq_none_iff : x.expandOnce? t = .ok none ↔ x.select t = .ok none := by
  unfold expandOnce?
  split
  · next e he => simp [he]
  · next he => simp [he]
  · next call he =>
    rw [he]
    cases call.replacement <;> simp [Except.map]

/-- A step selects a call and puts its replacement in its place. -/
theorem expandOnce?_eq_some_iff :
    x.expandOnce? t = .ok (some u) ↔ ∃ call replacement, x.select t = .ok (some call) ∧
      call.replacement = .ok replacement ∧ u = call.splice replacement := by
  unfold expandOnce?
  split
  · next e he => simp [he]
  · next he => simp [he]
  · next call he =>
    cases hr : call.replacement with
    | error e => simp [he, hr, Except.map]
    | ok r => simp [he, hr, Except.map, eq_comm]

/-- No space is put before a replacement, since a call starts where a word does. -/
theorem splice_of_endsOutside {c : Call} (h : EndsOutside c.before) (r : Text) :
    c.splice r =
      c.before ++ (r ++ ((if joins r c.after then [' '] else []) ++ c.after)) := by
  unfold Call.splice
  rw [joins_of_endsOutside h r]
  rfl

/-- What every step keeps is kept by a run. -/
theorem Run.keeps {I : Text → Prop}
    (hstep : ∀ t u, I t → x.expandOnce? t = .ok (some u) → I u) {k : ℕ} (h : x.Run k t u)
    (ht : I t) : I u := by
  induction h with
  | refl t => exact ht
  | step hfirst _ ih => exact ih (hstep _ _ ht hfirst)

/-! ## The bounded expansion -/

theorem go_of_select_none (h : x.select t = .ok none) (n : ℕ) : expand.go x n t = .ok t := by
  cases n <;> rw [expand.go, h]

theorem go_zero_of_select_some {call : Call} (h : x.select t = .ok (some call)) :
    expand.go x 0 t = .error (.didNotTerminate call.definition.name x.limit
      ((call.written ++ call.after).take snippetLength)) := by
  rw [expand.go, h]

/-- The expansion goes on behind a successful step, with one step less. -/
theorem go_succ_of_step (h : x.expandOnce? t = .ok (some u)) (n : ℕ) :
    expand.go x (n + 1) t = expand.go x n u := by
  obtain ⟨call, replacement, hs, hr, rfl⟩ := expandOnce?_eq_some_iff.1 h
  rw [expand.go, hs]
  simp only [hr]

/-- An expansion that succeeds has nothing to do, or it starts with a step. -/
theorem go_eq_ok_cases {n : ℕ} {out : Text} (h : expand.go x n t = .ok out) :
    (x.select t = .ok none ∧ out = t) ∨
      ∃ m u, n = m + 1 ∧ x.expandOnce? t = .ok (some u) ∧ expand.go x m u = .ok out := by
  cases n with
  | zero =>
    rw [expand.go] at h
    split at h
    · exact absurd h (by simp)
    · next hs => exact .inl ⟨hs, (Except.ok.inj h).symm⟩
    · exact absurd h (by simp)
  | succ m =>
    rw [expand.go] at h
    split at h
    · exact absurd h (by simp)
    · next hs => exact .inl ⟨hs, (Except.ok.inj h).symm⟩
    · next call hs =>
      split at h
      · exact absurd h (by simp)
      · next r hr =>
        exact .inr ⟨m, _, rfl, expandOnce?_eq_some_iff.2 ⟨call, r, hs, hr, rfl⟩, h⟩

theorem go_eq_ok_iff {n : ℕ} {out : Text} :
    expand.go x n t = .ok out ↔ ∃ k ≤ n, x.Run k t out ∧ x.select out = .ok none := by
  constructor
  · intro h
    induction n generalizing t with
    | zero =>
      rcases go_eq_ok_cases h with ⟨hs, rfl⟩ | ⟨m, u, hm, -, -⟩
      · exact ⟨0, le_rfl, .refl out, hs⟩
      · exact absurd hm (by omega)
    | succ n ih =>
      rcases go_eq_ok_cases h with ⟨hs, rfl⟩ | ⟨m, u, hm, hstep, hgo⟩
      · exact ⟨0, Nat.zero_le _, .refl out, hs⟩
      · obtain rfl : n = m := by omega
        obtain ⟨k, hk, hrun, hs⟩ := ih hgo
        exact ⟨k + 1, by omega, .step hstep hrun, hs⟩
  · -- the limit goes down with each step of the run
    rintro ⟨k, hk, hrun, hs⟩
    induction hrun generalizing n with
    | refl t => exact go_of_select_none hs n
    | step hstep _ ih =>
      obtain ⟨m, rfl⟩ : ∃ m, n = m + 1 := ⟨n - 1, by omega⟩
      rw [go_succ_of_step hstep]
      exact ih (by omega) hs

/-- The expansion succeeds exactly if a run within the limit ends in a text without calls. -/
theorem expand_eq_ok_iff {out : Text} :
    x.expand t = .ok out ↔ ∃ k ≤ x.limit, x.Run k t out ∧ x.select out = .ok none :=
  go_eq_ok_iff

/-- An expansion stops at a limit that is less than the length of a run. -/
theorem Run.go_eq_error {k n : ℕ} (h : x.Run k t u) (hn : n < k) :
    ∃ name snippet, expand.go x n t = .error (.didNotTerminate name x.limit snippet) := by
  induction h generalizing n with
  | refl t => exact absurd hn (Nat.not_lt_zero n)
  | @step k t v u hstep _ ih =>
    cases n with
    | zero =>
      obtain ⟨call, -, hs, -, -⟩ := expandOnce?_eq_some_iff.1 hstep
      exact ⟨_, _, go_zero_of_select_some hs⟩
    | succ n =>
      rw [go_succ_of_step hstep]
      exact ih (by omega)

/-- An expansion that stops at its limit has taken as many steps, and there is a call left. -/
theorem exists_run_of_go_didNotTerminate {n iterations : ℕ} {name snippet : Text}
    (h : expand.go x n t = .error (.didNotTerminate name iterations snippet)) :
    ∃ u call, x.Run n t u ∧ x.select u = .ok (some call) := by
  induction n generalizing t with
  | zero =>
    rw [expand.go] at h
    split at h
    · next e hs =>
      rw [Except.error.inj h] at hs
      exact absurd hs (x.select_ne_didNotTerminate t name snippet iterations)
    · exact absurd h (by simp)
    · next call hs => exact ⟨t, call, .refl t, hs⟩
  | succ n ih =>
    rw [expand.go] at h
    split at h
    · next e hs =>
      rw [Except.error.inj h] at hs
      exact absurd hs (x.select_ne_didNotTerminate t name snippet iterations)
    · exact absurd h (by simp)
    · next call hs =>
      split at h
      · next e hr =>
        rw [Except.error.inj h] at hr
        exact absurd hr (call.definition.substitute_ne_didNotTerminate _ name snippet iterations)
      · next r hr =>
        obtain ⟨u, call', hrun, hu⟩ := ih h
        exact ⟨u, call', .step (expandOnce?_eq_some_iff.2 ⟨call, r, hs, hr, rfl⟩) hrun, hu⟩

/-! ## The number of steps -/

/-- The number of steps that an expansion takes. -/
def stepCount (x : Expander) (t : Text) : ℕ := (x.steps x.limit t).length

theorem Run.length_steps {k n : ℕ} (h : x.Run k t u) (hu : x.select u = .ok none) (hn : k ≤ n) :
    (x.steps n t).length = k := by
  induction h generalizing n with
  | refl t =>
    cases n with
    | zero => rfl
    | succ n => rw [steps, hu]; rfl
  | @step k t v u hstep _ ih =>
    obtain ⟨m, rfl⟩ : ∃ m, n = m + 1 := ⟨n - 1, by omega⟩
    obtain ⟨call, r, hs, hr, rfl⟩ := expandOnce?_eq_some_iff.1 hstep
    rw [steps, hs]
    simp only [hr, List.length_cons, ih hu (Nat.le_of_succ_le_succ hn)]

/-- An expansion that succeeds is a run of as many steps as it takes. -/
theorem run_stepCount_of_expand {out : Text} (h : x.expand t = .ok out) :
    x.Run (x.stepCount t) t out ∧ x.select out = .ok none := by
  obtain ⟨k, hk, hrun, hout⟩ := expand_eq_ok_iff.1 h
  have hcount : x.stepCount t = k := hrun.length_steps hout hk
  rw [hcount]
  exact ⟨hrun, hout⟩

/-- The limit has no part in the single steps. -/
theorem Run.of_limit {table : Table} {selection : Selection} {limit limit' k : ℕ}
    (h : (Expander.mk table selection limit).Run k t u) :
    (Expander.mk table selection limit').Run k t u := by
  induction h with
  | refl t => exact .refl t
  | step hstep _ ih => exact .step hstep ih

/-- No text of a run that ends in a text without calls is one in which selecting fails. -/
theorem Run.exists_select {k : ℕ} (h : x.Run k t u) (hu : x.select u = .ok none) :
    ∃ call?, x.select t = .ok call? := by
  cases h with
  | refl t => exact ⟨none, hu⟩
  | step hstep _ =>
    obtain ⟨call, -, hs, -, -⟩ := expandOnce?_eq_some_iff.1 hstep
    exact ⟨some call, hs⟩

/-- A run stays where it is if nothing is selected. -/
theorem Run.eq_of_select_none {k : ℕ} (h : x.Run k t u) (ht : x.select t = .ok none) :
    k = 0 ∧ t = u := by
  cases h with
  | refl t => exact ⟨rfl, rfl⟩
  | step hstep _ =>
    rw [expandOnce?_eq_none_iff.2 ht] at hstep
    exact absurd hstep (by simp)

/-- A run that ends in a text without calls starts with the call that is selected. -/
theorem Run.exists_step_of_select_some {k : ℕ} {call : Call} (h : x.Run k t u)
    (hu : x.select u = .ok none) (ht : x.select t = .ok (some call)) :
    ∃ l r, k = l + 1 ∧ call.replacement = .ok r ∧ x.Run l (call.splice r) u := by
  cases h with
  | refl t =>
    rw [hu] at ht
    exact absurd ht (by simp)
  | step hstep hrun =>
    obtain ⟨call', r, hs, hr, rfl⟩ := expandOnce?_eq_some_iff.1 hstep
    obtain rfl := Option.some.inj (Except.ok.inj (ht.symm.trans hs))
    exact ⟨_, r, rfl, hr, hrun⟩

end FlatHeader.Expander
