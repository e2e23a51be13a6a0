import FlatHeader.Proofs.PlainCalls
import FlatHeader.Proofs.Scanning

/-!
# Expansion from the left

A front of a text that ends outside words and has no call is `Frozen`: a call that is selected
starts behind it, so no step changes it. If calls are taken from the left, what stands in front of
the selected call is such a front. So the place of the next call never moves back, and what stands
in front of it stays through all the steps that follow (`expand_leftmost_moves_right`).
-/

namespace FlatHeader

open Text

/-! ## Fronts that no step changes -/

/-- The text `t` starts with `p`, which is not cut off within a word and has no call. -/
structure Frozen (table : Table) (p t : Text) : Prop where
  isPrefix : p <+: t
  endsOutside : EndsOutside p
  noCall : ¬ HasCall table p

namespace Expander

section

variable {x : Expander} {p t u : Text} {c : Call}

/-- A call is selected behind a frozen front, whichever way calls are selected. -/
theorem prefix_before_of_select (hp : Frozen x.table p t) (h : x.select t = .ok (some c)) :
    p <+: c.before := by
  rcases select_cases x t with ⟨hnone, -⟩ | ⟨before, w, after, d, hl, hread⟩
  · rw [h] at hnone
    exact absurd hnone (by simp)
  · rw [Call.before_of_ofWord? (hread.symm.trans h)]
    obtain ⟨q, rfl⟩ := hp.isPrefix
    rcases (liveAt_append_iff hp.endsOutside).1 hl with ⟨rest, hl', -⟩ | ⟨front, -, rfl⟩
    · exact absurd ⟨_, _, _, _, hl'⟩ hp.noCall
    · exact List.prefix_append p front

/-- A step keeps a frozen front. -/
theorem frozen_of_step (hp : Frozen x.table p t) (h : x.expandOnce? t = .ok (some u)) :
    Frozen x.table p u := by
  obtain ⟨c, r, hselect, -, rfl⟩ := expandOnce?_eq_some_iff.1 h
  exact ⟨(prefix_before_of_select hp hselect).trans (List.prefix_append c.before _),
    hp.endsOutside, hp.noCall⟩

theorem Run.frozen {k : ℕ} (h : x.Run k t u) (hp : Frozen x.table p t) : Frozen x.table p u :=
  h.keeps (fun _ _ => frozen_of_step) hp

/-- The result of an expansion lies behind every text of the run that leads to it. -/
theorem Run.exists_run_of_expand {table : Table} {selection : Selection} {limit limit' i : ℕ}
    {s out : Text} (h : (Expander.mk table selection limit).Run i s t)
    (hout : (Expander.mk table selection limit').expand s = .ok out) :
    ∃ k, (Expander.mk table selection limit).Run k t out := by
  have hrun : (Expander.mk table selection limit').Run i s t := h.of_limit
  have hle : i ≤ limit' := by
    by_contra hlt
    obtain ⟨name, snippet, herror⟩ := hrun.go_eq_error (Nat.lt_of_not_le hlt)
    exact absurd (hout.symm.trans herror) (by simp)
  obtain ⟨m, rfl⟩ := Nat.exists_eq_add_of_le hle
  obtain ⟨k, -, hrest, -⟩ := go_eq_ok_iff.1 ((hrun.go_add m).symm.trans hout)
  exact ⟨k, hrest.of_limit⟩

end

/-! ## The place of the next call -/

section

variable {table : Table} {limit : ℕ} {t u v : Text} {c : Call}

/-- What stands in front of the leftmost call has no call itself. -/
theorem frozen_before_of_select (h : (Expander.mk table .leftmost limit).select t = .ok (some c)) :
    Frozen table c.before t := by
  have hstands := (standsIn_of_select _ t h).1
  have hout := hstands.endsOutside_before
  have ht := hstands.eq_append
  refine ⟨ht ▸ List.prefix_append c.before _, hout, ?_⟩
  rintro ⟨before, w, rest, d, hl⟩
  -- its name would be a live word of the whole text, in front of the first one
  have hl' : LiveAt table.get? t before w (rest ++ (c.written ++ c.after)) d := by
    rw [ht]
    exact (liveAt_append_iff hout).2 (.inl ⟨rest, hl, rfl⟩)
  have hread : Call.first? table.get? t = .ok (some c) := h
  have hfirst : c.before.length ≤ before.length := by
    rcases Call.first?_cases table.get? t with ⟨-, hall⟩ | ⟨before', w', after', d', -, hmin, hof⟩
    · exact absurd hl' (hall _ _ _ _)
    · rw [Call.before_of_ofWord? (hof.symm.trans hread)]
      exact hmin _ _ _ _ hl'
  have hlen := congrArg List.length hl.wordAt.eq
  have hpos := List.length_pos_of_ne_nil hl.wordAt.isWord.ne_nil
  simp only [List.length_append] at hlen
  omega

end

end Expander

/-- Expansion from the left only moves to the right. Let some steps lead from `s` to `t`, where the
call `c` is expanded, which gives `u`, and let more steps lead from there to `v`. The bytes in front
of the call are the beginning of `v`, and of the result of expanding `s` if there is one. The text
behind the call is the end of `u`. If a call is selected in `v`, it does not start before the place
at which `c` started. -/
theorem expand_leftmost_moves_right (table : Table) (limit : ℕ) {i j : ℕ} {s t u v : Text}
    {c : Call}
    (hs : (Expander.mk table .leftmost limit).Run i s t)
    (hc : (Expander.mk table .leftmost limit).select t = .ok (some c))
    (hstep : (Expander.mk table .leftmost limit).expandOnce? t = .ok (some u))
    (hv : (Expander.mk table .leftmost limit).Run j u v) :
    splitAtByte? c.start t = some (c.before, c.written ++ c.after) ∧
      c.before <+: u ∧ c.before <+: v ∧
      (∀ limit' out, (Expander.mk table .leftmost limit').expand s = .ok out →
        c.before <+: out) ∧
      c.after <:+ u ∧
      ∀ c', (Expander.mk table .leftmost limit).select v = .ok (some c') → c.start ≤ c'.start := by
  have hfrozen := Expander.frozen_before_of_select hc
  have hu := Expander.frozen_of_step hfrozen hstep
  have hv' := hv.frozen hu
  refine ⟨?_, hu.isPrefix, hv'.isPrefix, fun limit' out hout => ?_, ?_, fun c' hc' => ?_⟩
  · rw [(Expander.standsIn_of_select _ t hc).1.eq_append]
    exact splitAtByte?_append _ _
  · obtain ⟨k, hrun⟩ := hs.exists_run_of_expand hout
    exact (hrun.frozen hfrozen).isPrefix
  · obtain ⟨c', r, hc', -, rfl⟩ := Expander.expandOnce?_eq_some_iff.1 hstep
    obtain rfl := Option.some.inj (Except.ok.inj (hc.symm.trans hc'))
    unfold Call.splice
    rw [← List.append_assoc, ← List.append_assoc, ← List.append_assoc]
    exact List.suffix_append _ _
  · obtain ⟨rest, hrest⟩ := Expander.prefix_before_of_select hv' hc'
    unfold Call.start
    rw [← hrest, byteSize_append]
    exact Nat.le_add_right _ _

/-- A name without an argument list is passed over for good, although what is put behind it starts
with a parenthesis. -/
theorem expand_leftmost_moves_right_passed_name :
    ∃ c c' : Call,
      (Expander.mk (.ofList [⟨['G'], some [['x']], ['x']⟩, ⟨['A'], none, "(y)".toList⟩])
        .leftmost 9).Run 1 "G A A A".toList "G (y) A A".toList ∧
      (Expander.mk (.ofList [⟨['G'], some [['x']], ['x']⟩, ⟨['A'], none, "(y)".toList⟩])
        .leftmost 9).select "G (y) A A".toList = .ok (some c) ∧
      (Expander.mk (.ofList [⟨['G'], some [['x']], ['x']⟩, ⟨['A'], none, "(y)".toList⟩])
        .leftmost 9).expandOnce? "G (y) A A".toList = .ok (some "G (y) (y) A".toList) ∧
      (Expander.mk (.ofList [⟨['G'], some [['x']], ['x']⟩, ⟨['A'], none, "(y)".toList⟩])
        .leftmost 9).select "G (y) (y) A".toList = .ok (some c') ∧
      splitAtByte? 6 "G (y) A A".toList = some ("G (y) ".toList, "A A".toList) ∧
      c.before <+: "G (y) (y) (y)".toList ∧ c.start ≤ c'.start := by
  have hfirst : (Expander.mk (.ofList [⟨['G'], some [['x']], ['x']⟩, ⟨['A'], none, "(y)".toList⟩])
      .leftmost 9).expandOnce? "G A A A".toList = .ok (some "G (y) A A".toList) := by rfl
  have hcall : (Expander.mk (.ofList [⟨['G'], some [['x']], ['x']⟩, ⟨['A'], none, "(y)".toList⟩])
      .leftmost 9).select "G (y) A A".toList =
        .ok (some ⟨"G (y) ".toList, ⟨['A'], none, "(y)".toList⟩, none, ['A'], " A".toList⟩) := by
    rfl
  have hstep : (Expander.mk (.ofList [⟨['G'], some [['x']], ['x']⟩, ⟨['A'], none, "(y)".toList⟩])
      .leftmost 9).expandOnce? "G (y) A A".toList = .ok (some "G (y) (y) A".toList) := by rfl
  have hnext : (Expander.mk (.ofList [⟨['G'], some [['x']], ['x']⟩, ⟨['A'], none, "(y)".toList⟩])
      .leftmost 9).select "G (y) (y) A".toList =
        .ok (some ⟨"G (y) (y) ".toList, ⟨['A'], none, "(y)".toList⟩, none, ['A'], []⟩) := by
    rfl
  obtain ⟨hsplit, -, -, hout, -, hstart⟩ :=
    expand_leftmost_moves_right _ _ (.step hfirst (.refl _)) hcall hstep (.refl _)
  exact ⟨_, _, .step hfirst (.refl _), hcall, hstep, hnext, hsplit, hout 3 _ (by rfl),
    hstart _ hnext⟩

end FlatHeader
