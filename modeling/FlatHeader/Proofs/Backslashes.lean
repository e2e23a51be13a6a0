import FlatHeader.Header
import FlatHeader.Proofs.Bodies
import FlatHeader.Proofs.Runs
import FlatHeader.Proofs.Simultaneous

/-!
# Backslashes in a header

Continuation markers stay in the text while it is expanded and are resolved at the end. One
operation can break a marker: an argument is trimmed, and if a marker stood at its end, the line
break goes and the backslash stays. Everything else keeps markers whole. So a step from a text with
whole markers leads to such a text again unless the call has an argument that ends with a backslash
(`Expander.onlyMarkers_of_expandOnce?`), and a header has a backslash exactly if one of the expanded
text belongs to no marker, which takes such a call.
-/

namespace FlatHeader

open Text Continuation

/-! ## The arguments of a call -/

theorem isWhiteSpace_of_isBlank {c : Char} (h : isBlank c = true) :
    Unicode.isWhiteSpace c = true := by
  unfold isBlank at h
  rw [Bool.or_eq_true, beq_iff_eq, beq_iff_eq] at h
  rcases h with rfl | rfl <;> decide

/-- Trimming keeps the markers whole unless it leaves a backslash at the end. -/
theorem onlyMarkers_trim_iff {t : Text} (ht : OnlyMarkers t) :
    OnlyMarkers (trim t) ↔ (trim t).getLast? ≠ some '\\' := by
  constructor
  · intro h hlast
    obtain ⟨s, hs⟩ := List.getLast?_eq_some_iff.1 hlast
    exact not_startsBreak_nil (h s [] hs)
  · intro hlast
    have hstart : OnlyMarkers (trimStart t) :=
      ht.of_suffix (List.dropWhile_suffix Unicode.isWhiteSpace)
    obtain ⟨s, hs⟩ := dropEndWhile_isPrefix Unicode.isWhiteSpace (trimStart t)
    have hsplit : OnlyMarkers (trim t ++ s) := by
      unfold trim
      rwa [hs]
    refine hsplit.of_append_left_of_last fun c hc => ?_
    -- what is left ends outside white space, so not within a line break either
    have hspace : Unicode.isWhiteSpace c = false := getLast?_dropEndWhile hc
    refine ⟨?_, ?_, ?_⟩
    · intro hbackslash
      rw [hbackslash] at hc
      exact hlast hc
    · by_contra hblank
      rw [Bool.not_eq_false] at hblank
      rw [isWhiteSpace_of_isBlank hblank] at hspace
      exact absurd hspace (by decide)
    · intro hcr
      rw [hcr] at hspace
      exact absurd hspace (by decide)

namespace Call

variable {t : Text} {c : Call}

/-- An argument of the call ends with a backslash: a marker stood at its end and lost its line
break. -/
def CutsMarker (c : Call) : Prop := ∃ a ∈ c.arguments.getD [], a.getLast? = some '\\'

/-- The arguments of a call are trimmed, but hold whole markers otherwise. -/
theorem StandsIn.onlyMarkers_argument_iff (h : c.StandsIn t) (ht : OnlyMarkers t) :
    ∀ a ∈ c.arguments.getD [], OnlyMarkers a ↔ a.getLast? ≠ some '\\' := by
  cases h with
  | objectLike hat hlike =>
    intro a ha
    exact absurd ha List.not_mem_nil
  | @functionLike before w list rest d hat hlike hlist =>
    intro a ha
    rw [Option.getD_some, splitArguments] at ha
    split at ha
    · exact absurd ha List.not_mem_nil
    · obtain ⟨p, hp, rfl⟩ := List.mem_map.1 ha
      obtain ⟨front, back, hsplit, hback⟩ := exists_append_of_mem_splitOn hp
      apply onlyMarkers_trim_iff
      -- neither a parenthesis nor a comma stands within a marker
      rw [hat.eq] at ht
      have hopen : OnlyMarkers (list ++ ')' :: rest) := ((onlyMarkers_cons _ _).1
        ht.of_append_right.of_append_right).2
      have hmarked : OnlyMarkers list := by
        refine hopen.of_append_left_of_head fun x hx => ?_
        rw [List.head?_cons, Option.mem_some_iff] at hx
        rw [← hx]
        decide
      rw [hsplit] at hmarked
      refine hmarked.of_append_right.of_append_left_of_head fun x hx => ?_
      rw [hback x hx]
      decide

end Call

/-! ## Substitution -/

namespace Definition

/-- Substitution keeps the markers of the body and of the arguments. -/
theorem onlyMarkers_of_substitute {d : Definition} {arguments : Option (List Text)} {out : Text}
    (hbody : OnlyMarkers d.body) (harguments : ∀ a ∈ arguments.getD [], OnlyMarkers a)
    (h : d.substitute arguments = .ok out) : OnlyMarkers out := by
  unfold substitute at h
  split at h
  · rwa [← Except.ok.inj h]
  · next parameters l _ =>
    split at h
    · rw [eq_mapWords_of_replaceParameters h]
      refine hbody.mapWords fun w hw => ?_
      -- a word is exchanged for an argument or stays, and words hold no backslash
      unfold valueOf
      cases hl : (parameters.zip l).lookup w with
      | none => exact onlyMarkers_of_isWord hw
      | some a =>
        obtain ⟨l₁, l₂, hzip, -⟩ := List.lookup_eq_some_iff.1 hl
        have hmem : (w, a) ∈ parameters.zip l := by
          rw [hzip]
          exact List.mem_append_right l₁ List.mem_cons_self
        exact harguments a (List.of_mem_zip hmem).2
    · exact absurd h (by simp)
  · exact absurd h (by simp)

end Definition

/-! ## A step -/

/-- The text around a call has whole markers: what a call starts and ends with is in none. -/
theorem Call.StandsIn.onlyMarkers_around {t : Text} {c : Call} (h : c.StandsIn t)
    (ht : OnlyMarkers t) : OnlyMarkers c.before ∧ OnlyMarkers c.after := by
  constructor
  · obtain ⟨w, rest, hat⟩ := h.exists_wordAt
    rw [hat.eq] at ht
    refine ht.of_append_left_of_head fun x hx => ?_
    rw [List.head?_append_of_ne_nil _ hat.isWord.ne_nil] at hx
    -- behind the border the name of the call starts, which is no line break
    have hword := hat.isWord.all x (List.mem_of_head? hx)
    by_contra hbreak
    rw [Bool.not_eq_false] at hbreak
    rw [isWordChar_eq_false_of_isBreakChar hbreak] at hword
    exact absurd hword (by decide)
  · rw [h.eq_append] at ht
    exact ht.of_append_right.of_append_right

/-- The spaces that keep a replacement apart hold no marker. -/
theorem Call.onlyMarkers_splice {c : Call} {r : Text} (hbefore : OnlyMarkers c.before)
    (hr : OnlyMarkers r) (hafter : OnlyMarkers c.after) : OnlyMarkers (c.splice r) := by
  have hspace : ∀ b : Bool, OnlyMarkers (if b = true then [' '] else []) := by decide
  exact hbefore.append ((hspace _).append (hr.append ((hspace _).append hafter)))

namespace Expander

variable {x : Expander} {t u : Text}

/-- A step keeps the markers whole unless an argument of the call lost a line break. -/
theorem onlyMarkers_of_expandOnce? (htable : ∀ d ∈ x.table.definitions, OnlyMarkers d.body)
    (ht : OnlyMarkers t) (h : x.expandOnce? t = .ok (some u)) :
    OnlyMarkers u ∨ ∃ c, x.select t = .ok (some c) ∧ c.CutsMarker := by
  obtain ⟨c, r, hselect, hr, rfl⟩ := expandOnce?_eq_some_iff.1 h
  obtain ⟨hstands, hd⟩ := standsIn_of_select x t hselect
  by_cases hcut : c.CutsMarker
  · exact .inr ⟨c, hselect, hcut⟩
  · left
    obtain ⟨hbefore, hafter⟩ := hstands.onlyMarkers_around ht
    have harguments : ∀ a ∈ c.arguments.getD [], OnlyMarkers a := fun a ha =>
      (hstands.onlyMarkers_argument_iff ht a ha).2 fun hlast => hcut ⟨a, ha, hlast⟩
    exact Call.onlyMarkers_splice hbefore
      (Definition.onlyMarkers_of_substitute (htable _ hd) harguments hr) hafter

/-- The step from the first text to the second breaks a marker: all markers of the first are whole,
and the call that is expanded cuts one of them. -/
structure BreaksMarker (x : Expander) (t u : Text) : Prop where
  step : x.expandOnce? t = .ok (some u)
  whole : OnlyMarkers t
  broken : ¬ OnlyMarkers u
  cut : ∃ c, x.select t = .ok (some c) ∧ c.CutsMarker

/-- A run keeps all markers whole unless one of its steps breaks one. -/
theorem Run.onlyMarkers {k : ℕ} (hrun : x.Run k t u)
    (htable : ∀ d ∈ x.table.definitions, OnlyMarkers d.body) (ht : OnlyMarkers t) :
    OnlyMarkers u ∨ ∃ j < k, ∃ v w, x.Run j t v ∧ x.BreaksMarker v w := by
  induction hrun with
  | refl t => exact .inl ht
  | @step k t v u hstep _ ih =>
    by_cases hv : OnlyMarkers v
    · rcases ih hv with hu | ⟨j, hj, w, w', hrun, hbreak⟩
      · exact .inl hu
      · exact .inr ⟨j + 1, by omega, w, w', .step hstep hrun, hbreak⟩
    · -- nothing is broken in `t` yet, so it is this step
      have hcut := (onlyMarkers_of_expandOnce? htable ht hstep).resolve_left hv
      exact .inr ⟨0, by omega, t, v, .refl t, hstep, ht, hv, hcut⟩

end Expander

/-! ## The header -/

/-- The seed has the backslashes of the requested names only. -/
theorem not_mem_render {tags classes : List Text}
    (hnames : ∀ name ∈ tags ++ classes, '\\' ∉ name) :
    '\\' ∉ SeedTemplate.render {} tags classes := by
  have hline : ∀ callee : Text, '\\' ∉ callee → ∀ l : List Text, (∀ name ∈ l, '\\' ∉ name) →
      '\\' ∉ l.flatMap (SeedTemplate.callLine callee) := by
    intro callee hcalled l hl hmem
    obtain ⟨name, hname, hmem⟩ := List.mem_flatMap.1 hmem
    unfold SeedTemplate.callLine at hmem
    simp [hcalled, hl name hname] at hmem
  unfold SeedTemplate.render
  rw [List.mem_append, List.mem_cons, List.mem_append, not_or, not_or, not_or]
  refine ⟨by decide, by decide, ?_, ?_⟩
  · exact hline _ (by decide) tags fun name h => hnames name (List.mem_append_left _ h)
  · exact hline _ (by decide) classes fun name h => hnames name (List.mem_append_right _ h)

/-- When a header has a backslash. The source is one in which every backslash belongs to a
continuation marker, the requested names have none, and the seed is the default one; any call may be
selected first, with any limit, and lines may be joined or kept apart. Then the header has a
backslash exactly if the expanded text has one that belongs to no marker. In that case one of the
steps broke a marker: it expanded a call with an argument that ended with one, and since arguments
are trimmed, the line break is gone and the backslash is left. -/
theorem generate_backslash_iff {source header : Text} {table : Table} {tags classes : List Text}
    {o : Options} (hsource : OnlyMarkers source) (hnames : ∀ name ∈ tags ++ classes, '\\' ∉ name)
    (hseed : o.seed = {}) (hparse : Table.parse source = .ok table)
    (hheader : generate table tags classes o = .ok header) :
    ∃ expanded, (o.expander table).expand (o.seed.render tags classes) = .ok expanded ∧
      ('\\' ∈ header ↔ ¬ OnlyMarkers expanded) ∧
      (¬ OnlyMarkers expanded →
        ∃ k < o.limit, ∃ t u, (o.expander table).Run k (o.seed.render tags classes) t ∧
          (o.expander table).BreaksMarker t u) := by
  unfold generate at hheader
  split at hheader
  · exact absurd hheader (by simp)
  · cases hexpand : (o.expander table).expand (o.seed.render tags classes) with
    | error e =>
      rw [hexpand] at hheader
      exact absurd hheader (by simp [Except.map])
    | ok expanded =>
      rw [hexpand] at hheader
      obtain rfl : cleanUp o.continuation expanded = header := Except.ok.inj hheader
      refine ⟨expanded, rfl, backslash_mem_cleanUp_iff _ _, fun hbroken => ?_⟩
      obtain ⟨k, hk, hrun, -⟩ := Expander.expand_eq_ok_iff.1 hexpand
      have hstart : OnlyMarkers (o.seed.render tags classes) := by
        rw [hseed]
        exact onlyMarkers_of_not_mem (not_mem_render hnames)
      have hbodies := Table.parse_onlyMarkers hsource hparse
      obtain ⟨j, hj, t, u, hrun', hbreak⟩ := (hrun.onlyMarkers hbodies hstart).resolve_left hbroken
      have hlimit : (o.expander table).limit = o.limit := rfl
      exact ⟨j, by omega, t, u, hrun', hbreak⟩

/-- An argument that starts with a marker keeps it, and the lines are joined in the header. -/
theorem generate_backslash_iff_leading_marker :
    ∃ table expanded,
      Table.parse "#define DARMA_OO_DEFINE_TAG(name) ID(\\\n  name)\n#define ID(x) x\n".toList =
        .ok table ∧
      generate table ["t".toList] [] {} = .ok "#include <darma.h>\n  t;\n".toList ∧
      (Options.expander {} table).expand (SeedTemplate.render {} ["t".toList] []) = .ok expanded ∧
      OnlyMarkers expanded := by
  have hparse : Table.parse
      "#define DARMA_OO_DEFINE_TAG(name) ID(\\\n  name)\n#define ID(x) x\n".toList =
      .ok (.ofList [⟨"DARMA_OO_DEFINE_TAG".toList, some ["name".toList], "ID(\\\n  name)".toList⟩,
        ⟨"ID".toList, some ["x".toList], "x".toList⟩]) := by rfl
  have hheader : generate (.ofList
      [⟨"DARMA_OO_DEFINE_TAG".toList, some ["name".toList], "ID(\\\n  name)".toList⟩,
        ⟨"ID".toList, some ["x".toList], "x".toList⟩]) ["t".toList] [] {} =
      .ok "#include <darma.h>\n  t;\n".toList := by rfl
  obtain ⟨expanded, hexpanded, hiff, -⟩ :=
    generate_backslash_iff (by decide +kernel) (by decide) rfl hparse hheader
  exact ⟨_, expanded, hparse, hheader, hexpanded, not_not.1 (mt hiff.2 (by decide))⟩

/-- An argument that ends with a marker loses the line break of it, and the backslash is left in
the header. -/
theorem generate_backslash_of_trailing_marker :
    OnlyMarkers "#define DARMA_OO_DEFINE_TAG(name) ID(name \\\n)\n#define ID(x) x\n".toList ∧
    '\\' ∉ "t".toList ∧
    ((Table.parse "#define DARMA_OO_DEFINE_TAG(name) ID(name \\\n)\n#define ID(x) x\n".toList).bind
      fun table => generate table ["t".toList] [] {}) = .ok "#include <darma.h>\nt \\;\n".toList ∧
    '\\' ∈ "#include <darma.h>\nt \\;\n".toList :=
  ⟨by decide +kernel, by decide, by rfl, by decide⟩

end FlatHeader
