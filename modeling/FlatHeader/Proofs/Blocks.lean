import FlatHeader.Proofs.Gluing
import FlatHeader.Proofs.Independence

/-!
# The blocks of a header

The seed is a list of statements, each on a line of its own. They are expanded independently of each
other, and each keeps the character it ends with, since that is behind every call. This character is
in no mark, so the clean-up does not reach across a line break of the seed either. A header is
therefore one block for each statement, and the block depends on nothing but the statement
(`generate_blocks`).
-/

namespace FlatHeader

open Text

/-! ## The end of a statement -/

/-- A character that no call ends with: it belongs to no word and closes no argument list. -/
structure EndsNoCall (c : Char) : Prop where
  outside : isWordChar c = false
  ne_close : c ≠ ')'

/-- A call ends with a character of a word or with the parenthesis that closes its list. -/
theorem Call.StandsIn.exists_last_not_endsNoCall {t : Text} {call : Call} (h : call.StandsIn t) :
    ∃ front c, call.written = front ++ [c] ∧ ¬ EndsNoCall c := by
  cases h with
  | @objectLike before w after d hat _ =>
    obtain ⟨front, c, rfl⟩ := (List.eq_nil_or_concat' w).resolve_left hat.isWord.ne_nil
    refine ⟨front, c, rfl, fun hc => ?_⟩
    have hword := hat.isWord.all c (List.mem_append_right front List.mem_cons_self)
    rw [hc.outside] at hword
    exact absurd hword (by decide)
  | @functionLike before w list rest d hat _ _ =>
    exact ⟨w ++ '(' :: list, ')', rfl, fun hc => hc.ne_close rfl⟩

/-- Whatever a text ends with stands behind every call, if no call ends with one of its
characters. -/
theorem Call.StandsIn.suffix_after {t s : Text} {call : Call} (h : call.StandsIn t) (hs : s <:+ t)
    (hend : ∀ c ∈ s, EndsNoCall c) : s <:+ call.after := by
  obtain ⟨front, c, hwritten, hc⟩ := h.exists_last_not_endsNoCall
  have hafter : call.after <:+ t := ⟨call.before ++ call.written, by
    rw [List.append_assoc, ← h.eq_append]⟩
  rcases List.suffix_or_suffix_of_suffix hs hafter with hsuffix | ⟨r, hr⟩
  · exact hsuffix
  · -- a longer end would hold the last character of the call
    rcases List.eq_nil_or_concat' r with rfl | ⟨r, d, rfl⟩
    · exact ⟨[], hr.symm⟩
    · obtain ⟨a, ha⟩ := hs
      have hsplit : (a ++ r) ++ [d] ++ call.after = (call.before ++ front) ++ [c] ++ call.after :=
        calc (a ++ r) ++ [d] ++ call.after
            = a ++ ((r ++ [d]) ++ call.after) := by simp only [List.append_assoc]
          _ = t := by rw [hr, ha]
          _ = call.before ++ (call.written ++ call.after) := h.eq_append
          _ = (call.before ++ front) ++ [c] ++ call.after := by
            rw [hwritten]
            simp only [List.append_assoc]
      have hlast := (List.append_inj' (List.append_cancel_right hsplit) rfl).2
      obtain rfl := List.singleton_inj.1 hlast
      refine absurd (hend d ?_) hc
      rw [← hr]
      exact List.mem_append_left _ (List.mem_append_right r List.mem_cons_self)

namespace Expander

variable {x : Expander} {t u s : Text} {c : Char}

/-- A step keeps what stands behind the call, and so what a text ends with. -/
theorem suffix_of_step (hend : ∀ c ∈ s, EndsNoCall c) (h : x.expandOnce? t = .ok (some u))
    (hs : s <:+ t) : s <:+ u := by
  obtain ⟨call, r, hselect, -, rfl⟩ := expandOnce?_eq_some_iff.1 h
  have hafter := (x.standsIn_of_select t hselect).1.suffix_after hs hend
  unfold Call.splice
  simp only [← List.append_assoc]
  exact hafter.trans (List.suffix_append _ _)

theorem Run.suffix {k : ℕ} (hend : ∀ c ∈ s, EndsNoCall c) (h : x.Run k t u) (hs : s <:+ t) :
    s <:+ u :=
  h.keeps (fun _ _ hs hstep => suffix_of_step hend hstep hs) hs

theorem Run.getLast?_eq {k : ℕ} (hc : EndsNoCall c) (h : x.Run k t u)
    (ht : t.getLast? = some c) : u.getLast? = some c := by
  obtain ⟨front, rfl⟩ := List.getLast?_eq_some_iff.1 ht
  obtain ⟨front', rfl⟩ := h.suffix (List.forall_mem_singleton.2 hc) (List.suffix_append front [c])
  exact List.getLast?_concat

/-- Runs on the texts of some lines make a run on all lines together. -/
theorem Run.flatMap_lines {steps : Text → ℕ} {expansion : Text → Text} {l : List Text}
    (h : ∀ s ∈ l, x.Run (steps s) s (expansion s) ∧ x.select (expansion s) = .ok none) :
    x.Run (l.map steps).sum (l.flatMap fun s => s ++ ['\n'])
        (l.flatMap fun s => expansion s ++ ['\n']) ∧
      x.select (l.flatMap fun s => expansion s ++ ['\n']) = .ok none := by
  induction l with
  | nil => exact ⟨.refl [], x.select_nil⟩
  | cons s l ih =>
    obtain ⟨⟨hrun, hend⟩, hl⟩ := List.forall_mem_cons.1 h
    obtain ⟨hrest, hrestEnd⟩ := ih hl
    have hboth := Run.append ⟨by decide, by decide⟩ hrun hrest hend hrestEnd (c := '\n')
    simpa using hboth

end Expander

/-! ## Cleaning up lines -/

/-- A character that is in no mark and in no word keeps the clean-up of the texts around it
apart. -/
theorem cleanUp_append_cons {c : Char} (hc : Unmarking c) (hout : isWordChar c = false)
    (mode : ContinuationMode) (a b : Text) :
    cleanUp mode (a ++ c :: b) = cleanUp mode a ++ c :: cleanUp mode b := by
  show resolveStringMarks (unmark mode (a ++ c :: b)) =
    resolveStringMarks (unmark mode a) ++ c :: resolveStringMarks (unmark mode b)
  rw [unmark_append_cons hc, resolveStringMarks_append _ (startsOutside_cons hout _),
    resolveStringMarks_cons, pushString_of_ne hc.ne_mark]

/-- The clean-up does not reach across a line break behind a character that is in no mark. -/
theorem cleanUp_line {c : Char} (hc : Unmarking c) (mode : ContinuationMode) {a : Text}
    (ha : a.getLast? = some c) (b : Text) :
    cleanUp mode (a ++ '\n' :: b) = cleanUp mode a ++ '\n' :: cleanUp mode b := by
  have hlf : isWordChar '\n' = false := by decide
  obtain ⟨front, rfl⟩ := List.getLast?_eq_some_iff.1 ha
  have hjoin : joinLines mode (front ++ [c] ++ '\n' :: b) =
      joinLines mode (front ++ [c]) ++ '\n' :: joinLines mode b := by
    rw [List.append_assoc, List.singleton_append, joinLines_append_cons hc,
      joinLines_append_cons hc, Continuation.joinLines_cons_of_ne (by decide), List.append_assoc]
    rfl
  unfold cleanUp
  rw [hjoin, removePasteMarks_append_cons (by decide),
    resolveStringMarks_append _ (startsOutside_cons hlf _), resolveStringMarks_cons,
    pushString_of_ne (by decide)]

/-- Lines are cleaned up one by one, if none ends within a mark. -/
theorem cleanUp_flatMap_lines (mode : ContinuationMode) {l : List Text}
    (h : ∀ s ∈ l, ∃ c, Unmarking c ∧ s.getLast? = some c) :
    cleanUp mode (l.flatMap fun s => s ++ ['\n']) =
      l.flatMap fun s => cleanUp mode s ++ ['\n'] := by
  induction l with
  | nil => rfl
  | cons s l ih =>
    obtain ⟨⟨c, hc, hs⟩, hl⟩ := List.forall_mem_cons.1 h
    have hline := cleanUp_line hc mode hs (l.flatMap fun s => s ++ ['\n'])
    simpa [ih hl] using hline

/-! ## The statements of the seed -/

namespace SeedTemplate

/-- What stands on a line that calls `name` with one argument. -/
def statement (name argument : Text) : Text := name ++ '(' :: argument ++ [')', ';']

/-- What stands on the lines of the seed: the directive, and a call for each requested name. -/
def statements (s : SeedTemplate) (tags classes : List Text) : List Text :=
  s.directive :: (tags.map (statement s.tagMacro) ++ classes.map (statement s.classMacro))

theorem callLine_eq (name argument : Text) :
    callLine name argument = statement name argument ++ ['\n'] := by
  simp [callLine, statement]

theorem render_eq (s : SeedTemplate) (tags classes : List Text) :
    s.render tags classes = (s.statements tags classes).flatMap fun line => line ++ ['\n'] := by
  have hline : ∀ name, callLine name = fun argument => statement name argument ++ ['\n'] :=
    fun name => funext (callLine_eq name)
  simp [render, statements, List.flatMap_map, hline]

theorem getLast?_statement (name argument : Text) :
    (statement name argument).getLast? = some ';' := by
  have hsplit : statement name argument = (name ++ '(' :: argument ++ [')']) ++ [';'] := by
    simp [statement]
  rw [hsplit, List.getLast?_concat]

theorem getLast?_of_mem_calls {s : SeedTemplate} {tags classes : List Text} {line : Text}
    (h : line ∈ tags.map (statement s.tagMacro) ++ classes.map (statement s.classMacro)) :
    line.getLast? = some ';' := by
  rw [List.mem_append, List.mem_map, List.mem_map] at h
  rcases h with ⟨name, -, rfl⟩ | ⟨name, -, rfl⟩
  · exact getLast?_statement _ name
  · exact getLast?_statement _ name

/-- A statement of the default seed ends with a character that neither a call nor a mark reaches. -/
theorem getLast?_of_mem_statements {tags classes : List Text} {line : Text}
    (h : line ∈ statements {} tags classes) :
    ∃ c, EndsNoCall c ∧ Unmarking c ∧ line.getLast? = some c := by
  rcases List.mem_cons.1 h with rfl | h
  · exact ⟨'>', ⟨by decide, by decide⟩, ⟨by decide, by decide, by decide⟩, by rfl⟩
  · exact ⟨';', ⟨by decide, by decide⟩, ⟨by decide, by decide, by decide⟩,
      getLast?_of_mem_calls h⟩

/-- What the last statement of the default seed ends with: a call with `;`, the directive with
`>`. -/
def endSign (tags classes : List Text) : Char := if tags ++ classes = [] then '>' else ';'

theorem endSign_plain (tags classes : List Text) :
    EndsNoCall (endSign tags classes) ∧ Unmarking (endSign tags classes) := by
  unfold endSign
  split
  · exact ⟨⟨by decide, by decide⟩, by decide, by decide, by decide⟩
  · exact ⟨⟨by decide, by decide⟩, by decide, by decide, by decide⟩

theorem suffix_render (tags classes : List Text) :
    [endSign tags classes, '\n'] <:+ render {} tags classes := by
  by_cases hnames : tags ++ classes = []
  · obtain ⟨rfl, rfl⟩ := List.append_eq_nil_iff.1 hnames
    exact ⟨"#include <darma.h".toList, by rfl⟩
  · have hne : tags.map (statement (SeedTemplate.tagMacro {})) ++
        classes.map (statement (SeedTemplate.classMacro {})) ≠ [] := by simpa using hnames
    obtain ⟨init, line, hsplit⟩ := (List.eq_nil_or_concat' _).resolve_left hne
    have hlast : line.getLast? = some ';' :=
      getLast?_of_mem_calls (hsplit ▸ List.mem_append_right init List.mem_cons_self)
    obtain ⟨front, rfl⟩ := List.getLast?_eq_some_iff.1 hlast
    refine ⟨(SeedTemplate.directive {} :: init).flatMap (fun line => line ++ ['\n']) ++ front, ?_⟩
    rw [endSign, if_neg hnames, render_eq, statements, hsplit]
    simp only [List.flatMap_cons, List.flatMap_append, List.flatMap_nil, List.append_nil,
      List.append_assoc, List.cons_append, List.nil_append]

end SeedTemplate

/-! ## The header -/

/-- A header ends as the seed does. -/
theorem suffix_of_generate {table : Table} {tags classes : List Text} {o : Options} {header : Text}
    (hseed : o.seed = {}) (h : generate table tags classes o = .ok header) :
    [SeedTemplate.endSign tags classes, '\n'] <:+ header := by
  obtain ⟨expanded, hexpand, rfl⟩ := exists_expand_of_generate h
  obtain ⟨hcall, hmark⟩ := SeedTemplate.endSign_plain tags classes
  have hrender := SeedTemplate.suffix_render tags classes
  obtain ⟨k, -, hrun, -⟩ := Expander.expand_eq_ok_iff.1 hexpand
  rw [hseed] at hrun
  have hend : ∀ d ∈ [SeedTemplate.endSign tags classes, '\n'], EndsNoCall d :=
    List.forall_mem_cons.2 ⟨hcall, List.forall_mem_singleton.2 ⟨by decide, by decide⟩⟩
  obtain ⟨front, rfl⟩ := hrun.suffix hend hrender
  rw [cleanUp_append_cons hmark hcall.outside]
  exact ⟨cleanUp o.continuation front, by rfl⟩

/-- A header ends with the line feed of the last line of the seed. -/
theorem getLast?_of_generate {table : Table} {tags classes : List Text} {o : Options}
    {header : Text} (hseed : o.seed = {}) (h : generate table tags classes o = .ok header) :
    header.getLast? = some '\n' := by
  obtain ⟨front, rfl⟩ := suffix_of_generate hseed h
  rw [List.getLast?_append_of_ne_nil front (List.cons_ne_nil _ _)]
  rfl

theorem generate_of_defined {table : Table} {tags classes : List Text} {o : Options}
    (h : ∀ name ∈ o.seed.calledNames tags classes, table.contains name = true) :
    generate table tags classes o =
      ((o.expander table).expand (o.seed.render tags classes)).map (cleanUp o.continuation) := by
  have hnone : undefinedName? table tags classes o.seed = none := by
    unfold undefinedName?
    rw [List.find?_eq_none]
    intro name hname
    rw [h name hname]
    decide
  unfold generate
  rw [hnone]

/-- A header is the block of the include directive followed by one block for each requested name,
tags before classes. If the names that the seed calls are defined, and each statement of the default
seed has an expansion by itself, with some limit that suffices for it, then every limit from the
number of steps of all these expansions on suffices for the header. It consists of the expansions of
the statements, in order, each cleaned up by itself and with a line feed behind it. So a block is
the same whatever other names are requested and however often. The names may be any texts. -/
theorem generate_blocks (table : Table) (selection : Selection) (mode : ContinuationMode)
    (limitOf : Text → ℕ) (expansion : Text → Text) (tags classes : List Text)
    (hdefined : ∀ name ∈ SeedTemplate.calledNames {} tags classes, table.contains name = true)
    (hexpand : ∀ line ∈ SeedTemplate.statements {} tags classes,
      (Expander.mk table selection (limitOf line)).expand line = .ok (expansion line))
    {limit : ℕ}
    (hlimit : ((SeedTemplate.statements {} tags classes).map fun line =>
      (Expander.mk table selection (limitOf line)).stepCount line).sum ≤ limit) :
    generate table tags classes ⟨selection, limit, mode, {}⟩ =
      .ok ((SeedTemplate.statements {} tags classes).flatMap fun line =>
        cleanUp mode (expansion line) ++ ['\n']) := by
  have hruns : ∀ line ∈ SeedTemplate.statements {} tags classes,
      (Expander.mk table selection limit).Run
          ((Expander.mk table selection (limitOf line)).stepCount line) line (expansion line) ∧
        (Expander.mk table selection limit).select (expansion line) = .ok none := by
    intro line hline
    obtain ⟨hrun, hend⟩ := Expander.run_stepCount_of_expand (hexpand line hline)
    exact ⟨hrun.of_limit, hend⟩
  have hseed := Expander.expand_eq_ok_iff.2 ⟨_, hlimit, Expander.Run.flatMap_lines hruns⟩
  rw [← SeedTemplate.render_eq] at hseed
  -- the expanded statements still end with the characters that the statements end with
  have hends : ∀ s ∈ (SeedTemplate.statements {} tags classes).map expansion,
      ∃ c, Unmarking c ∧ s.getLast? = some c := by
    intro s hs
    obtain ⟨line, hline, rfl⟩ := List.mem_map.1 hs
    obtain ⟨c, hcall, hmark, hlast⟩ := SeedTemplate.getLast?_of_mem_statements hline
    exact ⟨c, hmark, (hruns line hline).1.getLast?_eq hcall hlast⟩
  have hclean := cleanUp_flatMap_lines mode hends
  rw [List.flatMap_map, List.flatMap_map] at hclean
  rw [generate_of_defined hdefined]
  unfold Options.expander
  rw [hseed, ← hclean]
  rfl

/-- Two requests of one name in a table whose calls need two steps each. Both blocks are the same, a
word is put in quotes in each, and a continuation marker goes. -/
theorem generate_blocks_same_name_twice :
    ∃ table : Table, table.definitions =
        [⟨"DARMA_OO_DEFINE_TAG".toList, some ["x".toList], "#x \\\nP".toList⟩,
          ⟨"P".toList, none, "p".toList⟩] ∧
      (∀ name ∈ SeedTemplate.calledNames {} ["t".toList, "t".toList] [],
        table.contains name = true) ∧
      (Expander.mk table .definitionOrder 2).expand "#include <darma.h>".toList =
        .ok "#include <darma.h>".toList ∧
      (Expander.mk table .definitionOrder 2).expand "DARMA_OO_DEFINE_TAG(t);".toList =
        .ok "#t \\\np;".toList ∧
      generate table ["t".toList, "t".toList] [] ⟨.definitionOrder, 4, .join, {}⟩ =
        .ok "#include <darma.h>\n\"t\" p;\n\"t\" p;\n".toList := by
  refine ⟨.ofList [⟨"DARMA_OO_DEFINE_TAG".toList, some ["x".toList], "#x \\\nP".toList⟩,
    ⟨"P".toList, none, "p".toList⟩], by rfl, by decide, by rfl, by rfl, ?_⟩
  refine (generate_blocks _ .definitionOrder .join (fun _ => 2)
    (fun line => if line.head? = some '#' then line else "#t \\\np;".toList)
    _ _ ?_ ?_ ?_).trans ?_
  · decide
  · intro line hline
    obtain rfl | rfl : line = "#include <darma.h>".toList ∨
        line = "DARMA_OO_DEFINE_TAG(t);".toList := by
      simpa [SeedTemplate.statements, SeedTemplate.statement] using hline
    · rfl
    · rfl
  · decide
  · rfl

end FlatHeader
