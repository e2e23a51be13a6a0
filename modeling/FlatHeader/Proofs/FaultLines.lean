import FlatHeader.Command.Run
import FlatHeader.Proofs.Concatenation

/-!
# The line of a fault

An error of extraction names a line. It is a line that is read while no definition is open, and it
defines the name that the error is about, however many lines further down the fault is noticed
(`Extraction.fault_cases`). Extraction and excerpts take a source apart in two ways: extraction
keeps the line breaks, and an excerpt shows a line without. Both count the same lines, and what is
taken off the end of a line never reaches to the name (`DefinesName.shownLine`). So the line that an
error names can be shown (`Table.parse_error_line`).
-/

namespace FlatHeader

open Text

/-! ## Lines as they are shown -/

namespace Text

theorem shownLine_concat (t : Text) (c : Char) :
    shownLine (t ++ [c]) = if c = '\n' then (dropEnd? '\r' t).getD t else t ++ [c] := by
  unfold shownLine
  rw [dropEnd?_concat]
  by_cases hc : c = '\n'
  · rw [if_pos hc, if_pos hc]
  · rw [if_neg hc, if_neg hc]

theorem shownLine_isPrefix (line : Text) : shownLine line <+: line := by
  rcases List.eq_nil_or_concat' line with rfl | ⟨t, c, rfl⟩
  · exact List.prefix_rfl
  · rw [shownLine_concat]
    split
    · exact (dropEnd?_getD_isPrefix '\r' t).trans (List.prefix_append t [c])
    · exact List.prefix_rfl

/-- A line break does not reach back over a character that is in none. -/
theorem shownLine_append {a : Text} (ha : ∀ c ∈ a.getLast?, c ≠ '\n' ∧ c ≠ '\r') (b : Text) :
    shownLine (a ++ b) = a ++ shownLine b := by
  rcases List.eq_nil_or_concat' b with rfl | ⟨t, c, rfl⟩
  · rcases List.eq_nil_or_concat' a with rfl | ⟨s, d, rfl⟩
    · rfl
    · rw [List.append_nil, shownLine_concat, if_neg (ha d List.getLast?_concat).1]
      exact (List.append_nil _).symm
  · rw [← List.append_assoc, shownLine_concat, shownLine_concat]
    split
    · by_cases hnil : t = []
      · rw [hnil, List.append_nil, dropEnd?_getD_of_ne fun h => (ha _ h).2 rfl]
        exact (List.append_nil a).symm
      · exact dropEnd?_getD_append '\r' a hnil
    · rw [List.append_assoc]

end Text

/-- A line still defines its name when it is shown. -/
theorem DefinesName.shownLine {line name rest : Text} (h : DefinesName line name rest) :
    DefinesName (shownLine line) name (Text.shownLine rest) := by
  obtain ⟨front, rfl, hother⟩ := h.exists_front
  obtain ⟨v, d, hname⟩ := (List.eq_nil_or_concat' name).resolve_left
    (isWord_of_isIdentifier h.isIdentifier).ne_nil
  -- the name ends with a word character, which is in no line break
  have hlast : ∀ c ∈ (front ++ name).getLast?, c ≠ '\n' ∧ c ≠ '\r' := by
    intro c hc
    rw [hname, ← List.append_assoc, List.getLast?_concat, Option.mem_some_iff] at hc
    have hword : isWordChar c = true := by
      refine (isWord_of_isIdentifier h.isIdentifier).all c ?_
      rw [hname, hc]
      exact List.mem_append_right v (List.mem_singleton_self c)
    constructor
    · rintro rfl
      exact absurd hword (by decide)
    · rintro rfl
      exact absurd hword (by decide)
  rw [← List.append_assoc, shownLine_append hlast, List.append_assoc]
  refine hother _ ?_
  obtain ⟨t, ht⟩ := shownLine_isPrefix rest
  have hrest := h.startsOutside
  rw [← ht] at hrest
  exact hrest.of_append_left

/-! ## Where faults come from -/

namespace Extraction

/-- An error about a line that is read while nothing is open, behind lines that have no fault by
themselves. The line defines the name that the error is about. -/
def FaultsOnLine (n : ℕ) (open? : Option OpenDefinition) (ls : List Text) (e : Error) : Prop :=
  ∃ above line below name rest reason, ls = above ++ line :: below ∧
    (ofLines n open? above).fault = none ∧ DefinesName line name rest ∧
    e = .malformedDefinition name (some (n + above.length)) reason

/-- One more line in front, which has no fault. -/
theorem FaultsOnLine.cons {n : ℕ} {open? next? : Option OpenDefinition} {line : Text}
    {rest : List Text} {e : Error}
    (hline : ∀ ls, (ofLines n open? (line :: ls)).fault = (ofLines (n + 1) next? ls).fault)
    (h : FaultsOnLine (n + 1) next? rest e) : FaultsOnLine n open? (line :: rest) e := by
  obtain ⟨above, faulty, below, name, r, reason, rfl, habove, hname, rfl⟩ := h
  refine ⟨line :: above, faulty, below, name, r, reason, rfl, (hline above).trans habove, hname, ?_⟩
  rw [List.length_cons, Nat.add_right_comm n 1, Nat.add_assoc]

/-- A fault is that of the definition that was open all the time, or it is about a line. -/
theorem fault_cases {n : ℕ} {open? : Option OpenDefinition} {ls : List Text} {e : Error}
    (h : (ofLines n open? ls).fault = some e) :
    (∃ d ∈ open?, e = .malformedDefinition d.name (some d.line) .unterminatedBody) ∨
      FaultsOnLine n open? ls e := by
  induction ls generalizing n open? with
  | nil =>
    cases open? with
    | none => exact absurd h (by simp [ofLines])
    | some d => exact .inl ⟨d, rfl, (Option.some.inj h).symm⟩
  | cons line rest ih =>
    obtain ⟨effect, hstep⟩ := exists_lineStep n open? line
    have hcons := hstep.ofLines_cons
    rw [hcons] at h
    cases hstep with
    | @continued d line hcont =>
      -- the line goes on with the body, and the same definition stays open
      rcases ih h with ⟨o, ho, rfl⟩ | hrest
      · rw [← Option.mem_some_iff.1 ho]
        exact .inl ⟨d, rfl, rfl⟩
      · exact .inr (hrest.cons fun ls => by rw [hcons]; rfl)
    | ended | skipped | defined =>
      exact .inr (((ih h).resolve_left (by simp)).cons fun ls => by rw [hcons]; rfl)
    | @refused line name t reason hname hread =>
      exact .inr ⟨[], line, rest, name, t, reason, rfl, rfl, hname, (Option.some.inj h).symm⟩
    | @opened line name t r parameters hname hread hcont =>
      -- the definition that is opened here may stay open up to the end
      rcases ih h with ⟨o, ho, rfl⟩ | hrest
      · rw [← Option.mem_some_iff.1 ho]
        exact .inr ⟨[], line, rest, name, t, .unterminatedBody, rfl, rfl, hname, rfl⟩
      · exact .inr (hrest.cons fun ls => by rw [hcons]; rfl)

end Extraction

/-! ## Errors of a source -/

/-- The line that is looked up for an excerpt, if it is there. -/
theorem Command.shownLineAt_of_getElem? {source line : Text} {n : ℕ}
    (h : ((lines source).map shownLine)[n - 1]? = some line) :
    Command.shownLineAt source n = line := by
  rw [List.getElem?_map] at h
  unfold Command.shownLineAt
  rw [h, Option.getD_some]

/-- The line that an error reports is the line of the definition, and it can be shown. Whatever is
wrong with a source, the error is about the definition of a name and reports a line, counted from
one. The source has this line, and as it is shown it is a line that defines the name. The lines
above it make a source without a fault by themselves, so no body is open where the line begins and
it is in none. Hence the message of the command is an excerpt with this line. -/
theorem Table.parse_error_line {source : Text} {e : Error} (h : Table.parse source = .error e) :
    ∃ name n reason line rest, e = .malformedDefinition name (some n) reason ∧ 1 ≤ n ∧
      ((lines source).map shownLine)[n - 1]? = some line ∧ line ≠ [] ∧
      DefinesName line name rest ∧
      (∃ table, Table.parse ((lines source).take (n - 1)).flatten = .ok table) ∧
      ∀ path, (Command.Failure.faulty path source e).message =
        Command.excerpt e.message path n line := by
  obtain ⟨above, line, below, name, rest, reason, hlines, habove, hname, rfl⟩ :=
    (Extraction.fault_cases (parse_eq_error_iff.1 h)).resolve_left (by simp)
  have hlookup : ((lines source).map shownLine)[1 + above.length - 1]? = some (shownLine line) := by
    rw [hlines, Nat.add_sub_cancel_left]
    simp
  have hshown := hname.shownLine
  have hne : shownLine line ≠ [] := by
    intro hnil
    rw [hnil] at hshown
    obtain ⟨front, heq, -⟩ := hshown.exists_front
    exact (isWord_of_isIdentifier hname.isIdentifier).ne_nil
      (List.append_eq_nil_iff.1 (List.append_eq_nil_iff.1 heq.symm).2).1
  refine ⟨name, 1 + above.length, reason, shownLine line, Text.shownLine rest, rfl, by omega,
    hlookup, hne, hshown, ⟨_, parse_eq_ok_iff.2 ⟨?_, rfl⟩⟩, fun path => ?_⟩
  · rw [hlines, Nat.add_sub_cancel_left, List.take_left]
    unfold Extraction.ofSource
    rw [lines_flatten_of_append hlines]
    exact habove
  · show Command.withExcerpt _ path source (1 + above.length) = _
    unfold Command.withExcerpt
    rw [Command.shownLineAt_of_getElem? hlookup]
    split
    · next hnil => exact absurd hnil hne
    · rfl

/-- The body of the first definition takes in a line that looks like a definition. The second one
starts behind it, on the fourth line, and the source ends while its body goes on. -/
theorem Table.parse_error_line_unterminated :
    Table.parse "#define A \\\r\n#define A( \\\r\n1\r\n \t# define B(x) x \\\r\n\\\nx \\".toList =
      .error (.malformedDefinition ['B'] (some 4) .unterminatedBody) ∧
    ∃ rest, DefinesName " \t# define B(x) x \\".toList ['B'] rest ∧
      (∃ table, Table.parse "#define A \\\r\n#define A( \\\r\n1\r\n".toList = .ok table) ∧
      ∀ path, (Command.Failure.faulty path
          "#define A \\\r\n#define A( \\\r\n1\r\n \t# define B(x) x \\\r\n\\\nx \\".toList
          (.malformedDefinition ['B'] (some 4) .unterminatedBody)).message =
        Command.excerpt "malformed definition of B on line 4: body ends with a line continuation"
          path 4 " \t# define B(x) x \\".toList := by
  have hparse : Table.parse
      "#define A \\\r\n#define A( \\\r\n1\r\n \t# define B(x) x \\\r\n\\\nx \\".toList =
      .error (.malformedDefinition ['B'] (some 4) .unterminatedBody) := by rfl
  obtain ⟨name, n, reason, line, rest, he, -, hline, -, hname, habove, hmessage⟩ :=
    Table.parse_error_line hparse
  obtain ⟨rfl, hn, rfl⟩ := Error.malformedDefinition.inj he
  obtain rfl := Option.some.inj hn
  obtain rfl : " \t# define B(x) x \\".toList = line := Option.some.inj hline
  exact ⟨hparse, rest, hname, habove, hmessage⟩

end FlatHeader
