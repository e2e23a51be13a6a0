import FlatHeader.Proofs.LineSteps
import FlatHeader.Proofs.Tables

/-!
# Sources one behind the other

Extraction walks over the lines once, and all it carries from one line to the next is the number of
the line and the definition that is open. So if the lines come in two parts and nothing is open at
the border, the second part is extracted by itself (`ofLines_append_of_no_fault`), with its lines
counted from another number (`ofLines_add`). A fault that lies within the first part is found
whatever follows (`ofLines_append_of_fault`).
-/

namespace FlatHeader

open Text

/-! ## Lines counted from another number -/

/-- The same definition, `m` lines further down. -/
def Located.below (m : ℕ) (d : Located) : Located := { d with line := d.line + m }

/-- The same open definition, `m` lines further down. -/
def OpenDefinition.below (m : ℕ) (d : OpenDefinition) : OpenDefinition :=
  { d with line := d.line + m }

/-- The same error, with a line that is `m` lines further down. -/
def Error.below (m : ℕ) : Error → Error
  | .malformedDefinition name line reason => .malformedDefinition name (line.map (· + m)) reason
  | e => e

namespace Extraction

/-- The same extraction, `m` lines further down. -/
def below (m : ℕ) (e : Extraction) : Extraction :=
  ⟨e.definitions.map (Located.below m), e.fault.map (Error.below m)⟩

theorem below_cons (m : ℕ) (d : Located) (e : Extraction) :
    (cons d e).below m = cons (d.below m) (e.below m) := rfl

/-- The number of the first line shifts all numbers and has no other part in an extraction. -/
theorem ofLines_add (m n : ℕ) (open? : Option OpenDefinition) (ls : List Text) :
    ofLines (n + m) (open?.map (OpenDefinition.below m)) ls = (ofLines n open? ls).below m := by
  have hnext : ∀ k, k + m + 1 = k + 1 + m := fun k => by omega
  fun_induction ofLines n open? ls with
  | case1 | case2 => rfl
  | case3 n d line rest d' hcont ih =>
    rw [Option.map_some, ofLines, if_pos hcont, hnext, ← ih]
    rfl
  | case4 n d line rest d' hcont ih =>
    rw [Option.map_some, ofLines, if_neg hcont, hnext, below_cons, ← ih]
    rfl
  | case5 n line rest hname ih =>
    rw [Option.map_none, ofLines, hname, hnext, ← ih]
    rfl
  | case6 n line rest name t hname fault hsignature =>
    rw [Option.map_none, ofLines, hname]
    simp only [hsignature]
    rfl
  | case7 n line rest name t hname parameters t' hsignature d hcont ih =>
    rw [Option.map_none, ofLines, hname]
    simp only [hsignature, if_pos hcont]
    rw [hnext, ← ih]
    rfl
  | case8 n line rest name t hname parameters t' hsignature d hcont ih =>
    rw [Option.map_none, ofLines, hname]
    simp only [hsignature, if_neg hcont]
    rw [hnext, below_cons, ← ih]
    rfl

/-! ## Lines in two parts -/

/-- Every fault is reported on a line. -/
theorem exists_line_of_fault {n : ℕ} {open? : Option OpenDefinition} {ls : List Text} {e : Error}
    (h : (ofLines n open? ls).fault = some e) :
    ∃ name line reason, e = .malformedDefinition name (some line) reason := by
  induction ls generalizing n open? with
  | nil =>
    cases open? with
    | none => exact absurd h (by simp [ofLines])
    | some d => exact ⟨_, _, _, (Option.some.inj h).symm⟩
  | cons line rest ih =>
    obtain ⟨effect, hstep⟩ := exists_lineStep n open? line
    rw [hstep.ofLines_cons] at h
    cases hstep with
    | continued | ended | skipped | opened | defined => exact ih h
    | refused => exact ⟨_, _, _, (Option.some.inj h).symm⟩

/-- Lines behind others in which there is no fault, and so nothing is left open, are extracted by
themselves. -/
theorem ofLines_append_of_no_fault {n : ℕ} {open? : Option OpenDefinition} {ls : List Text}
    (h : (ofLines n open? ls).fault = none) (more : List Text) :
    ofLines n open? (ls ++ more) =
      ⟨(ofLines n open? ls).definitions ++ (ofLines (n + ls.length) none more).definitions,
        (ofLines (n + ls.length) none more).fault⟩ := by
  induction ls generalizing n open? with
  | nil =>
    cases open? with
    | none => rfl
    | some d => exact absurd h (by simp [ofLines])
  | cons line rest ih =>
    have hlength : n + (line :: rest).length = n + 1 + rest.length := by
      rw [List.length_cons]
      omega
    rw [hlength, List.cons_append]
    obtain ⟨effect, hstep⟩ := exists_lineStep n open? line
    rw [hstep.ofLines_cons] at h ⊢
    rw [hstep.ofLines_cons]
    cases effect with
    | opens next? => exact ih h
    | closes d =>
      show cons d (ofLines (n + 1) none (rest ++ more)) = _
      rw [ih h]
      rfl
    | fails e => exact absurd h (by simp [Effect.andThen])

/-- A fault within the lines is found whatever follows. Only an open body can be closed by more
lines. -/
theorem ofLines_append_of_fault {n : ℕ} {open? : Option OpenDefinition} {ls : List Text} {e : Error}
    (h : (ofLines n open? ls).fault = some e)
    (he : ∀ name line, e ≠ .malformedDefinition name line .unterminatedBody) (more : List Text) :
    ofLines n open? (ls ++ more) = ofLines n open? ls := by
  induction ls generalizing n open? with
  | nil =>
    cases open? with
    | none => exact absurd h (by simp [ofLines])
    | some d => exact absurd (Option.some.inj h).symm (he _ _)
  | cons line rest ih =>
    rw [List.cons_append]
    obtain ⟨effect, hstep⟩ := exists_lineStep n open? line
    rw [hstep.ofLines_cons] at h
    rw [hstep.ofLines_cons, hstep.ofLines_cons]
    cases effect with
    | opens next? => exact ih h
    | closes d => exact congrArg (cons d) (ih h)
    | fails e => rfl

/-! ## Sources in two parts -/

section sources

variable {s₁ : Text} (hend : s₁ = [] ∨ s₁.getLast? = some '\n') (s₂ : Text)
include hend

/-- Behind a source without fault another one is extracted by itself, with its lines counted from
the border on. -/
theorem ofSource_append_of_no_fault (h : (ofSource s₁).fault = none) :
    ofSource (s₁ ++ s₂) =
      ⟨(ofSource s₁).definitions ++ ((ofSource s₂).below (s₁.count '\n')).definitions,
        ((ofSource s₂).below (s₁.count '\n')).fault⟩ := by
  obtain ⟨hlines, hcount⟩ := lines_append_of_ends hend s₂
  have happend := ofLines_append_of_no_fault h (lines s₂)
  have hshift := ofLines_add (s₁.count '\n') 1 none (lines s₂)
  rw [Option.map_none] at hshift
  rw [hcount, hshift] at happend
  unfold ofSource
  rw [hlines]
  exact happend

theorem ofSource_append_of_fault {e : Error} (h : (ofSource s₁).fault = some e)
    (he : ∀ name line, e ≠ .malformedDefinition name line .unterminatedBody) :
    ofSource (s₁ ++ s₂) = ofSource s₁ := by
  unfold ofSource
  rw [(lines_append_of_ends hend s₂).1]
  exact ofLines_append_of_fault h he (lines s₂)

end sources

end Extraction

/-! ## Tables of sources -/

namespace Table

theorem parse_eq_ok_iff {source : Text} {table : Table} :
    parse source = .ok table ↔ (Extraction.ofSource source).fault = none ∧
      ofList ((Extraction.ofSource source).definitions.map Located.definition) = table := by
  unfold parse Extraction.table
  cases (Extraction.ofSource source).fault with
  | none => simp
  | some e => simp

theorem parse_eq_error_iff {source : Text} {e : Error} :
    parse source = .error e ↔ (Extraction.ofSource source).fault = some e := by
  unfold parse Extraction.table
  cases (Extraction.ofSource source).fault with
  | none => simp
  | some e => simp

/-- Parsing is compositional where a line ends. Let the first of two sources be empty or end with a
line feed, and let it have a table. If the second has one, then the table of both together is that
of the first on which the definitions of the second table are defined, in their order. If the second
has an error, it is malformed on some line, and both together have the same error on the line with
as many lines more as the first has line feeds. If the first source has an error, other than a body
that goes on at its end, both together have the same error. -/
theorem parse_append {s₁ : Text} (hend : s₁ = [] ∨ s₁.getLast? = some '\n') (s₂ : Text) :
    (∀ t₁, parse s₁ = .ok t₁ →
      (∀ t₂, parse s₂ = .ok t₂ → parse (s₁ ++ s₂) = .ok (t₂.definitions.foldl insert t₁)) ∧
      (∀ e, parse s₂ = .error e → ∃ name line reason,
        e = .malformedDefinition name (some line) reason ∧
        parse (s₁ ++ s₂) =
          .error (.malformedDefinition name (some (line + s₁.count '\n')) reason))) ∧
    (∀ e, parse s₁ = .error e →
      (∀ name line, e ≠ .malformedDefinition name line .unterminatedBody) →
      parse (s₁ ++ s₂) = .error e) := by
  constructor
  · intro t₁ h₁
    obtain ⟨hfault₁, rfl⟩ := parse_eq_ok_iff.1 h₁
    have hboth := Extraction.ofSource_append_of_no_fault hend s₂ hfault₁
    constructor
    · intro t₂ h₂
      obtain ⟨hfault₂, rfl⟩ := parse_eq_ok_iff.1 h₂
      have hsame : ((Extraction.ofSource s₂).below (s₁.count '\n')).definitions.map
          Located.definition = (Extraction.ofSource s₂).definitions.map Located.definition :=
        List.map_map
      rw [parse_eq_ok_iff, hboth, List.map_append, hsame, foldl_insert_definitions_ofList]
      refine ⟨?_, List.foldl_append⟩
      show (Extraction.ofSource s₂).fault.map _ = none
      rw [hfault₂, Option.map_none]
    · intro e h₂
      have hfault₂ := parse_eq_error_iff.1 h₂
      obtain ⟨name, line, reason, rfl⟩ := Extraction.exists_line_of_fault hfault₂
      refine ⟨name, line, reason, rfl, ?_⟩
      rw [parse_eq_error_iff, hboth]
      show (Extraction.ofSource s₂).fault.map _ = _
      rw [hfault₂]
      rfl
  · intro e h₁ he
    have hfault₁ := parse_eq_error_iff.1 h₁
    rw [parse_eq_error_iff, Extraction.ofSource_append_of_fault hend s₂ hfault₁ he]
    exact hfault₁

/-- The second source defines a name of the first one anew, twice. With a fault on its second line,
that line is the fifth of both together, since the first source has a body of two lines. A fault of
the first source comes first. -/
theorem parse_append_redefinition :
    "#define A 1\n#define B \\\n2\n".toList.getLast? = some '\n' ∧
    parse "#define A 1\n#define B \\\n2\n".toList =
      .ok (ofList [⟨['A'], none, ['1']⟩, ⟨['B'], none, ['2']⟩]) ∧
    parse ("#define A 1\n#define B \\\n2\n".toList ++
        "#define A 3\n#define C 4\n#define A 5\n".toList) =
      .ok (ofList [⟨['A'], none, ['5']⟩, ⟨['B'], none, ['2']⟩, ⟨['C'], none, ['4']⟩]) ∧
    parse ("#define A 1\n#define B \\\n2\n".toList ++ "x\n#define M(a a\n".toList) =
      .error (.malformedDefinition ['M'] (some 5) .unclosedParameterList) ∧
    parse ("#define M(a,a)\n".toList ++ "#define N(\n".toList) =
      .error (.malformedDefinition ['M'] (some 1) (.duplicateParameter ['a'])) := by
  have hend : "#define A 1\n#define B \\\n2\n".toList.getLast? = some '\n' := by decide
  have h₁ : parse "#define A 1\n#define B \\\n2\n".toList =
      .ok (ofList [⟨['A'], none, ['1']⟩, ⟨['B'], none, ['2']⟩]) := by rfl
  have h₂ : parse "#define A 3\n#define C 4\n#define A 5\n".toList =
      .ok (ofList [⟨['A'], none, ['5']⟩, ⟨['C'], none, ['4']⟩]) := by rfl
  have h₃ : parse "x\n#define M(a a\n".toList =
      .error (.malformedDefinition ['M'] (some 2) .unclosedParameterList) := by rfl
  have h₄ : parse "#define M(a,a)\n".toList =
      .error (.malformedDefinition ['M'] (some 1) (.duplicateParameter ['a'])) := by rfl
  refine ⟨hend, h₁, ((parse_append (.inr hend) _).1 _ h₁).1 _ h₂, ?_,
    (parse_append (.inr (by decide)) _).2 _ h₄ (by simp)⟩
  obtain ⟨name, line, reason, he, herror⟩ := ((parse_append (.inr hend) _).1 _ h₁).2 _ h₃
  obtain ⟨rfl, hline, rfl⟩ := Error.malformedDefinition.inj he
  obtain rfl := Option.some.inj hline
  exact herror

end Table

end FlatHeader
