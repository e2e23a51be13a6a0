import FlatHeader.Proofs.DefinitionLines

/-!
# Writing definitions

A definition is written with its body on the lines behind the definition line, which a continuation
marker ends. Extraction takes nothing of this line for the body and all of the lines behind it, so
it gives back the definitions that were written: `Table.parse_render`.
-/

namespace FlatHeader

open Text Continuation

/-! ## What is written -/

/-- The parameter list behind a name, if there is one. -/
def Definition.signature (d : Definition) : Text :=
  match d.parameters with
  | none => []
  | some parameters => '(' :: ([','].intercalate parameters ++ [')'])

/-- The definition line up to its line feed. It holds nothing of the body. -/
def Definition.firstLine (d : Definition) : Text :=
  "#define ".toList ++ d.name ++ d.signature ++ [' ', '\\']

/-- The definition line and the lines of the body. -/
def Definition.render (d : Definition) : Text :=
  d.firstLine ++ '\n' :: (d.body ++ ['\n'])

/-- A definition whose name, parameters and body can be written on lines of their own. -/
structure Definition.Writable (d : Definition) : Prop where
  name : isIdentifier d.name = true
  parameters : ∀ l ∈ d.parameters, (∀ p ∈ l, isIdentifier p = true) ∧ l.Nodup
  body : IsBody d.body

/-! ## The definition line -/

theorem not_mem_intercalate {c : Char} (hc : isWordChar c = false) (hcomma : c ≠ ',')
    {l : List Text} (hl : ∀ p ∈ l, isIdentifier p = true) : c ∉ [','].intercalate l := by
  intro hmem
  rcases mem_intercalate hmem with h | ⟨p, hp, hmem⟩
  · exact hcomma (List.mem_singleton.1 h)
  · exact (isWord_of_isIdentifier (hl p hp)).not_mem hc hmem

/-- Identifiers with commas between them declare themselves. -/
theorem declares_intercalate {l : List Text} (hl : ∀ p ∈ l, isIdentifier p = true) :
    Declares ([','].intercalate l) l := by
  by_cases hnil : l = []
  · rw [hnil]
    exact .inl ⟨rfl, rfl⟩
  · refine .inr (map_trim_splitOn_intercalate (List.forall_mem_nil _) List.not_mem_nil ?_ hnil)
    intro p hp
    have hw := isWord_of_isIdentifier (hl p hp)
    exact ⟨hw.not_mem (by decide), hw.trim_eq⟩

/-- The parameters of a definition are written as a signature that declares them. -/
theorem Definition.Writable.signatureText {d : Definition} (hd : d.Writable) :
    SignatureText d.parameters (d.signature ++ [' ']) := by
  unfold Definition.signature
  cases hp : d.parameters with
  | none => exact .objectLike rfl (List.forall_mem_nil _)
  | some l =>
    obtain ⟨hl, hnodup⟩ := hd.parameters l hp
    have hlist : ∀ c ∈ [','].intercalate l, c ≠ ')' ∧ c ≠ '\n' := by
      refine fun c hc => ⟨?_, ?_⟩
      · rintro rfl
        exact not_mem_intercalate (by decide) (by decide) hl hc
      · rintro rfl
        exact not_mem_intercalate (by decide) (by decide) hl hc
    dsimp only
    rw [List.cons_append, List.append_assoc]
    exact .functionLike hlist (declares_intercalate hl) hl hnodup (List.forall_mem_singleton.2 rfl)

/-! ## Sources -/

/-- A written definition is extracted, and extraction goes on behind it. -/
theorem Extraction.ofLines_render (n : ℕ) {d : Definition} (hd : d.Writable) (rest : Text) :
    ofLines n none (lines (d.render ++ rest)) =
      cons ⟨n, d⟩ (ofLines (n + d.body.count '\n' + 2) none (lines rest)) := by
  have hsplit : d.render ++ rest =
      definitionLine d.name (d.signature ++ [' ']) [] ++ '\n' :: (d.body ++ '\n' :: rest) := by
    unfold Definition.render Definition.firstLine definitionLine
    simp only [List.append_assoc, List.cons_append, List.nil_append]
  rw [hsplit]
  exact ofLines_definitionLine n hd.name hd.signatureText List.not_mem_nil (by simp) hd.body rest

/-- Extraction gives back the definitions that were written. -/
theorem Extraction.ofLines_flatMap_render (n : ℕ) {l : List Definition}
    (hl : ∀ d ∈ l, d.Writable) :
    (ofLines n none (lines (l.flatMap Definition.render))).definitions.map Located.definition = l ∧
      (ofLines n none (lines (l.flatMap Definition.render))).fault = none := by
  induction l generalizing n with
  | nil => exact ⟨rfl, rfl⟩
  | cons d rest ih =>
    obtain ⟨hd, hrest⟩ := List.forall_mem_cons.1 hl
    obtain ⟨hdefinitions, hfault⟩ := ih (n + d.body.count '\n' + 2) hrest
    rw [List.flatMap_cons, ofLines_render n hd]
    exact ⟨congrArg (d :: ·) hdefinitions, hfault⟩

/-- The table of a source that definitions with distinct names were written to holds exactly those
definitions, in order. -/
theorem Table.parse_render {l : List Definition} (hnames : (l.map Definition.name).Nodup)
    (hl : ∀ d ∈ l, d.Writable) :
    Table.parse (l.flatMap Definition.render) = .ok ⟨l, hnames⟩ := by
  obtain ⟨hdefinitions, hfault⟩ := Extraction.ofLines_flatMap_render 1 hl
  unfold Table.parse Extraction.table Extraction.ofSource
  rw [hfault, hdefinitions, Table.ofList_of_nodup hnames]

/-- A line of the first body looks like a definition, and the second body is empty. -/
theorem Table.parse_render_directive_in_body :
    Table.parse "#define F(x,y) \\\n#define y \\ \r\nx\n#define G() \\\n\n".toList =
      .ok ⟨[⟨['F'], some [['x'], ['y']], "#define y \\ \r\nx".toList⟩, ⟨['G'], some [], []⟩],
        by decide⟩ := by
  have hmark : EndsWithMarker "#define y \\ \r".toList :=
    ⟨"#define y ".toList, [' '], ['\r'], by decide, List.forall_mem_singleton.2 rfl, .inr rfl⟩
  have hlast : IsBody ['x'] := (isBody_last_iff (by decide)).2 ⟨by decide, by decide⟩
  have hempty : IsBody [] := (isBody_last_iff (by decide)).2 ⟨by decide, by decide⟩
  have hF : Definition.Writable ⟨['F'], some [['x'], ['y']], "#define y \\ \r\nx".toList⟩ :=
    ⟨by decide, fun l hl => by obtain rfl := Option.mem_some_iff.1 hl; decide,
      (isBody_cut_iff (by decide) ['x']).2 ⟨hmark, hlast⟩⟩
  have hG : Definition.Writable ⟨['G'], some [], []⟩ :=
    ⟨by decide, fun l hl => by obtain rfl := Option.mem_some_iff.1 hl; decide, hempty⟩
  exact Table.parse_render (by decide) (List.forall_mem_cons.2 ⟨hF, List.forall_mem_singleton.2 hG⟩)

end FlatHeader
