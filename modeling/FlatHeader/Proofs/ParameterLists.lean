import FlatHeader.Proofs.FaultLines
import FlatHeader.Proofs.Indexing

/-!
# Parameter lists

The pieces of a parameter list are different identifiers, or one of them is the leftmost faulty one.
This comes before all that may be wrong with the body, since a body is looked at only behind an
accepted list. Faults further down are reported on their own lines, so an error about the line of
the list is one of the list, or the body does not end (`Table.parse_parameterList`).
-/

namespace FlatHeader

open Text

/-! ## Lists and definitions -/

namespace Extraction

/-- Lines that define no name are skipped. -/
theorem ofLines_append_of_not_definesName {front : List Text}
    (h : ∀ l ∈ front, ∀ name rest, ¬ DefinesName l name rest) (n : ℕ) (ls : List Text) :
    ofLines n none (front ++ ls) = ofLines (n + front.length) none ls := by
  induction front generalizing n with
  | nil => rfl
  | cons line front ih =>
    obtain ⟨hline, hfront⟩ := List.forall_mem_cons.1 h
    rw [List.cons_append, (LineStep.skipped hline).ofLines_cons, List.length_cons,
      Nat.add_comm front.length, ← Nat.add_assoc]
    exact ih hfront (n + 1)

/-- If there is no fault, then the definition that is open comes first, with its name and its
parameters. -/
theorem exists_definitions_of_open {n : ℕ} {d : OpenDefinition} {ls : List Text}
    (h : (ofLines n (some d) ls).fault = none) :
    ∃ body more, (ofLines n (some d) ls).definitions =
      ⟨d.line, ⟨d.name, d.parameters, body⟩⟩ :: more := by
  induction ls generalizing n d with
  | nil => exact absurd h (by simp [ofLines])
  | cons line rest ih =>
    obtain ⟨effect, hstep⟩ := exists_lineStep n (some d) line
    rw [hstep.ofLines_cons] at h ⊢
    cases hstep with
    | continued => exact ih h
    | ended => exact ⟨_, _, rfl⟩

section parameterList

variable {line name t : Text} (hline : DefinesName line name ('(' :: t)) (n : ℕ) (rest : List Text)
include hline

/-- A faulty list is reported on its line, whatever follows it. -/
theorem ofLines_of_readParameters_error {reason : Malformation}
    (h : readParameters t = .error reason) :
    ofLines n none (line :: rest) =
      ⟨[], some (.malformedDefinition name (some n) reason)⟩ := by
  have hread : readSignature ('(' :: t) = .error reason := by
    rw [readSignature, h]
    rfl
  exact (LineStep.refused hline hread).ofLines_cons rest

/-- Behind an accepted list the body is open, or the definition is there already. -/
theorem ofLines_of_readParameters_ok {l : List Text} {after : Text}
    (h : readParameters t = .ok (l, after)) :
    (∃ body, ofLines n none (line :: rest) =
      ofLines (n + 1) (some ⟨n, name, some l, body⟩) rest) ∨
    ∃ body, ofLines n none (line :: rest) =
      cons ⟨n, ⟨name, some l, body⟩⟩ (ofLines (n + 1) none rest) := by
  have hread : readSignature ('(' :: t) = .ok (some l, after) := by
    rw [readSignature, h]
    rfl
  by_cases hcont : isContinued after = true
  · exact .inl ⟨_, (LineStep.opened hline hread hcont).ofLines_cons rest⟩
  · exact .inr ⟨_, (LineStep.defined hline hread hcont).ofLines_cons rest⟩

/-- Behind an accepted list, the only fault that is reported on its line is a body that does not
end. -/
theorem eq_unterminatedBody_of_readParameters_ok {l : List Text} {after other : Text}
    {reason : Malformation} (h : readParameters t = .ok (l, after))
    (hfault : (ofLines n none (line :: rest)).fault =
      some (.malformedDefinition other (some n) reason)) : reason = .unterminatedBody := by
  have hbelow : ∀ open?, ¬ FaultsOnLine (n + 1) open? rest
      (.malformedDefinition other (some n) reason) := by
    rintro open? ⟨above, _, _, _, _, _, -, -, -, he⟩
    obtain ⟨-, hnumber, -⟩ := Error.malformedDefinition.inj he
    have hsame := Option.some.inj hnumber
    omega
  rcases ofLines_of_readParameters_ok hline n rest h with ⟨body, heq⟩ | ⟨body, heq⟩
  · rw [heq] at hfault
    obtain ⟨d, -, he⟩ := (fault_cases hfault).resolve_right (hbelow _)
    exact (Error.malformedDefinition.inj he).2.2
  · rw [heq] at hfault
    exact absurd ((fault_cases hfault).resolve_right (hbelow _)) (by simp)

/-- An accepted list is stored, if there is no fault at all. -/
theorem exists_definitions_of_readParameters_ok {l : List Text} {after : Text}
    (h : readParameters t = .ok (l, after))
    (hfault : (ofLines n none (line :: rest)).fault = none) :
    ∃ body more, (ofLines n none (line :: rest)).definitions =
      ⟨n, ⟨name, some l, body⟩⟩ :: more := by
  rcases ofLines_of_readParameters_ok hline n rest h with ⟨body, heq⟩ | ⟨body, heq⟩
  · rw [heq] at hfault ⊢
    exact exists_definitions_of_open hfault
  · rw [heq]
    exact ⟨body, _, rfl⟩

end parameterList

end Extraction

/-- The only definition of a name is the one that is found, wherever it stands. -/
theorem Table.get?_ofList_of_first {d : Definition} {more : List Definition}
    (h : d.name ∉ more.map Definition.name) : (Table.ofList (d :: more)).get? d.name = some d := by
  have hmore : more.reverse.find? (·.name == d.name) = none := by
    rw [List.find?_eq_none]
    intro e he hname
    exact h (List.mem_map.2 ⟨e, List.mem_reverse.1 he, beq_iff_eq.1 hname⟩)
  rw [Table.get?_ofList, List.reverse_cons, List.find?_append, hmore, Option.none_or,
    List.find?_cons_of_pos (by simp)]

/-! ## The first definition of a source -/

section firstDefinition

variable {source line name t : Text} {front rest : List Text}
  (hlines : lines source = front ++ line :: rest)
  (hfront : ∀ l ∈ front, ∀ other r, ¬ DefinesName l other r)
  (hline : DefinesName line name ('(' :: t))
include hlines

/-- The parameter list goes up to the first `)`, since the line goes on behind it. -/
theorem readParameters_of_mem_lines (hline : DefinesName line name ('(' :: t)) {list after : Text}
    (ht : t = list ++ ')' :: after) (hclose : ')' ∉ list) :
    readParameters t = (checkParameters [] (declaredPieces list)).map (·, after) := by
  subst ht
  refine readParameters_append hclose (fun hlf => ?_) after
  have hmem : line ∈ lines source := by
    rw [hlines]
    exact List.mem_append_right front List.mem_cons_self
  have hone := (ne_nil_and_oneLine_of_mem_lines hmem).2.of_suffix hline.suffix
  obtain ⟨a, b, rfl⟩ := List.append_of_mem hlf
  exact absurd (hone ('(' :: a) (b ++ ')' :: after) (by simp)) (by simp)

include hfront

/-- Extraction gets to the first line that defines a name with nothing found. -/
theorem Extraction.ofSource_of_first :
    ofSource source = ofLines (front.length + 1) none (line :: rest) := by
  unfold ofSource
  rw [hlines, ofLines_append_of_not_definesName hfront, Nat.add_comm]

include hline

theorem Table.parse_of_readParameters_error {reason : Malformation}
    (h : readParameters t = .error reason) :
    Table.parse source = .error (.malformedDefinition name (some (front.length + 1)) reason) := by
  rw [parse_eq_error_iff, Extraction.ofSource_of_first hlines hfront,
    Extraction.ofLines_of_readParameters_error hline _ _ h]

/-- What is reported on the line of a list that is closed, a body that does not end aside. -/
theorem Table.parse_eq_error_iff_leftmostFault {list after : Text} (ht : t = list ++ ')' :: after)
    (hclose : ')' ∉ list) {reason : Malformation} (hreason : reason ≠ .unterminatedBody) :
    Table.parse source = .error (.malformedDefinition name (some (front.length + 1)) reason) ↔
      LeftmostFault (declaredPieces list) reason := by
  have hread := readParameters_of_mem_lines hlines hline ht hclose
  constructor
  · intro h
    rw [parse_eq_error_iff, Extraction.ofSource_of_first hlines hfront] at h
    cases hcheck : checkParameters [] (declaredPieces list) with
    | ok l =>
      rw [hcheck] at hread
      exact absurd (Extraction.eq_unterminatedBody_of_readParameters_ok hline _ _ hread h) hreason
    | error fault =>
      rw [hcheck] at hread
      rw [Extraction.ofLines_of_readParameters_error hline _ _ hread] at h
      obtain ⟨-, -, rfl⟩ := Error.malformedDefinition.inj (Option.some.inj h)
      exact checkParameters_eq_error_iff.1 hcheck
  · intro hfault
    rw [checkParameters_eq_error_iff.2 hfault] at hread
    exact Table.parse_of_readParameters_error hlines hfront hline hread

/-- Accepted parameters are in the table, unless their name is defined a second time. -/
theorem Table.exists_get?_of_parse {l : List Text} {after : Text}
    (hread : readParameters t = .ok (l, after)) {table : Table}
    (htable : Table.parse source = .ok table)
    (hcount : ((Extraction.ofSource source).definitions.map (·.definition.name)).count name = 1) :
    ∃ d, table.get? name = some d ∧ d.parameters = some l := by
  obtain ⟨hfault, rfl⟩ := parse_eq_ok_iff.1 htable
  rw [Extraction.ofSource_of_first hlines hfront] at hfault hcount ⊢
  obtain ⟨body, more, hdefinitions⟩ :=
    Extraction.exists_definitions_of_readParameters_ok hline _ _ hread hfault
  rw [hdefinitions, List.map_cons, List.count_cons_self] at hcount
  have honce : name ∉ (more.map Located.definition).map Definition.name := by
    rw [List.map_map, ← List.count_eq_zero]
    exact Nat.succ_injective hcount
  rw [hdefinitions, List.map_cons]
  exact ⟨⟨name, some l, body⟩, get?_ofList_of_first honce, rfl⟩

/-- When a parameter list is accepted, and what is reported otherwise. Let the first line of a
source that defines a name have `(` directly behind the name. The list is reported as not closed
exactly if no `)` follows on the line. Otherwise its pieces up to the first `)` decide: of the
faults that can be reported on this line, other than a body that does not end, there is exactly that
of the leftmost piece which is no identifier or equals an earlier one. If there is no such piece and
the source has a table, in which the name is not defined a second time, then the parameters that are
stored are the pieces. -/
theorem Table.parse_parameterList :
    (Table.parse source =
        .error (.malformedDefinition name (some (front.length + 1)) .unclosedParameterList) ↔
      ')' ∉ t) ∧
    ∀ list after, t = list ++ ')' :: after → ')' ∉ list →
      (∀ reason, reason ≠ .unterminatedBody →
        (Table.parse source = .error (.malformedDefinition name (some (front.length + 1)) reason) ↔
          LeftmostFault (declaredPieces list) reason)) ∧
      ((∀ reason, ¬ LeftmostFault (declaredPieces list) reason) →
        ∀ table, Table.parse source = .ok table →
          ((Extraction.ofSource source).definitions.map (·.definition.name)).count name = 1 →
          ∃ d, table.get? name = some d ∧ d.parameters = some (declaredPieces list)) := by
  refine ⟨⟨fun h hmem => ?_, fun h => ?_⟩, fun list after ht hclose => ⟨fun reason hreason => ?_,
    fun hnone table htable hcount => ?_⟩⟩
  · obtain ⟨list, after, ht, hclose⟩ := List.eq_append_cons_of_mem hmem
    obtain ⟨_, _, _, -, -, -, hp⟩ :=
      (parse_eq_error_iff_leftmostFault hlines hfront hline ht hclose (by simp)).1 h
    cases hp
  · exact parse_of_readParameters_error hlines hfront hline (readParameters_of_not_mem h)
  · exact parse_eq_error_iff_leftmostFault hlines hfront hline ht hclose hreason
  · obtain ⟨hidentifiers, hnodup⟩ := (nodup_or_exists_leftmostFault _).resolve_right
      fun ⟨reason, hfault⟩ => hnone reason hfault
    have hread := readParameters_of_mem_lines hlines hline ht hclose
    rw [checkParameters_self hidentifiers hnodup] at hread
    exact exists_get?_of_parse hlines hfront hline hread htable hcount

end firstDefinition

/-- On the second line of a source, the third piece is no identifier, and a fourth repeats one, and
the body does not end. On the third line of another one, white space of several kinds stands around
the pieces, and a carriage return belongs to it too. -/
theorem Table.parse_parameterList_pieces :
    Table.parse "int x;\n #\tdefine F( a,\u00a0b ,a b,a) \\\n".toList =
      .error (.malformedDefinition ['F'] (some 2) (.invalidParameter "a b".toList)) ∧
    Table.parse "\n\n#define F( a\u3000,b\r)(c\n#define G 1\n".toList ≠
      .error (.malformedDefinition ['F'] (some 3) .unclosedParameterList) ∧
    ∃ table, Table.parse "\n\n#define F( a\u3000,b\r)(c\n#define G 1\n".toList = .ok table ∧
      ∃ d, table.get? ['F'] = some d ∧ d.parameters = some [['a'], ['b']] := by
  have hskipped : ∀ front : List Text, (∀ l ∈ front, definedName? l = none) →
      ∀ l ∈ front, ∀ other r, ¬ DefinesName l other r :=
    fun _ h l hl => definedName?_eq_none_iff.1 (h l hl)
  have hfaulty := @Table.parse_parameterList
    "int x;\n #\tdefine F( a,\u00a0b ,a b,a) \\\n".toList
    " #\tdefine F( a,\u00a0b ,a b,a) \\\n".toList ['F'] " a,\u00a0b ,a b,a) \\\n".toList
    ["int x;\n".toList] [] (by decide +kernel) (hskipped _ (by decide +kernel))
    (definedName?_eq_some_iff.1 (by decide +kernel))
  have hpieces : declaredPieces " a,\u00a0b ,a b,a".toList =
      [['a'], ['b'], "a b".toList, ['a']] := by decide +kernel
  have hfault : LeftmostFault (declaredPieces " a,\u00a0b ,a b,a".toList)
      (.invalidParameter "a b".toList) := by
    rw [hpieces]
    exact ⟨[['a'], ['b']], "a b".toList, [['a']], rfl, by decide, by decide, .invalid (by decide)⟩
  have haccepted := @Table.parse_parameterList
    "\n\n#define F( a\u3000,b\r)(c\n#define G 1\n".toList
    "#define F( a\u3000,b\r)(c\n".toList ['F'] " a\u3000,b\r)(c\n".toList
    [['\n'], ['\n']] ["#define G 1\n".toList] (by decide +kernel)
    (hskipped _ (by decide +kernel))
    (definedName?_eq_some_iff.1 (by decide +kernel))
  have hgood : declaredPieces " a\u3000,b\r".toList = [['a'], ['b']] := by decide +kernel
  have hnone : ∀ reason, ¬ LeftmostFault (declaredPieces " a\u3000,b\r".toList) reason := by
    intro reason hfault
    rw [hgood] at hfault
    rw [← checkParameters_eq_error_iff, checkParameters_self (by decide) (by decide)] at hfault
    exact absurd hfault (by simp)
  have htable : Table.parse "\n\n#define F( a\u3000,b\r)(c\n#define G 1\n".toList =
      .ok (.ofList [⟨['F'], some [['a'], ['b']], "(c".toList⟩, ⟨['G'], none, ['1']⟩]) := by
    decide +kernel
  obtain ⟨d, hd, hparameters⟩ :=
    (haccepted.2 " a\u3000,b\r".toList "(c\n".toList (by decide) (by decide)).2 hnone _ htable
      (by decide +kernel)
  refine ⟨((hfaulty.2 " a,\u00a0b ,a b,a".toList " \\\n".toList (by decide) (by decide)).1 _
    (by simp)).2 hfault, fun h => ?_, _, htable, d, hd, hparameters.trans (congrArg some hgood)⟩
  exact absurd (haccepted.1.1 h) (by decide)

end FlatHeader
