import FlatHeader.Proofs.Scanning

/-!
# What errors report

An error of a step names a macro and numbers or offsets. `Error.HoldsOf` says what each kind reports
about the text, and `expandOnce?_error_holds` that every error of a step reports the truth. A step
may also look the definition up again under the name that stands in the text, and has to be prepared
for a list of arguments given to an object-like definition. Neither goes wrong:
`Expander.expandOnceByName?_eq` and `Expander.isSome_arguments_of_select`.
-/

namespace FlatHeader

open Text

/-! ## What is reported -/

/-- Somewhere in a text the name of `d` is called with the arguments `l`. -/
def CalledWith (t : Text) (d : Definition) (l : List Text) : Prop :=
  ∃ before list rest, WordAt t before d.name ('(' :: (list ++ ')' :: rest)) ∧ NoParens list ∧
    ArgumentsOf d list l

/-- What an error reports about a text in which the definitions of a table are called. A fault of
the source of a definition and the limit of the steps are nothing that a text can be blamed for. -/
def Error.HoldsOf (table : Table) (t : Text) : Error → Prop
  | malformedDefinition .. => False
  | arityMismatch name required given =>
    ∃ d parameters l, table.get? name = some d ∧ d.parameters = some parameters ∧
      parameters.length = required ∧ given ≠ required ∧ CalledWith t d l ∧ l.length = given
  | ambiguousSubstitutionOrder name parameter argument =>
    ∃ d parameters i l, table.get? name = some d ∧ d.parameters = some parameters ∧
      parameters[i]? = some parameter ∧ argument < i ∧ CalledWith t d l ∧
      ∃ a, l[argument]? = some a ∧ parameter ∈ words a
  | nestedParentheses name offset =>
    ∃ d before list rest, table.get? name = some d ∧ d.isFunctionLike = true ∧
      WordAt t before name ('(' :: (list ++ '(' :: rest)) ∧ NoParens list ∧
      splitAtByte? offset t = some (before ++ (name ++ '(' :: list), '(' :: rest)
  | unterminatedCall name offset =>
    ∃ d before list, table.get? name = some d ∧ d.isFunctionLike = true ∧
      WordAt t before name ('(' :: list) ∧ NoParens list ∧
      splitAtByte? offset t = some (before, name ++ '(' :: list)
  | didNotTerminate .. => False

/-- A list of arguments that is refused is one of the wrong number, or has a parameter in it. -/
theorem Definition.Refuses.holdsOf {table : Table} {t : Text} {d : Definition} {l : List Text}
    {e : Error} (h : d.Refuses (some l) e) (hget : table.get? d.name = some d)
    (hlike : d.isFunctionLike = true) (hcalled : CalledWith t d l) : e.HoldsOf table t := by
  cases h with
  | count hd hlen => exact ⟨d, _, l, hget, hd, rfl, hlen.symm, hcalled, rfl⟩
  | @clash parameters _ i j p hd hclash hp =>
    obtain ⟨hlt, p', a, hp', ha, hword⟩ := hclash
    obtain rfl := Option.some.inj (hp.symm.trans hp')
    exact ⟨d, parameters, i, l, hget, hd, hp, hlt, hcalled, a, ha, hword⟩
  | kind hkind => exact absurd hlike.symm hkind

/-! ## The call by its name -/

namespace Expander

variable {x : Expander} {t : Text}

/-- The word that is read for a call, or for an error about one. -/
theorem exists_liveAt_of_select (h : x.select t ≠ .ok none) :
    ∃ before w after d, LiveAt x.table.get? t before w after d ∧ d.name = w ∧
      Call.Reads d before w after (x.select t) := by
  have hlive : ∃ before w after d, LiveAt x.table.get? t before w after d := by
    by_contra hnone
    exact h ((select_eq_none_iff x t).2 fun before w after d hl => hnone ⟨before, w, after, d, hl⟩)
  obtain ⟨before, w, after, d, hdecides⟩ := exists_decides hlive
  exact ⟨before, w, after, d, hdecides.1, ((liveAt_get?_iff _ _ _ _ _ _).1 hdecides.1).2.2.1,
    Decides.reads hdecides⟩

/-- A list of arguments is given exactly to a definition that takes one. -/
theorem isSome_arguments_of_select {c : Call} (h : x.select t = .ok (some c)) :
    c.arguments.isSome = c.definition.isFunctionLike := by
  obtain ⟨before, w, after, d, -, -, hreads⟩ := exists_liveAt_of_select (by rw [h]; simp)
  rw [h] at hreads
  cases hreads with
  | objectLike hd => exact hd.symm
  | closed hd hlist => exact hd.symm

/-- What stands in the text where a call starts, as many bytes as the name of its definition has,
is this name, and the definition is the one that the table has under it. -/
theorem name_of_select {c : Call} (h : x.select t = .ok (some c)) :
    between? t c.start (c.start + byteSize c.definition.name) = some c.definition.name ∧
      x.table.get? c.definition.name = some c.definition := by
  obtain ⟨before, w, after, d, hl, rfl, hreads⟩ := exists_liveAt_of_select (by rw [h]; simp)
  rw [h] at hreads
  have hstarts := hreads.startsAt hl.wordAt.eq
  rw [hstarts.definition_eq, hstarts.start_eq, hl.wordAt.eq]
  exact ⟨between?_append _ _ _, hl.lookup⟩

/-- A step that knows a call by its place. The name is cut out of the text, and the definition is
looked up under this name when the call is replaced. -/
def expandOnceByName? (x : Expander) (t : Text) : Except Error (Option Text) :=
  match x.select t with
  | .error e => .error e
  | .ok none => .ok none
  | .ok (some call) =>
    let name := (between? t call.start (call.start + byteSize call.definition.name)).getD []
    match x.table.get? name with
    | none => .error (.malformedDefinition name none .undefined)
    | some d => (d.substitute call.arguments).map fun replacement => some (call.splice replacement)

/-- The name that is called is always found again. -/
theorem expandOnceByName?_eq (x : Expander) (t : Text) :
    x.expandOnceByName? t = x.expandOnce? t := by
  unfold expandOnceByName? expandOnce?
  cases hselect : x.select t with
  | error e => rfl
  | ok found =>
    cases found with
    | none => rfl
    | some c =>
      obtain ⟨hname, hget⟩ := name_of_select hselect
      simp only [hname, Option.getD_some, hget, Call.replacement]

end Expander

/-! ## Errors of a step -/

/-- What is read for a word that is no call reports the truth about it. -/
theorem Call.Reads.holdsOf {table : Table} {t before w after : Text} {d : Definition} {e : Error}
    (h : Reads d before w after (.error e)) (hat : WordAt t before w after)
    (hget : table.get? w = some d) : e.HoldsOf table t := by
  cases h with
  | @nested list rest hd hlist =>
    have hsplit : t = before ++ (w ++ '(' :: list) ++ '(' :: rest := by
      rw [hat.eq]
      simp
    exact ⟨d, before, list, rest, hget, hd, hat, hlist, by rw [hsplit, splitAtByte?_append]⟩
  | unclosed hd hlist =>
    exact ⟨d, before, _, hget, hd, hat, hlist, by rw [hat.eq, splitAtByte?_append]⟩

/-- Whatever a step fails with reports the truth about the text. It is never that the name of a call
is not defined, though the definition is looked up under the name that stands in the text, nor that
a list is given to an object-like definition or missing for a function-like one. -/
theorem expandOnce?_error_holds (x : Expander) (t : Text) :
    x.expandOnceByName? t = x.expandOnce? t ∧
    (∀ c, x.select t = .ok (some c) → c.arguments.isSome = c.definition.isFunctionLike) ∧
    ∀ e, x.expandOnce? t = .error e → e.HoldsOf x.table t := by
  refine ⟨x.expandOnceByName?_eq t, fun c => Expander.isSome_arguments_of_select, fun e he => ?_⟩
  have hsome : x.select t ≠ .ok none := fun hnone => by
    rw [Expander.expandOnce?_eq_none_iff.2 hnone] at he
    exact absurd he (by simp)
  obtain ⟨before, w, after, d, hl, rfl, hreads⟩ := Expander.exists_liveAt_of_select hsome
  cases hselect : x.select t with
  | error e' =>
    rw [Expander.expandOnce?_of_select_error hselect] at he
    obtain rfl := Except.error.inj he
    rw [hselect] at hreads
    exact hreads.holdsOf hl.wordAt hl.lookup
  | ok found =>
    obtain ⟨c, rfl⟩ : ∃ c, found = some c :=
      Option.ne_none_iff_exists'.1 fun hnone => hsome (by rw [hselect, hnone])
    have hrefuses := Expander.refuses_of_expandOnce? hselect he
    rw [hselect] at hreads
    cases hreads with
    | objectLike hd =>
      cases hrefuses with
      | kind hkind => exact absurd hd.symm hkind
    | closed hd hlist =>
      exact hrefuses.holdsOf hl.lookup hd
        ⟨before, _, _, hl.wordAt, hlist, Call.argumentsOf_splitArguments d _⟩

/-- The offset counts bytes, so that it is the sixth byte where the parenthesis opens, though it is
the fifth character. A parameter in an earlier argument is reported with the number of this
argument. -/
theorem expandOnce?_error_holds_wide_character :
    (Error.nestedParentheses ['F'] 5).HoldsOf (.ofList [⟨['F'], some [['a'], ['b']], ['a']⟩])
      "é F((".toList ∧
    (Error.ambiguousSubstitutionOrder ['F'] ['b'] 0).HoldsOf
      (.ofList [⟨['F'], some [['a'], ['b']], ['a']⟩]) "F(b, 1)".toList :=
  ⟨(expandOnce?_error_holds ⟨.ofList [⟨['F'], some [['a'], ['b']], ['a']⟩], .leftmost, 1⟩
      "é F((".toList).2.2 _ (by decide +kernel),
    (expandOnce?_error_holds ⟨.ofList [⟨['F'], some [['a'], ['b']], ['a']⟩], .definitionOrder, 1⟩
      "F(b, 1)".toList).2.2 _ (by rfl)⟩

end FlatHeader
