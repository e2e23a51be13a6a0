import FlatHeader.Substitution
import FlatHeader.Proofs.Words

/-!
# Substitution all at once

Parameters are replaced one after another, on a text that already holds the earlier arguments. If no
parameter is a word of an earlier argument, this is the same as exchanging all of them in one pass:
what an argument brings in is never touched again. The check for such a parameter is exact, so
there is no other reason for a substitution to fail.
-/

namespace FlatHeader

open Text

/-! ## What a word stands for -/

/-- The argument of the first parameter that a word is the name of, or the word itself. -/
def valueOf (pairs : List (Text × Text)) (word : Text) : Text := (pairs.lookup word).getD word

/-- Parameter number `i` is a word of argument number `j`, which is put in before it. -/
def Clash (parameters arguments : List Text) (i j : ℕ) : Prop :=
  j < i ∧ ∃ p a, parameters[i]? = some p ∧ arguments[j]? = some a ∧ p ∈ words a

/-- The clashes of the parameter behind `done`: it is a word of one of the arguments before it. -/
theorem clash_length_iff (done rest : List (Text × Text)) (parameter argument : Text) (j : ℕ) :
    Clash ((done ++ (parameter, argument) :: rest).map Prod.fst)
        ((done ++ (parameter, argument) :: rest).map Prod.snd) done.length j ↔
      ∃ a, (done.map Prod.snd)[j]? = some a ∧ parameter ∈ words a := by
  have hparameter : ((done ++ (parameter, argument) :: rest).map Prod.fst)[done.length]? =
      some parameter := by simp
  have hargument : j < done.length →
      ((done ++ (parameter, argument) :: rest).map Prod.snd)[j]? = (done.map Prod.snd)[j]? := by
    intro hj
    rw [List.map_append, List.getElem?_append_left (by rwa [List.length_map])]
  constructor
  · rintro ⟨hj, p, a, hp, ha, hword⟩
    rw [hparameter, Option.some.injEq] at hp
    rw [hargument hj] at ha
    exact ⟨a, ha, hp ▸ hword⟩
  · rintro ⟨a, ha, hword⟩
    have hj : j < done.length := by
      have := (List.getElem?_eq_some_iff.1 ha).1
      rwa [List.length_map] at this
    exact ⟨hj, parameter, a, hparameter, (hargument hj).trans ha, hword⟩

namespace Definition

/-- An object-like definition has nothing to replace. -/
theorem substitute_of_objectLike {d : Definition} (hd : d.parameters = none) :
    d.substitute none = .ok d.body := by
  unfold substitute
  rw [hd]

/-- With an argument for each parameter, substitution is the replacement of the parameters. -/
theorem substitute_of_length_eq {d : Definition} {parameters arguments : List Text}
    (hd : d.parameters = some parameters) (hlen : parameters.length = arguments.length) :
    d.substitute (some arguments) =
      replaceParameters d.name [] (parameters.zip arguments) d.body := by
  unfold substitute
  rw [hd]
  exact if_pos hlen

theorem replaceParameters_cons (name : Text) (earlier : List Text) (parameter argument : Text)
    (rest : List (Text × Text)) (body : Text) :
    replaceParameters name earlier ((parameter, argument) :: rest) body =
      match earlier.findIdx? fun a => parameter ∈ words a with
      | some i => .error (.ambiguousSubstitutionOrder name parameter i)
      | none =>
        replaceParameters name (earlier ++ [argument]) rest (replaceWord parameter argument body) :=
  rfl

/-- One more parameter. The arguments put in before do not hold it, and an earlier parameter of the
same name has left no word for it to replace. -/
theorem replaceWord_mapWords_valueOf {parameter argument : Text} {done : List (Text × Text)}
    (h : ∀ a ∈ done.map Prod.snd, parameter ∉ words a) (body : Text) :
    replaceWord parameter argument (mapWords (valueOf done) body) =
      mapWords (valueOf (done ++ [(parameter, argument)])) body := by
  rw [replaceWord_eq_mapWords, mapWords_mapWords]
  refine mapWords_congr fun w hw => ?_
  unfold valueOf
  rw [List.lookup_append, List.lookup_singleton]
  cases hl : done.lookup w with
  | some a =>
    -- the word is exchanged already, and what it was exchanged for is left alone
    obtain ⟨l₁, l₂, rfl, -⟩ := List.lookup_eq_some_iff.1 hl
    refine mapWords_eq_self fun v hv => ?_
    have hne : v ≠ parameter := fun he => h a (by simp) (he ▸ hv)
    rw [if_neg hne]
  | none =>
    rw [Option.getD_none, mapWords_of_isWord _ (isWord_of_mem_words hw), Option.none_or]
    by_cases hp : w = parameter
    · rw [if_pos hp, if_pos (beq_iff_eq.2 hp), Option.getD_some]
    · rw [if_neg hp, if_neg (fun h => hp (beq_iff_eq.1 h)), Option.getD_none]

/-- The replacement of the parameters behind `done`, which did not clash: all parameters are
exchanged at once if there is no clash at all, and the first clash is reported otherwise. -/
theorem replaceParameters_cases (name body : Text) {pairs : List (Text × Text)}
    (done rest : List (Text × Text)) (hpairs : done ++ rest = pairs)
    (hdone : ∀ i j, i < done.length → ¬ Clash (pairs.map Prod.fst) (pairs.map Prod.snd) i j) :
    ((∀ i j, ¬ Clash (pairs.map Prod.fst) (pairs.map Prod.snd) i j) ∧
      replaceParameters name (done.map Prod.snd) rest (mapWords (valueOf done) body) =
        .ok (mapWords (valueOf pairs) body)) ∨
    ∃ i j p, Clash (pairs.map Prod.fst) (pairs.map Prod.snd) i j ∧
      (pairs.map Prod.fst)[i]? = some p ∧
      (∀ i' j', Clash (pairs.map Prod.fst) (pairs.map Prod.snd) i' j' → i ≤ i') ∧
      (∀ j', Clash (pairs.map Prod.fst) (pairs.map Prod.snd) i j' → j ≤ j') ∧
      replaceParameters name (done.map Prod.snd) rest (mapWords (valueOf done) body) =
        .error (.ambiguousSubstitutionOrder name p j) := by
  induction rest generalizing done with
  | nil =>
    left
    rw [List.append_nil] at hpairs
    subst hpairs
    refine ⟨fun i j hclash => ?_, rfl⟩
    obtain ⟨-, p, -, hp, -⟩ := id hclash
    have hi := (List.getElem?_eq_some_iff.1 hp).1
    rw [List.length_map] at hi
    exact hdone i j hi hclash
  | cons pair rest ih =>
    obtain ⟨parameter, argument⟩ := pair
    have hat := clash_length_iff done rest parameter argument
    rw [hpairs] at hat
    rw [replaceParameters_cons]
    cases hfind : (done.map Prod.snd).findIdx? fun a => parameter ∈ words a with
    | some j =>
      -- the clash that is found is the first one: there was none before this parameter
      right
      obtain ⟨hj, hword, hfirst⟩ := List.findIdx?_eq_some_iff_getElem.1 hfind
      refine ⟨done.length, j, parameter, (hat j).2 ⟨_, List.getElem?_eq_getElem hj, ?_⟩, ?_, ?_,
        ?_, rfl⟩
      · simpa using hword
      · rw [← hpairs]; simp
      · intro i' j' hclash
        by_contra hlt
        exact hdone i' j' (by omega) hclash
      · intro j' hclash
        obtain ⟨a, ha, hmem⟩ := (hat j').1 hclash
        by_contra hlt
        have hnot := hfirst j' (by omega)
        obtain ⟨hj', rfl⟩ := List.getElem?_eq_some_iff.1 ha
        exact hnot (by simpa using hmem)
    | none =>
      -- no clash here, so the induction goes on with one more pair done
      have hfree : ∀ a ∈ done.map Prod.snd, parameter ∉ words a := by
        intro a ha
        simpa using List.findIdx?_eq_none_iff.1 hfind a ha
      have hnext := ih (done ++ [(parameter, argument)]) (by rw [← hpairs, List.append_assoc]; rfl)
        (by
          intro i j hi hclash
          rw [List.length_append, List.length_singleton] at hi
          by_cases hlt : i < done.length
          · exact hdone i j hlt hclash
          · obtain rfl : i = done.length := by omega
            obtain ⟨a, ha, hmem⟩ := (hat j).1 hclash
            exact hfree a (List.mem_of_getElem? ha) hmem)
      rw [List.map_append, ← replaceWord_mapWords_valueOf hfree] at hnext
      exact hnext

/-- The replacement of all parameters: they are exchanged at once, or the first clash is
reported. -/
theorem replaceParameters_all_cases (name body : Text) (pairs : List (Text × Text)) :
    ((∀ i j, ¬ Clash (pairs.map Prod.fst) (pairs.map Prod.snd) i j) ∧
      replaceParameters name [] pairs body = .ok (mapWords (valueOf pairs) body)) ∨
    ∃ i j p, Clash (pairs.map Prod.fst) (pairs.map Prod.snd) i j ∧
      (pairs.map Prod.fst)[i]? = some p ∧
      (∀ i' j', Clash (pairs.map Prod.fst) (pairs.map Prod.snd) i' j' → i ≤ i') ∧
      (∀ j', Clash (pairs.map Prod.fst) (pairs.map Prod.snd) i j' → j ≤ j') ∧
      replaceParameters name [] pairs body = .error (.ambiguousSubstitutionOrder name p j) := by
  have hstart : mapWords (valueOf []) body = body := mapWords_eq_self fun w _ => rfl
  have hcases := replaceParameters_cases name body [] pairs (List.nil_append pairs)
    (fun i j hi => absurd hi (Nat.not_lt_zero i))
  rwa [List.map_nil, hstart] at hcases

/-- Where the replacement of the parameters succeeds, all of them are exchanged at once. -/
theorem eq_mapWords_of_replaceParameters {name body out : Text} {pairs : List (Text × Text)}
    (h : replaceParameters name [] pairs body = .ok out) : out = mapWords (valueOf pairs) body := by
  rcases replaceParameters_all_cases name body pairs with ⟨-, hok⟩ | ⟨i, j, p, -, -, -, -, herror⟩
  · rw [hok] at h
    exact (Except.ok.inj h).symm
  · rw [herror] at h
    exact absurd h (by simp)

/-- Why a definition cannot be substituted with arguments: their number is not that of the
parameters, a parameter is a word of an earlier argument, or there is a list of them where the
definition has none, or the other way round. -/
inductive Refuses (d : Definition) : Option (List Text) → Error → Prop
  | count {parameters l : List Text} (hd : d.parameters = some parameters)
      (hlen : parameters.length ≠ l.length) :
      Refuses d (some l) (.arityMismatch d.name parameters.length l.length)
  | clash {parameters l : List Text} {i j : ℕ} {p : Text} (hd : d.parameters = some parameters)
      (hclash : Clash parameters l i j) (hp : parameters[i]? = some p) :
      Refuses d (some l) (.ambiguousSubstitutionOrder d.name p j)
  | kind {arguments : Option (List Text)} (h : arguments.isSome ≠ d.isFunctionLike) :
      Refuses d arguments (.arityMismatch d.name (d.parameters.getD []).length
        (arguments.getD []).length)

theorem refuses_of_substitute {d : Definition} {arguments : Option (List Text)} {e : Error}
    (h : d.substitute arguments = .error e) : d.Refuses arguments e := by
  unfold substitute at h
  split at h
  · exact absurd h (by simp)
  · next parameters l hd =>
    split at h
    · next hlen =>
      have hcases := replaceParameters_all_cases d.name d.body (parameters.zip l)
      rw [List.map_fst_zip hlen.le, List.map_snd_zip hlen.ge] at hcases
      rcases hcases with ⟨-, hok⟩ | ⟨i, j, p, hclash, hp, -, -, herror⟩
      · rw [hok] at h
        exact absurd h (by simp)
      · rw [herror] at h
        obtain rfl := Except.error.inj h
        exact .clash hd hclash hp
    · next hlen =>
      obtain rfl := Except.error.inj h
      exact .count hd hlen
  · next hnone hsome =>
    obtain rfl := Except.error.inj h
    refine .kind fun hkind => ?_
    unfold isFunctionLike at hkind
    cases hd : d.parameters with
    | none =>
      rw [hd] at hkind
      exact hnone hd (Option.not_isSome_iff_eq_none.1 (by rw [hkind]; decide))
    | some parameters =>
      rw [hd] at hkind
      obtain ⟨l, hl⟩ := Option.isSome_iff_exists.1 hkind
      exact hsome parameters l hd hl

/-- Substitution is no matter of limits. -/
theorem substitute_ne_didNotTerminate (d : Definition) (arguments : Option (List Text))
    (name snippet : Text) (iterations : ℕ) :
    d.substitute arguments ≠ .error (.didNotTerminate name iterations snippet) := by
  intro h
  cases refuses_of_substitute h

/-- Substitution is simultaneous. For a function-like definition and as many arguments as it has
parameters: if no parameter is a word of an argument put in before it, every word of the body that
is a parameter is exchanged, in one pass, for the argument of the first parameter of that name, and
all else is kept. Otherwise the least clashing parameter is reported, with the first argument that
holds it. -/
theorem substitute_eq_mapWords (name body : Text) (parameters arguments : List Text)
    (hlen : arguments.length = parameters.length) :
    ((∀ i j, ¬ Clash parameters arguments i j) →
      (Definition.mk name (some parameters) body).substitute (some arguments) =
        .ok (mapWords (valueOf (parameters.zip arguments)) body)) ∧
    ((∃ i j, Clash parameters arguments i j) →
      ∃ i j p, Clash parameters arguments i j ∧ parameters[i]? = some p ∧
        (∀ i' j', Clash parameters arguments i' j' → i ≤ i') ∧
        (∀ j', Clash parameters arguments i j' → j ≤ j') ∧
        (Definition.mk name (some parameters) body).substitute (some arguments) =
          .error (.ambiguousSubstitutionOrder name p j)) := by
  have hcases := replaceParameters_all_cases name body (parameters.zip arguments)
  rw [List.map_fst_zip hlen.ge, List.map_snd_zip hlen.le] at hcases
  have hsubstitute : (Definition.mk name (some parameters) body).substitute (some arguments) =
      replaceParameters name [] (parameters.zip arguments) body :=
    substitute_of_length_eq rfl hlen.symm
  rw [hsubstitute]
  rcases hcases with ⟨hnone, hok⟩ | ⟨i, j, p, hclash, hp, hi, hj, herror⟩
  · refine ⟨fun _ => hok, ?_⟩
    rintro ⟨i, j, hclash⟩
    exact absurd hclash (hnone i j)
  · refine ⟨fun hnone => absurd hclash (hnone i j), fun _ => ?_⟩
    exact ⟨i, j, p, hclash, hp, hi, hj, herror⟩

/-- A later argument may hold the name of an earlier parameter. -/
theorem substitute_eq_mapWords_later_argument :
    [['x'], ['a']].length = [['a'], ['b']].length ∧
    (Definition.mk ['f'] (some [['a'], ['b']]) ['a', '+', 'b']).substitute (some [['x'], ['a']]) =
      .ok ['x', '+', 'a'] := by
  have h := substitute_eq_mapWords ['f'] ['a', '+', 'b'] [['a'], ['b']] [['x'], ['a']] rfl
  refine ⟨rfl, h.1 ?_⟩
  rintro i j ⟨hj, p, a, hp, ha, hmem⟩
  match i, j, hj with
  | 1, 0, _ =>
    rw [List.getElem?_cons_succ, List.getElem?_cons_zero, Option.some.injEq] at hp
    rw [List.getElem?_cons_zero, Option.some.injEq] at ha
    subst hp ha
    exact absurd hmem (by decide)
  | i + 2, j, _ => simp at hp

end Definition

end FlatHeader
