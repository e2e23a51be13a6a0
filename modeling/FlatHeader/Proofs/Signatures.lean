import FlatHeader.Definition.Extraction
import FlatHeader.Proofs.Lines

/-!
# Signatures

A parameter list reaches to the first closing parenthesis on its line and is cut at its commas. The
pieces are accepted if they are different identifiers (`checkParameters_eq_ok_iff`), and otherwise
the leftmost one that is not is reported (`checkParameters_eq_error_iff`). So what an accepted
signature declares and leaves is known without looking at how it is read (`readSignature_eq_ok`).
-/

namespace FlatHeader

open Text

/-! ## The pieces of a list -/

/-- Pieces are accepted one after another, as long as they are different identifiers. -/
theorem checkParameters_append {earlier l : List Text} (hl : ∀ p ∈ l, isIdentifier p = true)
    (hnodup : (earlier ++ l).Nodup) (rest : List Text) :
    checkParameters earlier (l ++ rest) = checkParameters (earlier ++ l) rest := by
  induction l generalizing earlier with
  | nil => rw [List.nil_append, List.append_nil]
  | cons p l ih =>
    obtain ⟨hp, hl⟩ := List.forall_mem_cons.1 hl
    have hnew : p ∉ earlier := fun hmem =>
      (List.nodup_append'.1 hnodup).2.2 hmem List.mem_cons_self
    have hsplit : earlier ++ p :: l = earlier ++ [p] ++ l := by simp
    rw [hsplit] at hnodup
    rw [List.cons_append, checkParameters, hp, if_neg (by decide), if_neg hnew, ih hl hnodup,
      hsplit]

theorem checkParameters_self {l : List Text} (hl : ∀ p ∈ l, isIdentifier p = true)
    (hnodup : l.Nodup) : checkParameters [] l = .ok l := by
  have happend := @checkParameters_append [] l hl hnodup []
  rwa [List.append_nil, List.nil_append, checkParameters] at happend

/-- What is wrong with a piece behind earlier ones. -/
inductive FaultyPiece (earlier : List Text) (p : Text) : Malformation → Prop
  | invalid (h : isIdentifier p = false) : FaultyPiece earlier p (.invalidParameter p)
  | duplicate (hp : isIdentifier p = true) (h : p ∈ earlier) :
      FaultyPiece earlier p (.duplicateParameter p)

/-- What is wrong with the leftmost faulty piece: those before it are different identifiers. -/
def LeftmostFault (l : List Text) (reason : Malformation) : Prop :=
  ∃ earlier p later, l = earlier ++ p :: later ∧ (∀ q ∈ earlier, isIdentifier q = true) ∧
    earlier.Nodup ∧ FaultyPiece earlier p reason

theorem LeftmostFault.append {l : List Text} {reason : Malformation} (h : LeftmostFault l reason)
    (more : List Text) : LeftmostFault (l ++ more) reason := by
  obtain ⟨earlier, p, later, rfl, hearlier, hnodup, hp⟩ := h
  exact ⟨earlier, p, later ++ more, by simp, hearlier, hnodup, hp⟩

/-- Pieces are different identifiers, or one of them is the leftmost faulty one. -/
theorem nodup_or_exists_leftmostFault (l : List Text) :
    ((∀ p ∈ l, isIdentifier p = true) ∧ l.Nodup) ∨ ∃ reason, LeftmostFault l reason := by
  induction l using List.reverseRecOn with
  | nil => exact .inl ⟨List.forall_mem_nil _, List.nodup_nil⟩
  | append_singleton l p ih =>
    rcases ih with ⟨hl, hnodup⟩ | ⟨reason, hfault⟩
    · cases hp : isIdentifier p with
      | false => exact .inr ⟨_, l, p, [], rfl, hl, hnodup, .invalid hp⟩
      | true =>
        by_cases hmem : p ∈ l
        · exact .inr ⟨_, l, p, [], rfl, hl, hnodup, .duplicate hp hmem⟩
        · left
          rw [List.forall_mem_append, List.forall_mem_singleton, List.nodup_append']
          exact ⟨⟨hl, hp⟩, hnodup, List.nodup_singleton p, by simpa using hmem⟩
    · exact .inr ⟨reason, hfault.append [p]⟩

/-- Pieces are checked from the left, up to the first faulty one. -/
theorem LeftmostFault.checkParameters_eq {l : List Text} {reason : Malformation}
    (h : LeftmostFault l reason) : checkParameters [] l = .error reason := by
  obtain ⟨earlier, p, later, rfl, hearlier, hnodup, hp⟩ := h
  have happend := @checkParameters_append [] earlier hearlier hnodup (p :: later)
  rw [happend, List.nil_append, checkParameters]
  cases hp with
  | invalid hp => rw [hp]; rfl
  | duplicate hp hmem => rw [hp, if_neg (by decide), if_pos hmem]

/-- Pieces are refused exactly for the fault of the leftmost faulty one. -/
theorem checkParameters_eq_error_iff {l : List Text} {reason : Malformation} :
    checkParameters [] l = .error reason ↔ LeftmostFault l reason := by
  refine ⟨fun h => ?_, LeftmostFault.checkParameters_eq⟩
  rcases nodup_or_exists_leftmostFault l with ⟨hl, hnodup⟩ | ⟨reason', hfault⟩
  · rw [checkParameters_self hl hnodup] at h
    exact absurd h (by simp)
  · rw [hfault.checkParameters_eq] at h
    exact Except.error.inj h ▸ hfault

/-- Pieces are accepted exactly if they are different identifiers, and as they are. -/
theorem checkParameters_eq_ok_iff {l accepted : List Text} :
    checkParameters [] l = .ok accepted ↔
      accepted = l ∧ (∀ p ∈ l, isIdentifier p = true) ∧ l.Nodup := by
  constructor
  · intro h
    rcases nodup_or_exists_leftmostFault l with ⟨hl, hnodup⟩ | ⟨reason, hfault⟩
    · rw [checkParameters_self hl hnodup] at h
      exact ⟨(Except.ok.inj h).symm, hl, hnodup⟩
    · rw [checkParameters_eq_error_iff.2 hfault] at h
      exact absurd h (by simp)
  · rintro ⟨rfl, hl, hnodup⟩
    exact checkParameters_self hl hnodup

/-! ## The list on its line -/

/-- The parameters that the text between the parentheses declares, right or wrong: its pieces
between commas, white space at their ends aside. A single empty piece declares none. -/
def declaredPieces (list : Text) : List Text :=
  let pieces := (splitOn ',' list).map trim
  if pieces = [[]] then [] else pieces

/-- A list that is closed on its line is read as the pieces that it declares, if these can be
parameters. -/
theorem readParameters_append {list : Text} (hclose : ')' ∉ list) (hlf : '\n' ∉ list)
    (rest : Text) :
    readParameters (list ++ ')' :: rest) =
      (checkParameters [] (declaredPieces list)).map (·, rest) := by
  have hin : ∀ c ∈ list, (c != ')' && c != '\n') = true := by
    intro c hc
    rw [Bool.and_eq_true, bne_iff_ne, bne_iff_ne]
    exact ⟨fun h => hclose (h ▸ hc), fun h => hlf (h ▸ hc)⟩
  unfold readParameters declaredPieces
  dsimp only
  rw [List.dropWhile_append_of_pos hin, List.dropWhile_cons_of_neg (by decide),
    List.takeWhile_append_of_pos hin, List.takeWhile_cons_of_neg (by decide), List.append_nil]
  show (if (splitOn ',' list).map trim = [[]] then .ok ([], rest)
    else (checkParameters [] ((splitOn ',' list).map trim)).map (·, rest)) = _
  by_cases hempty : (splitOn ',' list).map trim = [[]]
  · rw [if_pos hempty, if_pos hempty]
    rfl
  · rw [if_neg hempty, if_neg hempty]

/-- A list is not closed on its line, or it ends at the first closing parenthesis. -/
theorem readParameters_cases (t : Text) :
    readParameters t = .error .unclosedParameterList ∨
      ∃ list rest, t = list ++ ')' :: rest ∧ ')' ∉ list ∧ '\n' ∉ list := by
  have hin : ∀ c ∈ t.takeWhile fun c => c != ')' && c != '\n', c ≠ ')' ∧ c ≠ '\n' := by
    intro c hc
    simpa using List.mem_takeWhile_imp hc
  unfold readParameters
  dsimp only
  split
  · next rest hclose =>
    refine .inr ⟨_, rest, ?_, fun hmem => (hin _ hmem).1 rfl, fun hmem => (hin _ hmem).2 rfl⟩
    rw [← hclose, List.takeWhile_append_dropWhile]
  · exact .inl rfl

theorem readParameters_of_not_mem {t : Text} (h : ')' ∉ t) :
    readParameters t = .error .unclosedParameterList := by
  refine (readParameters_cases t).resolve_right ?_
  rintro ⟨list, rest, rfl, -, -⟩
  exact h (List.mem_append_right list List.mem_cons_self)

/-- Parameters that are read are different identifiers, and the rest stands behind the list. -/
theorem readParameters_eq_ok {t rest : Text} {l : List Text}
    (h : readParameters t = .ok (l, rest)) :
    (∃ list, t = list ++ ')' :: rest) ∧ (∀ p ∈ l, isIdentifier p = true) ∧ l.Nodup := by
  rcases readParameters_cases t with hopen | ⟨list, rest', rfl, hclose, hlf⟩
  · rw [hopen] at h
    exact absurd h (by simp)
  · rw [readParameters_append hclose hlf] at h
    cases hcheck : checkParameters [] (declaredPieces list) with
    | error e =>
      rw [hcheck] at h
      exact absurd h (by simp [Except.map])
    | ok accepted =>
      rw [hcheck] at h
      obtain ⟨rfl, rfl⟩ := Prod.mk.inj (Except.ok.inj h)
      obtain ⟨rfl, hl, hnodup⟩ := checkParameters_eq_ok_iff.1 hcheck
      exact ⟨⟨list, rfl⟩, hl, hnodup⟩

/-! ## The signature -/

/-- There is no parameter list and nothing is taken off, or there is one and its parameters are
read. -/
theorem readSignature_eq_ok {t rest : Text} {parameters : Option (List Text)}
    (h : readSignature t = .ok (parameters, rest)) :
    (parameters = none ∧ rest = t) ∨
      ∃ s l, t = '(' :: s ∧ parameters = some l ∧ readParameters s = .ok (l, rest) := by
  unfold readSignature at h
  split at h
  · next s =>
    cases hread : readParameters s with
    | error e =>
      rw [hread] at h
      exact absurd h (by simp [Except.map])
    | ok r =>
      rw [hread] at h
      obtain ⟨rfl, rfl⟩ := Prod.mk.inj (Except.ok.inj h)
      exact .inr ⟨s, r.1, rfl, rfl, hread⟩
  · obtain ⟨rfl, rfl⟩ := Prod.mk.inj (Except.ok.inj h)
    exact .inl ⟨rfl, rfl⟩

theorem suffix_of_readSignature {t rest : Text} {parameters : Option (List Text)}
    (h : readSignature t = .ok (parameters, rest)) : rest <:+ t := by
  rcases readSignature_eq_ok h with ⟨-, rfl⟩ | ⟨s, l, rfl, -, hread⟩
  · exact List.suffix_rfl
  · obtain ⟨⟨list, rfl⟩, -⟩ := readParameters_eq_ok hread
    exact ⟨'(' :: (list ++ [')']), by simp⟩

theorem parameters_of_readSignature {t rest : Text} {parameters : Option (List Text)}
    (h : readSignature t = .ok (parameters, rest)) :
    ∀ l ∈ parameters, (∀ p ∈ l, isIdentifier p = true) ∧ l.Nodup := by
  intro l hl
  rcases readSignature_eq_ok h with ⟨rfl, -⟩ | ⟨s, l', -, rfl, hread⟩
  · exact absurd hl (by simp)
  · rw [← Option.mem_some_iff.1 hl]
    exact (readParameters_eq_ok hread).2

end FlatHeader
