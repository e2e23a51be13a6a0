import FlatHeader.Text.Basic
import Mathlib.Tactic

/-!
# Byte offsets

A position that is shown to a reader is the number of bytes before it. `splitAtByte?` finds such a
position again: it cuts a text behind a number of bytes, unless the cut would go through a
character. So `splitAtByte? n t` is something exactly if `n` is the offset of a character border of
`t`, and `between?` gives what stands between two borders.
-/

namespace FlatHeader.Text

@[simp]
theorem byteSize_nil : byteSize [] = 0 := rfl

@[simp]
theorem byteSize_cons (c : Char) (t : Text) : byteSize (c :: t) = c.utf8Size + byteSize t := rfl

@[simp]
theorem byteSize_append (a b : Text) : byteSize (a ++ b) = byteSize a + byteSize b := by
  induction a with
  | nil => rw [List.nil_append, byteSize_nil, Nat.zero_add]
  | cons c a ih => rw [List.cons_append, byteSize_cons, byteSize_cons, ih, Nat.add_assoc]

theorem byteSize_append_concat (a b : Text) (c : Char) :
    byteSize (a ++ (b ++ [c])) = byteSize (a ++ b) + c.utf8Size := by
  simp only [byteSize_append, byteSize_cons, byteSize_nil, Nat.add_zero, Nat.add_assoc]

@[simp]
theorem byteSize_reverse (t : Text) : byteSize t.reverse = byteSize t := by
  induction t with
  | nil => rfl
  | cons c t ih =>
    rw [List.reverse_cons, byteSize_append, ih, byteSize_cons, byteSize_cons, byteSize_nil,
      Nat.add_zero, Nat.add_comm]

/-- The size of a text is that of its UTF-8 encoding. -/
theorem byteSize_eq_utf8ByteSize (t : Text) : byteSize t = (String.ofList t).utf8ByteSize := by
  induction t with
  | nil => rfl
  | cons c t ih => rw [byteSize_cons, ih, String.ofList_cons, String.utf8ByteSize_append,
      String.utf8ByteSize_singleton]

/-- A text cut behind its first `n` bytes, or nothing if it has fewer or the cut is within a
character. -/
def splitAtByte? : ℕ → Text → Option (Text × Text)
  | 0, t => some ([], t)
  | _ + 1, [] => none
  | n + 1, c :: t =>
    if c.utf8Size ≤ n + 1 then
      (splitAtByte? (n + 1 - c.utf8Size) t).map fun (front, rest) => (c :: front, rest)
    else none

/-- Every character has a byte. -/
@[simp]
theorem byteSize_eq_zero_iff {t : Text} : byteSize t = 0 ↔ t = [] := by
  cases t with
  | nil => simp
  | cons c t =>
    have hpos := c.utf8Size_pos
    simp only [byteSize_cons, reduceCtorEq, iff_false]
    omega

/-- The cut is at the character border that has so many bytes before it. -/
theorem splitAtByte?_eq_some_iff {n : ℕ} {t front rest : Text} :
    splitAtByte? n t = some (front, rest) ↔ t = front ++ rest ∧ byteSize front = n := by
  induction t generalizing n front with
  | nil =>
    cases n with
    | zero =>
      rw [splitAtByte?, Option.some.injEq, Prod.mk.injEq, byteSize_eq_zero_iff, eq_comm (a := []),
        eq_comm (a := []), eq_comm (a := []), List.append_eq_nil_iff]
      exact ⟨fun h => ⟨h, h.1⟩, fun h => h.1⟩
    | succ n =>
      simp only [splitAtByte?, reduceCtorEq, false_iff, not_and]
      intro hnil
      rw [(List.append_eq_nil_iff.1 hnil.symm).1, byteSize_nil]
      exact (Nat.succ_ne_zero n).symm
  | cons c t ih =>
    cases n with
    | zero =>
      rw [splitAtByte?, Option.some.injEq, Prod.mk.injEq, byteSize_eq_zero_iff]
      constructor
      · rintro ⟨rfl, rfl⟩
        exact ⟨rfl, rfl⟩
      · rintro ⟨ht, rfl⟩
        exact ⟨rfl, ht⟩
    | succ n =>
      have hpos := c.utf8Size_pos
      cases front with
      | nil =>
        simp only [splitAtByte?, byteSize_nil]
        split <;> simp
      | cons d front =>
        rw [splitAtByte?, List.cons_append, List.cons.injEq, byteSize_cons]
        by_cases hle : c.utf8Size ≤ n + 1
        · rw [if_pos hle, Option.map_eq_some_iff]
          constructor
          · rintro ⟨⟨a, b⟩, hsplit, heq⟩
            obtain ⟨hcons, rfl⟩ := Prod.mk.inj heq
            obtain ⟨rfl, rfl⟩ := List.cons.inj hcons
            obtain ⟨ht, hsize⟩ := ih.1 hsplit
            exact ⟨⟨rfl, ht⟩, by omega⟩
          · rintro ⟨⟨rfl, ht⟩, hsize⟩
            exact ⟨(front, rest), ih.2 ⟨ht, by omega⟩, rfl⟩
        · rw [if_neg hle]
          simp only [reduceCtorEq, false_iff, not_and]
          rintro ⟨rfl, -⟩
          omega

theorem splitAtByte?_append (a b : Text) : splitAtByte? (byteSize a) (a ++ b) = some (a, b) :=
  splitAtByte?_eq_some_iff.2 ⟨rfl, rfl⟩

/-- What stands between two byte offsets, if both are at character borders. -/
def between? (t : Text) (start stop : ℕ) : Option Text :=
  (splitAtByte? stop t).bind fun (front, _) => (splitAtByte? start front).map Prod.snd

/-- A stretch of a text stands between the offsets at which it starts and ends. -/
theorem between?_append (a b c : Text) :
    between? (a ++ (b ++ c)) (byteSize a) (byteSize a + byteSize b) = some b := by
  unfold between?
  rw [← byteSize_append, ← List.append_assoc, splitAtByte?_append, Option.bind_some]
  dsimp only
  rw [splitAtByte?_append, Option.map_some]

end FlatHeader.Text
