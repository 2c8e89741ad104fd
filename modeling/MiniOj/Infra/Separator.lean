import Mathlib.Data.List.TakeWhile

/-!
# Lists up to a separator

What stands before the first occurrence of an element, which is how a text is cut at a comma, a
semicolon or a NUL. The rest after the separator is `(l.dropWhile (· != a)).drop 1`.
-/

namespace MiniOj.Infra

variable {α : Type} {l : List α}

theorem take_length_takeWhile (p : α → Bool) (l : List α) :
    l.take (l.takeWhile p).length = l.takeWhile p := by
  have h := @List.take_left _ (l.takeWhile p) (l.dropWhile p)
  rwa [List.takeWhile_append_dropWhile] at h

theorem drop_length_takeWhile (p : α → Bool) (l : List α) :
    l.drop (l.takeWhile p).length = l.dropWhile p := by
  have h := @List.drop_left _ (l.takeWhile p) (l.dropWhile p)
  rwa [List.takeWhile_append_dropWhile] at h

variable [BEq α] [LawfulBEq α] {a : α}

theorem notMem_takeWhile_ne (l : List α) (a : α) : a ∉ l.takeWhile (· != a) := by
  intro h
  have hne := List.mem_takeWhile_imp h
  rw [bne_self_eq_false] at hne
  cases hne

theorem ne_of_notMem (h : a ∉ l) : ∀ b ∈ l, (b != a) = true := fun _ hb =>
  bne_iff_ne.mpr fun heq => h (heq ▸ hb)

theorem takeWhile_ne_eq_self (h : a ∉ l) : l.takeWhile (· != a) = l :=
  List.takeWhile_eq_self_iff.mpr (ne_of_notMem h)

/-- What comes after a separator does not count. -/
theorem takeWhile_ne_append (a : α) (rest : List α) : ∀ l : List α,
    (l ++ a :: rest).takeWhile (· != a) = l.takeWhile (· != a)
  | [] => List.takeWhile_cons_of_neg (by simp)
  | b :: l => by
    rw [List.cons_append, List.takeWhile_cons, List.takeWhile_cons, takeWhile_ne_append a rest l]

/-- At its first separator a list falls into what stands before and after it. -/
theorem eq_takeWhile_ne_append (h : a ∈ l) :
    l = l.takeWhile (· != a) ++ a :: (l.dropWhile (· != a)).drop 1 := by
  induction l with
  | nil => cases h
  | cons b l ih =>
    rw [List.takeWhile_cons, List.dropWhile_cons]
    split
    · next hb =>
      have hmem : a ∈ l := (List.mem_cons.mp h).resolve_left (Ne.symm (bne_iff_ne.mp hb))
      rw [List.cons_append, ← ih hmem]
    · next hb =>
      have heq : b = a := by simpa using hb
      rw [List.nil_append, List.drop_one, List.tail_cons, heq]

/-- The position of a separator is the length of what stands before it. -/
theorem idxOf?_eq_length_takeWhile (l : List α) (a : α) :
    l.idxOf? a = if a ∈ l then some (l.takeWhile (· != a)).length else none := by
  induction l with
  | nil => rfl
  | cons b l ih =>
    rw [List.idxOf?_cons, ih, List.takeWhile_cons]
    by_cases hb : b = a
    · simp [hb]
    · simp only [beq_iff_eq, hb, if_false, bne_iff_ne, ne_eq, not_false_eq_true, if_true,
        List.mem_cons, Ne.symm hb, false_or, List.length_cons]
      split <;> rfl

end MiniOj.Infra
