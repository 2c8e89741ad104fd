/-!
# Tables of objects

A growing collection of objects (calls in progress, leases, workers) is a list, and an
object's identity is its position: a new object is pushed at the end, an update is
`List.set`. Counting lemmas are stated additively, so that `omega` can use them.
-/

namespace MiniOj.Infra

variable {α : Type}

/-! ## Counting -/

/-- Replacing one entry moves its share of the count from the old value to the new one. -/
theorem countP_set_add (p : α → Bool) {a : α} (b : α) : ∀ {l : List α} {i : Nat}, l[i]? = some a →
    (l.set i b).countP p + (p a).toNat = l.countP p + (p b).toNat
  | [], _, h => by simp at h
  | x :: l, 0, h => by
    simp only [List.getElem?_cons_zero, Option.some.injEq] at h
    subst h
    simp only [List.set_cons_zero, List.countP_cons]
    cases p x <;> cases p b <;> simp
  | x :: l, i + 1, h => by
    have ih := countP_set_add p b (l := l) (i := i) (by simpa using h)
    simp only [List.set_cons_succ, List.countP_cons]
    omega

theorem countP_push (p : α → Bool) (l : List α) (a : α) :
    (l ++ [a]).countP p = l.countP p + (p a).toNat := by
  rw [List.countP_append, List.countP_singleton]
  cases p a <;> rfl

/-- An entry that counts makes the count positive. -/
theorem countP_pos_of_getElem? {p : α → Bool} {l : List α} {i : Nat} {a : α} (h : l[i]? = some a)
    (ha : p a = true) : 0 < l.countP p :=
  List.countP_pos_iff.mpr ⟨a, List.mem_of_getElem? h, ha⟩

/-- A positive count points at an entry. -/
theorem exists_getElem?_of_countP_pos {p : α → Bool} {l : List α} (h : 0 < l.countP p) :
    ∃ (i : Nat) (a : α), l[i]? = some a ∧ p a = true := by
  obtain ⟨a, ha, hp⟩ := List.countP_pos_iff.mp h
  obtain ⟨i, hi⟩ := List.getElem?_of_mem ha
  exact ⟨i, a, hi, hp⟩

end MiniOj.Infra
