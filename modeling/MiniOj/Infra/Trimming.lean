import Mathlib.Data.List.DropRight

/-!
# Cutting blanks off

What is left of a list when the elements of a class are cut off its end, or off both ends.
-/

namespace MiniOj.Infra

variable {α : Type} {p : α → Bool} {l w : List α}

/-! ## At the end -/

/-- Blanks at the end do not count. -/
theorem rdropWhile_append (h : ∀ x ∈ w, p x = true) : (l ++ w).rdropWhile p = l.rdropWhile p := by
  have hw : ∀ x ∈ w.reverse, p x = true := by simpa using h
  simp only [List.rdropWhile, List.reverse_append, List.dropWhile_append_of_pos hw]

theorem exists_append_rdropWhile (p : α → Bool) (l : List α) :
    ∃ w, (∀ x ∈ w, p x = true) ∧ l = l.rdropWhile p ++ w :=
  ⟨l.rtakeWhile p, fun _ => List.mem_rtakeWhile_imp, List.rdropWhile_append_rtakeWhile.symm⟩

/-- Two lists are cut down to the same one exactly when they are one list with blanks after it. -/
theorem rdropWhile_eq_iff {e a : List α} : e.rdropWhile p = a.rdropWhile p ↔
    ∃ l w₁ w₂, (∀ x ∈ w₁, p x = true) ∧ (∀ x ∈ w₂, p x = true) ∧ e = l ++ w₁ ∧ a = l ++ w₂ := by
  constructor
  · intro h
    obtain ⟨w₁, hw₁, he⟩ := exists_append_rdropWhile p e
    obtain ⟨w₂, hw₂, ha⟩ := exists_append_rdropWhile p a
    exact ⟨e.rdropWhile p, w₁, w₂, hw₁, hw₂, he, h ▸ ha⟩
  · rintro ⟨l, w₁, w₂, hw₁, hw₂, rfl, rfl⟩
    rw [rdropWhile_append hw₁, rdropWhile_append hw₂]

theorem getElem?_of_rdropWhile {x : α} {i : Nat} (h : (l.rdropWhile p)[i]? = some x) :
    l[i]? = some x := by
  obtain ⟨hi, -⟩ := List.getElem?_eq_some_iff.mp h
  obtain ⟨w, -, hl⟩ := exists_append_rdropWhile p l
  rw [hl, List.getElem?_append_left hi, h]

/-- Nothing is lost up to an element that is not a blank. -/
theorem getElem?_rdropWhile {x : α} {i j : Nat} (hx : l[j]? = some x) (hp : p x = false)
    (hij : i ≤ j) : (l.rdropWhile p)[i]? = l[i]? := by
  obtain ⟨w, hw, hl⟩ := exists_append_rdropWhile p l
  have hj : j < (l.rdropWhile p).length := by
    by_contra hlen
    rw [hl, List.getElem?_append_right (Nat.le_of_not_lt hlen)] at hx
    exact Bool.noConfusion ((hw x (List.mem_of_getElem? hx)).symm.trans hp)
  conv_rhs => rw [hl]
  exact (List.getElem?_append_left (Nat.lt_of_le_of_lt hij hj)).symm

/-- An element that is not a blank keeps its place at the front. -/
theorem rdropWhile_cons_of_neg {x : α} (h : p x = false) :
    (x :: l).rdropWhile p = x :: l.rdropWhile p := by
  unfold List.rdropWhile
  rw [List.reverse_cons, List.dropWhile_append]
  split
  · next hnil =>
    rw [List.isEmpty_iff.mp hnil, List.dropWhile_cons_of_neg (by rw [h]; exact Bool.false_ne_true)]
    rfl
  · rw [List.reverse_append]
    rfl

/-! ## At both ends -/

def trim (p : α → Bool) (l : List α) : List α := (l.dropWhile p).rdropWhile p

/-- A list that begins and ends without a blank, or is empty. -/
theorem trim_eq_self (hhead : ∀ x, l.head? = some x → p x = false)
    (hlast : ∀ x, l.getLast? = some x → p x = false) : trim p l = l := by
  have hdrop : l.dropWhile p = l := by
    cases l with
    | nil => rfl
    | cons x l => exact List.dropWhile_cons_of_neg (by rw [hhead x rfl]; exact Bool.false_ne_true)
  unfold trim
  rw [hdrop, List.rdropWhile_eq_self_iff]
  intro hne
  rw [hlast _ (List.getLast?_eq_some_getLast hne)]
  exact Bool.false_ne_true

/-- Blanks around a list do not count. -/
theorem trim_append {w₁ w₂ : List α} (h₁ : ∀ x ∈ w₁, p x = true) (h₂ : ∀ x ∈ w₂, p x = true) :
    trim p (w₁ ++ l ++ w₂) = trim p l := by
  unfold trim
  rw [List.append_assoc, List.dropWhile_append_of_pos h₁, List.dropWhile_append]
  split
  · next hall =>
    have hl : l.dropWhile p = [] := List.isEmpty_iff.mp hall
    have hw : w₂.dropWhile p = [] := List.dropWhile_eq_nil_iff.mpr h₂
    rw [hl, hw]
  · exact rdropWhile_append h₂

theorem trim_eq_nil (h : ∀ x ∈ l, p x = true) : trim p l = [] := by
  unfold trim
  rw [List.dropWhile_eq_nil_iff.mpr h, List.rdropWhile_nil]

end MiniOj.Infra
