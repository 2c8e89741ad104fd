import Mathlib.Data.List.Forall2
import Mathlib.Data.List.Sort

/-!
# Sorting related lists

`List.insertionSort` is stable and compares nothing but keys, so it commutes with `filter` and
takes lists related element by element to such lists.
-/

namespace MiniOj.Infra

variable {α β : Type} {r : α → α → Prop} [DecidableRel r] {s : β → β → Prop} [DecidableRel s]
  {R : α → β → Prop}

theorem forall₂_orderedInsert (h : ∀ a b a' b', R a b → R a' b' → (r a a' ↔ s b b')) {a : α}
    {b : β} (hab : R a b) {as : List α} {bs : List β} (hl : List.Forall₂ R as bs) :
    List.Forall₂ R (as.orderedInsert r a) (bs.orderedInsert s b) := by
  induction hl with
  | nil => exact .cons hab .nil
  | cons hxy hl ih =>
    simp only [List.orderedInsert_cons, h a b _ _ hab hxy]
    split
    · exact .cons hab (.cons hxy hl)
    · exact .cons hxy ih

theorem forall₂_insertionSort (h : ∀ a b a' b', R a b → R a' b' → (r a a' ↔ s b b'))
    {as : List α} {bs : List β} (hl : List.Forall₂ R as bs) :
    List.Forall₂ R (as.insertionSort r) (bs.insertionSort s) := by
  induction hl with
  | nil => exact .nil
  | cons hab _ ih => exact forall₂_orderedInsert h hab ih

theorem filter_orderedInsert [IsTrans α r] (p : α → Bool) (a : α) {l : List α}
    (hl : l.Pairwise r) : (l.orderedInsert r a).filter p =
      if p a then (l.filter p).orderedInsert r a else l.filter p := by
  induction l with
  | nil => cases hp : p a <;> simp [hp]
  | cons b l ih =>
    obtain ⟨hb, hl⟩ := List.pairwise_cons.mp hl
    simp only [List.orderedInsert_cons]
    split
    · next hab =>
      -- everything that is kept is above `a`
      have hle : ∀ c ∈ (b :: l).filter p, r a c := by
        intro c hc
        rcases List.mem_cons.mp (List.mem_filter.mp hc).1 with rfl | hc
        · exact hab
        · exact IsTrans.trans _ _ _ hab (hb c hc)
      cases hp : p a with
      | false => simp [List.filter_cons, hp]
      | true =>
        rw [List.filter_cons_of_pos hp, if_pos rfl]
        generalize (b :: l).filter p = kept at hle
        cases kept with
        | nil => rfl
        | cons c kept => rw [List.orderedInsert_cons_of_le _ _ (hle c List.mem_cons_self)]
    · next hab =>
      rw [List.filter_cons, List.filter_cons, ih hl]
      cases hp : p b <;> cases hq : p a <;> simp [hab]

/-- **Sorting commutes with `filter`.** -/
theorem filter_insertionSort [IsTrans α r] [Std.Total r] (p : α → Bool) (l : List α) :
    (l.insertionSort r).filter p = (l.filter p).insertionSort r := by
  induction l with
  | nil => rfl
  | cons a l ih =>
    rw [List.insertionSort_cons, filter_orderedInsert p a (List.pairwise_insertionSort r l), ih,
      List.filter_cons]
    split <;> rfl

end MiniOj.Infra
