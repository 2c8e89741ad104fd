import Mathlib.Data.List.Nodup

/-!
# Keyed rows and joins

Rows with distinct keys, and rows that refer to them by key.

* `filter_key` — one row for each key
* `map_join`, `mem_join` — rows reached through references
* `select_join` — a join that keeps only the left side selects each row at most once
-/

namespace MiniOj.Infra

variable {α β κ : Type} [BEq κ] {f : α → κ} {g : β → κ} {l : List α} {links : List β}

/-- The rows that links refer to, in the order of the links. -/
def join (f : α → κ) (g : β → κ) (l : List α) (links : List β) : List α :=
  links.flatMap fun b => l.filter fun a => f a == g b

/-- A condition on the rows may be part of the join. -/
theorem filter_join (p : α → Bool) : (join f g l links).filter p =
    links.flatMap fun b => l.filter fun a => f a == g b && p a := by
  unfold join
  rw [List.filter_flatMap]
  refine List.flatMap_congr fun b _ => ?_
  rw [List.filter_filter]
  exact List.filter_congr fun a _ => Bool.and_comm _ _

variable [LawfulBEq κ]

theorem mem_join {a : α} : a ∈ join f g l links ↔ a ∈ l ∧ ∃ b ∈ links, g b = f a := by
  simp only [join, List.mem_flatMap, List.mem_filter, beq_iff_eq]
  constructor
  · rintro ⟨b, hb, ha, hk⟩
    exact ⟨ha, b, hb, hk.symm⟩
  · rintro ⟨ha, b, hb, hk⟩
    exact ⟨b, hb, ha, hk.symm⟩

/-- Among rows with different keys, one is alone with its key. -/
theorem filter_key (h : (l.map f).Nodup) {a : α} (ha : a ∈ l) :
    (l.filter fun x => f x == f a) = [a] := by
  induction l with
  | nil => cases ha
  | cons x l ih =>
    rw [List.map_cons, List.nodup_cons] at h
    obtain ⟨hx, hl⟩ := h
    rcases List.mem_cons.mp ha with rfl | ha
    · have hnone : (l.filter fun x => f x == f a) = [] := List.filter_eq_nil_iff.mpr
        fun y hy heq => hx (List.mem_map.mpr ⟨y, hy, eq_of_beq heq⟩)
      simp [hnone]
    · have hne : f x ≠ f a := fun heq => hx (List.mem_map.mpr ⟨a, ha, heq.symm⟩)
      simp only [List.filter_cons, beq_iff_eq, hne, if_false, ih hl ha]

/-- With different keys there is one row with a key, or none. -/
theorem length_filter_key (h : (l.map f).Nodup) (k : κ) :
    (l.filter fun x => f x == k).length = (l.any fun x => f x == k).toNat := by
  cases hany : l.any fun x => f x == k with
  | false =>
    rw [List.any_eq_false] at hany
    rw [List.filter_eq_nil_iff.mpr hany]
    rfl
  | true =>
    obtain ⟨a, ha, hk⟩ := List.any_eq_true.mp hany
    rw [← eq_of_beq hk, filter_key h ha]
    rfl

/-- Every link refers to one row. -/
theorem map_join (h : (l.map f).Nodup) (hrefs : ∀ b ∈ links, ∃ a ∈ l, f a = g b) :
    (join f g l links).map f = links.map g := by
  unfold join
  induction links with
  | nil => rfl
  | cons b links ih =>
    obtain ⟨⟨a, ha, hk⟩, hrest⟩ := List.forall_mem_cons.mp hrefs
    rw [List.flatMap_cons, List.map_append, ih hrest, ← hk, filter_key h ha, List.map_cons, hk]
    rfl

/-- **A selecting join**: when each left row meets at most one right row, the join keeps the left
rows that meet one. -/
theorem select_join {γ : Type} {xs : List γ} (met : γ → List α) {p : γ → Bool}
    (h : ∀ x ∈ xs, (met x).length = (p x).toNat) :
    (xs.flatMap fun x => (met x).map fun _ => x) = xs.filter p := by
  induction xs with
  | nil => rfl
  | cons x xs ih =>
    obtain ⟨hx, hxs⟩ := List.forall_mem_cons.mp h
    rw [List.flatMap_cons, ih hxs, List.map_const', hx, List.filter_cons]
    cases p x <;> rfl

end MiniOj.Infra
