/-!
# Descriptor tables

The descriptors of one process: the entry at position `n` is what number `n` refers to, and
positions past the end are free. A new descriptor gets the lowest free number.
-/

namespace MiniOj.Infra

/-- `α` is what a descriptor may refer to. -/
abbrev FdTable (α : Type) := List (Option α)

namespace FdTable

variable {α : Type}

/-- What a descriptor refers to; `none` when it is free. -/
def get : FdTable α → Nat → Option α
  | [], _ => none
  | x :: _, 0 => x
  | _ :: t, n + 1 => get t n

/-- A descriptor is opened or closed. -/
def put : FdTable α → Nat → Option α → FdTable α
  | [], 0, x => [x]
  | [], n + 1, x => none :: put [] n x
  | _ :: t, 0, x => x :: t
  | y :: t, n + 1, x => y :: put t n x

/-- The lowest free number. -/
def lowest : FdTable α → Nat
  | [] => 0
  | none :: _ => 0
  | some _ :: t => lowest t + 1

/-- `dup2`; nothing happens when `old` is free. -/
def dup2 (t : FdTable α) (old new : Nat) : FdTable α :=
  match t.get old with
  | some f => t.put new (some f)
  | none => t

/-- Some descriptor refers to it. -/
def Holds (t : FdTable α) (f : α) : Prop := ∃ n, t.get n = some f

@[simp] theorem get_nil (n : Nat) : get ([] : FdTable α) n = none := by
  cases n <;> rfl

@[simp] theorem get_put_self (t : FdTable α) (n : Nat) (x : Option α) : (t.put n x).get n = x := by
  induction n generalizing t with
  | zero => cases t <;> rfl
  | succ n ih => cases t <;> exact ih _

/-- The other descriptors are unchanged. -/
theorem get_put_ne (t : FdTable α) {n m : Nat} (x : Option α) (h : m ≠ n) :
    (t.put n x).get m = t.get m := by
  induction n generalizing t m with
  | zero =>
    cases m with
    | zero => exact absurd rfl h
    | succ m => cases t <;> simp [put, get]
  | succ n ih =>
    cases m with
    | zero => cases t <;> simp [put, get]
    | succ m =>
      have hm : m ≠ n := fun e => h (by rw [e])
      cases t with
      | nil => exact (ih [] hm).trans (by simp)
      | cons y t => exact ih t hm

/-- The lowest free descriptor is free. -/
@[simp] theorem get_lowest (t : FdTable α) : t.get t.lowest = none := by
  induction t with
  | nil => rfl
  | cons x t ih =>
    cases x with
    | none => rfl
    | some f => exact ih

theorem get_put_lowest {t : FdTable α} {n : Nat} {f g : α} :
    (t.put t.lowest (some g)).get n = some f ↔ (n = t.lowest ∧ f = g) ∨ t.get n = some f := by
  by_cases h : n = t.lowest
  · subst h
    rw [get_put_self, get_lowest]
    simp [eq_comm]
  · rw [get_put_ne t _ h]
    simp [h]

/-- After a close the others are left. -/
theorem get_put_none {t : FdTable α} {n m : Nat} {f : α} :
    (t.put n none).get m = some f ↔ m ≠ n ∧ t.get m = some f := by
  by_cases h : m = n
  · subst h
    simp
  · rw [get_put_ne t _ h]
    simp [h]

/-! ## What a table holds -/

@[simp] theorem not_holds_nil (f : α) : ¬ Holds [] f := by
  rintro ⟨n, hn⟩
  rw [get_nil] at hn
  cases hn

/-- After an open the table has one more. -/
theorem holds_put_lowest {t : FdTable α} {f g : α} :
    Holds (t.put t.lowest (some g)) f ↔ f = g ∨ t.Holds f := by
  constructor
  · rintro ⟨n, hn⟩
    rcases get_put_lowest.mp hn with ⟨-, h⟩ | h
    · exact Or.inl h
    · exact Or.inr ⟨n, h⟩
  · rintro (h | ⟨n, hn⟩)
    · exact ⟨t.lowest, get_put_lowest.mpr (Or.inl ⟨rfl, h⟩)⟩
    · exact ⟨n, get_put_lowest.mpr (Or.inr hn)⟩

theorem Holds.of_put_none {t : FdTable α} {n : Nat} {f : α} (h : Holds (t.put n none) f) :
    t.Holds f := by
  obtain ⟨m, hm⟩ := h
  exact ⟨m, (get_put_none.mp hm).2⟩

theorem Holds.of_dup2 {t : FdTable α} {old new : Nat} {f : α} (h : Holds (t.dup2 old new) f) :
    t.Holds f := by
  unfold dup2 at h
  split at h
  · next g hg =>
    obtain ⟨m, hm⟩ := h
    by_cases hmn : m = new
    · rw [hmn, get_put_self, Option.some.injEq] at hm
      exact ⟨old, hm ▸ hg⟩
    · rw [get_put_ne t _ hmn] at hm
      exact ⟨m, hm⟩
  · exact h

/-- Closing the only number of a file lets go of it. -/
theorem not_holds_put_none {t : FdTable α} {n : Nat} {f : α}
    (h : ∀ m, t.get m = some f → m = n) : ¬ Holds (t.put n none) f := by
  rintro ⟨m, hm⟩
  obtain ⟨hne, hm⟩ := get_put_none.mp hm
  exact hne (h m hm)

instance [DecidableEq α] (t : FdTable α) (f : α) : Decidable (Holds t f) :=
  decidable_of_iff (some f ∈ t) <| by
    induction t with
    | nil => simp
    | cons x t ih =>
      rw [List.mem_cons, ih]
      constructor
      · rintro (h | ⟨n, hn⟩)
        · exact ⟨0, h.symm⟩
        · exact ⟨n + 1, hn⟩
      · rintro ⟨n, hn⟩
        cases n with
        | zero => exact Or.inl hn.symm
        | succ n => exact Or.inr ⟨n, hn⟩

end FdTable

end MiniOj.Infra
