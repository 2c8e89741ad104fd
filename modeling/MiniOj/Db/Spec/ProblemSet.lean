import Mathlib.Logic.Function.Basic
import MiniOj.Db.Properties.RoundTrip

/-!
# The problem set

What the problem bank is for, without tables: complete problems by id.

* `detail_deleteProblems` — deleting rows of problems takes these problems from the set and leaves
  the others as they are
-/

namespace MiniOj.Db

open Infra

/-- The complete problems by id. -/
abbrev ProblemSet := Nat → Option AdminProblemDetail

/-- The rows as problems. -/
def Bank.problemSet (weight : Bytes → Bytes) (b : Bank) : ProblemSet := b.detail weight

variable {weight : Bytes → Bytes} {b : Bank} {problemId : Nat}

theorem detail_eq_none_iff {id : Nat} :
    b.problemSet weight id = none ↔ ∀ p ∈ b.problems, p.id ≠ id := by
  unfold Bank.problemSet Bank.detail Bank.problem?
  rw [Option.map_eq_none_iff, List.find?_eq_none]
  simp only [beq_iff_eq, ne_eq]

/-! ## Deleting -/

/-- The rows that refer to a problem that stays do not go. -/
theorem cascades_eq_false {gone : Nat → Bool} {id : Nat} (hid : gone id = false) :
    (b.problems.any fun p => gone p.id && p.id == id) = false := by
  rw [List.any_eq_false]
  rintro p - hp
  rw [Bool.and_eq_true, beq_iff_eq] at hp
  rw [hp.2, hid] at hp
  cases hp.1

/-- The rows of a problem that stays, after those of others have gone. -/
theorem filter_staying {α : Type} {f : α → Nat} {l : List α} {gone : Nat → Bool} {id : Nat}
    (hid : gone id = false) :
    ((l.filter fun a => !b.problems.any fun p => gone p.id && p.id == f a).filter
      fun a => f a == id) = l.filter fun a => f a == id := by
  rw [List.filter_filter]
  refine List.filter_congr fun a _ => ?_
  by_cases ha : f a = id
  · rw [ha, cascades_eq_false hid, Bool.not_false, Bool.and_true]
  · rw [beq_eq_false_iff_ne.mpr ha, Bool.false_and]

theorem detail_deleteProblems (gone : Nat → Bool) (id : Nat) :
    (b.deleteProblems fun p => gone p.id).problemSet weight id =
      if gone id then none else b.problemSet weight id := by
  cases hid : gone id with
  | true =>
    rw [if_pos rfl, detail_eq_none_iff]
    rintro p hp rfl
    have hkept : (!gone p.id) = true := (List.mem_filter.mp hp).2
    rw [hid] at hkept
    cases hkept
  | false =>
    rw [if_neg Bool.false_ne_true]
    refine detail_congr ?_ ?_ ?_
    · show (b.problems.filter _).find? _ = b.problems.find? _
      rw [List.find?_filter]
      refine congrArg (List.find? · b.problems) (funext fun p => ?_)
      by_cases hp : p.id = id
      · simp [hp, hid]
      · simp [hp]
    · show List.insertionSort _ (List.flatMap _ (List.filter _ (List.filter _ _))) = _
      rw [filter_staying hid]
      rfl
    · show List.insertionSort _ (List.filter _ (List.filter _ _)) = _
      rw [filter_staying hid]
      rfl

/-- **Deleting the row of a problem** takes this problem from the set, and no other. -/
theorem problemSet_deleteProblem (b : Bank) (problemId : Nat) :
    (b.deleteProblems fun p => p.id == problemId).problemSet weight =
      Function.update (b.problemSet weight) problemId none := by
  funext id
  rw [detail_deleteProblems (· == problemId)]
  by_cases hid : id = problemId
  · rw [hid, beq_self_eq_true, if_pos rfl, Function.update_self]
  · rw [beq_eq_false_iff_ne.mpr hid, if_neg Bool.false_ne_true, Function.update_of_ne hid]

end MiniOj.Db
