/-!
# Condition variables

What `notify_one` and `notify_all` do to a table of threads. The threads' states are of any
type `φ`; `asleep` tells the ones blocked in `wait`, and `wake` is the state in which a woken
thread goes on (it takes the lock again and re-tests its predicate).

A notification reaches only the threads that sleep when it is sent; nothing is remembered.
-/

namespace MiniOj.Infra

variable {φ : Type} {asleep : φ → Bool} {wake : φ → φ}

/-- `notify_all`. -/
def notifyAll (asleep : φ → Bool) (wake : φ → φ) (threads : List φ) : List φ :=
  threads.map fun t => if asleep t then wake t else t

/-- `notify_one`: the thread the system picks is woken; nobody only when nobody sleeps. -/
def notifyOne (asleep : φ → Bool) (wake : φ → φ) (threads : List φ) :
    Option Nat → Option (List φ)
  | none => if threads.any asleep then none else some threads
  | some i =>
    match threads[i]? with
    | some t => if asleep t then some (threads.set i (wake t)) else none
    | none => none

theorem notifyOne_cases {threads threads' : List φ} {choice : Option Nat}
    (h : notifyOne asleep wake threads choice = some threads') :
    (threads' = threads ∧ ∀ t ∈ threads, asleep t = false) ∨
      ∃ (i : Nat) (t : φ), threads[i]? = some t ∧ asleep t = true ∧
        threads' = threads.set i (wake t) := by
  cases choice with
  | none =>
    simp only [notifyOne, Option.ite_none_left_eq_some, Option.some.injEq] at h
    obtain ⟨hany, rfl⟩ := h
    exact Or.inl ⟨rfl, by simpa using hany⟩
  | some i =>
    simp only [notifyOne] at h
    split at h
    · next t hi =>
      simp only [Option.ite_none_right_eq_some, Option.some.injEq] at h
      obtain ⟨ht, rfl⟩ := h
      exact Or.inr ⟨i, t, hi, ht, rfl⟩
    · simp at h

/-- After `notify_all` nobody sleeps. -/
theorem not_asleep_notifyAll (hw : ∀ t, asleep t = true → asleep (wake t) = false)
    {threads : List φ} {t : φ} (h : t ∈ notifyAll asleep wake threads) : asleep t = false := by
  obtain ⟨u, -, rfl⟩ := List.mem_map.mp h
  cases hu : asleep u with
  | true => rw [if_pos rfl]; exact hw u hu
  | false => rw [if_neg (by simp)]; exact hu

end MiniOj.Infra
