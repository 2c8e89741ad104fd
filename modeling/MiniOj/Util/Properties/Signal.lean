import MiniOj.Util.Signal

/-!
# Lost shutdown signals

Between the test of the predicate and the sleep of the main thread a notification wakes
nobody. A signal is lost when the last notification falls there.

* `signal_not_lost` — it never is in a run whose last notifications come at other moments
* `lost_of_late_notify` — and it always is one step later otherwise
* `signal_lost` — such a run
-/

namespace MiniOj.Util

open Infra

variable {s s' : Signals}

/-- What one step of a handler does. -/
theorem Signals.step_handler {i : Nat} (h : s.step (.handler i) = some s') :
    ∃ thread, s.isLast i thread = true ∧
      (s.handlers[i]? = some (thread, .store) ∧
          s' = { s with stopping := true, handlers := s.handlers.set i (thread, .notifyAll) } ∨
        s.handlers[i]? = some (thread, .notifyAll) ∧
          s' = { s with waiter := s.waiter.notified, handlers := s.handlers.eraseIdx i }) := by
  simp only [Signals.step] at h
  split at h
  · next thread handler hi =>
    split at h
    · next hlast =>
      refine ⟨thread, hlast, ?_⟩
      cases handler with
      | store => exact .inl ⟨hi, (Option.some.inj h).symm⟩
      | notifyAll => exact .inr ⟨hi, (Option.some.inj h).symm⟩
    · cases h
  · cases h

/-- The action is the notification of the only handler that runs, while the main thread is
between its test and its sleep. -/
def LateNotify (s : Signals) : SignalAction → Prop
  | .handler _ => s.waiter = .refused ∧ ∃ thread, s.handlers = [(thread, .notifyAll)]
  | _ => False

/-- While shutdown is asked for and the main thread is not awake, a notification is still to
come. -/
def Signals.Pending (s : Signals) : Prop :=
  s.stopping = true → s.waiter = .refused ∨ s.waiter = .asleep → s.handlers ≠ []

theorem Signals.Pending.main (hI : s.Pending) (h : s.step .main = some s') : s'.Pending := by
  simp only [Signals.step, Option.ite_none_left_eq_some, Option.map_eq_some_iff] at h
  obtain ⟨-, waiter, hnext, rfl⟩ := h
  intro hstopping hwaiter
  have hstop : s.stopping = true := hstopping
  cases hw : s.waiter with
  | unlocked =>
    rw [hw] at hnext
    cases hnext
    simp at hwaiter
  | testing =>
    rw [hw, hstop] at hnext
    cases hnext
    simp at hwaiter
  | refused => exact hI hstop (.inl hw)
  | asleep =>
    rw [hw] at hnext
    cases hnext
  | past =>
    rw [hw] at hnext
    cases hnext

theorem Signals.Pending.of_handler {i : Nat} (hok : ¬ LateNotify s (.handler i))
    (h : s.step (.handler i) = some s') : s'.Pending := by
  obtain ⟨thread, -, ⟨hi, rfl⟩ | ⟨hi, rfl⟩⟩ := Signals.step_handler h
  · intro _ _ hnil
    have hset : s.handlers.set i (thread, .notifyAll) = [] := hnil
    rw [List.set_eq_nil_iff] at hset
    simp [hset] at hi
  · intro hstopping hwaiter hnil
    have hnotified : s.waiter.notified = .refused ∨ s.waiter.notified = .asleep := hwaiter
    have hrefused : s.waiter = .refused := by
      revert hnotified
      cases s.waiter <;> decide
    have herase : s.handlers.eraseIdx i = [] := hnil
    obtain ⟨hlt, hget⟩ := List.getElem?_eq_some_iff.mp hi
    have hlength := List.length_eraseIdx_of_lt hlt
    rw [herase, List.length_nil] at hlength
    obtain ⟨x, hx⟩ := List.length_eq_one_iff.mp (show s.handlers.length = 1 by omega)
    refine hok ⟨hrefused, thread, ?_⟩
    simp only [hx, List.getElem_singleton] at hget
    rw [hx, hget]

theorem Signals.Pending.step {a : SignalAction} (hI : s.Pending) (hok : ¬ LateNotify s a)
    (h : s.step a = some s') : s'.Pending := by
  cases a with
  | main => exact hI.main h
  | spurious =>
    simp only [Signals.step, Option.ite_none_right_eq_some, Option.some.injEq] at h
    obtain ⟨-, rfl⟩ := h
    intro _ hwaiter
    simp at hwaiter
  | deliver thread =>
    simp only [Signals.step, Option.some.injEq] at h
    subst h
    intro _ _
    simp
  | handler i => exact .of_handler hok h

/-- **A shutdown signal is not lost** in a run in which no last notification comes between the
test of the predicate and the sleep of the main thread. -/
theorem signal_not_lost
    (h : ReachableWhen Signals.step (· = .start) (fun s a => ¬ LateNotify s a) s) : ¬ s.Lost := by
  have hI : s.Pending := by
    refine h.invariant (I := Signals.Pending) ?_ fun s a s' hI hok hs => hI.step hok hs
    rintro s rfl hstopping
    cases hstopping
  rintro ⟨hstopping, hwaiter, hhandlers⟩
  exact hI hstopping (.inr hwaiter) hhandlers

/-- SIGTERM arrives on another thread while the main thread sleeps. -/
theorem signal_not_lost_asleep :
    ∃ s, ReachableWhen Signals.step (· = .start) (fun s a => ¬ LateNotify s a) s ∧
      s.stopping = true ∧ ¬ s.Lost := by
  have hrun : ∃ s, ReachableWhen Signals.step (· = .start) (fun s a => ¬ LateNotify s a) s ∧
      s.stopping = true := exists_reachableWhen_of_run Signals.step
    (fun s _ => s.waiter ≠ .refused || s.handlers = [])
    (by
      rintro s (_ | _ | _ | i) hcheck hlate
      · exact hlate
      · exact hlate
      · exact hlate
      · obtain ⟨hrefused, thread, hone⟩ := hlate
        simp [hrefused, hone] at hcheck)
    [.main, .main, .main, .deliver 1, .handler 0, .handler 0, .main] Signals.stopping rfl
    (by decide)
  obtain ⟨s, hs, hstopping⟩ := hrun
  exact ⟨s, hs, hstopping, signal_not_lost hs⟩

/-- Only a handler that has set `stopping_` is about to notify. -/
theorem stopping_of_notifyAll (h : Reachable Signals.step (· = .start) s) {thread : ThreadId}
    (hmem : (thread, .notifyAll) ∈ s.handlers) : s.stopping = true := by
  refine h.invariant (I := fun s => ∀ thread, (thread, .notifyAll) ∈ s.handlers →
    s.stopping = true) ?_ (fun s a s' hI _ hs => ?_) thread hmem
  · rintro s rfl thread hmem
    cases hmem
  cases a with
  | main =>
    simp only [Signals.step, Option.ite_none_left_eq_some, Option.map_eq_some_iff] at hs
    obtain ⟨-, waiter, -, rfl⟩ := hs
    exact hI
  | spurious =>
    simp only [Signals.step, Option.ite_none_right_eq_some, Option.some.injEq] at hs
    obtain ⟨-, rfl⟩ := hs
    exact hI
  | deliver t =>
    simp only [Signals.step, Option.some.injEq] at hs
    subst hs
    intro thread hmem
    simp only [List.mem_append, List.mem_singleton, Prod.mk.injEq, reduceCtorEq, and_false,
      or_false] at hmem
    exact hI thread hmem
  | handler i =>
    obtain ⟨t, -, ⟨hi, rfl⟩ | ⟨hi, rfl⟩⟩ := Signals.step_handler hs
    · exact fun _ _ => rfl
    · exact fun thread hmem => hI thread (List.mem_of_mem_eraseIdx hmem)

/-- **A last notification before the sleep loses the signal**: the next step of the main thread
is to sleep. -/
theorem lost_of_late_notify {a : SignalAction} (hs : Reachable Signals.step (· = .start) s)
    (hlate : LateNotify s a) (h : s.step a = some s') : ∃ t, s'.step .main = some t ∧ t.Lost := by
  cases a with
  | handler i =>
    obtain ⟨hrefused, _, hone⟩ := hlate
    obtain ⟨thread, -, ⟨hi, rfl⟩ | ⟨hi, rfl⟩⟩ := Signals.step_handler h
    · have hmem := List.mem_of_getElem? hi
      rw [hone, List.mem_singleton] at hmem
      cases hmem
    have hstopping := stopping_of_notifyAll hs (List.mem_of_getElem? hi)
    have hlt := (List.getElem?_eq_some_iff.mp hi).1
    have hnil : s.handlers.eraseIdx i = [] := by
      rw [← List.length_eq_zero_iff, List.length_eraseIdx_of_lt hlt, hone, List.length_singleton]
    refine ⟨{ s with waiter := .asleep, handlers := [] }, ?_, hstopping, rfl, rfl⟩
    simp [Signals.step, Signals.suspended, Waiter.next, Waiter.notified, Waiter.isAsleep, hnil,
      hrefused]
  | main => exact hlate.elim
  | spurious => exact hlate.elim
  | deliver thread => exact hlate.elim

/-- SIGTERM arrives on another thread right after the main thread has found the predicate
false; the main thread sleeps through it. -/
theorem signal_lost : ¬ ∀ s, Reachable Signals.step (· = .start) s → ¬ s.Lost := by
  intro h
  have hrun : ∃ s, Reachable Signals.step (· = .start) s ∧ decide s.Lost = true :=
    exists_reachable_of_run Signals.step [.main, .main, .deliver 1, .handler 0, .handler 0, .main]
      _ rfl (by decide)
  obtain ⟨s, hs, hlost⟩ := hrun
  exact h s hs (of_decide_eq_true hlost)

end MiniOj.Util
