import MiniOj.Infra.Transition

/-!
# Waiting for a shutdown signal

`SignalGuard::waitForShutdown` and the signal handler `onSignal` (`util/signal.hpp`,
`util/signal.cpp`). The handler sets `stopping_` and then notifies, without `g_mutex`. It runs
on whatever thread the system picks and suspends that thread until it returns; further signals
may arrive on any thread meanwhile, also on the one that runs a handler.

Only the main thread takes `g_mutex`, so it never waits for it. Registering the handler again,
its last statement, changes nothing.
-/

namespace MiniOj.Util

open Infra

/-- A thread of the process. -/
abbrev ThreadId := Nat

/-- The one that waits. -/
def mainThread : ThreadId := 0

/-- Where the main thread is in `waitForShutdown`. -/
inductive Waiter where
  /-- before the lock of `g_mutex`, at the start or woken inside `g_cv.wait` -/
  | unlocked
  /-- holds the lock, about to test the predicate -/
  | testing
  /-- the predicate was false; the lock is given back and sleep begins in one step -/
  | refused
  | asleep
  /-- the wait is over -/
  | past
  deriving DecidableEq, Repr

/-- It waits for a notification. -/
def Waiter.isAsleep : Waiter → Bool
  | .asleep => true
  | _ => false

/-- What is left to do for a running `onSignal`. -/
inductive Handler where
  | store
  | notifyAll
  deriving DecidableEq, Repr

/-- The flag, the main thread and the handlers that run. -/
structure Signals where
  stopping : Bool
  waiter : Waiter
  /-- the handlers that run, each with its thread, in the order in which they started -/
  handlers : List (ThreadId × Handler)
  deriving DecidableEq, Repr

/-- The main thread begins to wait, and no signal has arrived. -/
def Signals.start : Signals := { stopping := false, waiter := .unlocked, handlers := [] }

/-- Who takes the next step. -/
inductive SignalAction where
  /-- the next step of `waitForShutdown` -/
  | main
  /-- the main thread wakes without a notification -/
  | spurious
  /-- SIGINT or SIGTERM arrives on a thread -/
  | deliver (thread : ThreadId)
  /-- the next step of the `i`-th handler -/
  | handler (i : Nat)
  deriving DecidableEq, Repr

/-- A handler runs on the thread. -/
def Signals.suspended (s : Signals) (thread : ThreadId) : Bool :=
  s.handlers.any fun h => h.1 = thread

/-- The handler `i` itself is not suspended by a later one. -/
def Signals.isLast (s : Signals) (i : Nat) (thread : ThreadId) : Bool :=
  (s.handlers.drop (i + 1)).all fun h => h.1 ≠ thread

/-- One step of `waitForShutdown`. -/
def Waiter.next (stopping : Bool) : Waiter → Option Waiter
  | .unlocked => some .testing
  | .testing => some (if stopping then .past else .refused)
  | .refused => some .asleep
  | .asleep => none
  | .past => none

/-- `notify_all`: a thread that does not sleep takes no notice. -/
def Waiter.notified (w : Waiter) : Waiter := if w.isAsleep then .unlocked else w

/-- One step; a thread with a handler on it is suspended. -/
def Signals.step (s : Signals) : SignalAction → Option Signals
  | .main =>
    if s.suspended mainThread then none
    else (s.waiter.next s.stopping).map fun waiter => { s with waiter }
  | .spurious => if s.waiter = .asleep then some { s with waiter := .unlocked } else none
  | .deliver thread => some { s with handlers := s.handlers ++ [(thread, .store)] }
  | .handler i =>
    match s.handlers[i]? with
    | some (thread, h) =>
      if s.isLast i thread then
        match h with
        | .store =>
          some { s with stopping := true, handlers := s.handlers.set i (thread, .notifyAll) }
        | .notifyAll =>
          some { s with waiter := s.waiter.notified, handlers := s.handlers.eraseIdx i }
      else none
    | none => none

/-- Shutdown is asked for, the main thread sleeps, and no handler is left that would notify
it. -/
def Signals.Lost (s : Signals) : Prop :=
  s.stopping = true ∧ s.waiter = .asleep ∧ s.handlers = []

instance (s : Signals) : Decidable s.Lost := inferInstanceAs (Decidable (_ ∧ _))

end MiniOj.Util
