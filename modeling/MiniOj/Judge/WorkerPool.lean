import MiniOj.Infra.CondVar
import MiniOj.Infra.Transition

/-!
# The judge worker pool

`WorkerPool` (`judge/worker_pool.hpp`, `judge/worker_pool.cpp`). Every section that holds
`mutex_` is one action, and so is every notification and every end of a task; `notify_one`
and `notify_all` are sent after the mutex is released, so other actions may come between.

Packaged tasks are numbered in the order in which `submit` makes them. `accepted`, `started`,
`refused` and `results` record what happened and are never read by a step.
-/

namespace MiniOj.Judge

open Infra

/-- The number of a packaged task. -/
abbrev Task := Nat

/-- Where a thread of `workerLoop` is. -/
inductive Worker where
  /-- before the lock, at the start of the loop or woken inside `available_.wait` -/
  | looking
  /-- asleep in `available_.wait` -/
  | asleep
  | running (task : Task)
  /-- `workerLoop` has returned -/
  | exited
  deriving DecidableEq, Repr

/-- It waits for a notification. -/
def Worker.isAsleep : Worker → Bool
  | .asleep => true
  | _ => false

/-- Where the `shutdown` call that set `stopping_` is. -/
inductive Shutdown where
  | notCalled
  /-- the mutex is released, `notify_all` is still to come -/
  | notifying
  /-- joining `workers_[next]` -/
  | joining (next : Nat)
  | returned
  deriving DecidableEq, Repr

/-- The fields of the pool, where its threads are, and what has happened. -/
structure WorkerPool where
  workers : List Worker
  /-- `tasks_`, front first -/
  tasks : List Task
  stopping : Bool
  shutdown : Shutdown
  /-- `submit` calls that have queued their task but not yet called `notify_one` -/
  notifying : Nat
  /-- packaged tasks made so far -/
  submitted : Nat
  accepted : List Task
  /-- tasks whose `submit` threw -/
  refused : List Task
  /-- tasks taken off the queue, in that order -/
  started : List Task
  /-- futures made ready; `true` when they hold the exception the task threw -/
  results : List (Task × Bool)
  deriving DecidableEq, Repr

/-- `WorkerPool(worker_count)`; a count of zero throws. -/
def WorkerPool.create (workerCount : Nat) : Option WorkerPool :=
  if workerCount = 0 then none
  else some {
    workers := List.replicate workerCount .looking, tasks := [], stopping := false
    shutdown := .notCalled, notifying := 0, submitted := 0
    accepted := [], refused := [], started := [], results := [] }

/-- Who takes the next step. -/
inductive WorkerPoolAction where
  /-- the locked section of `submit` -/
  | submit
  /-- the `notify_one` of some `submit` -/
  | notifyOne (woken : Option Nat)
  /-- worker `w` locks and tests the predicate: it sleeps, takes a task or returns -/
  | look (w : Nat)
  /-- worker `w` wakes without a notification -/
  | spurious (w : Nat)
  /-- the task of worker `w` ends and its future becomes ready -/
  | finish (w : Nat) (threw : Bool)
  /-- the locked section of `shutdown` -/
  | shutdown
  | notifyAll
  /-- `shutdown` gets past one `worker.join()`, or past the end of the loop -/
  | join
  deriving DecidableEq, Repr

/-- One step; `none` when it is not the turn of this thread. -/
def WorkerPool.step (s : WorkerPool) : WorkerPoolAction → Option WorkerPool
  | .submit =>
    if s.stopping then
      some { s with submitted := s.submitted + 1, refused := s.refused ++ [s.submitted] }
    else
      some { s with
        submitted := s.submitted + 1, tasks := s.tasks ++ [s.submitted]
        accepted := s.accepted ++ [s.submitted], notifying := s.notifying + 1 }
  | .notifyOne woken =>
    if 0 < s.notifying then
      (Infra.notifyOne Worker.isAsleep (fun _ => .looking) s.workers woken).map fun workers =>
        { s with workers := workers, notifying := s.notifying - 1 }
    else none
  | .look w =>
    if s.workers[w]? = some .looking then
      if s.stopping || !s.tasks.isEmpty then
        match s.tasks with
        | [] => some { s with workers := s.workers.set w .exited }
        | task :: rest =>
          some { s with
            workers := s.workers.set w (.running task), tasks := rest
            started := s.started ++ [task] }
      else some { s with workers := s.workers.set w .asleep }
    else none
  | .spurious w =>
    if s.workers[w]? = some .asleep then some { s with workers := s.workers.set w .looking }
    else none
  | .finish w threw =>
    match s.workers[w]? with
    | some (.running task) =>
      some { s with
        workers := s.workers.set w .looking, results := s.results ++ [(task, threw)] }
    | _ => none
  | .shutdown =>
    if s.stopping then some s
    else some { s with stopping := true, shutdown := .notifying }
  | .notifyAll =>
    if s.shutdown = .notifying then
      some { s with
        workers := Infra.notifyAll Worker.isAsleep (fun _ => .looking) s.workers
        shutdown := .joining 0 }
    else none
  | .join =>
    match s.shutdown with
    | .joining next =>
      match s.workers[next]? with
      | some .exited => some { s with shutdown := .joining (next + 1) }
      | some _ => none
      | none => some { s with shutdown := .returned }
    | _ => none

/-- The pool has just been constructed. -/
def WorkerPool.Init (workerCount : Nat) (s : WorkerPool) : Prop :=
  WorkerPool.create workerCount = some s

/-- `size()`. -/
def WorkerPool.size (s : WorkerPool) : Nat := s.workers.length

/-- `pending()`. -/
def WorkerPool.pending (s : WorkerPool) : Nat := s.tasks.length

end MiniOj.Judge
