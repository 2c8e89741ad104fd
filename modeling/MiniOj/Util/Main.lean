import MiniOj.Util.Signal

/-!
# Start and shutdown of the server

`main` (`main.cpp`) from the construction of `SignalGuard` on: the main thread, the thread that
calls `Server::listen`, and the signal handlers that interrupt both. Of `httplib::Server`
(`third_party/httplib.h`) this takes `bind_to_port`, `listen_internal` and `stop`, which
communicate through `is_running_`, `is_decommisioned` and `svr_sock_`.

The accept loop serves requests as long as the server socket is valid; an error of `accept` does
not end it.
-/

namespace MiniOj.Util

open Infra

/-- The thread that `main` starts. -/
def listenThread : ThreadId := 1

/-- Where the main thread is. -/
inductive MainPc where
  /-- `SignalGuard` is there, the listening thread is not -/
  | starting
  /-- in `waitForShutdown`; `Signals.waiter` says where -/
  | waiting
  /-- runs the hooks -/
  | draining
  /-- `Server::stop`: about to test `is_running_` -/
  | stopping
  /-- it was set: about to take the socket away -/
  | closing
  /-- about to clear `is_decommisioned` -/
  | clearing
  /-- in `listen_thread.join()` -/
  | joining
  | returned
  deriving DecidableEq, Repr

/-- Where `Server::listen` is. -/
inductive ListenPc where
  | notStarted
  /-- `bind_internal` tests `is_decommisioned` -/
  | checking
  /-- about to create and bind the socket -/
  | binding
  /-- `bind_to_port` failed: about to set `is_decommisioned` -/
  | failing
  /-- `listen_internal` tests `is_decommisioned` -/
  | bound
  /-- about to set `is_running_` -/
  | entering
  /-- in the accept loop -/
  | accepting
  /-- about to clear `is_decommisioned` -/
  | leaving
  /-- about to clear `is_running_` -/
  | resetting
  | returned
  deriving DecidableEq, Repr

/-- The two threads, the handlers and the fields of the server. -/
structure MainProcess where
  signals : Signals
  main : MainPc
  listen : ListenPc
  isRunning : Bool
  isDecommissioned : Bool
  /-- `svr_sock_` is a socket -/
  socketValid : Bool
  deriving DecidableEq, Repr

/-- Right after the construction of `SignalGuard`. -/
def MainProcess.start : MainProcess where
  signals := .start
  main := .starting
  listen := .notStarted
  isRunning := false
  isDecommissioned := false
  socketValid := false

/-- Who takes the next step. -/
inductive MainAction where
  /-- a signal arrives, a handler goes on, or the main thread wakes without a notification -/
  | signal (a : SignalAction)
  /-- the next step of the main thread -/
  | main
  /-- the next step of the listening thread other than binding -/
  | listen
  /-- the socket is created and bound, or one of that fails -/
  | bind (ok : Bool)
  deriving DecidableEq, Repr

/-- The next step of `main` outside `waitForShutdown`. -/
def MainProcess.mainStep (s : MainProcess) : Option MainProcess :=
  match s.main with
  | .starting => some { s with main := .waiting, listen := .checking }
  | .waiting =>
    if s.signals.waiter = .past then some { s with main := .draining }
    else (s.signals.step .main).map fun signals => { s with signals }
  | .draining => some { s with main := .stopping }
  | .stopping => some { s with main := if s.isRunning then .closing else .clearing }
  | .closing => some { s with main := .clearing, socketValid := false }
  | .clearing => some { s with main := .joining, isDecommissioned := false }
  | .joining => if s.listen = .returned then some { s with main := .returned } else none
  | .returned => none

/-- The next step of `listen` other than binding. -/
def MainProcess.listenStep (s : MainProcess) : Option MainProcess :=
  match s.listen with
  | .notStarted => none
  | .checking => some { s with listen := if s.isDecommissioned then .failing else .binding }
  | .binding => none
  | .failing => some { s with listen := .returned, isDecommissioned := true }
  | .bound => some { s with listen := if s.isDecommissioned then .returned else .entering }
  | .entering => some { s with listen := .accepting, isRunning := true }
  | .accepting => some { s with listen := if s.socketValid then .accepting else .leaving }
  | .leaving => some { s with listen := .resetting, isDecommissioned := false }
  | .resetting => some { s with listen := .returned, isRunning := false }
  | .returned => none

/-- One step; a thread with a handler on it is suspended. -/
def MainProcess.step (s : MainProcess) : MainAction → Option MainProcess
  -- a step of `waitForShutdown` is one of `main`
  | .signal .main => none
  | .signal a => (s.signals.step a).map fun signals => { s with signals }
  | .main => if s.signals.suspended mainThread then none else s.mainStep
  | .listen => if s.signals.suspended listenThread then none else s.listenStep
  | .bind ok =>
    if s.listen = .binding ∧ ¬ s.signals.suspended listenThread then
      some { s with listen := if ok then .bound else .failing, socketValid := ok }
    else none

/-- `Server::listen` has returned, and the main thread sleeps in `waitForShutdown`. -/
def MainProcess.StuckWaiting (s : MainProcess) : Prop :=
  s.main = .waiting ∧ s.signals.waiter = .asleep ∧ s.listen = .returned

/-- `Server::stop` is over, the main thread waits for the listening thread, and that one is in an
accept loop whose socket nobody will take away. -/
def MainProcess.StuckJoining (s : MainProcess) : Prop :=
  s.main = .joining ∧ s.listen = .accepting ∧ s.socketValid = true

instance (s : MainProcess) : Decidable s.StuckWaiting := inferInstanceAs (Decidable (_ ∧ _))

instance (s : MainProcess) : Decidable s.StuckJoining := inferInstanceAs (Decidable (_ ∧ _))

end MiniOj.Util
