import MiniOj.Http.Router
import MiniOj.Infra.Threads

/-!
# The server

Any number of requests at the same time, each in its own thread, while the clock goes on. A
thread has its own connection, and what it does in a transaction stays with it until `COMMIT`.

An assumption on the database: a statement that writes to the problem bank, and `START
TRANSACTION`, wait while another thread has a transaction open. InnoDB locks rows, and its
transactions on different rows may overlap: how they do is not modelled. Users and sessions are
written outside of transactions, and their statements never wait.
-/

namespace MiniOj.Http

open Infra Db

/-- What happens to sessions; `now` is the time at which `createSession` has read the clock. -/
inductive SessionEvent where
  | created (id : Bytes) (userId now : Nat)
  | deleted (id : Bytes)
  deriving DecidableEq, Repr

/-- What belongs to the thread of a request. -/
structure Local where
  /-- the rows of the transaction on its connection -/
  work : Option Bank := none
  /-- the last time it has read from the clock -/
  read : Nat := 0

/-- What all requests have in common. -/
structure Shared where
  backend : Backend
  /-- a thread has a transaction open -/
  busy : Bool := false
  /-- the sessions created and deleted, oldest first -/
  log : List SessionEvent := []

/-- Statements that are taken to wait for a transaction of another thread: those that write to
the problem bank, and `START TRANSACTION`. -/
def Call.Locks : Call → Bool
  | bank st =>
    match st with
    | .acquire | .release | .commit | .rollback | .selectExists _ | .selectProblem _
    | .selectTags _ | .selectTestcases _ | .storeResult | .freeResult _ => false
    | _ => true
  | _ => false

/-- The clock reading that a thread has after a call. -/
def Call.reading (read : Nat) : (c : Call) → c.Reply → Nat
  | now, time => time
  | _, _ => read

/-- What a call of a thread that has last read `read` from the clock does to sessions. -/
def Call.events (read : Nat) : (c : Call) → c.Reply → List SessionEvent
  | insertSession id userId _, .ok _ => [.created id userId read]
  | deleteSession id, .ok affected => if 0 < affected then [.deleted id] else []
  | _, _ => []

/-- The backend as the thread sees it. -/
def Shared.seenBy (s : Shared) (l : Local) : Backend :=
  { s.backend with db := { s.backend.db with work := l.work } }

/-- A call of a thread, which sees the rows of its own transaction; `none` when it has to wait. -/
def Env.execute (env : Env) (c : Call) (l : Local) (s : Shared) :
    Option (c.Reply × Local × Shared) :=
  if c.Locks && s.busy && l.work.isNone then none
  else
    let (r, b) := env.exec c (s.seenBy l)
    some (r, { work := b.db.work, read := c.reading l.read r }, {
      backend := { b with db := { b.db with work := none } }
      busy := if l.work.isSome || b.db.work.isSome then b.db.work.isSome else s.busy
      log := s.log ++ c.events l.read r })

/-- The threads of the requests and what they share. -/
abbrev Server := Threads Call Call.Reply Exn Response Local Shared

/-- A request arrives, a thread makes its next call, or so many nanoseconds pass. -/
abbrev ServerAction := ThreadAction Request Nat

namespace Server

/-- The thread of a request. -/
def spawn (cfg : Config) (req : Request) : Thread Call Call.Reply Exn Response Local where
  program := routing cfg req
  own := {}

/-- Time passes. -/
def tick (s : Shared) (elapsed : Nat) : Option Shared :=
  some { s with backend := { s.backend with now := s.backend.now + elapsed } }

/-- A step of the server. -/
def step (env : Env) (cfg : Config) : Server → ServerAction → Option Server :=
  Threads.step env.execute (spawn cfg) tick

/-- The server before the first request. -/
def start (b : Backend) : Server where
  shared := { backend := b }
  threads := []

end Server

variable {env : Env} {c : Call} {l l' : Local} {s s' : Shared} {r : c.Reply}

/-- What a call of a thread does, when it does not wait. -/
theorem execute_eq_some (h : env.execute c l s = some (r, l', s')) :
    r = (env.exec c (s.seenBy l)).1 ∧ l'.read = c.reading l.read r ∧
      s'.backend = { (env.exec c (s.seenBy l)).2 with
        db := { (env.exec c (s.seenBy l)).2.db with work := none } } ∧
      s'.log = s.log ++ c.events l.read r := by
  unfold Env.execute at h
  split at h
  · cases h
  · cases h
    exact ⟨rfl, rfl, rfl, rfl⟩

end MiniOj.Http
