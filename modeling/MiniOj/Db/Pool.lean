import Mathlib.Algebra.Group.Nat.Defs
import MiniOj.Infra.Transition

/-!
# The connection pool

`ConnectionPool` and `ConnectionLease` (`db/pool.cpp`) as a step function. Every section
of the code that holds `State::mutex` is one action, and so is every call into the MySQL
client made between two such sections; threads are interleaved by interleaving actions.

An `acquireFor` call that has left the locked section with a connection is an entry of
`calls`, a lease object is an entry of `leases`. Both tables only grow, so there may be any
number of threads and of leases.
-/

namespace MiniOj.Db

/-- A `MYSQL*` handle; handles are numbered in the order `mysql_init` returns them. -/
abbrev Connection := Nat

/-- Where an `acquireFor` call is once it has popped a connection. -/
inductive Acquire where
  /-- in `ensureHealthy`, before `mysql_ping` -/
  | pinging (connection : Connection)
  /-- the ping failed and the handle is closed; `createConnection` is under way -/
  | replacing
  /-- `createConnection` threw; the `catch` block has not run yet -/
  | throwing
  | done
  deriving DecidableEq, Repr

/-- `ConnectionLease::State` together with the leases and the calls that share it. -/
structure Pool where
  poolSize : Nat
  /-- `std::deque<MYSQL*> idle`, front first -/
  idle : List Connection
  inUse : Nat
  stopping : Bool
  calls : List Acquire
  /-- the `connection_` of every lease object ever made, `none` for `nullptr` -/
  leases : List (Option Connection)
  /-- handles returned by `mysql_init` so far -/
  opened : Nat
  /-- handles passed to `mysql_close`, oldest first -/
  closed : List Connection
  deriving DecidableEq, Repr

/-- The pool as its constructor leaves it when every `createConnection` succeeds. -/
def Pool.fresh (poolSize : Nat) : Pool where
  poolSize := poolSize
  idle := List.range poolSize
  inUse := 0
  stopping := false
  calls := []
  leases := []
  opened := poolSize
  closed := []

/-- `--in_use` on a `std::size_t`. -/
def decrement (n : Nat) : Nat := if n = 0 then 2 ^ 64 - 1 else n - 1

/-- `State::giveBack`. -/
def Pool.giveBack (s : Pool) (connection : Connection) : Pool :=
  let inUse := if 0 < s.inUse then decrement s.inUse else s.inUse
  if s.stopping then { s with inUse := inUse, closed := s.closed ++ [connection] }
  else { s with inUse := inUse, idle := s.idle ++ [connection] }

/-- `ConnectionLease::release` on lease object `l`. -/
def Pool.release (s : Pool) (l : Nat) : Option Pool :=
  match s.leases[l]? with
  | none => none
  | some none => some s
  | some (some connection) =>
    some (Pool.giveBack { s with leases := s.leases.set l none } connection)

/-- `ConnectionPool::shutdown`. -/
def Pool.shutdown (s : Pool) : Pool :=
  { s with stopping := true, idle := [], closed := s.closed ++ s.idle }

/-- A step of a thread that uses the pool. -/
inductive PoolAction where
  /-- the locked section of `acquireFor` pops `idle.front()` -/
  | take
  /-- `wait_for` gives up and `acquireFor` throws -/
  | timeOut
  /-- `acquireFor` throws because the pool is stopping -/
  | refuse
  /-- `mysql_ping` succeeds and `acquireFor` returns a lease -/
  | pingOk (call : Nat)
  /-- `mysql_ping` fails and the handle is closed -/
  | pingFail (call : Nat)
  /-- `createConnection` succeeds and `acquireFor` returns a lease -/
  | reconnect (call : Nat)
  /-- `createConnection` throws, with or without a handle from `mysql_init` to close -/
  | reconnectFail (call : Nat) (inited : Bool)
  /-- the `catch` block of `acquireFor` -/
  | rethrow (call : Nat)
  /-- `release`, also run by the destructor -/
  | release (lease : Nat)
  | moveConstruct (source : Nat)
  | moveAssign (target source : Nat)
  | shutdown
  /-- `~ConnectionPool`: `shutdown`, then its reference to the state is dropped -/
  | destroy
  deriving DecidableEq, Repr

/-- One step; `none` when it has to wait. -/
def Pool.step (s : Pool) : PoolAction → Option Pool
  | .take =>
    match s.stopping, s.idle with
    | false, connection :: rest =>
      some { s with
        idle := rest, inUse := s.inUse + 1, calls := s.calls ++ [.pinging connection] }
    | _, _ => none
  | .timeOut => if s.stopping = false ∧ s.idle = [] then some s else none
  | .refuse => if s.stopping then some s else none
  | .pingOk i =>
    match s.calls[i]? with
    | some (.pinging connection) =>
      some { s with calls := s.calls.set i .done, leases := s.leases ++ [some connection] }
    | _ => none
  | .pingFail i =>
    match s.calls[i]? with
    | some (.pinging connection) =>
      some { s with calls := s.calls.set i .replacing, closed := s.closed ++ [connection] }
    | _ => none
  | .reconnect i =>
    match s.calls[i]? with
    | some .replacing =>
      some { s with
        calls := s.calls.set i .done, leases := s.leases ++ [some s.opened]
        opened := s.opened + 1 }
    | _ => none
  | .reconnectFail i inited =>
    match s.calls[i]? with
    | some .replacing =>
      if inited then
        some { s with
          calls := s.calls.set i .throwing, closed := s.closed ++ [s.opened]
          opened := s.opened + 1 }
      else some { s with calls := s.calls.set i .throwing }
    | _ => none
  | .rethrow i =>
    match s.calls[i]? with
    | some .throwing => some { s with calls := s.calls.set i .done, inUse := decrement s.inUse }
    | _ => none
  | .release l => s.release l
  | .moveConstruct source =>
    match s.leases[source]? with
    | some held => some { s with leases := s.leases.set source none ++ [held] }
    | none => none
  | .moveAssign target source =>
    if target = source then if target < s.leases.length then some s else none
    else
      match s.leases[source]? with
      | some held =>
        (s.release target).map fun t =>
          { t with leases := (t.leases.set target held).set source none }
      | none => none
  | .shutdown => some s.shutdown
  -- leases may outlive the pool; `~State` finds `idle` empty, since nothing is pushed any more
  | .destroy => some s.shutdown

/-- The state just after the constructor. -/
def Pool.Init (poolSize : Nat) (s : Pool) : Prop := s = Pool.fresh poolSize

/-! ## What the public counters report -/

/-- `capacity()`. -/
def Pool.capacity (s : Pool) : Nat := s.poolSize

/-- `idleCount()`. -/
def Pool.idleCount (s : Pool) : Nat := s.idle.length

/-- `inUseCount()`. -/
def Pool.inUseCount (s : Pool) : Nat := s.inUse

/-- Live leases: the connections that are handed out. -/
def Pool.held (s : Pool) : Nat := s.leases.countP Option.isSome

end MiniOj.Db
