import MiniOj.Db.Pool
import MiniOj.Db.Spec.SlotLedger
import MiniOj.Infra.Table

/-!
# The accounting of the connection pool

`idle.size() + in_use` is compared with the configured pool size over every interleaving.

* `Pool.move_of_step` — everything that an action can do
* `Accounts` — the invariant: every unit of `in_use` is a call under way or a live lease,
  and the pool never accounts for more than `pool_size` connections
* `openStep_ledger` — until `shutdown`, the pool is a `SlotLedger` in which a slot is lost
  exactly when `createConnection` throws inside `ensureHealthy`
* `slots_restored_iff` — the sum is `pool_size`, and `pool_size` connections can be handed
  out again, exactly when no reconnect has failed
-/

namespace MiniOj.Db

open Infra

variable {s s' : Pool}

/-! ## What a step can do -/

/-- The steps of the pool, as a relation. -/
inductive Pool.Move (s : Pool) : PoolAction → Pool → Prop
  | take (c : Connection) (rest : List Connection) (hs : s.stopping = false)
      (hidle : s.idle = c :: rest) :
    Move s .take { s with idle := rest, inUse := s.inUse + 1, calls := s.calls ++ [.pinging c] }
  | timeOut (hs : s.stopping = false) (hidle : s.idle = []) : Move s .timeOut s
  | refuse (hs : s.stopping = true) : Move s .refuse s
  | pingOk {i : Nat} (c : Connection) (hi : s.calls[i]? = some (.pinging c)) :
    Move s (.pingOk i) { s with calls := s.calls.set i .done, leases := s.leases ++ [some c] }
  | pingFail {i : Nat} (c : Connection) (hi : s.calls[i]? = some (.pinging c)) :
    Move s (.pingFail i) { s with calls := s.calls.set i .replacing, closed := s.closed ++ [c] }
  | reconnect {i : Nat} (hi : s.calls[i]? = some .replacing) :
    Move s (.reconnect i) { s with
      calls := s.calls.set i .done, leases := s.leases ++ [some s.opened], opened := s.opened + 1 }
  | failLate {i : Nat} (hi : s.calls[i]? = some .replacing) :
    Move s (.reconnectFail i true) { s with
      calls := s.calls.set i .throwing, closed := s.closed ++ [s.opened], opened := s.opened + 1 }
  | failEarly {i : Nat} (hi : s.calls[i]? = some .replacing) :
    Move s (.reconnectFail i false) { s with calls := s.calls.set i .throwing }
  | rethrow {i : Nat} (hi : s.calls[i]? = some .throwing) :
    Move s (.rethrow i) { s with calls := s.calls.set i .done, inUse := decrement s.inUse }
  | release {l : Nat} {s' : Pool} (h : s.release l = some s') : Move s (.release l) s'
  | moveConstruct {i : Nat} (held : Option Connection) (hi : s.leases[i]? = some held) :
    Move s (.moveConstruct i) { s with leases := s.leases.set i none ++ [held] }
  | moveSelf {i : Nat} (hi : i < s.leases.length) : Move s (.moveAssign i i) s
  | moveAssign {target source : Nat} (hne : target ≠ source) (held : Option Connection)
      (hsrc : s.leases[source]? = some held) (t : Pool) (ht : s.release target = some t) :
    Move s (.moveAssign target source)
      { t with leases := (t.leases.set target held).set source none }
  | shutdown : Move s .shutdown s.shutdown
  | destroy : Move s .destroy s.shutdown

/-- **Every step is one of these.** -/
theorem Pool.move_of_step {a : PoolAction} (h : s.step a = some s') : s.Move a s' := by
  cases a with
  | take =>
    simp only [Pool.step] at h
    split at h
    · next c rest hs hidle => cases h; exact .take c rest hs hidle
    · cases h
  | timeOut =>
    simp only [Pool.step, Option.ite_none_right_eq_some, Option.some.injEq] at h
    obtain ⟨⟨hs, hidle⟩, rfl⟩ := h
    exact .timeOut hs hidle
  | refuse =>
    simp only [Pool.step, Option.ite_none_right_eq_some, Option.some.injEq] at h
    obtain ⟨hs, rfl⟩ := h
    exact .refuse hs
  | pingOk i =>
    simp only [Pool.step] at h
    split at h
    · next c hi => cases h; exact .pingOk c hi
    · cases h
  | pingFail i =>
    simp only [Pool.step] at h
    split at h
    · next c hi => cases h; exact .pingFail c hi
    · cases h
  | reconnect i =>
    simp only [Pool.step] at h
    split at h
    · next hi => cases h; exact .reconnect hi
    · cases h
  | reconnectFail i inited =>
    simp only [Pool.step] at h
    split at h
    · next hi =>
      cases inited with
      | true => cases h; exact .failLate hi
      | false => cases h; exact .failEarly hi
    · cases h
  | rethrow i =>
    simp only [Pool.step] at h
    split at h
    · next hi => cases h; exact .rethrow hi
    · cases h
  | release l => exact .release h
  | moveConstruct i =>
    simp only [Pool.step] at h
    split at h
    · next held hi => cases h; exact .moveConstruct held hi
    · cases h
  | moveAssign target source =>
    simp only [Pool.step] at h
    split at h
    · next heq =>
      obtain ⟨hlt, h⟩ := Option.ite_none_right_eq_some.mp h
      cases h
      exact heq ▸ .moveSelf hlt
    · next hne =>
      split at h
      · next held hsrc =>
        obtain ⟨t, ht, rfl⟩ := Option.map_eq_some_iff.mp h
        exact .moveAssign hne held hsrc t ht
      · cases h
  | shutdown => cases h; exact .shutdown
  | destroy => cases h; exact .destroy

/-! ## Calls under way -/

/-- The call has not returned. -/
def Acquire.underWay : Acquire → Bool
  | .done => false
  | _ => true

/-- The call is about to throw. -/
def Acquire.isThrowing : Acquire → Bool
  | .throwing => true
  | _ => false

/-- `acquireFor` calls that hold a unit of `in_use` and have returned nothing yet. -/
def Pool.pending (s : Pool) : Nat := s.calls.countP Acquire.underWay

/-- How many calls are about to throw. -/
def Pool.throwing (s : Pool) : Nat := s.calls.countP Acquire.isThrowing

/-- They have not returned yet. -/
theorem Pool.throwing_le_pending (s : Pool) : s.throwing ≤ s.pending :=
  List.countP_mono_left fun a _ h => by cases a <;> simp_all [Acquire.underWay, Acquire.isThrowing]

/-! ## The invariant -/

/-- What the counters of the pool count. -/
structure Accounts (s : Pool) : Prop where
  inUse_eq : s.inUse = s.pending + s.held
  bounded : s.idle.length + s.inUse ≤ s.poolSize

/-- A new pool has all its connections idle. -/
theorem accounts_fresh (n : Nat) : Accounts (Pool.fresh n) where
  inUse_eq := by simp [Pool.fresh, Pool.pending, Pool.held]
  bounded := by simp [Pool.fresh]

theorem decrement_eq {n : Nat} (h : 0 < n) : decrement n = n - 1 := by
  unfold decrement
  rw [if_neg (by omega)]

/-- The pool before `shutdown`: the actions that leave it running. -/
def Pool.openStep (s : Pool) (a : PoolAction) : Option Pool :=
  (s.step a).filter fun t => !t.stopping

/-- A step that leaves the pool open. -/
theorem openStep_eq_some {a : PoolAction} :
    s.openStep a = some s' ↔ s.step a = some s' ∧ s'.stopping = false := by
  simp [Pool.openStep, Option.filter_eq_some_iff]

/-- What releasing a lease does, before and after `shutdown`. -/
theorem release_moves {l : Nat} (h : s.release l = some s') :
    s'.calls = s.calls ∧ s'.poolSize = s.poolSize ∧ s'.opened = s.opened ∧
      s'.stopping = s.stopping ∧
      ((s.leases[l]? = some none ∧ s' = s) ∨
        ∃ c, s.leases[l]? = some (some c) ∧ s'.leases = s.leases.set l none ∧
          (0 < s.inUse → s'.inUse + 1 = s.inUse) ∧
          ((s.stopping = false ∧ s'.idle = s.idle ++ [c] ∧ s'.closed = s.closed) ∨
            (s.stopping = true ∧ s'.idle = s.idle ∧ s'.closed = s.closed ++ [c]))) := by
  have hdec : 0 < s.inUse →
      (if 0 < s.inUse then decrement s.inUse else s.inUse) + 1 = s.inUse := by
    intro hpos
    rw [if_pos hpos, decrement_eq hpos]
    omega
  unfold Pool.release at h
  split at h
  · cases h
  · next hl =>
    cases h
    exact ⟨rfl, rfl, rfl, rfl, Or.inl ⟨hl, rfl⟩⟩
  · next c hl =>
    rw [Option.some.injEq] at h
    unfold Pool.giveBack at h
    dsimp only at h
    split at h
    · next hstop =>
      subst h
      exact ⟨rfl, rfl, rfl, rfl, Or.inr ⟨c, hl, rfl, hdec, Or.inr ⟨hstop, rfl, rfl⟩⟩⟩
    · next hrun =>
      subst h
      exact ⟨rfl, rfl, rfl, rfl,
        Or.inr ⟨c, hl, rfl, hdec, Or.inl ⟨Bool.not_eq_true _ ▸ hrun, rfl, rfl⟩⟩⟩

/-- `release` leaves its lease object empty and does not touch the others. -/
theorem leases_release {l : Nat} (h : s.release l = some s') :
    s'.leases[l]? = some none ∧ ∀ i, l ≠ i → s'.leases[i]? = s.leases[i]? := by
  obtain ⟨-, -, -, -, ⟨hl, rfl⟩ | ⟨c, hl, hleases, -⟩⟩ := release_moves h
  · exact ⟨hl, fun _ _ => rfl⟩
  · rw [hleases]
    refine ⟨List.getElem?_set_self (List.getElem?_eq_some_iff.mp hl).1, fun i hne => ?_⟩
    exact List.getElem?_set_ne hne

/-- One connection less is held. -/
theorem held_release {l : Nat} {c : Connection} (hl : s.leases[l]? = some (some c))
    (hleases : s'.leases = s.leases.set l none) : s'.held + 1 = s.held := by
  have := countP_set_add Option.isSome none hl
  unfold Pool.held
  rw [hleases]
  simpa using this

/-! ## The pool is a ledger of slots -/

/-- A call that is about to rethrow still counts in `in_use`, but its slot is already lost. -/
def Pool.ledger (s : Pool) : SlotLedger where
  free := s.idle.length
  out := s.inUse - s.throwing
  lost := s.throwing + (s.poolSize - (s.idle.length + s.inUse))

/-- The slot operation behind an action of the running pool. -/
def Pool.slotOps (s : Pool) : PoolAction → List SlotOp
  | .take => [.take]
  | .reconnectFail _ _ => [.lose]
  | .release l => if (s.leases[l]?.join).isSome then [.giveBack] else []
  | .moveAssign target source =>
    if target ≠ source ∧ (s.leases[target]?.join).isSome then [.giveBack] else []
  | _ => []

/-- A reconnection that fails. -/
def PoolAction.isReconnectFail : PoolAction → Bool
  | .reconnectFail _ _ => true
  | _ => false

/-- **A slot is lost at each of them, and nowhere else.** -/
theorem slotOps_lost (s : Pool) (a : PoolAction) :
    (s.slotOps a).countP (· == .lose) = a.isReconnectFail.toNat := by
  cases a <;> simp only [Pool.slotOps, PoolAction.isReconnectFail] <;> try rfl
  all_goals split <;> rfl

/-- Releasing a lease, seen on the counters: its slot becomes free. -/
theorem release_ledger {l : Nat} (hA : Accounts s) (hs : s.stopping = false)
    (h : s.release l = some s') :
    Accounts s' ∧ s'.stopping = false ∧
      run SlotLedger.step s.ledger (s.slotOps (.release l)) = some s'.ledger := by
  obtain ⟨hcalls, hsize, -, hopen, ⟨hl, rfl⟩ | ⟨c, hl, hleases, huse, hmode⟩⟩ := release_moves h
  · exact ⟨hA, hs, by simp [Pool.slotOps, hl]⟩
  · obtain ⟨-, hidle, -⟩ | ⟨hstop, -, -⟩ := hmode
    case inr => rw [hs] at hstop; cases hstop
    obtain ⟨heq, hle⟩ := hA
    have hpend : s'.pending = s.pending := by unfold Pool.pending; rw [hcalls]
    have hthr : s'.throwing = s.throwing := by unfold Pool.throwing; rw [hcalls]
    have hheld := held_release hl hleases
    have hlen : s'.idle.length = s.idle.length + 1 := by rw [hidle]; simp
    have huse' : s'.inUse + 1 = s.inUse := huse (by omega)
    have htp := s.throwing_le_pending
    refine ⟨⟨by omega, by omega⟩, hopen.trans hs, ?_⟩
    have hops : s.slotOps (.release l) = [.giveBack] := by simp [Pool.slotOps, hl]
    have hout : 0 < s.ledger.out := by show 0 < s.inUse - s.throwing; omega
    rw [hops, run_cons, SlotLedger.step, if_pos hout]
    simp only [Option.bind_some, run_nil, Pool.ledger, SlotLedger.mk.injEq, Option.some.injEq]
    omega

/-- Moving a lease keeps the number of live leases. -/
theorem held_moveConstruct {i : Nat} {held : Option Connection} (h : s.leases[i]? = some held) :
    (s.leases.set i none ++ [held]).countP Option.isSome = s.held := by
  have := countP_set_add Option.isSome none h
  rw [countP_push]
  unfold Pool.held
  simpa using this

/-- Moving a lease holds as many connections. -/
theorem held_moveAssign {l : List (Option Connection)} {target source : Nat}
    {held : Option Connection} (hne : target ≠ source) (ht : l[target]? = some none)
    (hs : l[source]? = some held) :
    ((l.set target held).set source none).countP Option.isSome = l.countP Option.isSome := by
  have h1 := countP_set_add Option.isSome held ht
  have h2 := countP_set_add Option.isSome none (l := l.set target held) (i := source)
    (by rw [List.getElem?_set_ne hne]; exact hs)
  simp only [Option.isSome_none, Bool.toNat_false, Nat.add_zero] at h1 h2
  omega

/-- An idle connection is taken. -/
theorem take_ledger (hA : Accounts s) (h : s.openStep .take = some s') :
    Accounts s' ∧ run SlotLedger.step s.ledger [.take] = some s'.ledger := by
  obtain ⟨hstep, -⟩ := openStep_eq_some.mp h
  cases Pool.move_of_step hstep with
  | take c rest hs hidle =>
    obtain ⟨heq, hle⟩ := hA
    have hlen : s.idle.length = rest.length + 1 := by rw [hidle]; rfl
    have hp := countP_push Acquire.underWay s.calls (.pinging c)
    have ht := countP_push Acquire.isThrowing s.calls (.pinging c)
    have htp := s.throwing_le_pending
    simp only [Pool.pending, Pool.throwing, Pool.held, Acquire.underWay, Acquire.isThrowing,
      Bool.toNat_true, Bool.toNat_false] at hp ht heq htp
    refine ⟨⟨?_, ?_⟩, ?_⟩
    · simp only [Pool.pending, Pool.held]
      omega
    · show rest.length + (s.inUse + 1) ≤ s.poolSize
      omega
    · have hfree : 0 < s.ledger.free := by show 0 < s.idle.length; omega
      rw [run_cons, SlotLedger.step, if_pos hfree]
      simp only [Option.bind_some, run_nil, Pool.ledger, Pool.throwing, SlotLedger.mk.injEq,
        Option.some.injEq]
      omega

/-- What moving call `i` from `a` to `b` and pushing the leases `new` does to the counters. -/
theorem call_counts (s' : Pool) (new : List (Option Connection)) {i : Nat} {a b : Acquire}
    (hi : s.calls[i]? = some a) (hcalls : s'.calls = s.calls.set i b)
    (hleases : s'.leases = s.leases ++ new) :
    s'.pending + a.underWay.toNat = s.pending + b.underWay.toNat ∧
      s'.throwing + a.isThrowing.toNat = s.throwing + b.isThrowing.toNat ∧
      s'.held = s.held + new.countP Option.isSome := by
  unfold Pool.pending Pool.throwing Pool.held
  rw [hcalls, hleases, List.countP_append]
  exact ⟨countP_set_add _ b hi, countP_set_add _ b hi, rfl⟩

/-- The ledger does not see a call that goes on, nor one that turns into a lease. -/
theorem call_ledger (new : List (Option Connection)) {i : Nat} {a b : Acquire}
    (hA : Accounts s) (hi : s.calls[i]? = some a) (hcalls : s'.calls = s.calls.set i b)
    (hleases : s'.leases = s.leases ++ new) (hidle : s'.idle = s.idle)
    (huse : s'.inUse = s.inUse) (hsize : s'.poolSize = s.poolSize)
    (ha : a.isThrowing = false) (hb : b.isThrowing = false)
    (hnew : b.underWay.toNat + new.countP Option.isSome = a.underWay.toNat) :
    Accounts s' ∧ run SlotLedger.step s.ledger [] = some s'.ledger := by
  obtain ⟨hp, ht, hh⟩ := call_counts s' new hi hcalls hleases
  obtain ⟨heq, hle⟩ := hA
  rw [ha, hb, Bool.toNat_false] at ht
  refine ⟨⟨by omega, by rw [hidle]; omega⟩, ?_⟩
  have hthr : s'.throwing = s.throwing := by omega
  simp only [run_nil, Pool.ledger, hidle, huse, hsize, hthr]

/-- A reconnection that fails loses a slot. -/
theorem reconnectFail_ledger {i : Nat} (hA : Accounts s) (hi : s.calls[i]? = some .replacing)
    (hcalls : s'.calls = s.calls.set i .throwing) (hleases : s'.leases = s.leases)
    (hidle : s'.idle = s.idle) (huse : s'.inUse = s.inUse) (hsize : s'.poolSize = s.poolSize) :
    Accounts s' ∧ run SlotLedger.step s.ledger [.lose] = some s'.ledger := by
  obtain ⟨hp, ht, hh⟩ := call_counts s' [] hi hcalls (by rw [hleases, List.append_nil])
  obtain ⟨heq, hle⟩ := hA
  have htp := s'.throwing_le_pending
  simp only [Acquire.underWay, Acquire.isThrowing, Bool.toNat_true, Bool.toNat_false,
    List.countP_nil] at hp ht hh
  refine ⟨⟨by omega, by rw [hidle]; omega⟩, ?_⟩
  have hout : 0 < s.ledger.out := by show 0 < s.inUse - s.throwing; omega
  rw [run_cons, SlotLedger.step, if_pos hout]
  simp only [Option.bind_some, run_nil, Pool.ledger, hidle, huse, hsize, SlotLedger.mk.injEq,
    Option.some.injEq, true_and]
  omega

/-- The call throws, and its slot is lost already. -/
theorem rethrow_ledger {i : Nat} (hA : Accounts s) (hi : s.calls[i]? = some .throwing)
    (hcalls : s'.calls = s.calls.set i .done) (hleases : s'.leases = s.leases)
    (hidle : s'.idle = s.idle) (huse : s'.inUse = decrement s.inUse)
    (hsize : s'.poolSize = s.poolSize) :
    Accounts s' ∧ run SlotLedger.step s.ledger [] = some s'.ledger := by
  obtain ⟨hp, ht, hh⟩ := call_counts s' [] hi hcalls (by rw [hleases, List.append_nil])
  obtain ⟨heq, hle⟩ := hA
  have htp := s.throwing_le_pending
  simp only [Acquire.underWay, Acquire.isThrowing, Bool.toNat_true, Bool.toNat_false,
    List.countP_nil] at hp ht hh
  rw [decrement_eq (by omega)] at huse
  refine ⟨⟨by omega, by rw [hidle]; omega⟩, ?_⟩
  simp only [run_nil, Pool.ledger, hidle, hsize, SlotLedger.mk.injEq, Option.some.injEq,
    true_and]
  omega

/-- The ledger does not see lease objects change hands. -/
theorem move_ledger (s' : Pool) (hA : Accounts s) (hcalls : s'.calls = s.calls)
    (hheld : s'.held = s.held) (hidle : s'.idle = s.idle) (huse : s'.inUse = s.inUse)
    (hsize : s'.poolSize = s.poolSize) :
    Accounts s' ∧ s'.ledger = s.ledger := by
  obtain ⟨heq, hle⟩ := hA
  have hpend : s'.pending = s.pending := by unfold Pool.pending; rw [hcalls]
  have hthr : s'.throwing = s.throwing := by unfold Pool.throwing; rw [hcalls]
  exact ⟨⟨by omega, by rw [hidle]; omega⟩, by simp only [Pool.ledger, hidle, huse, hsize, hthr]⟩

/-- **Until `shutdown`, the pool is a ledger of slots.** -/
theorem openStep_ledger {a : PoolAction} (hA : Accounts s) (hs : s.stopping = false)
    (h : s.openStep a = some s') :
    Accounts s' ∧ run SlotLedger.step s.ledger (s.slotOps a) = some s'.ledger := by
  obtain ⟨hstep, hopen⟩ := openStep_eq_some.mp h
  cases Pool.move_of_step hstep with
  | take => exact take_ledger hA h
  | timeOut => exact ⟨hA, rfl⟩
  | refuse => exact ⟨hA, rfl⟩
  | pingOk c hi => exact call_ledger [_] hA hi rfl rfl rfl rfl rfl rfl rfl rfl
  | pingFail c hi =>
    exact call_ledger [] hA hi rfl (List.append_nil _).symm rfl rfl rfl rfl rfl rfl
  | reconnect hi => exact call_ledger [_] hA hi rfl rfl rfl rfl rfl rfl rfl rfl
  | failLate hi => exact reconnectFail_ledger hA hi rfl rfl rfl rfl rfl
  | failEarly hi => exact reconnectFail_ledger hA hi rfl rfl rfl rfl rfl
  | rethrow hi => exact rethrow_ledger hA hi rfl rfl rfl rfl rfl
  | release hl =>
    obtain ⟨hA', -, hrun⟩ := release_ledger hA hs hl
    exact ⟨hA', hrun⟩
  | @moveConstruct i held hi =>
    obtain ⟨hA', hl⟩ := move_ledger { s with leases := s.leases.set i none ++ [held] }
      hA rfl (held_moveConstruct hi) rfl rfl rfl
    exact ⟨hA', by rw [hl]; rfl⟩
  | moveSelf => exact ⟨hA, by simp [Pool.slotOps]⟩
  | @moveAssign target source hne held hsrc t ht =>
    obtain ⟨hAt, -, hrun⟩ := release_ledger hA hs ht
    obtain ⟨hempty, hothers⟩ := leases_release ht
    obtain ⟨hA', hl⟩ := move_ledger
      { t with leases := (t.leases.set target held).set source none }
      hAt rfl (held_moveAssign hne hempty ((hothers source hne).trans hsrc)) rfl rfl rfl
    refine ⟨hA', ?_⟩
    rw [hl, ← hrun]
    simp [Pool.slotOps, hne]
  | shutdown => cases hopen
  | destroy => cases hopen

/-- The running pool simulates the ledger. -/
def poolLedger : Simulation Pool.openStep (fun s => Accounts s ∧ s.stopping = false)
    SlotLedger.step where
  abs := Pool.ledger
  trace := Pool.slotOps
  keep := fun _ _ _ hI h => ⟨(openStep_ledger hI.1 hI.2 h).1, (openStep_eq_some.mp h).2⟩
  commutes := fun _ _ _ hI h => (openStep_ledger hI.1 hI.2 h).2

/-- The ledger accounts for every slot of the pool. -/
theorem ledger_total (hA : Accounts s) : s.ledger.total = s.poolSize := by
  have := hA.inUse_eq
  have := hA.bounded
  have := s.throwing_le_pending
  simp only [SlotLedger.total, Pool.ledger]
  omega

/-! ## Runs that do not shut the pool down -/

/-- The actions that close the pool. -/
def PoolAction.closes : PoolAction → Bool
  | .shutdown | .destroy => true
  | _ => false

/-- A release does not close the pool. -/
theorem stopping_release {l : Nat} (h : s.release l = some s') : s'.stopping = s.stopping := by
  obtain ⟨-, -, -, hstop, -⟩ := release_moves h
  exact hstop

/-- The pool is closed from one of these actions on. -/
theorem stopping_step {a : PoolAction} (h : s.step a = some s') :
    s'.stopping = (s.stopping || a.closes) := by
  cases Pool.move_of_step h with
  | release hl => rw [stopping_release hl]; simp [PoolAction.closes]
  | moveAssign hne held hsrc t ht =>
    show t.stopping = _
    rw [stopping_release ht]
    simp [PoolAction.closes]
  | shutdown => simp [Pool.shutdown, PoolAction.closes]
  | destroy => simp [Pool.shutdown, PoolAction.closes]
  | _ => simp [PoolAction.closes]

/-- A run that ends before `shutdown` never left the open pool. -/
theorem run_open {as : List PoolAction} : ∀ {s s' : Pool}, run Pool.step s as = some s' →
    s'.stopping = false → run Pool.openStep s as = some s' := by
  induction as with
  | nil => intro s s' h _; exact h
  | cons a as ih =>
    intro s s' h hs
    obtain ⟨t, ht, hr⟩ := run_cons_some.mp h
    have hopen := ih hr hs
    have htf : t.stopping = false := by
      cases hst : t.stopping with
      | false => rfl
      | true =>
        have hkeep := run_invariant (I := fun s => s.stopping = true)
          (fun s a s' _ hI hstep => by rw [stopping_step hstep, hI]; rfl) hst hr
        rw [hs] at hkeep
        cases hkeep
    exact run_cons_some.mpr ⟨t, openStep_eq_some.mpr ⟨ht, htf⟩, hopen⟩

/-- **The sum falls short by one for every failed reconnect.** -/
theorem run_lost {n : Nat} {as : List PoolAction} (h : run Pool.step (Pool.fresh n) as = some s)
    (hs : s.stopping = false) :
    Accounts s ∧ s.poolSize = n ∧ s.ledger.lost = as.countP PoolAction.isReconnectFail := by
  obtain ⟨⟨hA, -⟩, ops, hops, hcount⟩ := poolLedger.run_count slotOps_lost
    ⟨accounts_fresh n, rfl⟩ (run_open h hs)
  obtain ⟨htot, hlost⟩ := SlotLedger.run_spec hops
  change s.ledger.total = (Pool.fresh n).ledger.total at htot
  change s.ledger.lost = (Pool.fresh n).ledger.lost + _ at hlost
  rw [ledger_total hA, ledger_total (accounts_fresh n)] at htot
  refine ⟨hA, htot, ?_⟩
  rw [hlost, hcount]
  simp [Pool.ledger, Pool.fresh, Pool.throwing]

/-! ## Handing out every slot again -/

/-- What happens while the database answers: no `createConnection` throws, no shutdown. -/
def PoolAction.healthy (a : PoolAction) : Prop := a.isReconnectFail = false ∧ a.closes = false

/-- The pool can reach a state in which `n` leases are live at the same time. -/
def Pool.CanHandOut (n : Nat) (s : Pool) : Prop :=
  Leads Pool.step PoolAction.healthy (fun t => t.held = n) s

/-- A running pool of size `n` that has lost no slot. -/
structure Whole (n : Nat) (s : Pool) : Prop where
  accounts : Accounts s
  running : s.stopping = false
  size : s.poolSize = n
  lost : s.ledger.lost = 0

/-- **A healthy step keeps the pool whole.** -/
theorem whole_step {n : Nat} {a : PoolAction} (hW : Whole n s) (ha : a.healthy)
    (h : s.step a = some s') : Whole n s' := by
  have hs' : s'.stopping = false := by rw [stopping_step h, hW.running, ha.2]; rfl
  obtain ⟨hA, hrun⟩ := openStep_ledger hW.accounts hW.running (openStep_eq_some.mpr ⟨h, hs'⟩)
  obtain ⟨htot, hlost⟩ := SlotLedger.run_spec hrun
  rw [ledger_total hA, ledger_total hW.accounts] at htot
  refine ⟨hA, hs', htot.trans hW.size, ?_⟩
  rw [hlost, hW.lost, slotOps_lost, ha.1]
  rfl

/-- One more step towards having every connection leased: finish a call, or start one. -/
theorem whole_progress {n : Nat} (hW : Whole n s) : s.held = n ∨
    ∃ a s', PoolAction.healthy a ∧ s.step a = some s' ∧
      2 * s'.idle.length + s'.pending < 2 * s.idle.length + s.pending := by
  have hlost : s.throwing + (s.poolSize - (s.idle.length + s.inUse)) = 0 := hW.lost
  obtain ⟨huse, hle⟩ := hW.accounts
  have hsize := hW.size
  by_cases hp : 0 < s.pending
  · right
    obtain ⟨i, a, hi, ha⟩ := exists_getElem?_of_countP_pos hp
    cases a with
    | pinging c =>
      refine ⟨.pingOk i, _, ⟨rfl, rfl⟩, by simp only [Pool.step, hi]; rfl, ?_⟩
      have := countP_set_add Acquire.underWay .done hi
      simp only [Acquire.underWay, Bool.toNat_true, Bool.toNat_false] at this
      simp only [Pool.pending]
      omega
    | replacing =>
      refine ⟨.reconnect i, _, ⟨rfl, rfl⟩, by simp only [Pool.step, hi]; rfl, ?_⟩
      have := countP_set_add Acquire.underWay .done hi
      simp only [Acquire.underWay, Bool.toNat_true, Bool.toNat_false] at this
      simp only [Pool.pending]
      omega
    | throwing =>
      have : 0 < s.throwing := countP_pos_of_getElem? hi rfl
      omega
    | done => cases ha
  · cases hidle : s.idle with
    | nil =>
      left
      rw [hidle, List.length_nil] at hlost hle
      omega
    | cons c rest =>
      right
      refine ⟨.take, _, ⟨rfl, rfl⟩, by simp only [Pool.step, hW.running, hidle]; rfl, ?_⟩
      simp only [Pool.pending, countP_push, Acquire.underWay, Bool.toNat_true, List.length_cons]
      omega

/-- A whole pool can hand out all its connections. -/
theorem canHandOut_of_whole {n : Nat} (hW : Whole n s) : s.CanHandOut n :=
  Leads.of_measure (I := Whole n) (fun s => 2 * s.idle.length + s.pending)
    (fun s hW => by
      rcases whole_progress hW with h | ⟨a, s', ha, hs, hlt⟩
      · exact Or.inl h
      · exact Or.inr ⟨a, s', ha, hs, whole_step hW ha hs, hlt⟩) hW

/-- With a slot lost, the pool never again has `pool_size` leases live at once. -/
theorem lost_eq_zero_of_canHandOut (hA : Accounts s) (hs : s.stopping = false)
    (h : s.CanHandOut s.poolSize) : s.ledger.lost = 0 := by
  obtain ⟨as, t, hown, hr, ht⟩ := h
  have hts : t.stopping = false :=
    run_invariant (I := fun s => s.stopping = false)
      (fun s a s' ha hI hstep => by rw [stopping_step hstep, hI, (hown a ha).2]; rfl) hs hr
  obtain ⟨⟨hAt, -⟩, ops, hops, -⟩ := poolLedger.run_count slotOps_lost ⟨hA, hs⟩ (run_open hr hts)
  have htot := (SlotLedger.run_spec hops).1
  change t.ledger.total = s.ledger.total at htot
  refine SlotLedger.lost_eq_zero_of_all_out hops ?_
  change t.inUse - t.throwing = s.ledger.total
  rw [ledger_total hAt, ledger_total hA] at htot
  rw [ledger_total hA]
  have := hAt.inUse_eq
  have := hAt.bounded
  have := t.throwing_le_pending
  omega

/--
**The pool keeps its slots exactly when no reconnect fails.**

For every interleaving that does not shut the pool down: `idle.size() + in_use` is the
configured size and all the connections can be handed out again if and only if
`createConnection` never threw inside `ensureHealthy`.
-/
theorem slots_restored_iff (n : Nat) (as : List PoolAction) (s : Pool)
    (h : run Pool.step (Pool.fresh n) as = some s) (hs : s.stopping = false) :
    (s.idle.length + s.inUse = n ∧ s.CanHandOut n) ↔ ∀ a ∈ as, a.isReconnectFail = false := by
  obtain ⟨hA, hsize, hlost⟩ := run_lost h hs
  have hzero : s.ledger.lost = 0 ↔ ∀ a ∈ as, a.isReconnectFail = false := by
    rw [hlost, List.countP_eq_zero]
    simp
  rw [← hzero]
  constructor
  · rintro ⟨-, hout⟩
    exact lost_eq_zero_of_canHandOut hA hs (hsize ▸ hout)
  · intro h0
    refine ⟨?_, canHandOut_of_whole ⟨hA, hs, hsize, h0⟩⟩
    have : s.throwing + (s.poolSize - (s.idle.length + s.inUse)) = 0 := h0
    have := hA.bounded
    omega

/-- A pool of one whose connection is replaced once and then leased. -/
theorem slots_restored_after_reconnect :
    let s : Pool := { poolSize := 1, idle := [], inUse := 1, stopping := false, calls := [.done],
                      leases := [some 1], opened := 2, closed := [0] }
    (s.idle.length + s.inUse = 1 ∧ s.CanHandOut 1) ↔
      ∀ a ∈ [PoolAction.take, .pingFail 0, .reconnect 0], a.isReconnectFail = false :=
  slots_restored_iff 1 [.take, .pingFail 0, .reconnect 0] _ (by decide) rfl

/-- A pool of one whose only connection fails its ping and its reconnect is left with nothing. -/
theorem slots_not_restored : ¬ ∀ (n : Nat) (as : List PoolAction) (s : Pool),
    run Pool.step (Pool.fresh n) as = some s → s.stopping = false →
      s.idle.length + s.inUse = n ∧ s.CanHandOut n := by
  intro h
  have hsum := (h 1 [.take, .pingFail 0, .reconnectFail 0 true, .rethrow 0] _ rfl rfl).1
  exact absurd hsum (by decide)

end MiniOj.Db
