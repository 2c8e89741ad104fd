import MiniOj.Db.Properties.Storing
import MiniOj.Http.Backend

/-!
# Lost answers

A connection can be lost after the server has carried out a statement and before its answer
arrives. `mysql_query` then reports an error, and the statement has its effect all the same. For
the statements on the problem bank `Mysql.execLosing` says so; here the others follow.

* `Env.execLosing` — calls some of whose answers are lost
* `changeLosing_done`, `changeLosing_undone` — when a change takes place, and what its caller learns
* `run_withLease_held`, `run_withLease_refused` — a body with its lease
* `run_ofDao`, `run_withLease_ok`, `run_withLease_error` — the same where no answer is lost
-/

namespace MiniOj.Http

open Infra Db

variable {α : Type}

/-- What the caller is told when the answer is lost. -/
def Call.lose (error : Bytes) : (c : Call) → c.Reply → c.Reply
  | .selectProblems .., _ | .selectSamples _, _ | .selectUser _, _ | .insertUser .., _
  | .insertSession .., _ | .selectSessionUser _, _ | .deleteSession _, _ =>
    .error ⟨false, error⟩
  | .bank _, reply | .now, reply | .random _, reply | .rateLimit _, reply | .judge _, reply =>
    reply

/-- `lost n` is the error text when the answer to the `n`th call is lost. -/
def Env.execLosing (env : Env) (lost : Nat → Option Bytes) : (c : Call) → Backend →
    c.Reply × Backend
  | .bank st, b =>
    let (r, db) := env.mysql.execLosing lost st b.db
    (r, { b with db })
  | c, b =>
    match lost b.db.calls with
    | some error => (c.lose error (env.exec c b).1, (env.exec c b).2)
    | none => env.exec c b

/-- No answer is lost. -/
theorem execLosing_never (env : Env) : env.execLosing (fun _ => none) = env.exec := by
  funext c b
  cases c with
  | bank st =>
    unfold Env.execLosing Env.exec
    rw [Mysql.execLosing_never]
  | _ => rfl

variable {env : Env} {lost : Nat → Option Bytes} {b : Backend} {c : Call}

/-- The state after a call that has no effect but to be counted. -/
def Backend.counted (b : Backend) : Backend :=
  { b with db := { b.db with calls := b.db.calls + 1 } }

/-! ## Changes of users and sessions -/

section Changes

variable {effect : Nat → AccountTables → Except Refusal (α × AccountTables)}

/-- `Env.change` with an answer that may be lost. -/
def Env.changeLosing (env : Env) (lost : Nat → Option Bytes) (c : Call)
    (effect : Nat → AccountTables → Except Refusal (α × AccountTables)) (b : Backend) :
    Except SqlError α × Backend :=
  match lost b.db.calls with
  | some error => (.error ⟨false, error⟩, (env.change c effect b).2)
  | none => env.change c effect b

/-- The answer to a change that has taken place. -/
def answered (lost : Option Bytes) (a : α) : Except SqlError α :=
  match lost with
  | some error => .error ⟨false, error⟩
  | none => .ok a

/-- A change that is carried out, whatever becomes of the answer. -/
theorem changeLosing_done {a : α} {accounts : AccountTables}
    (hf : env.mysql.fails b.db.calls = none)
    (he : effect (env.mysql.clock b.db.calls) b.accounts = .ok (a, accounts)) :
    env.changeLosing lost c effect b =
      (answered (lost b.db.calls) a, { b.counted with accounts }) := by
  have hchange : env.change c effect b = (.ok a, { b.counted with accounts }) := by
    unfold Env.change
    rw [hf]
    dsimp only
    rw [he]
    rfl
  unfold Env.changeLosing answered
  rw [hchange]
  split <;> rfl

/-- A change that cannot be sent, or is refused, only counts as a call. -/
theorem changeLosing_undone (env : Env) (lost : Nat → Option Bytes) (c : Call)
    (effect : Nat → AccountTables → Except Refusal (α × AccountTables))
    (h : env.mysql.fails b.db.calls = none →
      ∀ x, effect (env.mysql.clock b.db.calls) b.accounts ≠ .ok x) :
    ∃ e, env.changeLosing lost c effect b = (.error e, b.counted) := by
  have hchange : ∃ e, env.change c effect b = (.error e, b.counted) := by
    unfold Env.change
    split
    · exact ⟨_, rfl⟩
    · next hf =>
      dsimp only
      split
      · next a accounts ha => exact absurd ha (h hf _)
      · exact ⟨_, rfl⟩
  obtain ⟨e, he⟩ := hchange
  unfold Env.changeLosing
  rw [he]
  split
  · exact ⟨_, rfl⟩
  · exact ⟨e, rfl⟩

theorem execLosing_insertUser (username passwordHash : Bytes) (role : Role) :
    env.execLosing lost (.insertUser username passwordHash role) b =
      env.changeLosing lost (.insertUser username passwordHash role) (fun now a =>
        a.insertUser env.mysql.weight now username passwordHash role) b := by
  unfold Env.execLosing Env.changeLosing
  dsimp only
  split <;> rfl

theorem execLosing_insertSession (id : Bytes) (userId expiresAt : Nat) :
    env.execLosing lost (.insertSession id userId expiresAt) b =
      env.changeLosing lost (.insertSession id userId expiresAt) (fun now a =>
        a.insertSession now id userId expiresAt) b := by
  unfold Env.execLosing Env.changeLosing
  dsimp only
  split <;> rfl

theorem execLosing_deleteSession (id : Bytes) :
    env.execLosing lost (.deleteSession id) b =
      env.changeLosing lost (.deleteSession id) (fun _ a => .ok (a.deleteSession id)) b := by
  unfold Env.execLosing Env.changeLosing
  dsimp only
  split <;> rfl

end Changes

/-! ## Other calls -/

theorem execLosing_bank (st : Statement) : env.execLosing lost (.bank st) b =
    ((env.mysql.execLosing lost st b.db).1,
      { b with db := (env.mysql.execLosing lost st b.db).2 }) := rfl

/-- Functions of the problem bank see the database alone. -/
theorem run_ofDao_losing (p : Dao α) : ∀ b : Backend, (ofDao p).run (env.execLosing lost) b =
    ((p.run (env.mysql.execLosing lost) b.db).1,
      { b with db := (p.run (env.mysql.execLosing lost) b.db).2 }) := by
  induction p with
  | ret a => exact fun b => rfl
  | throw e => exact fun b => rfl
  | call st k ih => exact fun b => ih _ _

theorem execLosing_now : env.execLosing lost .now b = (b.now, b) := by
  unfold Env.execLosing
  dsimp only
  split <;> rfl

theorem execLosing_random (bytes : Nat) :
    env.execLosing lost (.random bytes) b = (env.random b.db.calls bytes, b.counted) := by
  unfold Env.execLosing
  dsimp only
  split <;> rfl

/-! ## Leases -/

/-- A lease has been handed out. -/
def Backend.acquired (b : Backend) : Backend := { b with db := b.db.acquired }

/-- It has been given back. -/
def Backend.released (b : Backend) : Backend := { b with db := b.db.released }

/-- The lease is always given back. -/
theorem always_release_losing :
    Program.Always (env.execLosing lost) (ofDao (ignoring .release)) Backend.released :=
  fun _ => rfl

/-- With a lease, the body runs between the two steps of the pool. -/
theorem run_withLease_held {body : Handler α} (hf : env.mysql.fails b.db.calls = none) :
    (withLease body).run (env.execLosing lost) b =
      ((body.run (env.execLosing lost) b.acquired).1,
        (body.run (env.execLosing lost) b.acquired).2.released) := by
  refine (Program.run_call (env.execLosing lost) (.bank .acquire) _ b).trans ?_
  rw [execLosing_bank, Mysql.execLosing_of_not_answered rfl, Mysql.exec_of_quiet hf rfl]
  exact Program.run_andFinally always_release_losing b.acquired

/-- Without one, it does not run. -/
theorem run_withLease_refused (env : Env) (lost : Nat → Option Bytes) {body : Handler α}
    (hf : env.mysql.fails b.db.calls ≠ none) :
    ∃ e, (withLease body).run (env.execLosing lost) b = (.error e, b.counted) := by
  obtain ⟨e, he⟩ := Mysql.exec_error (m := env.mysql) (w := b.db) .acquire rfl
    fun h => absurd h hf
  refine ⟨runtimeError e, ?_⟩
  refine (Program.run_call (env.execLosing lost) (.bank .acquire) _ b).trans ?_
  rw [execLosing_bank, Mysql.execLosing_of_not_answered rfl, he]
  rfl

/-! ## Where no answer is lost -/

/-- A function of the DAOs does what it does without the rest of the backend. -/
theorem run_ofDao (p : Dao α) (b : Backend) : (ofDao p).run env.exec b =
    ((p.run env.mysql.exec b.db).1, { b with db := (p.run env.mysql.exec b.db).2 }) := by
  rw [← execLosing_never, run_ofDao_losing, Mysql.execLosing_never]

theorem run_withLease_ok {body : Handler α} (hf : env.mysql.fails b.db.calls = none) :
    (withLease body).run env.exec b =
      ((body.run env.exec b.acquired).1, (body.run env.exec b.acquired).2.released) := by
  rw [← execLosing_never]
  exact run_withLease_held hf

theorem run_withLease_error {body : Handler α} (hf : env.mysql.fails b.db.calls ≠ none) :
    ∃ e, (withLease body).run env.exec b = (.error e, b.counted) := by
  rw [← execLosing_never]
  exact run_withLease_refused env _ hf

end MiniOj.Http
