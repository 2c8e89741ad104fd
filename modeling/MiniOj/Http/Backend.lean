import MiniOj.Db.Accounts
import MiniOj.Db.SeedLoader
import MiniOj.Http.RateLimit

/-!
# What handlers call

The statements, clocks, random sources and other services that the code behind a request uses,
one `Call` each, and the state they act on. A handler is a program of such calls.

A call that concerns only the problem bank is one of the statements of `Db.Connection`.
-/

namespace MiniOj.Http

open Infra Db

/-- `judge::PipelineInput`. -/
structure PipelineInput where
  sourceCode : Bytes
  testcases : List TestCase
  runTimeoutMs : UInt32
  memoryLimitBytes : Nat
  outputLimitBytes : Nat := 16 * 1024 * 1024
  deriving DecidableEq, Repr

/-- What the handlers ask of everything around them. -/
inductive Call where
  | bank (st : Statement)
  | selectProblems (difficulty : Option Difficulty) (tag : Option Bytes)
  | selectSamples (problemId : Nat)
  | selectUser (username : Bytes)
  | insertUser (username passwordHash : Bytes) (role : Role)
  | insertSession (id : Bytes) (userId expiresAt : Nat)
  | selectSessionUser (id : Bytes)
  | deleteSession (id : Bytes)
  /-- `system_clock::now()` -/
  | now
  /-- so many bytes of `getrandom` or `/dev/urandom` -/
  | random (bytes : Nat)
  /-- `checkRateLimit` -/
  | rateLimit (req : Request)
  /-- `judge_pool.submit` and `get` of the future -/
  | judge (input : PipelineInput)
  deriving DecidableEq, Repr

/-- The error of a statement. -/
structure SqlError where
  /-- `isDuplicateKeyError` -/
  duplicateKey : Bool
  text : Bytes
  deriving DecidableEq, Repr

/-- What a call answers. -/
abbrev Call.Reply : Call → Type
  | bank st => Except Bytes st.Result
  | selectProblems .. => Except SqlError (List ProblemRow)
  | selectSamples _ => Except SqlError (List TestcaseRow)
  -- `mysql_insert_id`
  | insertUser .. => Except SqlError Nat
  | insertSession .. => Except SqlError Unit
  | selectUser _ | selectSessionUser _ => Except SqlError (Option UserRow)
  -- `mysql_affected_rows`
  | deleteSession _ => Except SqlError Nat
  -- in nanoseconds
  | now => Nat
  -- the text of the exception when the source fails
  | random _ => Except Bytes Bytes
  -- the response to a request that is refused
  | rateLimit _ => Option Response
  | judge _ => Except Bytes SubmissionResult

/-- The state behind the handlers, with the database as one connection sees it. -/
structure Backend where
  db : World
  accounts : AccountTables
  limiter : RateLimiter
  /-- in nanoseconds since 1970 -/
  now : Nat

/-- What is not in the state. -/
structure Env where
  mysql : Mysql
  /-- the error text for a statement on users or sessions that violates a constraint -/
  refusal : Call → Bytes
  /-- what the `n`th call reads from the random source -/
  random : Nat → Nat → Except Bytes Bytes
  /-- the result of the `n`th call, or the text of the exception -/
  judge : Nat → PipelineInput → Except Bytes SubmissionResult

/-- `UTC_TIMESTAMP()`. -/
def Backend.utc (b : Backend) : Nat := b.now / 10 ^ 9

namespace Env

variable (env : Env)

/-- A query on users, sessions or the list of problems. -/
def query {α : Type} (answer : Backend → α) (b : Backend) : Except SqlError α × Backend :=
  let next : Backend := { b with db := { b.db with calls := b.db.calls + 1 } }
  match env.mysql.fails b.db.calls with
  | some error => (.error ⟨false, error⟩, next)
  | none => (.ok (answer b), next)

/-- A statement that changes users or sessions. One that fails has no effect. -/
def change {α : Type} (c : Call) (effect : Nat → AccountTables → Except Refusal (α × AccountTables))
    (b : Backend) : Except SqlError α × Backend :=
  let next : Backend := { b with db := { b.db with calls := b.db.calls + 1 } }
  match env.mysql.fails b.db.calls with
  | some error => (.error ⟨false, error⟩, next)
  | none =>
    match effect (env.mysql.clock b.db.calls) b.accounts with
    | .ok (a, accounts) => (.ok a, { next with accounts })
    | .error refusal => (.error ⟨refusal == .duplicateKey, env.refusal c⟩, next)

/-- What a call answers and does. -/
def exec : (c : Call) → Backend → c.Reply × Backend
  | .bank st, b =>
    let (r, db) := env.mysql.exec st b.db
    (r, { b with db })
  | .selectProblems difficulty tag, b =>
    env.query (fun b => b.db.view.problemsWith env.mysql.weight difficulty tag) b
  | .selectSamples problemId, b => env.query (fun b => b.db.view.samplesOf problemId) b
  | .selectUser username, b =>
    env.query (fun b => b.accounts.userByName env.mysql.weight username) b
  | .insertUser username passwordHash role, b =>
    env.change (.insertUser username passwordHash role) (fun now a =>
      a.insertUser env.mysql.weight now username passwordHash role) b
  | .insertSession id userId expiresAt, b =>
    env.change (.insertSession id userId expiresAt) (fun now a =>
      a.insertSession now id userId expiresAt) b
  | .selectSessionUser id, b => env.query (fun b => b.accounts.sessionUser id b.utc) b
  | .deleteSession id, b =>
    env.change (.deleteSession id) (fun _ a => .ok (a.deleteSession id)) b
  | .now, b => (b.now, b)
  | .random bytes, b =>
    (env.random b.db.calls bytes, { b with db := { b.db with calls := b.db.calls + 1 } })
  | .rateLimit req, b =>
    let (refused, limiter) := checkRateLimit b.limiter (b.now / 10 ^ 9) req
    (refused, { b with limiter })
  | .judge input, b =>
    (env.judge b.db.calls input, { b with db := { b.db with calls := b.db.calls + 1 } })

variable {env} {α : Type} {answer : Backend → α} {c : Call} {b : Backend}
  {effect : Nat → AccountTables → Except Refusal (α × AccountTables)}

theorem query_snd :
    (env.query answer b).2 = { b with db := { b.db with calls := b.db.calls + 1 } } := by
  unfold query
  split <;> rfl

theorem exec_selectSessionUser (id : Bytes) : env.exec (.selectSessionUser id) b =
    env.query (fun b => b.accounts.sessionUser id b.utc) b := rfl

theorem query_of_quiet (hf : env.mysql.fails b.db.calls = none) : env.query answer b =
    (.ok (answer b), { b with db := { b.db with calls := b.db.calls + 1 } }) := by
  unfold query
  rw [hf]

theorem query_error (env : Env) (answer : Backend → α) {b : Backend}
    (hf : env.mysql.fails b.db.calls ≠ none) : ∃ e, env.query answer b =
    (.error e, { b with db := { b.db with calls := b.db.calls + 1 } }) := by
  obtain ⟨error, he⟩ := Option.ne_none_iff_exists'.mp hf
  unfold query
  rw [he]
  exact ⟨_, rfl⟩

/-- A query that is answered is answered by the rows. -/
theorem query_ok {a : α} (h : (env.query answer b).1 = .ok a) : a = answer b := by
  unfold query at h
  split at h <;> cases h
  rfl

/-- A change that fails or is refused leaves the rows as they are. -/
theorem change_cases (env : Env) (c : Call)
    (effect : Nat → AccountTables → Except Refusal (α × AccountTables)) (b : Backend) :
    (∃ a accounts, effect (env.mysql.clock b.db.calls) b.accounts = .ok (a, accounts) ∧
      env.change c effect b = (.ok a,
        { b with db := { b.db with calls := b.db.calls + 1 }, accounts })) ∨
    ∃ error, env.change c effect b = (.error error,
      { b with db := { b.db with calls := b.db.calls + 1 } }) := by
  unfold change
  split
  · exact .inr ⟨_, rfl⟩
  · dsimp only
    split
    · next a accounts h => exact .inl ⟨a, accounts, h, rfl⟩
    · exact .inr ⟨_, rfl⟩

/-- No call takes time. -/
theorem exec_now : (env.exec c b).2.now = b.now := by
  have hchange : ∀ {α : Type} (effect : Nat → AccountTables → Except Refusal (α × AccountTables)),
      (env.change c effect b).2.now = b.now := fun effect => by
    rcases change_cases env c effect b with ⟨a, accounts, -, h⟩ | ⟨error, h⟩ <;> rw [h]
  cases c with
  | selectProblems | selectSamples | selectUser | selectSessionUser =>
    unfold exec
    rw [query_snd]
  | insertUser | insertSession | deleteSession => exact hchange _
  | bank | now | random | rateLimit | judge => rfl

end Env

/-! ## Handlers -/

/-- Code behind a request. -/
abbrev Handler := Program Call Call.Reply Exn

/-- A function that uses the problem bank only. -/
def ofDao {α : Type} : Dao α → Handler α
  | .ret a => .ret a
  | .throw e => .throw e
  | .call st k => .call (.bank st) fun r => ofDao (k r)

/-- An exception of a parser is thrown. -/
def ofExcept {α : Type} : Except Exn α → Handler α
  | .ok a => .ret a
  | .error e => .throw e

/-- The body runs with a lease of the pool. -/
def withLease {α : Type} (body : Handler α) : Handler α :=
  .call (.bank .acquire) fun
    | .ok _ => body.andFinally (ofDao (ignoring .release))
    | .error e => .throw (runtimeError e)

/-- `throw std::runtime_error(context + " failed: " + mysql_error(…))` when the call fails. -/
def orThrow {α : Type} (context : String) : Except SqlError α → Handler α
  | .ok a => .ret a
  | .error e => .throw (runtimeError (utf8 (context ++ " failed: ") ++ e.text))

/-- The result is stored and freed by the same function. -/
def freed {α : Type} (store : String) (rows : α) : Handler α := do
  let res ← ofDao (executeQuery .storeResult store)
  ofDao (ignoring (.freeResult res))
  return rows

end MiniOj.Http
