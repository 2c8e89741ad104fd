import MiniOj.Db.Bank
import MiniOj.Infra.Program

/-!
# Statements on a connection

What the DAOs send to MySQL, one `Statement` per call into the client library, and what each
does to the database. A DAO function is a program of such calls (`Dao`), so that a statement
may fail at any point and statements of other connections may come in between.

Outside a transaction each statement commits at once. A transaction works on its own copy of
the rows until `COMMIT`.

* `Mysql.exec` — a call that is carried out and answered, or has no effect
* `Mysql.execLosing` — the answer may also be lost
-/

namespace MiniOj.Db

open Infra

/-- What the DAOs ask of the pool and of the connection. -/
inductive Statement where
  /-- `pool.acquire()` -/
  | acquire
  /-- the lease is destroyed -/
  | release
  | startTransaction
  | commit
  | rollback
  | insertProblem (title descriptionMd : Bytes) (difficulty : Difficulty)
      (timeLimitMs memoryLimitMb : UInt32)
  | upsertTag (name : Bytes)
  | linkTag (problemId tagId : Nat)
  | insertTestcase (problemId : Nat) (input expectedOutput : Bytes) (isSample : Bool)
      (score : UInt32)
  | updateProblem (id : Nat) (title descriptionMd : Bytes) (difficulty : Difficulty)
      (timeLimitMs memoryLimitMb : UInt32)
  | deleteProblem (id : Nat)
  | deleteTestcases (problemId : Nat)
  | deleteProblemTags (problemId : Nat)
  /-- `DELETE FROM t` -/
  | deleteAll (t : Table)
  /-- `ALTER TABLE t AUTO_INCREMENT = 1`; commits an open transaction -/
  | resetAutoIncrement (t : Table)
  | selectExists (id : Nat)
  | selectProblem (id : Nat)
  | selectTags (problemId : Nat)
  | selectTestcases (problemId : Nat)
  /-- `mysql_store_result` after a query; the reply numbers the `MYSQL_RES` -/
  | storeResult
  /-- `mysql_free_result` -/
  | freeResult (result : Nat)
  deriving DecidableEq, Repr

/-- What a statement that succeeds answers. -/
abbrev Statement.Result : Statement → Type
  -- `mysql_insert_id`
  | insertProblem .. | upsertTag _ => Nat
  -- `mysql_affected_rows`
  | deleteProblem _ => Nat
  | selectExists _ => Bool
  | selectProblem _ => Option ProblemRow
  | selectTags _ => List TagRow
  | selectTestcases _ => List TestcaseRow
  | storeResult => Nat
  | _ => Unit

/-- The server, the pool and the client library beyond what is in the tables. -/
structure Mysql where
  /-- `WEIGHT_STRING` under `utf8mb4_0900_ai_ci` -/
  weight : Bytes → Bytes
  /-- `CURRENT_TIMESTAMP` of the `n`th call -/
  clock : Nat → Nat
  /-- the `n`th call fails with this error text -/
  fails : Nat → Option Bytes
  /-- the error text for a statement that violates a constraint -/
  refusal : Statement → Bytes

/-- A server on which nothing fails and text is compared byte by byte. -/
def Mysql.healthy : Mysql where
  weight := id
  clock := fun _ => 0
  fails := fun _ => none
  refusal := fun _ => []

/-- The database as one connection sees it. -/
structure World where
  /-- committed rows -/
  bank : Bank
  /-- the rows of the open transaction -/
  work : Option Bank
  next : Counters
  /-- calls made so far -/
  calls : Nat
  /-- connections acquired and not yet released -/
  held : Nat
  /-- results stored so far, and those freed -/
  results : List Nat
  freed : List Nat
  deriving DecidableEq, Repr

/-- A database with these rows and nothing going on. -/
def World.resting (bank : Bank) (next : Counters) : World where
  bank
  work := none
  next
  calls := 0
  held := 0
  results := []
  freed := []

namespace World

variable (w : World)

/-- The rows the next statement sees. -/
def view : Bank := w.work.getD w.bank

/-- What a statement of this connection works on. -/
def store : Store := ⟨w.view, w.next⟩

/-- A statement has changed rows: inside a transaction its copy, otherwise the database. -/
def setRows (b : Bank) : World :=
  match w.work with
  | some _ => { w with work := some b }
  | none => { w with bank := b }

/-- A statement has changed rows and counters. -/
def setStore (s : Store) : World := { w.setRows s.rows with next := s.next }

end World

/-- Calls whose outcome the code does not look at. When a `ROLLBACK` cannot be sent the server
rolls back the lost connection. -/
def Statement.Infallible : Statement → Bool
  | release | rollback | freeResult _ => true
  | _ => false

/-- `mysql_query` with an outcome that the code looks at: it waits for an answer, which may get
lost. -/
def Statement.Answered : Statement → Bool
  | acquire | release | rollback | storeResult | freeResult _ => false
  | _ => true

namespace Mysql

variable (m : Mysql)

/-- The effect of a statement that is carried out; `none` when a constraint is violated. -/
def perform (w : World) : (s : Statement) → Option (s.Result × World)
  | .acquire => some ((), { w with held := w.held + 1 })
  | .release => some ((), { w with held := w.held - 1 })
  | .startTransaction => some ((), { w with bank := w.view, work := some w.view })
  | .commit => some ((), { w with bank := w.view, work := none })
  | .rollback => some ((), { w with work := none })
  | .insertProblem title descriptionMd difficulty timeLimitMs memoryLimitMb =>
    (w.store.insertProblem (m.clock w.calls) title descriptionMd difficulty timeLimitMs
      memoryLimitMb).map fun (id, s) => (id, w.setStore s)
  | .upsertTag name => (w.store.upsertTag m.weight name).map fun (id, s) => (id, w.setStore s)
  | .linkTag problemId tagId =>
    (w.store.linkTag problemId tagId).map fun s => ((), w.setStore s)
  | .insertTestcase problemId input expectedOutput isSample score =>
    (w.store.insertTestcase (m.clock w.calls) problemId input expectedOutput isSample score).map
      fun s => ((), w.setStore s)
  | .updateProblem id title descriptionMd difficulty timeLimitMs memoryLimitMb =>
    (w.view.updateProblem (m.clock w.calls) id title descriptionMd difficulty timeLimitMs
      memoryLimitMb).map fun b => ((), w.setRows b)
  | .deleteProblem id =>
    some ((w.view.problems.countP fun p => p.id == id),
      w.setRows (w.view.deleteProblems fun p => p.id == id))
  | .deleteTestcases problemId => some ((), w.setRows (w.view.deleteTestcases problemId))
  | .deleteProblemTags problemId => some ((), w.setRows (w.view.deleteProblemTags problemId))
  | .deleteAll t => some ((), w.setRows (w.view.deleteAll t))
  | .resetAutoIncrement t =>
    some ((), { w with bank := w.view, work := none, next := w.store.resetAutoIncrement t })
  | .selectExists id => some ((w.view.problem? id).isSome, w)
  | .selectProblem id => some (w.view.problem? id, w)
  | .selectTags problemId => some (w.view.tagsOf m.weight problemId, w)
  | .selectTestcases problemId => some (w.view.testcasesOf problemId, w)
  | .storeResult => some (w.calls, { w with results := w.calls :: w.results })
  | .freeResult result => some ((), { w with freed := result :: w.freed })

/-- One call. A statement that fails has no effect (`execLosing` is for the others). -/
def exec (s : Statement) (w : World) : Except Bytes s.Result × World :=
  let tick (w : World) : World := { w with calls := w.calls + 1 }
  match if s.Infallible then none else m.fails w.calls with
  | some error => (.error error, tick w)
  | none =>
    match m.perform w s with
    | some (r, w') => (.ok r, tick w')
    | none => (.error (m.refusal s), tick w)

/-- Calls some of whose answers are lost with the connection: `lost n` is the error text for the
`n`th. The server has carried out the statement all the same; then it rolls back what the
connection has open. -/
def execLosing (lost : Nat → Option Bytes) (s : Statement) (w : World) :
    Except Bytes s.Result × World :=
  match if s.Answered then lost w.calls else none with
  | some error => (.error error, { (m.exec s w).2 with work := none })
  | none => m.exec s w

variable {m} {lost : Nat → Option Bytes} {s : Statement} {w : World}

theorem execLosing_of_none (h : lost w.calls = none) : m.execLosing lost s w = m.exec s w := by
  unfold execLosing
  rw [h, ite_self]

theorem execLosing_of_not_answered (h : s.Answered = false) :
    m.execLosing lost s w = m.exec s w := by
  unfold execLosing
  rw [h]
  rfl

theorem execLosing_of_some {error : Bytes} (hs : s.Answered = true)
    (h : lost w.calls = some error) :
    m.execLosing lost s w = (.error error, { (m.exec s w).2 with work := none }) := by
  unfold execLosing
  rw [hs, h]
  rfl

/-- No answer is lost. -/
theorem execLosing_never (m : Mysql) : m.execLosing (fun _ => none) = m.exec :=
  funext fun _ => funext fun _ => execLosing_of_none rfl

end Mysql

/-! ## Programs -/

/-- A function that talks to the database; an exception leaves it. -/
abbrev Dao := Program Statement (fun s => Except Bytes s.Result) Exn

/-- `if (mysql_query(…) != 0) throw std::runtime_error(context + " failed: " + mysql_error(…))`. -/
def executeQuery (s : Statement) (context : String) : Dao s.Result :=
  .call s fun
    | .ok r => .ret r
    | .error e => .throw (runtimeError (utf8 (context ++ " failed: ") ++ e))

/-- A call whose outcome is not looked at. -/
def ignoring (s : Statement) : Dao Unit := .call s fun _ => .ret ()

/-- The body runs with a lease of the pool. -/
def withLease {α : Type} (body : Dao α) : Dao α :=
  .call .acquire fun
    | .ok _ => body.andFinally (ignoring .release)
    | .error e => .throw (runtimeError e)

/-- A `Transaction` that is committed at the end of the body and whose destructor rolls back
when that has not happened. -/
def transaction {α : Type} (body : Dao α) : Dao α := do
  executeQuery .startTransaction "transaction start"
  Program.onThrow (do
    let a ← body
    executeQuery .commit "commit"
    return a) (ignoring .rollback)

end MiniOj.Db
