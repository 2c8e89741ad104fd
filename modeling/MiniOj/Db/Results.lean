import MiniOj.Http.Handlers

/-!
# Result sets

The reading functions of `db/problem_dao.cpp` once more, with every `MYSQL_RES` they store and
free, with rows as cells of text, and with the conversions that can throw. What the pool and the
server answer to a call is given for each number of a call (`Database`), so that any of them may
fail.
-/

namespace MiniOj.Db.Results

open Infra

/-- What is thrown: an exception, or `std::out_of_range`. -/
inductive Thrown where
  | exn (e : Exn)
  | outOfRange (what : Bytes)
  deriving DecidableEq, Repr

/-- `MYSQL_ROW`; `none` for a null pointer. -/
abbrev Row := List (Option Bytes)

/-- The statements of the functions that read. -/
inductive Query where
  | problemList (filters : ProblemFilters)
  | problemDetail (problemId : UInt64)
  | adminProblemList
  | adminProblemDetail (problemId : UInt64)
  | tagNames (problemId : UInt64)
  | tagsWithId (problemId : UInt64)
  | samples (problemId : UInt64)
  | testcases (problemId : UInt64)
  deriving DecidableEq, Repr

/-- The calls of the MySQL client library, and the lease. -/
inductive Call where
  | acquire
  | release
  | query (query : Query)
  | storeResult
  | freeResult (res : Nat)
  deriving DecidableEq, Repr

/-- What each call gives back. -/
abbrev Call.Reply : Call → Type
  -- an exception of the pool
  | acquire => Except Exn Unit
  -- `mysql_error`
  | query _ => Except Bytes Unit
  -- a number for the `MYSQL_RES`, and its rows
  | storeResult => Except Bytes (Nat × List Row)
  | _ => Unit

/-- What is answered to the calls that can fail, by the number of the call. -/
structure Database where
  acquire : Nat → Except Exn Unit
  query : Nat → Except Bytes Unit
  store : Nat → Except Bytes (List Row)

/-- The results that have been obtained and freed. -/
structure Handles where
  /-- calls that can fail, so far -/
  calls : Nat := 0
  obtained : List Nat := []
  freed : List Nat := []
  deriving DecidableEq, Repr

/-- A `MYSQL_RES` is numbered by the call that stores it. -/
def Database.exec (db : Database) : (c : Call) → Handles → c.Reply × Handles
  | .acquire, h => (db.acquire h.calls, { h with calls := h.calls + 1 })
  | .release, h => ((), h)
  | .query _, h => (db.query h.calls, { h with calls := h.calls + 1 })
  | .storeResult, h =>
    match db.store h.calls with
    | .ok rows =>
      (.ok (h.calls, rows), { h with calls := h.calls + 1, obtained := h.calls :: h.obtained })
    | .error error => (.error error, { h with calls := h.calls + 1 })
  | .freeResult res, h => ((), { h with freed := res :: h.freed })

/-- A function that reads. -/
abbrev Reading := Program Call Call.Reply Thrown

/-! ## Calls -/

/-- The text of an exception for a failed call. -/
def failed (context : String) (error : Bytes) : Thrown :=
  .exn (runtimeError (utf8 (context ++ " failed: ") ++ error))

/-- `auto lease = pool.acquire()`. -/
def withLease {α : Type} (body : Reading α) : Reading α :=
  .call .acquire fun
    | .ok _ => body.andFinally (.call .release fun _ => .ret ())
    | .error e => .throw (.exn e)

/-- `executeQuery`: an error becomes an exception. -/
def executeQuery (query : Query) (context : String) : Reading Unit :=
  .call (.query query) fun
    | .ok _ => .ret ()
    | .error error => .throw (failed context error)

/-- `mysql_store_result`: a null pointer becomes an exception. -/
def storeResult (context : String) : Reading (Nat × List Row) :=
  .call .storeResult fun
    | .ok result => .ret result
    | .error error => .throw (failed context error)

/-- The result is freed behind the body, and no destructor does it. -/
def withResult {α : Type} (query : Query) (context store : String) (body : List Row → Reading α) :
    Reading α := do
  executeQuery query context
  let (res, rows) ← storeResult store
  let a ← body rows
  .call (.freeResult res) fun _ => .ret ()
  return a

/-! ## Conversions -/

/-- A column of a row. A null is an empty text. -/
def column (row : Row) (index : Nat) : Bytes := (row[index]?.getD none).getD []

/-- `std::stoull`, and `std::stoul` with 64 bits; what follows the digits is not looked at. -/
def parseNumber (function : String) (text : Bytes) : Except Thrown UInt64 :=
  let text := text.dropWhile Http.isSpace
  let negative := text.head? == some 45
  let digits := if negative || text.head? == some 43 then text.drop 1 else text
  let (value, count) := Http.readDigits 0 0 digits
  if count = 0 then .error (.exn (invalidArgument (utf8 function)))
  else if 2 ^ 64 ≤ value then .error (.outOfRange (utf8 function))
  else .ok (if negative then -.ofNat value else .ofNat value)

/-- A conversion may throw. -/
def convert {α : Type} : Except Thrown α → Reading α
  | .ok a => .ret a
  | .error e => .throw e

/-- `std::stoull` of a column. -/
def stoull (text : Bytes) : Reading UInt64 := convert (parseNumber "stoull" text)

/-- The value is cast to `std::uint32_t`. -/
def stoul (text : Bytes) : Reading UInt32 := do
  return (← convert (parseNumber "stoul" text)).toUInt32

/-- `parseDifficultyOrThrow` of a column. -/
def parseDifficultyOrThrow (value : Bytes) : Reading Difficulty :=
  convert ((parseDifficulty value).mapError .exn)

/-! ## Helpers -/

/-- `tagNamesForProblem`: the names alone. -/
def tagNamesForProblem (problemId : UInt64) : Reading (List Bytes) :=
  withResult (.tagNames problemId) "tag query" "tag query store" fun rows =>
    rows.mapM fun row => return column row 0

/-- `tagsWithIdForProblem`: names with ids. -/
def tagsWithIdForProblem (problemId : UInt64) : Reading (List Tag) :=
  withResult (.tagsWithId problemId) "tag query" "tag query store" fun rows =>
    rows.mapM fun row => do
      let id ← stoull (column row 0)
      return ⟨id.toNat, column row 1⟩

/-- `sampleTestcases`: the testcases shown to everybody. -/
def sampleTestcases (problemId : UInt64) : Reading (List TestCase) :=
  withResult (.samples problemId) "sample testcase query" "sample testcase store" fun rows =>
    rows.mapM fun row => do
      let id ← stoull (column row 0)
      let problemId ← stoull (column row 1)
      return ⟨id.toNat, problemId.toNat, column row 2, column row 3, true⟩

/-- `allTestcases`: those of the administration. -/
def allTestcases (problemId : UInt64) : Reading (List AdminTestCase) :=
  withResult (.testcases problemId) "testcase query" "testcase store" fun rows =>
    rows.mapM fun row => do
      let id ← stoull (column row 0)
      let problemId ← stoull (column row 1)
      let score ← stoul (column row 5)
      return ⟨id.toNat, problemId.toNat, column row 2, column row 3, column row 4 == utf8 "1", score⟩

/-! ## Reading problems -/

/-- The body of the loop of `listProblems`. -/
def summaryOf (row : Row) : Reading ProblemSummary := do
  let id ← stoull (column row 0)
  let difficulty ← parseDifficultyOrThrow (column row 2)
  let timeLimitMs ← stoul (column row 3)
  let memoryLimitMb ← stoul (column row 4)
  let tags ← tagNamesForProblem id
  return {
    id := id.toNat, title := column row 1, difficulty, timeLimitMs, memoryLimitMb, tags }

/-- `listProblems` with its two results at a time. -/
def listProblems (filters : ProblemFilters) : Reading (List ProblemSummary) :=
  withLease <| withResult (.problemList filters) "problem list query" "problem list store"
    fun rows => rows.mapM summaryOf

/-- The row of a problem on the public page. -/
def detailOf (row : Row) : Reading ProblemDetail := do
  let id ← stoull (column row 0)
  let difficulty ← parseDifficultyOrThrow (column row 3)
  let timeLimitMs ← stoul (column row 4)
  let memoryLimitMb ← stoul (column row 5)
  let sampleTestcases ← sampleTestcases id
  let tags ← tagsWithIdForProblem id
  return {
    id := id.toNat, title := column row 1, descriptionMd := column row 2, difficulty, timeLimitMs
    memoryLimitMb, sampleTestcases, tags }

/-- `getProblemDetail`: one row or none. -/
def getProblemDetail (problemId : UInt64) : Reading (Option ProblemDetail) :=
  withLease <| withResult (.problemDetail problemId) "problem detail query"
    "problem detail store" fun rows => rows.head?.mapM detailOf

/-- The row of a problem for the administration. -/
def fullOf (row : Row) : Reading AdminProblemDetail := do
  let id ← stoull (column row 0)
  let difficulty ← parseDifficultyOrThrow (column row 3)
  let timeLimitMs ← stoul (column row 4)
  let memoryLimitMb ← stoul (column row 5)
  let tags ← tagsWithIdForProblem id
  let testcases ← allTestcases id
  return {
    id := id.toNat, title := column row 1, descriptionMd := column row 2, difficulty, timeLimitMs
    memoryLimitMb, tags, testcases }

/-- `listFullProblems`: each row in full. -/
def listFullProblems : Reading (List AdminProblemDetail) :=
  withLease <| withResult .adminProblemList "admin problem list" "admin problem list store"
    fun rows => rows.mapM fullOf

/-- `getFullProblem`: one row or none. -/
def getFullProblem (problemId : UInt64) : Reading (Option AdminProblemDetail) :=
  withLease <| withResult (.adminProblemDetail problemId) "admin problem detail"
    "admin problem detail store" fun rows => rows.head?.mapM fullOf

end MiniOj.Db.Results
