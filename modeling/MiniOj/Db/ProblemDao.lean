import MiniOj.Db.Connection
import MiniOj.Http.AdminRequest

/-!
# The problem DAO

The functions of `db/problem_dao.cpp` that store, change and read whole problems.
-/

namespace MiniOj.Db

open Infra Admin

/-! ## Reading -/

/-- The rows of a query whose result is stored and freed by the same function. -/
def rowsOf (s : Statement) (context store : String) : Dao s.Result := do
  let rows ← executeQuery s context
  let res ← executeQuery .storeResult store
  ignoring (.freeResult res)
  return rows

/-- The tags of a problem by name. -/
def tagsWithIdForProblem (problemId : Nat) : Dao (List Tag) := do
  let rows : List TagRow ← rowsOf (.selectTags problemId) "tag query" "tag query store"
  return rows.map fun t => ⟨t.id, t.name⟩

/-- The testcases of a problem by id, the hidden ones among them. -/
def allTestcases (problemId : Nat) : Dao (List AdminTestCase) := do
  let rows : List TestcaseRow ← rowsOf (.selectTestcases problemId) "testcase query" "testcase store"
  return rows.map fun c =>
    ⟨c.id, c.problemId, c.input, c.expectedOutput, c.isSample, c.score⟩

/-- Whether there is a row with this id. -/
def problemExists (problemId : Nat) : Dao Bool :=
  rowsOf (.selectExists problemId) "existence check" "existence store"

/-- The row is converted when the other two queries are yet to come. -/
def detailOf (p : ProblemRow) : Dao AdminProblemDetail := do
  let tags ← tagsWithIdForProblem p.id
  let testcases ← allTestcases p.id
  return {
    id := p.id
    title := p.title
    descriptionMd := p.descriptionMd
    difficulty := p.difficulty
    timeLimitMs := p.timeLimitMs
    memoryLimitMb := p.memoryLimitMb
    tags, testcases }

/-- The result of the first query is freed only when the other two have not thrown. -/
def getFullProblem (problemId : Nat) : Dao (Option AdminProblemDetail) :=
  withLease do
    let row : Option ProblemRow ← executeQuery (.selectProblem problemId) "admin problem detail"
    let res ← executeQuery .storeResult "admin problem detail store"
    let result ← row.mapM detailOf
    ignoring (.freeResult res)
    return result

/-! ## Writing -/

/-- Each name gets its tag, and the tag is linked. -/
def insertProblemTags (problemId : Nat) (tags : List Bytes) : Dao Unit :=
  tags.forM fun name => do
    let tagId ← executeQuery (.upsertTag name) "tag upsert"
    executeQuery (.linkTag problemId tagId) "problem_tag link"

/-- One insert for each. -/
def insertTestcases (problemId : Nat) (cases : List TestCaseInput) : Dao Unit :=
  cases.forM fun c =>
    executeQuery (.insertTestcase problemId c.input c.expectedOutput c.isSample c.score)
      "testcase insert"

/-- The old ones are deleted, the new ones inserted. -/
def replaceTagsAndTestcases (problemId : Nat) (input : ProblemInput) : Dao Unit := do
  executeQuery (.deleteProblemTags problemId) "problem_tag delete"
  insertProblemTags problemId input.tags
  executeQuery (.deleteTestcases problemId) "testcase delete"
  insertTestcases problemId input.testcases

/-- The id of the new problem. Everything is in one transaction. -/
def createProblem (input : ProblemInput) : Dao Nat :=
  withLease <| transaction do
    let problemId ← executeQuery (.insertProblem input.title input.descriptionMd input.difficulty
      input.timeLimitMs input.memoryLimitMb) "problem insert"
    insertProblemTags problemId input.tags
    insertTestcases problemId input.testcases
    return problemId

/-- `false` when there is no such problem. -/
def updateProblem (problemId : Nat) (input : ProblemInput) : Dao Bool :=
  withLease do
    if ← problemExists problemId then
      transaction do
        executeQuery (.updateProblem problemId input.title input.descriptionMd input.difficulty
          input.timeLimitMs input.memoryLimitMb) "problem update"
        replaceTagsAndTestcases problemId input
      return true
    else return false

/-- `false` when there was no such problem. -/
def deleteProblem (problemId : Nat) : Dao Bool :=
  withLease do
    let affected : Nat ← executeQuery (.deleteProblem problemId) "problem delete"
    return decide (0 < affected)

end MiniOj.Db
