import MiniOj.Http.Backend

/-!
# Lists of problems

`listProblems`, `getProblemDetail` and `listFullProblems` (`db/problem_dao.cpp`). The result of
the first query is freed only when the queries for its rows have not thrown.
-/

namespace MiniOj.Db

open Infra Http

/-- The tags of `tagsWithIdForProblem`, without the ids. -/
def tagNamesForProblem (problemId : Nat) : Dao (List Bytes) := do
  let rows : List TagRow ← rowsOf (.selectTags problemId) "tag query" "tag query store"
  return rows.map TagRow.name

/-- The row as the list has it, once its tags are there. -/
def summaryOf (p : ProblemRow) : Dao ProblemSummary := do
  let tags ← tagNamesForProblem p.id
  return {
    id := p.id
    title := p.title
    difficulty := p.difficulty
    timeLimitMs := p.timeLimitMs
    memoryLimitMb := p.memoryLimitMb
    tags }

/-- The problems that pass the filters, by id. -/
def listProblems (filters : ProblemFilters) : Handler (List ProblemSummary) :=
  Http.withLease do
    let rows : List ProblemRow ←
      .call (.selectProblems filters.difficulty filters.tag) (orThrow "problem list query")
    let res ← ofDao (executeQuery .storeResult "problem list store")
    let summaries ← rows.mapM fun p => ofDao (summaryOf p)
    ofDao (ignoring (.freeResult res))
    return summaries

/-- The sample testcases of a problem. -/
def sampleTestcases (problemId : Nat) : Handler (List TestCase) := do
  let rows : List TestcaseRow ←
    .call (.selectSamples problemId) (orThrow "sample testcase query")
  freed "sample testcase store" (rows.map fun c =>
    ⟨c.id, c.problemId, c.input, c.expectedOutput, true⟩)

/-- The row as its page has it. -/
def problemDetailOf (p : ProblemRow) : Handler ProblemDetail := do
  let sampleTestcases ← sampleTestcases p.id
  let tags ← ofDao (tagsWithIdForProblem p.id)
  return {
    id := p.id
    title := p.title
    descriptionMd := p.descriptionMd
    difficulty := p.difficulty
    timeLimitMs := p.timeLimitMs
    memoryLimitMb := p.memoryLimitMb
    sampleTestcases, tags }

/-- `none` when there is no such problem. -/
def getProblemDetail (problemId : Nat) : Handler (Option ProblemDetail) :=
  Http.withLease do
    let row : Option ProblemRow ←
      ofDao (executeQuery (.selectProblem problemId) "problem detail query")
    let res ← ofDao (executeQuery .storeResult "problem detail store")
    let result ← row.mapM problemDetailOf
    ofDao (ignoring (.freeResult res))
    return result

/-- All problems with all their testcases. -/
def listFullProblems : Handler (List AdminProblemDetail) :=
  Http.withLease do
    let rows : List ProblemRow ← .call (.selectProblems none none) (orThrow "admin problem list")
    let res ← ofDao (executeQuery .storeResult "admin problem list store")
    let result ← rows.mapM fun p => ofDao (detailOf p)
    ofDao (ignoring (.freeResult res))
    return result

end MiniOj.Db
