import MiniOj.Http.Json

/-!
# JSON of the answers

`problem_dto.cpp`, `admin_dto.cpp` and `submission_dto.cpp`.
-/

namespace MiniOj.Dto

open Infra

/-- The names of the difficulties in requests and answers. -/
def difficultyToString : Difficulty → Bytes
  | .easy => utf8 "easy"
  | .medium => utf8 "medium"
  | .hard => utf8 "hard"

/-- `static_cast<Json::UInt64>` of an id. -/
def id (n : Nat) : Json := .uint (.ofNat n)

/-- A number of 32 bits. -/
def uint (n : UInt32) : Json := .uint n.toUInt64

/-- A tag of the administration. -/
def ofTag (tag : Tag) : Json := .object [(utf8 "id", id tag.id), (utf8 "name", .string tag.name)]

/-- A sample, as everybody sees it. -/
def ofTestCase (testcase : TestCase) : Json :=
  .object [
    (utf8 "id", id testcase.id),
    (utf8 "input", .string testcase.input),
    (utf8 "expected_output", .string testcase.expectedOutput)]

/-- An entry of the public list. Its tags are names. -/
def ofSummary (summary : ProblemSummary) : Json :=
  .object [
    (utf8 "id", id summary.id),
    (utf8 "title", .string summary.title),
    (utf8 "difficulty", .string (difficultyToString summary.difficulty)),
    (utf8 "time_limit_ms", uint summary.timeLimitMs),
    (utf8 "memory_limit_mb", uint summary.memoryLimitMb),
    (utf8 "tags", .array (summary.tags.map .string))]

/-- The public page of a problem. -/
def ofDetail (detail : ProblemDetail) : Json :=
  .object [
    (utf8 "id", id detail.id),
    (utf8 "title", .string detail.title),
    (utf8 "description_md", .string detail.descriptionMd),
    (utf8 "difficulty", .string (difficultyToString detail.difficulty)),
    (utf8 "time_limit_ms", uint detail.timeLimitMs),
    (utf8 "memory_limit_mb", uint detail.memoryLimitMb),
    (utf8 "tags", .array (detail.tags.map ofTag)),
    (utf8 "sample_testcases", .array (detail.sampleTestcases.map ofTestCase))]

/-- A testcase of the administration, with its score. -/
def ofAdminTestCase (testcase : AdminTestCase) : Json :=
  .object [
    (utf8 "id", id testcase.id),
    (utf8 "input", .string testcase.input),
    (utf8 "expected_output", .string testcase.expectedOutput),
    (utf8 "is_sample", .bool testcase.isSample),
    (utf8 "score", uint testcase.score)]

/-- An entry of the administration, with the hidden testcases. -/
def ofAdminDetail (detail : AdminProblemDetail) : Json :=
  .object [
    (utf8 "id", id detail.id),
    (utf8 "title", .string detail.title),
    (utf8 "description_md", .string detail.descriptionMd),
    (utf8 "difficulty", .string (difficultyToString detail.difficulty)),
    (utf8 "time_limit_ms", uint detail.timeLimitMs),
    (utf8 "memory_limit_mb", uint detail.memoryLimitMb),
    (utf8 "tags", .array (detail.tags.map ofTag)),
    (utf8 "testcases", .array (detail.testcases.map ofAdminTestCase))]

/-- The entry of a testcase. The two outputs are there for a wrong answer only. -/
def ofCaseResult (result : CaseResult) : Json :=
  .object ([
    (utf8 "index", uint result.index),
    (utf8 "verdict", .string (utf8 (verdictName result.verdict))),
    (utf8 "time_ms", uint result.timeMs),
    (utf8 "memory_mb", uint result.memoryMb)] ++
    if result.verdict = .WA then
      [(utf8 "expected", .string result.expected), (utf8 "actual", .string result.actual)]
    else [])

/-- The answer to a submission. -/
def ofSubmission (submission : SubmissionResult) : Json :=
  .object [
    (utf8 "verdict", .string (utf8 (verdictName submission.verdict))),
    (utf8 "time_ms", uint submission.timeMs),
    (utf8 "memory_mb", uint submission.memoryMb),
    (utf8 "compile_output", .string submission.compileOutput),
    (utf8 "per_case", .array (submission.perCase.map ofCaseResult))]

end MiniOj.Dto
