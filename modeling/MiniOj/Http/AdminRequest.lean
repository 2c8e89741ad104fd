import MiniOj.Http.Json

/-!
# Problem bodies

`parseTestCaseInput` and `parseProblemInput` (`http/admin_request.cpp`), with the checks in
the order of the source.
-/

namespace MiniOj.Admin

open Infra

/-- A testcase of a request. Its id is checked and not used. -/
structure TestCaseInput where
  id : Option UInt64 := none
  input : Bytes
  expectedOutput : Bytes
  isSample : Bool := false
  score : UInt32 := 0
  deriving DecidableEq, Repr

/-- The body of a request that creates or changes a problem. -/
structure ProblemInput where
  title : Bytes
  descriptionMd : Bytes
  difficulty : Difficulty := .easy
  timeLimitMs : UInt32 := 500
  memoryLimitMb : UInt32 := 256
  tags : List Bytes
  testcases : List TestCaseInput
  deriving DecidableEq, Repr

/-- `throw std::invalid_argument(message)`. -/
def invalid {α : Type} (message : String) : Except Exn α := .error (invalidArgument (utf8 message))

/-- `requireString`: the member is there and is a text. -/
def requireString (body : Json) (key : String) : Except Exn Bytes :=
  match body.member? key with
  | none => invalid (key ++ " is required")
  | some (.string value) => .ok value
  | some _ => invalid (key ++ " must be a string")

/-- `requireUInt`: an integer that is not negative, cut to 32 bits. -/
def requireUInt (body : Json) (key : String) : Except Exn UInt32 :=
  match body.member? key with
  | none => invalid (key ++ " is required")
  | some field => do
    if !field.isIntegral then
      invalid (key ++ " must be an integer")
    if (← field.asInt64) < 0 then
      invalid (key ++ " must not be negative")
    -- `static_cast<std::uint32_t>`
    return (← field.asUInt64).toUInt32

/-- `parseTestCaseId`: the id that a testcase may have. -/
def parseTestCaseId : Json → Except Exn UInt64
  | id => do
    -- `asInt64` is reached only for an integral value
    if !id.isIntegral then
      invalid "testcase id must be a positive integer"
    if (← id.asInt64) ≤ 0 then
      invalid "testcase id must be a positive integer"
    id.asUInt64

/-- `parseTestCaseInput`: one element of `testcases`. -/
def parseTestCaseInput (body : Json) : Except Exn TestCaseInput := do
  if !body.isObject then
    invalid "testcase must be a JSON object"
  let id ← (body.member? "id").mapM parseTestCaseId
  let input ← requireString body "input"
  let expectedOutput ← requireString body "expected_output"
  let isSample ← match body.member? "is_sample" with
    | none => pure false
    | some (.bool b) => pure b
    | some _ => invalid "is_sample must be a boolean"
  let score ← match body.member? "score" with
    | none => pure 0
    | some _ => requireUInt body "score"
  return { id, input, expectedOutput, isSample, score }

/-- One element of `tags`. -/
def parseTag : Json → Except Exn Bytes
  | .string (b :: bs) => .ok (b :: bs)
  | _ => invalid "tag entries must be non-empty strings"

/-- `tags` may be left out. -/
def parseTags (body : Json) : Except Exn (List Bytes) :=
  match body.member? "tags" with
  | none => .ok []
  | some (.array tags) => tags.mapM parseTag
  | some _ => invalid "tags must be an array"

/-- There is at least one testcase. -/
def parseTestcases (body : Json) : Except Exn (List TestCaseInput) :=
  match body.member? "testcases" with
  | none => invalid "testcases is required"
  | some (.array cases) => do
    if cases.isEmpty then
      invalid "testcases must contain at least one entry"
    if cases.length > 1000 then
      invalid "testcases must not exceed 1000 entries"
    cases.mapM parseTestCaseInput
  | some _ => invalid "testcases must be an array"

/-- `parseProblemInput`: what is refused first is what is said. -/
def parseProblemInput (body : Json) : Except Exn ProblemInput := do
  if !body.isObject then
    invalid "body must be a JSON object"
  let title ← requireString body "title"
  if title.isEmpty then
    invalid "title must not be empty"
  if title.length > 255 then
    invalid "title must not exceed 255 characters"
  let descriptionMd ← requireString body "description_md"
  let difficulty ← parseDifficulty (← requireString body "difficulty")
  let timeLimitMs ← requireUInt body "time_limit_ms"
  if timeLimitMs = 0 then
    invalid "time_limit_ms must be greater than 0"
  let memoryLimitMb ← requireUInt body "memory_limit_mb"
  if memoryLimitMb = 0 then
    invalid "memory_limit_mb must be greater than 0"
  let tags ← parseTags body
  let testcases ← parseTestcases body
  return { title, descriptionMd, difficulty, timeLimitMs, memoryLimitMb, tags, testcases }

/-! ## What is accepted -/

/-- A parser that gets through has got through each of its steps. -/
theorem ok_of_bind {α β : Type} {x : Except Exn α} {f : α → Except Exn β} {b : β}
    (h : (x >>= f) = .ok b) : ∃ a, x = .ok a ∧ f a = .ok b := by
  cases x with
  | error e => cases h
  | ok a => exact ⟨a, rfl, h⟩

/-- A check that has been passed. -/
theorem ok_of_check {β : Type} {c : Prop} [Decidable c] {message : String}
    {f : Unit → Except Exn β} {b : β} (h : (if c then invalid message >>= f else f ()) = .ok b) :
    ¬ c ∧ f () = .ok b := by
  by_cases hc : c
  · rw [if_pos hc] at h
    cases h
  · rw [if_neg hc] at h
    exact ⟨hc, h⟩

/-- What every problem has that a request may store. -/
structure ProblemInput.Checked (input : ProblemInput) : Prop where
  title_ne : input.title ≠ []
  title_length : input.title.length ≤ 255
  timeLimitMs : 0 < input.timeLimitMs
  memoryLimitMb : 0 < input.memoryLimitMb

/-- What an accepted body has been checked for, and the parts it has been put together from. -/
theorem parseProblemInput_ok {body : Json} {input : ProblemInput}
    (h : parseProblemInput body = .ok input) :
    input.Checked ∧
      requireUInt body "time_limit_ms" = .ok input.timeLimitMs ∧
      requireUInt body "memory_limit_mb" = .ok input.memoryLimitMb ∧
      parseTags body = .ok input.tags ∧ parseTestcases body = .ok input.testcases := by
  unfold parseProblemInput at h
  obtain ⟨-, h⟩ := ok_of_check h
  obtain ⟨title, -, h⟩ := ok_of_bind h
  obtain ⟨hempty, h⟩ := ok_of_check h
  obtain ⟨hlong, h⟩ := ok_of_check h
  obtain ⟨descriptionMd, -, h⟩ := ok_of_bind h
  obtain ⟨difficultyName, -, h⟩ := ok_of_bind h
  obtain ⟨difficulty, -, h⟩ := ok_of_bind h
  obtain ⟨timeLimitMs, htime, h⟩ := ok_of_bind h
  obtain ⟨htime0, h⟩ := ok_of_check h
  obtain ⟨memoryLimitMb, hmemory, h⟩ := ok_of_bind h
  obtain ⟨hmemory0, h⟩ := ok_of_check h
  obtain ⟨tags, htags, h⟩ := ok_of_bind h
  obtain ⟨testcases, htestcases, h⟩ := ok_of_bind h
  cases h
  refine ⟨?_, htime, hmemory, htags, htestcases⟩
  exact {
    title_ne := fun h => hempty (List.isEmpty_iff.mpr h)
    title_length := Nat.le_of_not_lt hlong
    timeLimitMs := UInt32.pos_iff_ne_zero.mpr htime0
    memoryLimitMb := UInt32.pos_iff_ne_zero.mpr hmemory0 }

/-- **A problem that is parsed is fit to be stored.** -/
theorem checked_of_parseProblemInput {body : Json} {input : ProblemInput}
    (h : parseProblemInput body = .ok input) : input.Checked := (parseProblemInput_ok h).1

end MiniOj.Admin
