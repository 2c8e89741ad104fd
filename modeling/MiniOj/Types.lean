import MiniOj.Infra.Bytes

/-!
# Shared types

The types of `types.hpp` and C++ exceptions. Ids are natural numbers: all of them come from
`INT UNSIGNED` columns.
-/

namespace MiniOj

open Infra

/-! ## Exceptions -/

/-- Exception classes, all derived from `std::exception`. -/
inductive ExnKind where
  | invalidArgument
  | runtimeError
  /-- `Json::LogicError` -/
  | jsonLogicError
  /-- `Json::RuntimeError` -/
  | jsonRuntimeError
  /-- `db::UsernameExistsError` -/
  | usernameExists
  deriving DecidableEq, Repr

/-- A C++ exception: its kind and its text. -/
structure Exn where
  kind : ExnKind
  what : Bytes
  deriving DecidableEq, Repr

/-- `std::invalid_argument`. -/
def invalidArgument (message : Bytes) : Exn := ⟨.invalidArgument, message⟩

/-- `std::runtime_error`. -/
def runtimeError (message : Bytes) : Exn := ⟨.runtimeError, message⟩

/-! ## Problems -/

/-- The three difficulties. -/
inductive Difficulty where
  | easy
  | medium
  | hard
  deriving DecidableEq, Repr

/-- `parseDifficulty`: the names of the difficulties. -/
def parseDifficulty (value : Bytes) : Except Exn Difficulty :=
  if value = utf8 "easy" then .ok .easy
  else if value = utf8 "medium" then .ok .medium
  else if value = utf8 "hard" then .ok .hard
  else .error (invalidArgument (utf8 "invalid difficulty: " ++ value))

/-- A tag with its id. -/
structure Tag where
  id : Nat
  name : Bytes
  deriving DecidableEq, Repr

/-- A testcase as the judge and the page of a problem have it. -/
structure TestCase where
  id : Nat
  problemId : Nat
  input : Bytes
  expectedOutput : Bytes
  isSample : Bool
  deriving DecidableEq, Repr

/-- An entry of the public list. -/
structure ProblemSummary where
  id : Nat
  title : Bytes
  difficulty : Difficulty
  timeLimitMs : UInt32
  memoryLimitMb : UInt32
  tags : List Bytes
  deriving DecidableEq, Repr

/-- What everybody sees of a problem. -/
structure ProblemDetail where
  id : Nat
  title : Bytes
  descriptionMd : Bytes
  difficulty : Difficulty
  timeLimitMs : UInt32
  memoryLimitMb : UInt32
  sampleTestcases : List TestCase
  tags : List Tag
  deriving DecidableEq, Repr

/-- A testcase with its score. -/
structure AdminTestCase where
  id : Nat
  problemId : Nat
  input : Bytes
  expectedOutput : Bytes
  isSample : Bool
  score : UInt32
  deriving DecidableEq, Repr

/-- A problem in full. -/
structure AdminProblemDetail where
  id : Nat
  title : Bytes
  descriptionMd : Bytes
  difficulty : Difficulty
  timeLimitMs : UInt32
  memoryLimitMb : UInt32
  tags : List Tag
  testcases : List AdminTestCase
  deriving DecidableEq, Repr

/-- What the list is asked for. -/
structure ProblemFilters where
  difficulty : Option Difficulty := none
  tag : Option Bytes := none
  deriving DecidableEq, Repr

/-! ## Submissions -/

/-- The outcomes of a submission. -/
inductive Verdict where
  | AC
  | WA
  | TLE
  | CE
  | MLE
  | RE
  deriving DecidableEq, Repr

/-- The names of the verdicts in answers. -/
def verdictName : Verdict → String
  | .AC => "AC"
  | .WA => "WA"
  | .TLE => "TLE"
  | .CE => "CE"
  | .MLE => "MLE"
  | .RE => "RE"

/-- The outcome of one testcase. -/
structure CaseResult where
  index : UInt32
  verdict : Verdict
  timeMs : UInt32
  memoryMb : UInt32
  expected : Bytes
  actual : Bytes
  deriving DecidableEq, Repr

/-- The outcome of a submission. -/
structure SubmissionResult where
  verdict : Verdict
  timeMs : UInt32
  memoryMb : UInt32
  compileOutput : Bytes
  perCase : List CaseResult
  deriving DecidableEq, Repr

end MiniOj
