import MiniOj.Http.Backend
import MiniOj.Judge.Compiler
import Mathlib.Data.List.DropRight

/-!
# Judging a submission

`runPipeline` (`judge/pipeline.cpp`) and `outputsMatch` (`judge/diff.cpp`). The pipeline is a
program whose calls are the steps that reach the file system, the compiler and the submission.
-/

namespace MiniOj.Judge

open Infra
open Http (PipelineInput)

/-! ## Comparing outputs -/

/-- The four characters that `trimTrailingWhitespace` cuts. -/
def isTrailingSpace (ch : UInt8) : Bool := ch = 32 || ch = 9 || ch = 10 || ch = 13

/-- `trimTrailingWhitespace`: blanks at the end are cut. -/
def trimTrailingWhitespace (value : Bytes) : Bytes := value.rdropWhile isTrailingSpace

/-- `outputsMatch`: equal up to blanks at the end. -/
def outputsMatch (expected actual : Bytes) : Bool :=
  trimTrailingWhitespace expected == trimTrailingWhitespace actual

/-! ## The steps -/

/-- What the pipeline asks of the system. -/
inductive JudgingCall where
  | makeWorkDir
  | createDirectories (dir : Bytes)
  | compileSource (request : CompileRequest)
  | runBinary (request : RunRequest)
  | removeAll (dir : Bytes)
  deriving DecidableEq, Repr

/-- What it is told. -/
abbrev JudgingCall.Reply : JudgingCall → Type
  | makeWorkDir => Bytes
  -- `ec.message()` when there is an error
  | createDirectories _ => Option Bytes
  | compileSource _ => CompileResult
  | runBinary _ => RunResult
  | removeAll _ => Unit

/-- A program that asks for these. -/
abbrev Judging (ε α : Type) := Program JudgingCall JudgingCall.Reply ε α

variable {ε : Type}

/-- `operator/` of `std::filesystem::path`. -/
def pathJoin (dir name : Bytes) : Bytes :=
  if dir = [] ∨ dir.getLast? = some 47 then dir ++ name else dir ++ 47 :: name

/-- The name of a working directory: process and counter. -/
def workDirName (pid suffix : Nat) : Bytes :=
  utf8 ("minioj_pipeline_" ++ toString pid ++ "_" ++ toString suffix)

/-! ## Verdicts -/

/-- `mapRunStatus`: an `Ok` is settled by the output. -/
def mapRunStatus : RunStatus → Verdict
  | .ok => .AC
  | .timeout => .TLE
  | .memoryLimit => .MLE
  | .runtimeError => .RE
  | .spawnError => .RE

/-- `aggregateVerdict`: the first that is not `AC` stays. -/
def aggregateVerdict (overall next : Verdict) : Verdict :=
  if overall = .AC then next else overall

/-- The body of the loop after `runBinary`. -/
def caseResult (index : UInt32) (testcase : TestCase) (run : RunResult) : CaseResult :=
  if run.status ≠ .ok then
    { index, verdict := mapRunStatus run.status, timeMs := run.timeMs, memoryMb := run.memoryMb,
      expected := [], actual := [] }
  else if outputsMatch testcase.expectedOutput run.stdoutOutput then
    { index, verdict := .AC, timeMs := run.timeMs, memoryMb := run.memoryMb,
      expected := [], actual := [] }
  else
    { index, verdict := .WA, timeMs := run.timeMs, memoryMb := run.memoryMb,
      expected := testcase.expectedOutput, actual := run.stdoutOutput }

/-- What the loop changes. -/
structure LoopState where
  verdict : Verdict := .AC
  perCase : List CaseResult := []
  maxTime : UInt32 := 0
  maxMemory : UInt32 := 0
  deriving DecidableEq, Repr

/-- The body of the loop after the run. -/
def LoopState.push (l : LoopState) (testcase : TestCase) (run : RunResult) : LoopState :=
  let result := caseResult (.ofNat (l.perCase.length + 1)) testcase run
  { verdict := aggregateVerdict l.verdict result.verdict
    perCase := l.perCase ++ [result]
    maxTime := max l.maxTime run.timeMs
    maxMemory := max l.maxMemory run.memoryMb }

/-! ## The pipeline -/

/-- What is compiled. -/
def compileRequest (input : PipelineInput) (workDir : Bytes) : CompileRequest where
  sourceCode := input.sourceCode
  workingDirectory := workDir

/-- What is run for a testcase. -/
def runRequest (input : PipelineInput) (workDir : Bytes) (testcase : TestCase) : RunRequest where
  binaryPath := pathJoin workDir (utf8 "main.out")
  stdinContent := testcase.input
  timeLimit := input.runTimeoutMs.toNat
  memoryLimitBytes := .ofNat input.memoryLimitBytes
  outputLimitBytes := .ofNat input.outputLimitBytes

/-- The loop of `runPipeline`, which ends at the first verdict that is not `AC`. -/
def judgeTestcases (input : PipelineInput) (workDir : Bytes) :
    List TestCase → LoopState → Judging ε LoopState
  | [], l => .ret l
  | testcase :: testcases, l =>
    .call (.runBinary (runRequest input workDir testcase)) fun run =>
      let l' := l.push testcase run
      if l'.verdict ≠ .AC then .ret l' else judgeTestcases input workDir testcases l'

/-- `runPipeline`: directory, compiler, testcases, and the directory removed. -/
def runPipeline (input : PipelineInput) : Judging ε SubmissionResult :=
  .call .makeWorkDir fun workDir =>
  .call (.createDirectories workDir) fun
    | some error =>
      .ret {
        verdict := .RE, timeMs := 0, memoryMb := 0, perCase := []
        compileOutput := utf8 "failed to create work directory: " ++ error }
    | none =>
      .call (.compileSource (compileRequest input workDir)) fun compile =>
        if !compile.ok then
          .call (.removeAll workDir) fun _ =>
            .ret {
              verdict := .CE, timeMs := 0, memoryMb := 0, perCase := []
              compileOutput := compile.stderrOutput }
        else do
          let l ← judgeTestcases input workDir input.testcases {}
          .call (.removeAll workDir) fun _ =>
            .ret {
              verdict := if l.verdict = .AC ∧ l.perCase = [] then .RE else l.verdict
              timeMs := l.maxTime, memoryMb := l.maxMemory, perCase := l.perCase
              compileOutput := compile.stderrOutput }

/-! ## Running it -/

/-- What answers the calls. The number says how many calls came before. -/
structure Sandbox where
  /-- `temp_directory_path()` -/
  tempDirectory : Bytes
  pid : Nat
  createDirectories : Nat → Bytes → Option Bytes
  compile : Nat → CompileRequest → CompileResult
  run : Nat → RunRequest → RunResult

/-- The counter of the names, and the calls so far. -/
structure JudgeState where
  /-- the `counter` of `makeWorkDir` -/
  counter : Nat := 0
  /-- the calls made, oldest first -/
  calls : List JudgingCall := []

namespace Sandbox

/-- The name of the next working directory. -/
def workDir (box : Sandbox) (s : JudgeState) : Bytes :=
  pathJoin box.tempDirectory (workDirName box.pid s.counter)

/-- What is told at a call. -/
def answer (box : Sandbox) (s : JudgeState) : (c : JudgingCall) → c.Reply
  | .makeWorkDir => box.workDir s
  | .createDirectories dir => box.createDirectories s.calls.length dir
  | .compileSource request => box.compile s.calls.length request
  | .runBinary request => box.run s.calls.length request
  | .removeAll _ => ()

/-- One call, which is recorded. -/
def exec (box : Sandbox) (c : JudgingCall) (s : JudgeState) : c.Reply × JudgeState :=
  (box.answer s c, {
    counter := if c = .makeWorkDir then (s.counter + 1) % 2 ^ 64 else s.counter
    calls := s.calls ++ [c] })

@[simp] theorem exec_makeWorkDir (box : Sandbox) (s : JudgeState) : box.exec .makeWorkDir s =
    (box.workDir s, ⟨(s.counter + 1) % 2 ^ 64, s.calls ++ [.makeWorkDir]⟩) := rfl

@[simp] theorem exec_createDirectories (box : Sandbox) (dir : Bytes) (s : JudgeState) :
    box.exec (.createDirectories dir) s =
      (box.createDirectories s.calls.length dir,
        { s with calls := s.calls ++ [.createDirectories dir] }) := rfl

@[simp] theorem exec_compileSource (box : Sandbox) (request : CompileRequest) (s : JudgeState) :
    box.exec (.compileSource request) s = (box.compile s.calls.length request,
      { s with calls := s.calls ++ [.compileSource request] }) := rfl

@[simp] theorem exec_runBinary (box : Sandbox) (request : RunRequest) (s : JudgeState) :
    box.exec (.runBinary request) s = (box.run s.calls.length request,
      { s with calls := s.calls ++ [.runBinary request] }) := rfl

@[simp] theorem exec_removeAll (box : Sandbox) (dir : Bytes) (s : JudgeState) :
    box.exec (.removeAll dir) s = ((), { s with calls := s.calls ++ [.removeAll dir] }) := rfl

end Sandbox

end MiniOj.Judge
