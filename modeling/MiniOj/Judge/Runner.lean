import MiniOj.Infra.Bytes
import MiniOj.Judge.Process

/-!
# Running a compiled submission

`runBinary` (`judge/runner.hpp`, `judge/runner.cpp`), twice: as the list of system calls that
the other threads and processes interleave with (`runBinaryCalls`), and as the function from
what one run sees to the result it returns (`runBinary`).
-/

namespace MiniOj.Judge

open Infra

/-- How a run ended. -/
inductive RunStatus where
  | ok
  | timeout
  | memoryLimit
  | runtimeError
  | spawnError
  deriving DecidableEq, Repr

/-- The program to run, its input and its limits. -/
structure RunRequest where
  binaryPath : Bytes
  stdinContent : Bytes := []
  /-- milliseconds -/
  timeLimit : Int := 500
  memoryLimitBytes : UInt64 := 256 * 1024 * 1024
  outputLimitBytes : UInt64 := 16 * 1024 * 1024
  deriving DecidableEq, Repr

/-- What is known of a run that is over. -/
structure RunResult where
  status : RunStatus := .ok
  timeMs : UInt32 := 0
  memoryMb : UInt32 := 0
  stdoutOutput : Bytes := []
  stderrOutput : Bytes := []
  exitCode : Int := -1
  signal : Int := -1
  deriving DecidableEq, Repr

/-- The soft and the hard limit. -/
structure Rlimit where
  cur : UInt64
  max : UInt64
  deriving DecidableEq, Repr

/-- `RLIMIT_CPU` in `applyLimits`, in seconds. -/
def cpuLimit (request : RunRequest) : Rlimit :=
  let cur := UInt64.ofInt ((request.timeLimit + 999).tdiv 1000 + 1)
  { cur, max := cur + 1 }

/-- `RLIMIT_AS`: twice the memory limit. -/
def addressSpaceLimit (request : RunRequest) : Rlimit :=
  { cur := request.memoryLimitBytes * 2, max := request.memoryLimitBytes * 2 }

/-- `RLIMIT_FSIZE`. -/
def fileSizeLimit (request : RunRequest) : Rlimit :=
  { cur := request.outputLimitBytes, max := request.outputLimitBytes }

/-- The resources that are limited. -/
inductive Resource where
  | cpu
  | addressSpace
  | fileSize
  deriving DecidableEq, Repr

/-- `setrlimit` says whether a limit could be set; the first that cannot is the last one tried. -/
def applyLimits (setrlimit : Resource → Rlimit → Bool) (request : RunRequest) : Bool :=
  setrlimit .cpu (cpuLimit request) &&
    (setrlimit .addressSpace (addressSpaceLimit request) &&
      setrlimit .fileSize (fileSizeLimit request))

/-- How far a call gets before it has a child. Each failure carries its `strerror` text. -/
inductive Spawn where
  /-- `access`, or opening the source file, fails -/
  | refused (error : Bytes)
  | pipeFails (n : PipeName) (error : Bytes)
  | forkFails (error : Bytes)
  | started
  deriving DecidableEq, Repr

/-! ## The system calls -/

/-- What the child does before it becomes the submission. -/
def runBinaryChild : List ChildStmt :=
  [ .close .stdinPipe .write, .close .stdoutPipe .read, .close .stderrPipe .read,
    .dup2 .stdinPipe .read 0, .dup2 .stdoutPipe .write 1, .dup2 .stderrPipe .write 2,
    .close .stdinPipe .read, .close .stdoutPipe .write, .close .stderrPipe .write,
    .orExit 125, .orExit 127 ]

/-- What the calling thread does, as far as it gets. -/
def runBinaryCalls (request : RunRequest) (spawn : Spawn) : List Stmt :=
  if request.binaryPath = [] then []
  else
    match spawn with
    | .refused _ => []
    -- the pipes already made are not closed
    | .pipeFails .stdinPipe _ => []
    | .pipeFails .stdoutPipe _ => [.pipe .stdinPipe]
    | .pipeFails .stderrPipe _ => [.pipe .stdinPipe, .pipe .stdoutPipe]
    | .forkFails _ =>
      [ .pipe .stdinPipe, .pipe .stdoutPipe, .pipe .stderrPipe, .startClock,
        .close .stdinPipe .read, .close .stdinPipe .write,
        .close .stdoutPipe .read, .close .stdoutPipe .write,
        .close .stderrPipe .read, .close .stderrPipe .write ]
    | .started =>
      [ .pipe .stdinPipe, .pipe .stdoutPipe, .pipe .stderrPipe, .startClock, .fork runBinaryChild,
        .close .stdinPipe .read, .close .stdoutPipe .write, .close .stderrPipe .write ] ++
      (if request.stdinContent = [] then [] else [.feed request.stdinContent]) ++
      [ .close .stdinPipe .write,
        .startReader .stdoutPipe false, .startReader .stderrPipe false,
        .wait,
        .join .stdoutPipe, .join .stderrPipe,
        .close .stdoutPipe .read, .close .stderrPipe .read ]

/-- A call of `runBinary` on a thread of the server. -/
def Call.runBinary (request : RunRequest) (spawn : Spawn) : Call :=
  .fresh (runBinaryCalls request spawn) (request.timeLimit * 1000000)

/-! ## The result -/

/-- What one turn of the wait loop sees. -/
inductive Poll where
  | ended (status : WaitStatus)
  /-- `waitpid` fails -/
  | failed
  /-- the child is running, `elapsed` nanoseconds after the start -/
  | alive (elapsed : Nat)
  deriving DecidableEq, Repr

/-- Why the wait loop was left. -/
inductive LoopEnd where
  | ended (status : WaitStatus)
  | failed
  | killed
  deriving DecidableEq, Repr

/-- `none` while the loop has not ended. -/
def waitLoop (timeLimit : Int) : List Poll → Option LoopEnd
  | [] => none
  | .ended status :: _ => some (.ended status)
  | .failed :: _ => some .failed
  | .alive elapsed :: polls =>
    if timeLimit * 1000000 < elapsed then some .killed else waitLoop timeLimit polls

/-- What the child of one run does, as far as the run sees it. -/
structure ChildRun where
  polls : List Poll
  stdout : Bytes
  stderr : Bytes
  /-- nanoseconds from the start to the end of the run -/
  elapsed : Nat
  /-- `ru_maxrss` of the child alone, in KiB -/
  maxRss : Nat
  deriving DecidableEq, Repr

/-- `getrusage(RUSAGE_CHILDREN).ru_maxrss`: the maximum over all children waited for. -/
def childrenMaxRss (waited : List Nat) : Nat := waited.foldr max 0

/-- Kibibytes in MiB, rounded up. -/
def memoryInMb (kilobytes : Int) : UInt32 :=
  if kilobytes ≤ 0 then 0 else .ofNat ((kilobytes.toNat + 1023) / 1024)

/-- The result when there is no child. -/
def spawnError (message : Bytes) : RunResult :=
  { status := .spawnError, stderrOutput := message }

/-- The children waited for when `getrusage` is called. -/
def waitedFor (earlier : List Nat) (child : ChildRun) : LoopEnd → List Nat
  | .failed => earlier
  | _ => child.maxRss :: earlier

/-- `runBinary` after the wait loop. -/
def runBinaryResult (request : RunRequest) (child : ChildRun) (earlier : List Nat)
    (loopEnd : LoopEnd) : RunResult :=
  let result : RunResult := {
    timeMs := .ofNat (child.elapsed / 1000000)
    memoryMb := memoryInMb (childrenMaxRss (waitedFor earlier child loopEnd))
    stdoutOutput := child.stdout
    stderrOutput := child.stderr }
  let rssExceeded := result.memoryMb.toUInt64 * 1024 * 1024 > request.memoryLimitBytes
  match loopEnd with
  | .failed | .killed => { result with status := .timeout }
  | .ended (.exited code) =>
    if rssExceeded then { result with exitCode := code, status := .memoryLimit }
    else if code = 0 then { result with exitCode := code, status := .ok }
    else { result with exitCode := code, status := .runtimeError }
  | .ended (.signaled signal) =>
    if rssExceeded then { result with signal := 0, status := .memoryLimit }
    else { result with signal := signal, status := .runtimeError }

/-- `earlier` holds `ru_maxrss` of every other child the server has waited for by the time of
`getrusage`. `none` while the wait loop has not ended. -/
def runBinary (request : RunRequest) (spawn : Spawn) (child : ChildRun) (earlier : List Nat) :
    Option RunResult :=
  if request.binaryPath = [] then some (spawnError (utf8 "binary path is empty"))
  else
    match spawn with
    | .refused error => some (spawnError (utf8 "binary not executable: " ++ error))
    | .pipeFails _ error => some (spawnError (utf8 "pipe failed: " ++ error))
    | .forkFails error => some (spawnError (utf8 "fork failed: " ++ error))
    | .started =>
      (waitLoop request.timeLimit child.polls).map (runBinaryResult request child earlier)

end MiniOj.Judge
