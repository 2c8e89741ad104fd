import MiniOj.Judge.Runner

/-!
# Compiling a submission

`compileSource` (`judge/compiler.cpp`): its system calls, the command that the child becomes and
the result. The reader thread closes the read end of the pipe when it is done, and so does the
calling thread.
-/

namespace MiniOj.Judge

open Infra

/-- The source, where it goes, and the time the compiler has. -/
structure CompileRequest where
  sourceCode : Bytes
  sourceFilename : Bytes := utf8 "main.cpp"
  binaryFilename : Bytes := utf8 "main.out"
  /-- milliseconds -/
  timeout : Int := 3000
  workingDirectory : Bytes
  deriving DecidableEq, Repr

/-- How compiling ended. -/
inductive CompileStatus where
  | success
  | failed
  | timeout
  | spawnError
  deriving DecidableEq, Repr

/-- What is known of a compiler that is done. -/
structure CompileResult where
  ok : Bool := false
  status : CompileStatus := .failed
  timeMs : UInt32 := 0
  stderrOutput : Bytes := []
  deriving DecidableEq, Repr

/-! ## The system calls -/

/-- What the child does before it becomes `g++`. -/
def compileSourceChild : List ChildStmt :=
  [ .close .stderrPipe .read, .dup2 .stderrPipe .write 2, .close .stderrPipe .write,
    .orExit 126, .orExit 127 ]

/-- What the calling thread does, as far as it gets. -/
def compileSourceCalls (request : CompileRequest) (spawn : Spawn) : List Stmt :=
  if request.workingDirectory = [] then []
  else
    match spawn with
    | .refused _ => []
    | .pipeFails _ _ => [.openSource, .closeSource]
    | .forkFails _ =>
      [ .openSource, .closeSource, .pipe .stderrPipe, .startClock,
        .close .stderrPipe .read, .close .stderrPipe .write ]
    | .started =>
      [ .openSource, .closeSource, .pipe .stderrPipe, .startClock, .fork compileSourceChild,
        .close .stderrPipe .write,
        .startReader .stderrPipe true,
        .wait,
        .join .stderrPipe,
        .close .stderrPipe .read ]

/-- A call of `compileSource` on a thread of the server. -/
def Call.compileSource (request : CompileRequest) (spawn : Spawn) : Call :=
  .fresh (compileSourceCalls request spawn) (request.timeout * 1000000)

/-! ## The compiler -/

/-- The arguments of `execlp`, the name of the program first. -/
def compileCommand (request : CompileRequest) : List Bytes :=
  [ utf8 "g++", utf8 "-O2", utf8 "-std=c++17", utf8 "-o", request.binaryFilename,
    request.sourceFilename ]

/-- The language as which a command compiles its sources. `g++` takes every source for C++, also
one whose name ends in `.c`, unless `-x` names another language. -/
def compiledAs (command : List Bytes) : Option Bytes :=
  if command.head? = some (utf8 "g++") ∧ utf8 "-x" ∉ command then some (utf8 "cpp") else none

/-- `compileSource` after the wait loop, `elapsed` nanoseconds after the start. -/
def compileSourceResult (elapsed : Nat) (stderr : Bytes) : LoopEnd → CompileResult
  | .failed | .killed => ⟨false, .timeout, .ofNat (elapsed / 1000000), stderr⟩
  | .ended (.exited 0) => ⟨true, .success, .ofNat (elapsed / 1000000), stderr⟩
  | .ended (.exited 127) =>
    ⟨false, .spawnError, .ofNat (elapsed / 1000000),
      utf8 ("compiler unavailable: 'g++' not found in PATH " ++
        "(check backend Dockerfile runtime stage installs g++)")⟩
  | .ended _ => ⟨false, .failed, .ofNat (elapsed / 1000000), stderr⟩

end MiniOj.Judge
