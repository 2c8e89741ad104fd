import MiniOj.Judge.Pipeline

/-!
# The system calls of a submission

`runPipeline` once more, with `compileSource` and `runBinary` as the programs that make the
system calls of the source one by one, each of which may fail. A thread object is destroyed
when its block is left; if nobody has joined the thread by then, the process is terminated.

The wait loop is one call: it ends when the child does, or kills it.
-/

namespace MiniOj.Judge.Sys

open Infra
open Http (PipelineInput)

/-- Which of the two functions that start a process makes a call. -/
inductive Starter where
  | compileSource
  | runBinary
  deriving DecidableEq, Repr

/-- The calls that a submission makes, with their arguments. -/
inductive SysCall where
  /-- `counter.fetch_add(1)` -/
  | nextSuffix
  | getpid
  | tempDirectoryPath
  | createDirectories (dir : Bytes)
  | removeAll (dir : Bytes)
  | openSource (path : Bytes)
  | writeSource (fd : Nat) (content : Bytes)
  | closeSource (fd : Nat)
  | access (path : Bytes)
  | pipe (starter : Starter) (n : PipeName)
  | clock
  | fork (child : List SetupCall)
  | close (n : PipeName) (side : Side) (fd : Nat)
  | writeAll (fd : Nat) (content : Bytes)
  /-- start a thread that drains the descriptor; `closes` when it closes it at the end -/
  | startReader (n : PipeName) (fd : Nat) (closes : Bool)
  /-- the loop around `waitpid` -/
  | wait (pid : Nat) (start : Nat) (limit : Int)
  | join (n : PipeName) (thread : Nat)
  | joinable (thread : Nat)
  /-- `getrusage(RUSAGE_CHILDREN)` -/
  | maxRss
  deriving DecidableEq, Repr

/-- What the call returns; an error is its text. -/
abbrev SysCall.Reply : SysCall → Type
  | nextSuffix => Nat
  | getpid => Nat
  | tempDirectoryPath => Except Bytes Bytes
  | createDirectories _ => Option Bytes
  | removeAll _ => Unit
  | openSource _ => Option Nat
  | writeSource _ _ => Unit
  | closeSource _ => Unit
  | access _ => Option Bytes
  | pipe _ _ => Except Bytes PipeEnds
  | clock => Nat
  | fork _ => Except Bytes Nat
  | close _ _ _ => Unit
  | writeAll _ _ => Bool
  | startReader _ _ _ => Except Bytes Nat
  | wait _ _ _ => LoopEnd
  | join _ _ => Bytes
  | joinable _ => Bool
  | maxRss => Nat

/-- How a function is left other than by return. -/
inductive Abort where
  | exception (what : Bytes)
  /-- `std::terminate` -/
  | terminate
  deriving DecidableEq, Repr

/-- Code that makes system calls. -/
abbrev Calling (α : Type) := Program SysCall SysCall.Reply Abort α

/-- The destructor of `std::thread`. -/
def destroyThread (thread : Nat) : Calling Unit :=
  .call (.joinable thread) fun joinable => if joinable then .throw .terminate else .ret ()

/-- Close one end of a pipe. -/
def close (n : PipeName) (side : Side) (e : PipeEnds) : Calling Unit :=
  .call (.close n side (fdOf e side)) fun _ => .ret ()

/-! ## `compileSource` -/

/-- The result when there is no compiler to wait for. -/
def compileError (message : Bytes) : CompileResult :=
  { status := .spawnError, stderrOutput := message }

/-- From the start of the reader thread on. -/
def compileSourceWait (request : CompileRequest) (stderr : PipeEnds) (start pid : Nat) :
    Calling CompileResult :=
  .call (.startReader .stderrPipe stderr.read true) fun
    | .error what => .throw (.exception what)
    | .ok reader =>
      Program.andFinally (do
        let loopEnd ← .call (.wait pid start (request.timeout * 1000000)) .ret
        let stderrOutput ← .call (.join .stderrPipe reader) .ret
        close .stderrPipe .read stderr
        let now ← .call .clock .ret
        return compileSourceResult (now - start) stderrOutput loopEnd) (destroyThread reader)

/-- `compileSource`, with a branch for each call that fails. -/
def compileSource (request : CompileRequest) : Calling CompileResult :=
  if request.workingDirectory = [] then .ret (compileError (utf8 "working directory is empty"))
  else
    let path := pathJoin request.workingDirectory request.sourceFilename
    .call (.openSource path) fun
    | none =>
      .ret (compileError
        (utf8 "write source failed: failed to open source file for writing: " ++ path))
    | some fd =>
      .call (.writeSource fd request.sourceCode) fun _ =>
      .call (.closeSource fd) fun _ =>
      .call (.pipe .compileSource .stderrPipe) fun
      | .error error => .ret (compileError (utf8 "pipe failed: " ++ error))
      | .ok stderr =>
        .call .clock fun start =>
        .call (.fork (compileSourceChild.filterMap (ChildStmt.resolve fun
          | .stderrPipe => some stderr
          | _ => none))) fun
        | .error error => do
          close .stderrPipe .read stderr
          close .stderrPipe .write stderr
          return compileError (utf8 "fork failed: " ++ error)
        | .ok pid => do
          close .stderrPipe .write stderr
          compileSourceWait request stderr start pid

/-! ## `runBinary` -/

/-- From the start of the second reader thread on. -/
def runBinaryWait (request : RunRequest) (stdout stderr : PipeEnds) (start pid stdoutReader : Nat) :
    Calling RunResult :=
  .call (.startReader .stderrPipe stderr.read false) fun
    | .error what => .throw (.exception what)
    | .ok stderrReader =>
      Program.andFinally (do
        let loopEnd ← .call (.wait pid start (request.timeLimit * 1000000)) .ret
        let stdoutSink ← .call (.join .stdoutPipe stdoutReader) .ret
        let stderrSink ← .call (.join .stderrPipe stderrReader) .ret
        close .stdoutPipe .read stdout
        close .stderrPipe .read stderr
        let maxRss ← .call .maxRss .ret
        let now ← .call .clock .ret
        -- `maxRss` already is the maximum over all children
        return runBinaryResult request
          { polls := [], stdout := stdoutSink, stderr := stderrSink, elapsed := now - start,
            maxRss := 0 } [maxRss] loopEnd) (destroyThread stderrReader)

/-- From the start of the first reader thread on. -/
def runBinaryReaders (request : RunRequest) (stdout stderr : PipeEnds) (start pid : Nat) :
    Calling RunResult :=
  .call (.startReader .stdoutPipe stdout.read false) fun
    | .error what => .throw (.exception what)
    | .ok stdoutReader =>
      (runBinaryWait request stdout stderr start pid stdoutReader).andFinally
        (destroyThread stdoutReader)

/-- Give the child its input. -/
def feed (request : RunRequest) (stdin : PipeEnds) : Calling Unit :=
  if request.stdinContent = [] then .ret ()
  -- a failure is ignored
  else .call (.writeAll stdin.write request.stdinContent) fun _ => .ret ()

/-- `runBinary`, with a branch for each call that fails. -/
def runBinary (request : RunRequest) : Calling RunResult :=
  if request.binaryPath = [] then .ret (spawnError (utf8 "binary path is empty"))
  else
    .call (.access request.binaryPath) fun
    | some error => .ret (spawnError (utf8 "binary not executable: " ++ error))
    | none =>
      .call (.pipe .runBinary .stdinPipe) fun
      | .error error => .ret (spawnError (utf8 "pipe failed: " ++ error))
      | .ok stdin =>
        .call (.pipe .runBinary .stdoutPipe) fun
        -- the pipes already made are not closed
        | .error error => .ret (spawnError (utf8 "pipe failed: " ++ error))
        | .ok stdout =>
          .call (.pipe .runBinary .stderrPipe) fun
          | .error error => .ret (spawnError (utf8 "pipe failed: " ++ error))
          | .ok stderr =>
            .call .clock fun start =>
            .call (.fork (runBinaryChild.filterMap (ChildStmt.resolve fun
              | .stdinPipe => some stdin
              | .stdoutPipe => some stdout
              | .stderrPipe => some stderr))) fun
            | .error error => do
              close .stdinPipe .read stdin
              close .stdinPipe .write stdin
              close .stdoutPipe .read stdout
              close .stdoutPipe .write stdout
              close .stderrPipe .read stderr
              close .stderrPipe .write stderr
              return spawnError (utf8 "fork failed: " ++ error)
            | .ok pid => do
              close .stdinPipe .read stdin
              close .stdoutPipe .write stdout
              close .stderrPipe .write stderr
              feed request stdin
              close .stdinPipe .write stdin
              runBinaryReaders request stdout stderr start pid

/-! ## `runPipeline` -/

/-- The name of the working directory, from the counter and the pid. -/
def makeWorkDir : Calling Bytes :=
  .call .nextSuffix fun suffix =>
  .call .tempDirectoryPath fun
  | .error what => .throw (.exception what)
  | .ok dir => .call .getpid fun pid => .ret (pathJoin dir (workDirName pid suffix))

/-- The system calls behind the steps of the pipeline. -/
def step : (c : JudgingCall) → Calling c.Reply
  | .makeWorkDir => makeWorkDir
  | .createDirectories dir => .call (.createDirectories dir) .ret
  | .compileSource request => compileSource request
  | .runBinary request => runBinary request
  | .removeAll dir => .call (.removeAll dir) .ret

/-- `runPipeline`, with every step made of its system calls. -/
def runPipeline (input : PipelineInput) : Calling SubmissionResult :=
  (Judge.runPipeline input).expand step

/-! ## The operating system -/

/-- What the operating system answers. The number says how many calls came before. -/
structure Machine where
  /-- the error of a call, if it is one that may fail -/
  fails : Nat → Option Bytes
  pid : Nat
  tempDirectory : Bytes
  clock : Nat → Nat
  /-- how the child ends; `none` when the loop kills it -/
  ending : Nat → Option WaitStatus
  /-- what a reader thread has read -/
  sink : Nat → Bytes
  maxRss : Nat → Nat

/-- The calls that may fail. A `waitpid` for a child that has not been waited for does not, nor
does `close`. -/
def SysCall.mayFail : SysCall → Bool
  | tempDirectoryPath | createDirectories _ | removeAll _ | openSource _ | writeSource _ _
  | access _ | pipe _ _ | fork _ | writeAll _ _ | startReader _ _ _ => true
  | _ => false

/-- What the calls act on: the kernel, the temporary directory, the threads of the submission. -/
structure Os where
  kernel : Kernel
  /-- the directories below the temporary one -/
  directories : List Bytes
  counter : Nat
  /-- the reader threads started, each with its descriptor and whether it closes it -/
  readers : List (Nat × Bool)
  /-- those of them that nobody has joined -/
  unjoined : List Nat
  /-- the calls made, oldest first, and whether they failed -/
  log : List (SysCall × Bool)

/-- The error of a call that is about to be made. -/
def Machine.error (m : Machine) (s : Os) (c : SysCall) : Option Bytes :=
  if c.mayFail then m.fails s.log.length else none

/-- `waitpid` once the child has ended. -/
def Machine.waitFor (m : Machine) (s : Os) (pid : Nat) : LoopEnd × Kernel :=
  let ending := m.ending s.log.length
  match (s.kernel.exit pid (ending.getD (.signaled 9))).waitpid pid with
  | (k, .ended status) => (if ending.isSome then .ended status else .killed, k)
  | (k, _) => (.failed, k)

/-- What a call does, given the error it fails with, if it does. -/
def Machine.perform (m : Machine) (s : Os) : (c : SysCall) → Option Bytes → c.Reply × Os
  | .nextSuffix, _ => (s.counter, { s with counter := (s.counter + 1) % 2 ^ 64 })
  | .getpid, _ => (m.pid, s)
  | .tempDirectoryPath, some error => (.error error, s)
  | .tempDirectoryPath, none => (.ok m.tempDirectory, s)
  | .createDirectories _, some error => (some error, s)
  | .createDirectories dir, none => (none, { s with directories := dir :: s.directories })
  | .removeAll _, some _ => ((), s)
  | .removeAll dir, none => ((), { s with directories := s.directories.filter (· != dir) })
  | .openSource _, some _ => (none, s)
  | .openSource _, none =>
    (some (s.kernel.openFile 0).1, { s with kernel := (s.kernel.openFile 0).2 })
  | .writeSource _ _, _ => ((), s)
  | .closeSource fd, _ => ((), { s with kernel := s.kernel.close fd })
  | .access _, error => (error, s)
  | .pipe _ _, some error => (.error error, s)
  | .pipe _ _, none => (.ok s.kernel.pipe.1, { s with kernel := s.kernel.pipe.2 })
  | .clock, _ => (m.clock s.log.length, s)
  | .fork _, some error => (.error error, s)
  | .fork child, none =>
    (.ok s.kernel.procs.length, { s with kernel := s.kernel.fork child 0 })
  | .close _ _ fd, _ => ((), { s with kernel := s.kernel.close fd })
  | .writeAll _ _, error => (error.isNone, s)
  | .startReader _ _ _, some error => (.error error, s)
  | .startReader _ fd closes, none =>
    (.ok s.readers.length, { s with
      readers := s.readers ++ [(fd, closes)]
      unjoined := s.readers.length :: s.unjoined })
  | .wait pid _ _, _ =>
    ((m.waitFor s pid).1, { s with kernel := (m.waitFor s pid).2 })
  | .join _ thread, _ =>
    (m.sink s.log.length, { s with
      unjoined := s.unjoined.filter (· != thread)
      kernel :=
        match s.readers[thread]? with
        | some (fd, true) => s.kernel.close fd
        | _ => s.kernel })
  | .joinable thread, _ => (decide (thread ∈ s.unjoined), s)
  | .maxRss, _ => (m.maxRss s.log.length, s)

/-- A call, which is written down in the log. -/
def Machine.exec (m : Machine) (c : SysCall) (s : Os) : c.Reply × Os :=
  let (r, s') := m.perform s c (m.error s c)
  (r, { s' with log := s.log ++ [(c, (m.error s c).isSome)] })

end MiniOj.Judge.Sys
