import MiniOj.Infra.Kernel
import MiniOj.Infra.Transition
import Mathlib.Logic.Function.Basic

/-!
# Calls that start a process

`runBinary` and `compileSource` make pipes, fork a child, let threads read what it writes and
poll `waitpid` until it ends or its time is up. Each is a list of statements (`todo`), one per
system call, in the order of the source; a `Server` runs any number of them on its threads,
together with the processes they start and with threads that open and close descriptors of
their own.

`closed` records what each `close` found and is never read by a step.
-/

namespace MiniOj.Judge

open Infra

/-- The pipes of a call. -/
inductive PipeName where
  | stdinPipe
  | stdoutPipe
  | stderrPipe
  deriving DecidableEq, Repr

/-- The two ends of a pipe: `[0]` and `[1]`. -/
inductive Side where
  | read
  | write
  deriving DecidableEq, Repr

/-- The descriptor of an end. -/
def fdOf (e : PipeEnds) : Side → Nat
  | .read => e.read
  | .write => e.write

/-- What that descriptor refers to. -/
def fileOf (e : PipeEnds) : Side → File
  | .read => .readEnd e.id
  | .write => .writeEnd e.id

/-- A call of the child between `fork` and `exec`. -/
inductive ChildStmt where
  | close (n : PipeName) (side : Side)
  | dup2 (n : PipeName) (side : Side) (new : Nat)
  /-- a call that may fail, followed by `_exit(code)` -/
  | orExit (code : Nat)
  deriving DecidableEq, Repr

/-- A statement of the calling thread. -/
inductive Stmt where
  /-- the `ofstream` of `writeSourceFile` is opened -/
  | openSource
  /-- and closed -/
  | closeSource
  | pipe (n : PipeName)
  | startClock
  | fork (child : List ChildStmt)
  | close (n : PipeName) (side : Side)
  /-- `writeAll` with these bytes still to write -/
  | feed (bytes : List UInt8)
  /-- start a thread that drains the pipe; `closes` when it closes the descriptor at the end -/
  | startReader (n : PipeName) (closes : Bool)
  /-- the top of the loop: `waitpid(pid, &status, WNOHANG)` -/
  | wait
  /-- the child was still running: compare the clock with the limit -/
  | checkClock
  /-- the child was killed: `waitpid(pid, &status, 0)` -/
  | reap
  | join (n : PipeName)
  deriving DecidableEq, Repr

/-- Where a reader thread is. -/
inductive ReaderPc where
  | reading
  /-- `read` has returned nothing and `close(fd)` is still to come -/
  | closing
  | finished
  deriving DecidableEq, Repr

/-- A reader thread. -/
structure Reader where
  fd : Nat
  closes : Bool
  pc : ReaderPc
  sink : List UInt8
  deriving DecidableEq, Repr

/-- One call of `runBinary` or `compileSource`. -/
structure Call where
  /-- what is left to do; empty when the call returns -/
  todo : List Stmt
  /-- `time_limit` or `timeout`, in nanoseconds -/
  limit : Int
  ends : PipeName → Option PipeEnds
  source : Option Nat
  start : Nat
  pid : Option Nat
  status : Option WaitStatus
  /-- `killed_by_timeout` or `timed_out` -/
  timedOut : Bool
  readers : PipeName → Option Reader
  closed : List (Option File)

/-- A call that is about to execute `todo`. -/
def Call.fresh (todo : List Stmt) (limit : Int) : Call where
  todo
  limit
  ends := fun _ => none
  source := none
  start := 0
  pid := none
  status := none
  timedOut := false
  readers := fun _ => none
  closed := []

/-- The descriptor numbers are known when the child is forked. -/
def ChildStmt.resolve (ends : PipeName → Option PipeEnds) : ChildStmt → Option SetupCall
  | .close n side => (ends n).map fun e => .close (fdOf e side)
  | .dup2 n side new => (ends n).map fun e => .dup2 (fdOf e side) new
  | .orExit code => some (.orExit code)

/-- `steady_clock::now() - start > limit`. -/
def Call.TimeIsUp (c : Call) (now : Nat) : Prop := c.limit < ((now - c.start : Nat) : Int)

instance (c : Call) (now : Nat) : Decidable (c.TimeIsUp now) := inferInstanceAs (Decidable (_ < _))

/-- Close descriptor `fd` of the server on behalf of this call. -/
def Call.closeFd (k : Kernel) (c : Call) (fd : Nat) : Kernel × Call :=
  (k.close fd, { c with closed := c.closed ++ [k.server.get fd] })

/-- The next statement of the calling thread; `none` when it blocks or has returned. -/
def Call.main (owner now : Nat) (k : Kernel) (c : Call) : Option (Kernel × Call) :=
  match c.todo with
  | [] => none
  | .openSource :: rest =>
    let (fd, k') := k.openFile owner
    some (k', { c with todo := rest, source := some fd })
  | .closeSource :: rest =>
    c.source.map fun fd => Call.closeFd k { c with todo := rest } fd
  | .pipe n :: rest =>
    let (e, k') := k.pipe
    some (k', { c with todo := rest, ends := Function.update c.ends n (some e) })
  | .startClock :: rest => some (k, { c with todo := rest, start := now })
  | .fork child :: rest =>
    some (k.fork (child.filterMap (ChildStmt.resolve c.ends)) owner,
      { c with todo := rest, pid := some k.procs.length })
  | .close n side :: rest =>
    (c.ends n).map fun e => Call.closeFd k { c with todo := rest } (fdOf e side)
  | .feed bytes :: rest =>
    match k.write ((c.ends .stdinPipe).bind fun e => k.server.get e.write) bytes with
    | none => none
    | some (k', none) => some (k', { c with todo := rest })
    | some (k', some written) =>
      some (k', { c with
        todo := if bytes.length ≤ written then rest else .feed (bytes.drop written) :: rest })
  | .startReader n closes :: rest =>
    (c.ends n).map fun e =>
      (k, { c with
        todo := rest
        readers := Function.update c.readers n
          (some { fd := e.read, closes, pc := .reading, sink := [] }) })
  | .wait :: rest =>
    match c.pid with
    | none => none
    | some pid =>
      match k.waitpid pid with
      | (k', .ended status) => some (k', { c with todo := rest, status := some status })
      | (k', .failed) => some (k', { c with todo := rest, timedOut := true })
      | (k', .alive) => some (k', { c with todo := .checkClock :: rest })
  | .checkClock :: rest =>
    if c.TimeIsUp now then
      c.pid.map fun pid =>
        (k.exit pid (.signaled 9), { c with todo := .reap :: rest, timedOut := true })
    else some (k, { c with todo := .wait :: rest })
  | .reap :: rest =>
    match c.pid with
    | none => none
    | some pid =>
      match k.waitpid pid with
      | (k', .ended status) => some (k', { c with todo := rest, status := some status })
      | (k', .failed) => some (k', { c with todo := rest })
      | (_, .alive) => none
  | .join n :: rest =>
    match c.readers n with
    | some r => if r.pc = .finished then some (k, { c with todo := rest }) else none
    | none => none

/-- One step of the thread that reads pipe `n`: `drainPipe`, or the lambda of `compileSource`. -/
def Call.reader (n : PipeName) (k : Kernel) (c : Call) : Option (Kernel × Call) :=
  match c.readers n with
  | none => none
  | some r =>
    let put r' := { c with readers := Function.update c.readers n (some r') }
    match r.pc with
    | .reading =>
      match k.read (k.server.get r.fd) 4096 with
      | none => none
      | some (k', some (b :: bytes)) => some (k', put { r with sink := r.sink ++ b :: bytes })
      | some (k', _) => some (k', put { r with pc := if r.closes then .closing else .finished })
    | .closing => some (Call.closeFd k (put { r with pc := .finished }) r.fd)
    | .finished => none

/-! ## The server -/

/-- The kernel, the clock and the calls that run at the same time. -/
structure Server where
  kernel : Kernel
  now : Nat
  calls : List Call

/-- Who takes the next step. -/
inductive Action where
  /-- the thread that executes call `i` -/
  | main (i : Nat)
  | reader (i : Nat) (n : PipeName)
  | proc (pid : Nat) (a : Kernel.ProcAction)
  | tick (nanoseconds : Nat)
  /-- another thread opens or accepts a descriptor -/
  | openOther (owner : Nat)
  /-- another thread closes a descriptor of its own -/
  | closeOther (fd : Nat)
  deriving DecidableEq, Repr

/-- Owners of descriptors that belong to none of the calls. -/
def Server.Elsewhere (s : Server) (f : File) : Prop :=
  ∃ owner, f = .other owner ∧ s.calls.length ≤ owner

/-- Call `i` has taken a step. -/
def Server.update (s : Server) (i : Nat) (kc : Kernel × Call) : Server :=
  { s with kernel := kc.1, calls := s.calls.set i kc.2 }

/-- A step of a thread, a process or the clock. -/
def Server.step (s : Server) : Action → Option Server
  | .main i =>
    s.calls[i]?.bind fun c => (c.main i s.now s.kernel).map (s.update i)
  | .reader i n =>
    s.calls[i]?.bind fun c => (c.reader n s.kernel).map (s.update i)
  | .proc pid a => (s.kernel.procStep pid a).map fun k => { s with kernel := k }
  | .tick nanoseconds => some { s with now := s.now + nanoseconds }
  | .openOther owner =>
    if s.calls.length ≤ owner then some { s with kernel := (s.kernel.openFile owner).2 } else none
  | .closeOther fd =>
    match s.kernel.server.get fd with
    | some (.other owner) =>
      if s.calls.length ≤ owner then some { s with kernel := s.kernel.close fd } else none
    | _ => none

/-- The calls are about to start, and every open descriptor belongs to another thread. -/
structure Server.Init (capacity : Nat) (calls : List Call) (s : Server) : Prop where
  calls : s.calls = calls
  capacity : s.kernel.capacity = capacity
  procs : s.kernel.procs = []
  pipes : s.kernel.pipes = []
  table : ∀ f, s.kernel.server.Holds f → s.Elsewhere f

/-- A server with nothing open but its standard descriptors. -/
def Server.idle (capacity : Nat) (calls : List Call) : Server where
  kernel := {
    server := List.replicate 3 (some (.other calls.length))
    procs := []
    pipes := []
    capacity }
  now := 0
  calls

theorem Server.init_idle (capacity : Nat) (calls : List Call) :
    Server.Init capacity calls (.idle capacity calls) where
  calls := rfl
  capacity := rfl
  procs := rfl
  pipes := rfl
  table f hf := by
    obtain ⟨n, hn⟩ := hf
    refine ⟨calls.length, ?_, Nat.le_refl _⟩
    rcases n with _ | _ | _ | n <;> first | exact (Option.some.inj hn).symm | cases hn

/-- The steps that call `i` takes by itself. -/
def Own (i : Nat) : Action → Prop
  | .main j => j = i
  | .reader j _ => j = i
  | _ => False

end MiniOj.Judge
