import MiniOj.Infra.FdTable

/-!
# Processes and pipes

A server process with several threads, the processes it forks and all their descendants, and
the pipes they share. A forked process gets a copy of its parent's descriptor table, runs a
fixed list of calls (`setup`, the code between `fork` and `exec`) and is then an arbitrary
program: any sequence of calls on the descriptors it has.

* a read blocks on an empty pipe while some process holds a write end
* a write blocks on a full pipe while some process holds a read end; it puts in what fits
* an exit closes all descriptors of the process

Reads and writes answer `none` when they block. Descriptors survive `exec`.
-/

namespace MiniOj.Infra

/-- What a descriptor refers to. -/
inductive File where
  | readEnd (pipe : Nat)
  | writeEnd (pipe : Nat)
  /-- a file or socket opened by the thread `owner` -/
  | other (owner : Nat)
  deriving DecidableEq, Repr

/-- The pipe that a descriptor is an end of. -/
def File.pipe : File → Option Nat
  | readEnd p => some p
  | writeEnd p => some p
  | other _ => none

/-- What `waitpid` reports about a process that has ended. -/
inductive WaitStatus where
  | exited (code : Nat)
  | signaled (signal : Nat)
  deriving DecidableEq, Repr

/-- A process that has ended is a zombie until its parent has waited for it. -/
inductive Life where
  | running
  | zombie (status : WaitStatus)
  | reaped
  deriving DecidableEq, Repr

/-- The calls a forked process makes before it becomes another program. -/
inductive SetupCall where
  | close (fd : Nat)
  | dup2 (old new : Nat)
  /-- a call that may fail; the process then exits with `code` -/
  | orExit (code : Nat)
  deriving DecidableEq, Repr

/-- The descriptors after a call that succeeds. -/
def SetupCall.apply (t : FdTable File) : SetupCall → FdTable File
  | close fd => t.put fd none
  | dup2 old new => t.dup2 old new
  | orExit _ => t

/-- A process, with the calls it still has to make before it is an arbitrary program. -/
structure Proc where
  fds : FdTable File
  life : Life
  setup : List SetupCall
  /-- the server thread whose `fork` it comes from, itself or through its parents -/
  origin : Nat
  deriving DecidableEq, Repr

/-- The two descriptors that `pipe` returns. -/
structure PipeEnds where
  read : Nat
  write : Nat
  /-- position in `Kernel.pipes` -/
  id : Nat
  deriving DecidableEq, Repr

/-- The descriptors of the server, the other processes and the pipes. -/
structure Kernel where
  server : FdTable File
  /-- every process but the server; the position is the pid -/
  procs : List Proc
  /-- what each pipe contains, next byte first -/
  pipes : List (List UInt8)
  capacity : Nat
  deriving DecidableEq, Repr

namespace Kernel

/-- Some process has a descriptor for `f`. -/
def Held (k : Kernel) (f : File) : Prop :=
  k.server.Holds f ∨ ∃ proc ∈ k.procs, proc.fds.Holds f

instance (k : Kernel) (f : File) : Decidable (k.Held f) :=
  inferInstanceAs (Decidable (_ ∨ _))

/-- What a pipe contains; one that was never made is empty. -/
def content (k : Kernel) (p : Nat) : List UInt8 := k.pipes.getD p []

/-- `read`: the bytes got, `[]` at the end of file, `none` inside when it fails. -/
def read (k : Kernel) (f : Option File) (size : Nat) : Option (Kernel × Option (List UInt8)) :=
  match f with
  | some (.readEnd p) =>
    if k.content p = [] then
      if k.Held (.writeEnd p) then none else some (k, some [])
    else
      some ({ k with pipes := k.pipes.set p ((k.content p).drop size) },
        some ((k.content p).take size))
  | _ => some (k, none)

/-- `write`: the number of bytes written, `none` inside when it fails (`EPIPE`, `EBADF`). -/
def write (k : Kernel) (f : Option File) (bytes : List UInt8) : Option (Kernel × Option Nat) :=
  match f with
  | some (.writeEnd p) =>
    if ¬ k.Held (.readEnd p) then some (k, none)
    else if bytes = [] then some (k, some 0)
    else if k.capacity ≤ (k.content p).length then none
    else
      let room := k.capacity - (k.content p).length
      some ({ k with pipes := k.pipes.set p (k.content p ++ bytes.take room) },
        some (bytes.take room).length)
  | some (.other _) => some (k, some bytes.length)
  | _ => some (k, none)

/-! ## Calls of the server's threads -/

/-- `open` on the lowest free descriptor. -/
def openFile (k : Kernel) (owner : Nat) : Nat × Kernel :=
  (k.server.lowest, { k with server := k.server.put k.server.lowest (some (.other owner)) })

/-- `pipe`: the read end gets the lowest free descriptor, the write end the next one. -/
def pipe (k : Kernel) : PipeEnds × Kernel :=
  let r := k.server.lowest
  let t := k.server.put r (some (.readEnd k.pipes.length))
  let w := t.lowest
  (⟨r, w, k.pipes.length⟩,
    { k with server := t.put w (some (.writeEnd k.pipes.length)), pipes := k.pipes ++ [[]] })

/-- `close` by a thread of the server. -/
def close (k : Kernel) (fd : Nat) : Kernel :=
  { k with server := k.server.put fd none }

/-- The child is at the end of `procs`. -/
def fork (k : Kernel) (setup : List SetupCall) (origin : Nat) : Kernel :=
  { k with procs := k.procs ++ [{ fds := k.server, life := .running, setup, origin }] }

/-- A running process ends. -/
def exit (k : Kernel) (pid : Nat) (status : WaitStatus) : Kernel :=
  match k.procs[pid]? with
  | some proc =>
    if proc.life = .running then
      { k with procs := k.procs.set pid { proc with fds := [], life := .zombie status } }
    else k
  | none => k

/-- What `waitpid` reports. -/
inductive WaitResult where
  /-- still running -/
  | alive
  | ended (status : WaitStatus)
  /-- no such child -/
  | failed
  deriving DecidableEq, Repr

/-- `waitpid` with `WNOHANG`. -/
def waitpid (k : Kernel) (pid : Nat) : Kernel × WaitResult :=
  match k.procs[pid]? with
  | some proc =>
    match proc.life with
    | .running => (k, .alive)
    | .zombie status => ({ k with procs := k.procs.set pid { proc with life := .reaped } },
        .ended status)
    | .reaped => (k, .failed)
  | none => (k, .failed)

/-! ## Calls of the other processes -/

/-- A call of an arbitrary program. -/
inductive Syscall where
  | close (fd : Nat)
  | dup2 (old new : Nat)
  | openFile (owner : Nat)
  | pipe
  | fork
  | read (fd size : Nat)
  | write (fd : Nat) (bytes : List UInt8)
  deriving DecidableEq, Repr

/-- What a process may do. -/
inductive ProcAction where
  /-- the next call of `setup`; `ok` says whether a call that may fail succeeds -/
  | setup (ok : Bool)
  | call (c : Syscall)
  /-- the process exits or a signal ends it -/
  | die (status : WaitStatus)
  deriving DecidableEq, Repr

/-- A process makes a call; `none` when it blocks. -/
def syscall (k : Kernel) (pid : Nat) (proc : Proc) : Syscall → Option Kernel
  | .close fd => some { k with procs := k.procs.set pid { proc with fds := proc.fds.put fd none } }
  | .dup2 old new =>
    some { k with procs := k.procs.set pid { proc with fds := proc.fds.dup2 old new } }
  | .openFile owner =>
    some { k with procs := k.procs.set pid { proc with
      fds := proc.fds.put proc.fds.lowest (some (.other owner)) } }
  | .pipe =>
    let t := proc.fds.put proc.fds.lowest (some (.readEnd k.pipes.length))
    some { k with
      procs := k.procs.set pid { proc with
        fds := t.put t.lowest (some (.writeEnd k.pipes.length)) }
      pipes := k.pipes ++ [[]] }
  | .fork => some { k with procs := k.procs ++ [proc] }
  | .read fd size => (k.read (proc.fds.get fd) size).map Prod.fst
  | .write fd bytes => (k.write (proc.fds.get fd) bytes).map Prod.fst

/-- A step of one process, while it runs. -/
def procStep (k : Kernel) (pid : Nat) (a : ProcAction) : Option Kernel :=
  match k.procs[pid]? with
  | none => none
  | some proc =>
    if proc.life = .running then
      match a, proc.setup with
      | .setup ok, c :: rest =>
        match c, ok with
        | .orExit code, false => some (k.exit pid (.exited code))
        | c, _ =>
          some { k with procs := k.procs.set pid { proc with
            fds := c.apply proc.fds, setup := rest } }
      | .call c, [] => k.syscall pid proc c
      | .die status, _ => some (k.exit pid status)
      | _, _ => none
    else none

end Kernel

end MiniOj.Infra
