import MiniOj.Infra.DateText
import MiniOj.Infra.Threads

/-!
# The logger

`include/logger.hpp` and `util/logger.cpp`. Any thread may log; the lines go to one stream, piece
by piece, and a mutex keeps the pieces of a line together.
-/

namespace MiniOj.Util

open Infra

/-- How serious a message is. -/
inductive LogLevel where
  | debug
  | info
  | warning
  | error
  deriving DecidableEq, Repr

/-- The order of the declaration. -/
def LogLevel.rank : LogLevel → Nat
  | .debug => 0
  | .info => 1
  | .warning => 2
  | .error => 3

/-- `none` for `std::invalid_argument("invalid log level")`. -/
def parseLogLevel (value : Bytes) : Option LogLevel :=
  if value = utf8 "debug" then some .debug
  else if value = utf8 "info" then some .info
  else if value = utf8 "warning" then some .warning
  else if value = utf8 "error" then some .error
  else none

/-- The level as the line has it. -/
def logLevelName : LogLevel → Bytes
  | .debug => utf8 "DEBUG"
  | .info => utf8 "INFO"
  | .warning => utf8 "WARNING"
  | .error => utf8 "ERROR"

/-- The arguments of `Logger::log`. -/
structure LogRequest where
  level : LogLevel
  component : Bytes
  message : Bytes
  deriving DecidableEq, Repr

namespace Logger

/-! ## Calls -/

/-- What a thread in `Logger::log` calls on. -/
inductive Call where
  /-- `std::chrono::system_clock::now()` -/
  | now
  | lock
  /-- one `<<` -/
  | write (text : Bytes)
  | unlock

/-- A time point of the clock from 1970 on, in nanoseconds. -/
abbrev Instant := Fin (2 ^ 63)

/-- Only the clock answers. -/
abbrev Call.Reply : Call → Type
  | now => Instant
  | _ => Unit

/-- Code that writes to the log; it never throws. -/
abbrev Action := Program Call Call.Reply Empty

/-- The chain of `<<`. -/
def writeAll : List Bytes → Action Unit
  | [] => return
  | text :: texts => .call (.write text) fun _ => writeAll texts

/-- What is written one after the other. -/
def pieces (now : Instant) (req : LogRequest) : List Bytes :=
  [Calendar.strftime 84 (Calendar.gmtime (now.val / 10 ^ 9)), utf8 ".",
    Calendar.digits 3 (now.val / 10 ^ 6 % 1000), utf8 "Z", utf8 " ",
    logLevelName req.level, utf8 " ", req.component, utf8 " ", req.message, utf8 "\n"]

/-- `Logger::log`: a message below the minimum level is dropped before the clock is read. -/
def log (minimumLevel : LogLevel) (req : LogRequest) : Action Unit :=
  if req.level.rank < minimumLevel.rank then return
  else
    .call .now fun now => .call .lock fun _ => do
      writeAll (pieces now req)
      -- the destructor of `lock_guard`
      .call .unlock .ret

/-! ## Threads -/

/-- What a thread in `log` has. -/
structure Local where
  /-- has the mutex -/
  holds : Bool := false
  /-- the last time read from the clock -/
  read : Instant := 0
  deriving DecidableEq, Repr

/-- The stream, the mutex and the clock. -/
structure Shared where
  output : Bytes := []
  /-- while the mutex is locked, the length of the output when it was -/
  mutex : Option Nat := none
  clock : Instant := 0
  deriving DecidableEq, Repr

/-- A call of a thread; `none` when it has to wait, or when it does without the mutex what takes
it. -/
def execute (c : Call) (l : Local) (s : Shared) : Option (c.Reply × Local × Shared) :=
  match c with
  | .now => some (s.clock, { l with read := s.clock }, s)
  | .lock =>
    if s.mutex.isSome then none
    else some ((), { l with holds := true }, { s with mutex := some s.output.length })
  | .write text =>
    if l.holds then some ((), l, { s with output := s.output ++ text }) else none
  | .unlock =>
    if l.holds then some ((), { l with holds := false }, { s with mutex := none }) else none

/-- A thread calls `log`. -/
def spawn (minimumLevel : LogLevel) (req : LogRequest) :
    Thread Call Call.Reply Empty Unit Local where
  program := log minimumLevel req
  own := {}

/-- The system clock may be set. -/
def setClock (s : Shared) (clock : Instant) : Option Shared := some { s with clock }

/-- The threads in `log` and what they share. -/
abbrev State := Threads Call Call.Reply Empty Unit Local Shared

/-- A call of `log` begins, a thread in one goes on, or the clock has another time. -/
def step (minimumLevel : LogLevel) : State → ThreadAction LogRequest Instant → Option State :=
  Threads.step execute (spawn minimumLevel) setClock

/-- The logger as it is constructed. -/
def create (clock : Instant) : State where
  shared := { clock }
  threads := []

end Logger

end MiniOj.Util
