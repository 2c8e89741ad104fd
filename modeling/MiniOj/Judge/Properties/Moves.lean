import MiniOj.Infra.Holding
import MiniOj.Judge.Compiler

/-!
# What one step of a call can do

`MainMove`, `ReaderMove` and `ServerMove` read `Call.main`, `Call.reader` and `Server.step` as
relations with one named rule per outcome. `Disciplined` is what the statement lists of `runBinary` and
`compileSource` have in common: what is opened is closed later and once, readers are joined,
and after the wait loop only joins and closes of read ends are left.
-/

namespace MiniOj.Judge

open Infra

variable {owner now : Nat} {k k' : Kernel} {c c' : Call} {n : PipeName}

theorem head_mem_todo {s : Stmt} {rest : List Stmt} (ht : c.todo = s :: rest) : s ∈ c.todo := by
  rw [ht]
  exact List.mem_cons_self

theorem mem_todo {s t : Stmt} {rest : List Stmt} (ht : c.todo = s :: rest) (h : t ∈ rest) :
    t ∈ c.todo := by
  rw [ht]
  exact List.mem_cons_of_mem _ h

/-! ## The calling thread -/

/-- What the calling thread can do. -/
inductive MainMove (owner now : Nat) (k : Kernel) (c : Call) : Kernel → Call → Prop
  | openSource (rest : List Stmt) (h : c.todo = .openSource :: rest) :
    MainMove owner now k c (k.openFile owner).2
      { c with todo := rest, source := some (k.openFile owner).1 }
  | closeSource (rest : List Stmt) (h : c.todo = .closeSource :: rest) (fd : Nat)
      (hs : c.source = some fd) :
    MainMove owner now k c (k.close fd)
      { c with todo := rest, closed := c.closed ++ [k.server.get fd] }
  | pipe (n : PipeName) (rest : List Stmt) (h : c.todo = .pipe n :: rest) :
    MainMove owner now k c k.pipe.2
      { c with todo := rest, ends := Function.update c.ends n (some k.pipe.1) }
  | startClock (rest : List Stmt) (h : c.todo = .startClock :: rest) :
    MainMove owner now k c k { c with todo := rest, start := now }
  | fork (child : List ChildStmt) (rest : List Stmt) (h : c.todo = .fork child :: rest) :
    MainMove owner now k c (k.fork (child.filterMap (ChildStmt.resolve c.ends)) owner)
      { c with todo := rest, pid := some k.procs.length }
  | close (n : PipeName) (side : Side) (rest : List Stmt) (h : c.todo = .close n side :: rest)
      (e : PipeEnds) (he : c.ends n = some e) :
    MainMove owner now k c (k.close (fdOf e side))
      { c with todo := rest, closed := c.closed ++ [k.server.get (fdOf e side)] }
  | fed (bytes : List UInt8) (rest : List Stmt) (h : c.todo = .feed bytes :: rest) (k' : Kernel)
      (written : Option Nat)
      (hw : k.write ((c.ends .stdinPipe).bind fun e => k.server.get e.write) bytes =
        some (k', written)) :
    MainMove owner now k c k' { c with todo := rest }
  | feeding (bytes : List UInt8) (rest : List Stmt) (h : c.todo = .feed bytes :: rest)
      (k' : Kernel) (written : Nat) (hlt : written < bytes.length)
      (hw : k.write ((c.ends .stdinPipe).bind fun e => k.server.get e.write) bytes =
        some (k', some written)) :
    MainMove owner now k c k' { c with todo := .feed (bytes.drop written) :: rest }
  | startReader (n : PipeName) (closes : Bool) (rest : List Stmt)
      (h : c.todo = .startReader n closes :: rest) (e : PipeEnds) (he : c.ends n = some e) :
    MainMove owner now k c k { c with
      todo := rest
      readers := Function.update c.readers n
        (some { fd := e.read, closes, pc := .reading, sink := [] }) }
  /-- `waitpid` gets the child's status, in the loop or after the kill -/
  | waited (s : Stmt) (hs : s = .wait ∨ s = .reap) (rest : List Stmt) (h : c.todo = s :: rest)
      (pid : Nat) (hp : c.pid = some pid) (proc : Proc) (hproc : k.procs[pid]? = some proc)
      (status : WaitStatus) (hl : proc.life = .zombie status) :
    MainMove owner now k c { k with procs := k.procs.set pid { proc with life := .reaped } }
      { c with todo := rest, status := some status }
  /-- `waitpid` fails -/
  | waitFailed (s : Stmt) (hs : s = .wait ∨ s = .reap) (rest : List Stmt) (h : c.todo = s :: rest)
      (pid : Nat) (hp : c.pid = some pid)
      (hl : ∀ proc, k.procs[pid]? = some proc → proc.life = .reaped) (timedOut : Bool) :
    MainMove owner now k c k { c with todo := rest, timedOut := timedOut }
  | waitAlive (rest : List Stmt) (h : c.todo = .wait :: rest) (pid : Nat) (hp : c.pid = some pid)
      (proc : Proc) (hproc : k.procs[pid]? = some proc) (hl : proc.life = .running) :
    MainMove owner now k c k { c with todo := .checkClock :: rest }
  | kill (rest : List Stmt) (h : c.todo = .checkClock :: rest) (ht : c.TimeIsUp now) (pid : Nat)
      (hp : c.pid = some pid) :
    MainMove owner now k c (k.exit pid (.signaled 9))
      { c with todo := .reap :: rest, timedOut := true }
  | sleep (rest : List Stmt) (h : c.todo = .checkClock :: rest) (ht : ¬ c.TimeIsUp now) :
    MainMove owner now k c k { c with todo := .wait :: rest }
  | join (n : PipeName) (rest : List Stmt) (h : c.todo = .join n :: rest) (r : Reader)
      (hr : c.readers n = some r) (hf : r.pc = .finished) :
    MainMove owner now k c k { c with todo := rest }

theorem mainMove_of_main (h : c.main owner now k = some (k', c')) : MainMove owner now k c k' c' := by
  unfold Call.main at h
  split at h
  · cases h
  · next rest ht => cases h; exact .openSource rest ht
  · next rest ht =>
    obtain ⟨fd, hs, h⟩ := Option.map_eq_some_iff.mp h
    cases h
    exact .closeSource rest ht fd hs
  · next n rest ht => cases h; exact .pipe n rest ht
  · next rest ht => cases h; exact .startClock rest ht
  · next child rest ht => cases h; exact .fork child rest ht
  · next n side rest ht =>
    obtain ⟨e, he, h⟩ := Option.map_eq_some_iff.mp h
    cases h
    exact .close n side rest ht e he
  · next bytes rest ht =>
    split at h
    · cases h
    · next hw => cases h; exact .fed bytes rest ht _ none hw
    · next written hw =>
      cases h
      split
      · exact .fed bytes rest ht _ (some written) hw
      · next hlt => exact .feeding bytes rest ht _ written (by omega) hw
  · next n closes rest ht =>
    obtain ⟨e, he, h⟩ := Option.map_eq_some_iff.mp h
    cases h
    exact .startReader n closes rest ht e he
  · next rest ht =>
    split at h
    · cases h
    next pid hp =>
    rcases Kernel.waitpid_cases k pid with
      ⟨proc, hproc, hl, hw⟩ | ⟨proc, status, hproc, hl, hw⟩ | ⟨hl, hw⟩
    · rw [hw] at h; cases h; exact .waitAlive rest ht pid hp proc hproc hl
    · rw [hw] at h; cases h; exact .waited _ (Or.inl rfl) rest ht pid hp proc hproc status hl
    · rw [hw] at h; cases h; exact .waitFailed _ (Or.inl rfl) rest ht pid hp hl true
  · next rest ht =>
    split at h
    · next hup =>
      obtain ⟨pid, hp, h⟩ := Option.map_eq_some_iff.mp h
      cases h
      exact .kill rest ht hup pid hp
    · next hup => cases h; exact .sleep rest ht hup
  · next rest ht =>
    split at h
    · cases h
    next pid hp =>
    rcases Kernel.waitpid_cases k pid with
      ⟨proc, hproc, hl, hw⟩ | ⟨proc, status, hproc, hl, hw⟩ | ⟨hl, hw⟩
    · rw [hw] at h; cases h
    · rw [hw] at h; cases h; exact .waited _ (Or.inr rfl) rest ht pid hp proc hproc status hl
    · rw [hw] at h; cases h; exact .waitFailed _ (Or.inr rfl) rest ht pid hp hl c.timedOut
  · next n rest ht =>
    split at h
    · next r hr =>
      split at h
      · next hf => cases h; exact .join n rest ht r hr hf
      · cases h
    · cases h

/-- The statements of the wait loop. -/
def Stmt.Loops : Stmt → Prop
  | .wait | .checkClock | .reap => True
  | _ => False

/-- The head of `todo` is dropped, or the wait loop or the feeding goes on. -/
theorem MainMove.todo (hm : MainMove owner now k c k' c') : ∃ s rest, c.todo = s :: rest ∧
    (c'.todo = rest ∨ ∃ s', c'.todo = s' :: rest ∧
      (s.Loops ∧ s'.Loops ∨ ∃ bytes bytes', s = .feed bytes ∧ s' = .feed bytes')) := by
  cases hm with
  | feeding bytes rest ht =>
    exact ⟨_, rest, ht, Or.inr ⟨_, rfl, Or.inr ⟨bytes, _, rfl, rfl⟩⟩⟩
  | waitAlive rest ht => exact ⟨_, rest, ht, Or.inr ⟨_, rfl, Or.inl ⟨trivial, trivial⟩⟩⟩
  | kill rest ht => exact ⟨_, rest, ht, Or.inr ⟨_, rfl, Or.inl ⟨trivial, trivial⟩⟩⟩
  | sleep rest ht => exact ⟨_, rest, ht, Or.inr ⟨_, rfl, Or.inl ⟨trivial, trivial⟩⟩⟩
  | openSource rest ht => exact ⟨_, rest, ht, Or.inl rfl⟩
  | closeSource rest ht => exact ⟨_, rest, ht, Or.inl rfl⟩
  | pipe n rest ht => exact ⟨_, rest, ht, Or.inl rfl⟩
  | startClock rest ht => exact ⟨_, rest, ht, Or.inl rfl⟩
  | fork child rest ht => exact ⟨_, rest, ht, Or.inl rfl⟩
  | close n side rest ht => exact ⟨_, rest, ht, Or.inl rfl⟩
  | fed bytes rest ht => exact ⟨_, rest, ht, Or.inl rfl⟩
  | startReader n closes rest ht => exact ⟨_, rest, ht, Or.inl rfl⟩
  | waited s hs rest ht => exact ⟨_, rest, ht, Or.inl rfl⟩
  | waitFailed s hs rest ht => exact ⟨_, rest, ht, Or.inl rfl⟩
  | join n rest ht => exact ⟨_, rest, ht, Or.inl rfl⟩

/-! ## The reader threads -/

/-- What a reader thread can do. -/
inductive ReaderMove (n : PipeName) (k : Kernel) (c : Call) : Kernel → Call → Prop
  | got (r : Reader) (hr : c.readers n = some r) (hpc : r.pc = .reading) (p : Nat)
      (hp : k.server.get r.fd = some (.readEnd p)) (hne : k.content p ≠ []) :
    ReaderMove n k c { k with pipes := k.pipes.set p ((k.content p).drop 4096) }
      { c with
        readers := Function.update c.readers n
          (some { r with sink := r.sink ++ (k.content p).take 4096 }) }
  /-- end of file, or the read fails -/
  | stop (r : Reader) (hr : c.readers n = some r) (hpc : r.pc = .reading)
      (hw : ∀ p, k.server.get r.fd = some (.readEnd p) →
        k.content p = [] ∧ ¬ k.Held (.writeEnd p)) :
    ReaderMove n k c k { c with
      readers := Function.update c.readers n
        (some { r with pc := if r.closes then .closing else .finished }) }
  | close (r : Reader) (hr : c.readers n = some r) (hpc : r.pc = .closing) :
    ReaderMove n k c (k.close r.fd) { c with
      readers := Function.update c.readers n (some { r with pc := .finished })
      closed := c.closed ++ [k.server.get r.fd] }

theorem readerMove_of_reader (h : c.reader n k = some (k', c')) : ReaderMove n k c k' c' := by
  unfold Call.reader at h
  split at h
  · cases h
  next r hr =>
  dsimp only at h
  split at h
  · next hpc =>
    split at h
    · cases h
    · next k₁ b bytes hread =>
      cases h
      rcases Kernel.read_cases hread with
        ⟨p, hp, hne, hgot, rfl⟩ | ⟨p, -, -, -, hgot, -⟩ | ⟨-, hgot, -⟩
      · rw [Option.some.inj hgot]
        exact .got r hr hpc p hp hne
      · cases hgot
      · cases hgot
    · next k₁ got hgot hread =>
      cases h
      rcases Kernel.read_cases hread with
        ⟨p, hp, hne, rfl, -⟩ | ⟨p, hp, hc, hw, -, rfl⟩ | ⟨hp, -, rfl⟩
      · cases hc : k.content p with
        | nil => exact absurd hc hne
        | cons b bs => rw [hc] at hgot; exact (hgot b _ rfl).elim
      · refine .stop r hr hpc fun q hq => ?_
        rw [hp] at hq
        cases hq
        exact ⟨hc, hw⟩
      · exact .stop r hr hpc fun q hq => absurd hq (hp q)
  · next hpc => cases h; exact .close r hr hpc
  · cases h

/-! ## The server -/

/-- What the server can do. -/
inductive ServerMove (s : Server) : Action → Server → Prop
  | main (i : Nat) (c : Call) (hc : s.calls[i]? = some c) (k' : Kernel) (c' : Call)
      (hm : MainMove i s.now s.kernel c k' c') : ServerMove s (.main i) (s.update i (k', c'))
  | reader (i : Nat) (n : PipeName) (c : Call) (hc : s.calls[i]? = some c) (k' : Kernel)
      (c' : Call) (hm : ReaderMove n s.kernel c k' c') :
    ServerMove s (.reader i n) (s.update i (k', c'))
  | proc (pid : Nat) (a : Kernel.ProcAction) (k' : Kernel) (hm : s.kernel.ProcMove pid k') :
    ServerMove s (.proc pid a) { s with kernel := k' }
  | tick (nanoseconds : Nat) :
    ServerMove s (.tick nanoseconds) { s with now := s.now + nanoseconds }
  | openOther (owner : Nat) (ho : s.calls.length ≤ owner) :
    ServerMove s (.openOther owner) { s with kernel := (s.kernel.openFile owner).2 }
  | closeOther (fd owner : Nat) (ho : s.calls.length ≤ owner)
      (hg : s.kernel.server.get fd = some (.other owner)) :
    ServerMove s (.closeOther fd) { s with kernel := s.kernel.close fd }

theorem serverMove_of_step {s s' : Server} {a : Action} (h : s.step a = some s') :
    ServerMove s a s' := by
  cases a with
  | main i =>
    obtain ⟨c, hc, h⟩ := Option.bind_eq_some_iff.mp h
    obtain ⟨⟨k', c'⟩, hstep, rfl⟩ := Option.map_eq_some_iff.mp h
    exact .main i c hc k' c' (mainMove_of_main hstep)
  | reader i n =>
    obtain ⟨c, hc, h⟩ := Option.bind_eq_some_iff.mp h
    obtain ⟨⟨k', c'⟩, hstep, rfl⟩ := Option.map_eq_some_iff.mp h
    exact .reader i n c hc k' c' (readerMove_of_reader hstep)
  | proc pid a =>
    obtain ⟨k', hstep, rfl⟩ := Option.map_eq_some_iff.mp h
    exact .proc pid a k' (Kernel.procMove_of_procStep hstep)
  | tick nanoseconds =>
    cases h
    exact .tick nanoseconds
  | openOther owner =>
    simp only [Server.step, Option.ite_none_right_eq_some, Option.some.injEq] at h
    obtain ⟨ho, rfl⟩ := h
    exact .openOther owner ho
  | closeOther fd =>
    simp only [Server.step] at h
    split at h
    · next owner hg =>
      simp only [Option.ite_none_right_eq_some, Option.some.injEq] at h
      obtain ⟨ho, rfl⟩ := h
      exact .closeOther fd owner ho hg
    · cases h

/-- What is known of a pipe or a reader after one more has been recorded. -/
theorem of_update_some {α : Type} {f : PipeName → Option α} {m n : PipeName} {a b : α}
    (h : Function.update f n (some b) m = some a) : m = n ∧ a = b ∨ m ≠ n ∧ f m = some a := by
  by_cases hmn : m = n
  · subst hmn
    rw [Function.update_self] at h
    exact Or.inl ⟨rfl, (Option.some.inj h).symm⟩
  · rw [Function.update_of_ne hmn] at h
    exact Or.inr ⟨hmn, h⟩

/-- The first call of the child of `runBinary` closes its copy of the write end of its input. -/
theorem runBinaryChild_setup {ends : PipeName → Option PipeEnds} {e : PipeEnds}
    (he : ends .stdinPipe = some e) :
    runBinaryChild.filterMap (ChildStmt.resolve ends) =
      .close e.write :: runBinaryChild.tail.filterMap (ChildStmt.resolve ends) := by
  refine List.filterMap_cons_some ?_
  rw [ChildStmt.resolve, he]
  rfl

/-! ## The discipline of the statement lists -/

/-- What a statement promises about the ones after it. -/
def Stmt.Fits (rest : List Stmt) : Stmt → Prop
  | .openSource => .openSource ∉ rest ∧ .closeSource ∈ rest
  | .closeSource => .openSource ∉ rest ∧ .closeSource ∉ rest
  | .pipe n => .pipe n ∉ rest ∧ .close n .read ∈ rest ∧ .close n .write ∈ rest
  | .startClock => True
  | .fork _ => (∀ child, .fork child ∉ rest) ∧ .wait ∈ rest ∧ .startClock ∉ rest
  | .close n side => .close n side ∉ rest ∧ .pipe n ∉ rest ∧ .closeSource ∉ rest
  | .feed _ => (∀ bytes, .feed bytes ∉ rest) ∧ .close .stdinPipe .write ∈ rest
  | .startReader n closes =>
    (∀ closes, .startReader n closes ∉ rest) ∧ .join n ∈ rest ∧ .pipe n ∉ rest ∧
      .closeSource ∉ rest ∧
      (closes = true → ∀ m side, .close m side ∈ rest → m = n ∧ side = .read)
  | .wait | .checkClock | .reap =>
    ∀ s ∈ rest, (∃ n, s = .join n) ∨ ∃ n, s = .close n .read
  | .join n => .join n ∉ rest ∧ .close n .read ∈ rest ∧ .wait ∉ rest ∧ .checkClock ∉ rest

/-- Every statement of the list fits the rest. -/
def Disciplined : List Stmt → Prop
  | [] => True
  | s :: rest => s.Fits rest ∧ Disciplined rest

/-- What a list of statements needs at the start of a call. -/
structure WellScripted (script : List Stmt) : Prop where
  disciplined : Disciplined script
  opens : ∀ n side, .close n side ∈ script → .pipe n ∈ script
  opensSource : .closeSource ∈ script → .openSource ∈ script
  starts : ∀ n, .join n ∈ script → ∃ closes, .startReader n closes ∈ script
  forks : .wait ∈ script → ∃ child, .fork child ∈ script
  entersLoop : .checkClock ∉ script ∧ .reap ∉ script

theorem wellScripted_runBinary {request : RunRequest} (h : request.binaryPath ≠ []) :
    WellScripted (runBinaryCalls request .started) where
  disciplined := by
    by_cases hs : request.stdinContent = [] <;>
      simp [runBinaryCalls, h, hs, Disciplined, Stmt.Fits]
  opens n side := by
    cases n <;> simp [runBinaryCalls, h]
  opensSource := by simp [runBinaryCalls, h]
  starts n := by
    cases n <;> simp [runBinaryCalls, h]
  forks := by simp [runBinaryCalls, h]
  entersLoop := by simp [runBinaryCalls, h]

theorem wellScripted_compileSource (request : CompileRequest) (spawn : Spawn) :
    WellScripted (compileSourceCalls request spawn) := by
  by_cases h : request.workingDirectory = []
  · constructor <;> simp [compileSourceCalls, h, Disciplined]
  · cases spawn with
    | refused error => constructor <;> simp [compileSourceCalls, h, Disciplined]
    | pipeFails n error => constructor <;> simp [compileSourceCalls, h, Disciplined, Stmt.Fits]
    | forkFails error =>
      refine ⟨?_, fun n side => by cases n <;> simp [compileSourceCalls, h], ?_, ?_, ?_, ?_⟩ <;>
        simp +contextual [compileSourceCalls, h, Disciplined, Stmt.Fits]
    | started =>
      refine ⟨?_, fun n side => by cases n <;> simp [compileSourceCalls, h], ?_, ?_, ?_, ?_⟩ <;>
        simp +contextual [compileSourceCalls, h, Disciplined, Stmt.Fits]

end MiniOj.Judge
