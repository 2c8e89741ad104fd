import MiniOj.Infra.PipeStream
import MiniOj.Judge.Properties.Feeding

/-!
# How much output is captured

`runBinary` reads the two output pipes to their end. Nothing in these loops looks at
`output_limit_bytes`: the field only becomes the `RLIMIT_FSIZE` of the child, and that limit is
about regular files.

* `Captures` — what a reader has got and what is left in its pipe make up what was written
* `captured_of_run` — no byte is lost or made up: the captured output is a prefix of the
  written one, and all of it once the call has returned
* `captured_within_iff` — so the limit holds at every moment when the processes keep within it
  by themselves, and only then
* `captures_beyond_limit` — two bytes under a limit of one
-/

namespace MiniOj.Judge

open Infra

variable {now pid : Nat} {k k' : Kernel} {c c' : Call} {s s' : Server} {n m : PipeName}
  {w : List UInt8}

/-- `stdout_sink` or `stderr_sink`. -/
def Call.captured (c : Call) (n : PipeName) : List UInt8 := ((c.readers n).map Reader.sink).getD []

/-- What is in the pipe. -/
def Call.buffered (c : Call) (k : Kernel) (n : PipeName) : List UInt8 :=
  ((c.ends n).map fun e => k.content e.id).getD []

/-- What one call of a process adds to the pipe. -/
def Call.puts (c : Call) (k : Kernel) (n : PipeName) (pid : Nat) (a : Kernel.ProcAction) :
    List UInt8 :=
  ((c.ends n).map fun e => k.puts e.id pid a).getD []

/-- What an action adds to a pipe of the first call. -/
def Server.puts (n : PipeName) (s : Server) : Action → List UInt8
  | .proc pid a => (s.calls.head?.map fun c => c.puts s.kernel n pid a).getD []
  | _ => []

/-- Everything that the processes write into a pipe of the first call during a run. -/
def Server.written (s : Server) (n : PipeName) (as : List Action) : List UInt8 :=
  emitted Server.step (Server.puts n) s as

/-- What a reader has collected is its sink. -/
theorem captured_eq {r : Reader} (hr : c.readers n = some r) : c.captured n = r.sink := by
  rw [Call.captured, hr]
  rfl

/-- There is no reader. -/
theorem captured_none (hr : c.readers n = none) : c.captured n = [] := by
  rw [Call.captured, hr]
  rfl

/-- What is on the way is in the pipe. -/
theorem buffered_eq {e : PipeEnds} (he : c.ends n = some e) : c.buffered k n = k.content e.id := by
  rw [Call.buffered, he]
  rfl

/-- There is no pipe. -/
theorem buffered_none (he : c.ends n = none) : c.buffered k n = [] := by
  rw [Call.buffered, he]
  rfl

/-- The pipe has not changed. -/
theorem buffered_congr (he : c'.ends n = c.ends n)
    (hc : ∀ e, c.ends n = some e → k'.content e.id = k.content e.id) :
    c'.buffered k' n = c.buffered k n := by
  rw [Call.buffered, he, Call.buffered]
  cases h : c.ends n with
  | none => rfl
  | some e => exact hc e h

/-! ## Nothing is lost -/

/-- What has been written is collected or on the way, in order. -/
structure Captures (k : Kernel) (c : Call) (n : PipeName) (w : List UInt8) : Prop where
  whole : c.captured n ++ c.buffered k n = w
  begun : (∃ closes, .startReader n closes ∈ c.todo) ∨ ∃ r, c.readers n = some r
  /-- a reader stops in front of an empty pipe -/
  drained : ∀ r, c.readers n = some r → r.pc ≠ .reading → c.buffered k n = []
  child : ∀ child, .fork child ∈ c.todo → child = runBinaryChild ∧ k.procs = []
  /-- the child gives up the end that the reader reads from -/
  readEnd : ∀ e, c.ends n = some e →
    k.HeldDuring (.readEnd e.id) e.read (Kernel.ClosesSoon e.read)

/-- The statements that `Captures` speaks of. -/
def Stmt.Begins : Stmt → Prop
  | .fork _ | .startReader _ _ => True
  | _ => False

/-- Steps that do nothing to the pipe. -/
theorem Captures.frame (h : Captures k c n w) (hprocs : k.procs = [] → k'.procs = [])
    (hheld : ∀ f fd P, k.HeldDuring f fd P → k'.HeldDuring f fd P)
    (hcontent : ∀ e, c.ends n = some e → k'.content e.id = k.content e.id)
    (hends : c'.ends n = c.ends n) (hreaders : c'.readers n = c.readers n)
    (htodo : ∀ s, s.Begins → (s ∈ c'.todo ↔ s ∈ c.todo)) : Captures k' c' n w := by
  have hbuffered := buffered_congr hends hcontent
  constructor
  · rw [Call.captured, hreaders, hbuffered]
    exact h.whole
  · rw [hreaders]
    refine h.begun.imp ?_ id
    rintro ⟨closes, hs⟩
    exact ⟨closes, (htodo (.startReader n closes) trivial).mpr hs⟩
  · intro r hr hpc
    rw [hbuffered]
    exact h.drained r (hreaders ▸ hr) hpc
  · intro child hc
    obtain ⟨hchild, hp⟩ := h.child child ((htodo (.fork child) trivial).mp hc)
    exact ⟨hchild, hprocs hp⟩
  · intro e he
    exact hheld _ _ _ (h.readEnd e (hends ▸ he))

/-- The calling thread passes a statement that has nothing to do with the readers. -/
theorem Captures.passKernel (h : Captures k c n w) {s : Stmt} {rest : List Stmt}
    (ht : c.todo = s :: rest) (hs : ¬ s.Begins) (hprocs : k.procs = [] → k'.procs = [])
    (hheld : ∀ f fd P, k.HeldDuring f fd P → k'.HeldDuring f fd P)
    (hcontent : ∀ e, c.ends n = some e → k'.content e.id = k.content e.id)
    (hends : c'.ends = c.ends) (hreaders : c'.readers = c.readers)
    (htodo : ∀ s, s.Begins → (s ∈ c'.todo ↔ s ∈ rest)) : Captures k' c' n w :=
  h.frame hprocs hheld hcontent (by rw [hends]) (by rw [hreaders]) fun s' hs' => by
    rw [htodo s' hs', ht]
    exact (mem_cons_ne (by rintro rfl; exact hs hs')).symm

/-- And neither the processes nor the pipes change. -/
theorem Captures.pass (h : Captures k c n w) {s : Stmt} {rest : List Stmt}
    (ht : c.todo = s :: rest) (hs : ¬ s.Begins) (hprocs : k'.procs = k.procs)
    (hpipes : k'.pipes = k.pipes) (hends : c'.ends = c.ends) (hreaders : c'.readers = c.readers)
    (htodo : ∀ s, s.Begins → (s ∈ c'.todo ↔ s ∈ rest)) : Captures k' c' n w := by
  refine h.passKernel ht hs hprocs.trans ?_ (fun e _ => Kernel.content_of_pipes hpipes e.id)
    hends hreaders htodo
  exact fun f fd P hh proc hp => hh proc (hprocs ▸ hp)

/-- The new pipe is empty, and no process has an end of it. -/
theorem Captures.pipe (h : Captures k c n w) (hI : CallInv k c) {rest : List Stmt}
    (ht : c.todo = .pipe m :: rest) :
    Captures k.pipe.2 { c with todo := rest, ends := Function.update c.ends m (some k.pipe.1) }
      n w := by
  have htodo : ∀ s, s.Begins → (s ∈ rest ↔ s ∈ c.todo) := fun s hs => by
    rw [ht, mem_cons_ne (by rintro rfl; exact hs.elim)]
  by_cases hnm : n = m
  · subst hnm
    obtain ⟨hends, hreaders⟩ := hI.descriptors.unopened n (head_mem_todo ht)
    have hself : Function.update c.ends n (some k.pipe.1) n = some k.pipe.1 :=
      Function.update_self ..
    have hempty : Call.buffered
        { c with todo := rest, ends := Function.update c.ends n (some k.pipe.1) }
        k.pipe.2 n = [] := (buffered_eq hself).trans Kernel.content_pipe
    constructor
    · rw [hempty, ← h.whole, buffered_none hends]
      rfl
    · refine h.begun.imp ?_ id
      rintro ⟨closes, hs⟩
      exact ⟨closes, (htodo (.startReader n closes) trivial).mpr hs⟩
    · exact fun _ _ _ => hempty
    · exact fun child hc => h.child child ((htodo (.fork child) trivial).mp hc)
    · intro e he
      obtain rfl : k.pipe.1 = e := Option.some.inj (hself.symm.trans he)
      intro proc hp hh
      exact absurd (hI.wellFormed _ _ rfl (Or.inr ⟨proc, hp, hh⟩)) (Nat.lt_irrefl _)
  · exact h.frame id (fun _ _ _ hh => hh) (fun e _ => Kernel.content_push Kernel.pipe_pipes e.id)
      (Function.update_of_ne hnm _ _) rfl htodo

/-- The child closes the read ends of the output pipes right after the write end of the input. -/
theorem closesSoon_runBinaryChild {ends : PipeName → Option PipeEnds} {e : PipeEnds}
    (hn : n ≠ .stdinPipe) (he : ends n = some e) :
    Kernel.ClosesSoon e.read (runBinaryChild.filterMap (ChildStmt.resolve ends)) := by
  cases n with
  | stdinPipe => exact absurd rfl hn
  | stdoutPipe =>
    cases hin : ends .stdinPipe <;>
      simp [runBinaryChild, ChildStmt.resolve, hin, he, fdOf, Kernel.ClosesSoon]
  | stderrPipe =>
    cases hin : ends .stdinPipe <;> cases hout : ends .stdoutPipe <;>
      simp [runBinaryChild, ChildStmt.resolve, hin, hout, he, fdOf, Kernel.ClosesSoon]

/-- The child is there, and has written nothing. -/
theorem Captures.fork (h : Captures k c n w) (hD : Descriptors 0 k c) (hn : n ≠ .stdinPipe)
    {child : List ChildStmt} {rest : List Stmt} (ht : c.todo = .fork child :: rest) :
    Captures (k.fork (child.filterMap (ChildStmt.resolve c.ends)) 0)
      { c with todo := rest, pid := some k.procs.length } n w := by
  obtain ⟨⟨hno, -⟩, -⟩ := hD.tail ht
  obtain ⟨rfl, -⟩ := h.child child (head_mem_todo ht)
  constructor
  · exact h.whole
  · refine h.begun.imp ?_ id
    rintro ⟨closes, hs⟩
    rw [ht, mem_cons_ne (by simp)] at hs
    exact ⟨closes, hs⟩
  · exact h.drained
  · exact fun child hc => absurd hc (hno child)
  · intro e he
    refine (h.readEnd e he).fork (closesSoon_runBinaryChild hn he) fun fd hg => ?_
    exact ((hD.table n e .read fd he).mp hg).1

/-- The input goes into its own pipe. -/
theorem content_feed (hD : Descriptors 0 k c) (hn : n ≠ .stdinPipe) {bytes : List UInt8}
    {rest : List Stmt} (ht : c.todo = .feed bytes :: rest) {written : Option Nat}
    (hw : k.write ((c.ends .stdinPipe).bind fun e => k.server.get e.write) bytes =
      some (k', written)) {e : PipeEnds} (he : c.ends n = some e) :
    k'.content e.id = k.content e.id := by
  refine Kernel.content_write_other ?_ hw
  cases he₀ : c.ends .stdinPipe with
  | none => simp
  | some e₀ =>
    rw [Option.bind_some, get_input hD ht he₀]
    intro heq
    have hid : e₀.id = e.id := File.writeEnd.inj (Option.some.inj heq)
    exact hn (hD.distinct n .stdinPipe e e₀ he he₀ hid.symm)

/-- The reader starts with an empty sink. -/
theorem Captures.startReader (h : Captures k c n w) (hD : Descriptors 0 k c) {closes : Bool}
    {rest : List Stmt} (ht : c.todo = .startReader m closes :: rest) {e : PipeEnds} :
    Captures k { c with
      todo := rest
      readers := Function.update c.readers m
        (some { fd := e.read, closes, pc := .reading, sink := [] }) } n w := by
  obtain ⟨⟨hno, -⟩, -⟩ := hD.tail ht
  have hchild : ∀ child, .fork child ∈ rest → child = runBinaryChild ∧ k.procs = [] :=
    fun child hc => h.child child (mem_todo ht hc)
  by_cases hnm : n = m
  · subst hnm
    have hself := Function.update_self n
      (some ({ fd := e.read, closes, pc := .reading, sink := [] } : Reader)) c.readers
    constructor
    · rw [captured_eq hself, ← h.whole, captured_none (hD.unstarted n closes (head_mem_todo ht))]
      rfl
    · exact Or.inr ⟨_, hself⟩
    · intro r hr hpc
      obtain rfl := Option.some.inj (hself.symm.trans hr)
      exact absurd rfl hpc
    · exact hchild
    · exact h.readEnd
  · have hother : Function.update c.readers m
        (some { fd := e.read, closes, pc := .reading, sink := [] }) n = c.readers n :=
      Function.update_of_ne hnm _ _
    constructor
    · rw [Call.captured]
      dsimp only
      rw [hother]
      exact h.whole
    · dsimp only
      rw [hother]
      refine h.begun.imp ?_ id
      rintro ⟨closes', hs⟩
      rw [ht, mem_cons_ne (by simp [hnm])] at hs
      exact ⟨closes', hs⟩
    · intro r hr hpc
      exact h.drained r (hother.symm.trans hr) hpc
    · exact hchild
    · exact h.readEnd

/-- **The calling thread adds nothing and takes nothing.** -/
theorem Captures.mainMove (h : Captures k c n w) (hI : CallInv k c) (hn : n ≠ .stdinPipe)
    (hm : MainMove 0 now k c k' c') : Captures k' c' n w := by
  have hD := hI.descriptors
  cases hm with
  | openSource rest ht =>
    exact h.pass ht id rfl rfl rfl rfl fun _ _ => Iff.rfl
  | closeSource rest ht fd hs =>
    exact h.pass ht id rfl rfl rfl rfl fun _ _ => Iff.rfl
  | pipe m rest ht => exact h.pipe hI ht
  | startClock rest ht =>
    exact h.pass ht id rfl rfl rfl rfl fun _ _ => Iff.rfl
  | fork child rest ht => exact h.fork hD hn ht
  | close m side rest ht e he =>
    exact h.pass ht id rfl rfl rfl rfl fun _ _ => Iff.rfl
  | fed bytes rest ht _ written hw =>
    obtain ⟨hprocs, -⟩ := write_keeps hw
    exact h.passKernel ht id hprocs.trans (fun _ _ _ hh proc hp => hh proc (hprocs ▸ hp))
      (fun _ => content_feed hD hn ht hw) rfl rfl fun _ _ => Iff.rfl
  | feeding bytes rest ht _ written hlt hw =>
    obtain ⟨hprocs, -⟩ := write_keeps hw
    exact h.passKernel ht id hprocs.trans (fun _ _ _ hh proc hp => hh proc (hprocs ▸ hp))
      (fun _ => content_feed hD hn ht hw) rfl rfl
      fun _ hs => mem_cons_ne (by rintro rfl; exact hs.elim)
  | startReader m closes rest ht e he => exact h.startReader hD ht
  | waited s hs rest ht pid hp proc hproc status hl =>
    refine h.passKernel ht (by rcases hs with rfl | rfl <;> exact id) ?_ ?_ (fun _ _ => rfl) rfl rfl
      fun _ _ => Iff.rfl
    · intro hnil
      rw [hnil] at hproc
      cases hproc
    · exact fun f fd P hh => hh.set (hh proc (List.mem_of_getElem? hproc))
  | waitFailed s hs rest ht pid hp hl timedOut =>
    exact h.pass ht (by rcases hs with rfl | rfl <;> exact id) rfl rfl rfl rfl fun _ _ => Iff.rfl
  | waitAlive rest ht pid hp proc hproc hl =>
    exact h.pass ht id rfl rfl rfl rfl
      fun _ hs => mem_cons_ne (by rintro rfl; exact hs.elim)
  | kill rest ht hup pid hp =>
    refine h.passKernel ht id ?_ (fun _ _ _ hh => hh.exit)
      (fun e _ => Kernel.content_exit k pid (.signaled 9)) rfl rfl
      fun _ hs => mem_cons_ne (by rintro rfl; exact hs.elim)
    intro hnil
    rw [Kernel.exit_of_no_procs hnil, hnil]
  | sleep rest ht hup =>
    exact h.pass ht id rfl rfl rfl rfl
      fun _ hs => mem_cons_ne (by rintro rfl; exact hs.elim)
  | join m rest ht r hr hf =>
    exact h.pass ht id rfl rfl rfl rfl fun _ _ => Iff.rfl

/-- A reader goes on to its end with nothing left in the pipe. -/
theorem Captures.stop (h : Captures k c n w) {r : Reader} (hr : c.readers n = some r)
    (hempty : c.buffered k n = []) {pc : ReaderPc} {closed : List (Option File)}
    (hp : k'.procs = k.procs) (hpipes : k'.pipes = k.pipes) :
    Captures k' { c with
      readers := Function.update c.readers n (some { r with pc })
      closed := closed } n w := by
  have hself := Function.update_self n (some { r with pc }) c.readers
  have hbuffered : c.buffered k' n = c.buffered k n :=
    buffered_congr rfl fun e _ => Kernel.content_of_pipes hpipes e.id
  constructor
  · rw [captured_eq hself, ← h.whole, captured_eq hr]
    exact congrArg _ hbuffered
  · exact Or.inr ⟨_, hself⟩
  · exact fun _ _ _ => hbuffered.trans hempty
  · exact fun child hc => hp ▸ h.child child hc
  · exact fun e he proc hm => h.readEnd e he proc (hp ▸ hm)

/-- What a reader takes from the front of its pipe goes to the end of what it has. -/
theorem Captures.readerMove (h : Captures k c n w) (hI : CallInv k c)
    (hm : ReaderMove m k c k' c') : Captures k' c' n w := by
  have hD := hI.descriptors
  -- what the move of a reader leaves to the others
  have hframe : ∀ (k' : Kernel) (r' : Reader) (closed : List (Option File)), n ≠ m →
      k'.procs = k.procs → (∀ e, c.ends n = some e → k'.content e.id = k.content e.id) →
      Captures k' { c with readers := Function.update c.readers m (some r'), closed := closed }
        n w := by
    intro k' r' closed hnm hprocs hcontent
    refine h.frame (fun hp => hprocs.trans hp) ?_ hcontent rfl (Function.update_of_ne hnm _ _)
      fun _ _ => Iff.rfl
    exact fun f fd P hh proc hp => hh proc (hprocs ▸ hp)
  cases hm with
  | got r hr hpc p hp hne =>
    obtain ⟨e, he, -, hg⟩ := get_reader_fd hI.drains hD hr (by rw [hpc]; simp)
    obtain rfl : p = e.id := File.readEnd.inj (Option.some.inj (hp.symm.trans hg))
    by_cases hnm : n = m
    · subst hnm
      have hself := Function.update_self n
        (some { r with sink := r.sink ++ (k.content e.id).take 4096 }) c.readers
      constructor
      · rw [captured_eq hself, ← h.whole, captured_eq hr, buffered_eq he]
        show _ ++ c.buffered _ n = _
        rw [buffered_eq he, Kernel.content_set_self (hD.fresh n e he), List.append_assoc,
          List.take_append_drop]
      · exact Or.inr ⟨_, hself⟩
      · intro r' hr' hpc'
        obtain rfl := Option.some.inj (hself.symm.trans hr')
        exact absurd hpc hpc'
      · exact h.child
      · exact h.readEnd
    · refine hframe _ _ _ hnm rfl fun e' he' => Kernel.content_set_ne fun hid => hnm ?_
      exact hD.distinct n m e' e he' he hid.symm
  | stop r hr hpc hw =>
    by_cases hnm : n = m
    · subst hnm
      obtain ⟨e, he, -, hg⟩ := get_reader_fd hI.drains hD hr (by rw [hpc]; simp)
      exact h.stop hr ((buffered_eq he).trans (hw e.id hg).1) rfl rfl
    · exact hframe _ _ _ hnm rfl fun _ _ => rfl
  | close r hr hpc =>
    by_cases hnm : n = m
    · subst hnm
      exact h.stop hr (h.drained r hr (by rw [hpc]; simp)) rfl rfl
    · exact hframe _ _ _ hnm rfl fun _ _ => rfl

/-- What a process writes goes to the end of the pipe. -/
theorem Captures.procStep (h : Captures k c n w) (hI : CallInv k c) {a : Kernel.ProcAction}
    (hstep : k.procStep pid a = some k') : Captures k' c n (w ++ c.puts k n pid a) := by
  have hD := hI.descriptors
  have hbuffered : c.buffered k' n = c.buffered k n ++ c.puts k n pid a := by
    rw [Call.puts]
    cases he : c.ends n with
    | none =>
      rw [buffered_none he, buffered_none he]
      rfl
    | some e =>
      rw [buffered_eq he, buffered_eq he]
      exact Kernel.content_procStep hstep (hD.fresh n e he) fun proc hm hs =>
        (h.readEnd e he).not_holds (Kernel.givesUp_closesSoon _) hm hs
  have hm := Kernel.procMove_of_procStep hstep
  constructor
  · rw [hbuffered, ← List.append_assoc, h.whole]
  · exact h.begun
  · intro r hr hpc
    rw [hbuffered, h.drained r hr hpc, Call.puts]
    cases he : c.ends n with
    | none => rfl
    | some e =>
      -- a reader that has stopped has seen that nobody is left who could write
      have hnone := hI.drains.eof n r e hr hpc he
      exact Kernel.puts_eq_nil (fun proc hp hh => hnone (Or.inr ⟨proc, hp, hh⟩)) a
  · intro child hc
    obtain ⟨-, hnil⟩ := h.child child hc
    rw [Kernel.procStep, hnil] at hstep
    cases hstep
  · exact fun e he => (h.readEnd e he).procMove (Kernel.givesUp_closesSoon _) rfl
      (hD.fresh n e he) hm

/-- **One step**: what the processes write is added, and nothing else changes the sum of what
is captured and what is in the pipe. -/
theorem Captures.step (hc : s.calls = [c]) (hI : CallInv s.kernel c)
    (h : Captures s.kernel c n w) (hn : n ≠ .stdinPipe) {a : Action} (hstep : s.step a = some s') :
    ∃ c', s'.calls = [c'] ∧ CallInv s'.kernel c' ∧ Captures s'.kernel c' n (w ++ s.puts n a) := by
  obtain ⟨c', hc', hm⟩ := soloMove_of_step hc hstep
  refine ⟨c', hc', hI.soloMove hm, ?_⟩
  have hquiet : s.puts n a = [] → Captures s'.kernel c' n w →
      Captures s'.kernel c' n (w ++ s.puts n a) := by
    intro hputs h
    rwa [hputs, List.append_nil]
  cases hm with
  | main k' c' hm => exact hquiet rfl (h.mainMove hI hn hm)
  | reader m k' c' hm => exact hquiet rfl (h.readerMove hI hm)
  | proc pid a k' hm =>
    obtain ⟨k₁, hk, hs⟩ := Option.map_eq_some_iff.mp hstep
    obtain rfl : k₁ = k' := congrArg Server.kernel hs
    rw [Server.puts, hc]
    exact h.procStep hI hk
  | tick nanoseconds => exact hquiet rfl h
  | openOther owner ho =>
    exact hquiet rfl (h.frame id (fun _ _ _ => id) (fun _ _ => rfl) rfl rfl fun _ _ => Iff.rfl)
  | closeOther fd owner ho hg =>
    exact hquiet rfl (h.frame id (fun _ _ _ => id) (fun _ _ => rfl) rfl rfl fun _ _ => Iff.rfl)

/-! ## Calls that start no child -/

/-- Without a child there is nothing to write and nobody to read. -/
structure Childless (k : Kernel) (c : Call) : Prop where
  procs : k.procs = []
  begins : ∀ s ∈ c.todo, ¬ s.Begins
  readers : ∀ n, c.readers n = none

/-- A call without a child goes on having none. -/
theorem Childless.mainMove (h : Childless k c) (hm : MainMove 0 now k c k' c') :
    Childless k' c' := by
  have hbegins : ∀ s ∈ c'.todo, ¬ s.Begins := by
    obtain ⟨s₀, rest, ht, hto | ⟨s', hto, hkind⟩⟩ := hm.todo <;> rw [hto]
    · exact fun s hs => h.begins s (mem_todo ht hs)
    · intro s hs
      rcases List.mem_cons.mp hs with rfl | hs
      · rcases hkind with ⟨-, hl⟩ | ⟨_, bytes, -, rfl⟩
        · cases s <;> first | exact hl.elim | exact id
        · exact id
      · exact h.begins s (mem_todo ht hs)
  cases hm with
  | fork child rest ht => exact absurd trivial (h.begins _ (head_mem_todo ht))
  | startReader m closes rest ht => exact absurd trivial (h.begins _ (head_mem_todo ht))
  | fed bytes rest ht _ written hw =>
    exact ⟨(write_keeps hw).1.trans h.procs, hbegins, h.readers⟩
  | feeding bytes rest ht _ written hlt hw =>
    exact ⟨(write_keeps hw).1.trans h.procs, hbegins, h.readers⟩
  | waited s hs rest ht pid hp proc hproc =>
    rw [h.procs] at hproc
    cases hproc
  | kill rest ht hup pid hp =>
    rw [Kernel.exit_of_no_procs h.procs]
    exact ⟨h.procs, hbegins, h.readers⟩
  | _ => exact ⟨h.procs, hbegins, h.readers⟩

/-- Nobody writes. -/
theorem Childless.step (hc : s.calls = [c]) (h : Childless s.kernel c) {a : Action}
    (hstep : s.step a = some s') :
    s.puts n a = [] ∧ ∃ c', s'.calls = [c'] ∧ Childless s'.kernel c' := by
  obtain ⟨c', hc', hm⟩ := soloMove_of_step hc hstep
  cases hm with
  | main k' c' hm => exact ⟨rfl, c', hc', h.mainMove hm⟩
  | reader m k' c' hm =>
    have hr : ∃ r, c.readers m = some r := by cases hm <;> exact ⟨_, ‹_›⟩
    obtain ⟨r, hr⟩ := hr
    rw [h.readers m] at hr
    cases hr
  | proc pid a k' hm =>
    obtain ⟨k₁, hk, -⟩ := Option.map_eq_some_iff.mp hstep
    rw [Kernel.procStep, h.procs] at hk
    cases hk
  | tick nanoseconds => exact ⟨rfl, c, hc', h⟩
  | openOther owner ho => exact ⟨rfl, c, hc', h.procs, h.begins, h.readers⟩
  | closeOther fd owner ho hg => exact ⟨rfl, c, hc', h.procs, h.begins, h.readers⟩

/-! ## Whole runs -/

/-- A run that cannot be started has no child. -/
theorem childless_runBinary {request : RunRequest} {spawn : Spawn}
    (h : request.binaryPath = [] ∨ spawn ≠ .started) (hp : k.procs = []) :
    Childless k (.runBinary request spawn) := by
  refine ⟨hp, ?_, fun _ => rfl⟩
  by_cases hpath : request.binaryPath = []
  · simp [Call.runBinary, Call.fresh, runBinaryCalls, hpath]
  · cases spawn with
    | started => exact absurd rfl (h.resolve_left hpath)
    | pipeFails n error =>
      cases n <;> simp [Call.runBinary, Call.fresh, runBinaryCalls, hpath, Stmt.Begins]
    | _ => simp [Call.runBinary, Call.fresh, runBinaryCalls, hpath, Stmt.Begins]

/-- A run begins with nothing written. -/
theorem captures_runBinary {request : RunRequest} (hpath : request.binaryPath ≠ [])
    (hn : n ≠ .stdinPipe) (hp : k.procs = []) : Captures k (.runBinary request .started) n [] := by
  refine ⟨rfl, Or.inl ⟨false, ?_⟩, fun _ _ _ => rfl, fun child hc => ⟨?_, hp⟩,
    fun _ he => nomatch he⟩
  · cases n <;> simp [Call.runBinary, Call.fresh, runBinaryCalls, hpath] at hn ⊢
  · by_cases hin : request.stdinContent = [] <;>
      simpa [Call.runBinary, Call.fresh, runBinaryCalls, hpath, hin] using hc

/-- **In every run all that is written is collected, in order.** -/
theorem Captures.of_run (hc : s.calls = [c]) (hI : CallInv s.kernel c)
    (h : Captures s.kernel c n []) (hn : n ≠ .stdinPipe) {as : List Action}
    (hr : run Server.step s as = some s') :
    ∃ c', s'.calls = [c'] ∧ CallInv s'.kernel c' ∧ Captures s'.kernel c' n (s.written n as) := by
  refine run_emitted
    (R := fun s w => ∃ c, s.calls = [c] ∧ CallInv s.kernel c ∧ Captures s.kernel c n w)
    ?_ ⟨c, hc, hI, h⟩ hr
  rintro s a s' w ⟨c, hc, hI, h⟩ hstep
  exact h.step hc hI hn hstep

/-- **Without a child nothing is written.** -/
theorem Childless.of_run (hc : s.calls = [c]) (h : Childless s.kernel c) {as : List Action}
    (hr : run Server.step s as = some s') :
    s.written n as = [] ∧ ∃ c', s'.calls = [c'] ∧ Childless s'.kernel c' := by
  refine run_emitted (R := fun s w => w = [] ∧ ∃ c, s.calls = [c] ∧ Childless s.kernel c)
    ?_ ⟨rfl, c, hc, h⟩ hr
  rintro s a s' w ⟨rfl, c, hc, h⟩ hstep
  exact h.step hc hstep

/-- **No byte is lost and none is made up**, in any interleaving and any chunking: what is
captured is a prefix of what the processes have written, and all of it when the call has
returned. -/
theorem captured_of_run {request : RunRequest} {spawn : Spawn} {capacity : Nat}
    (h0 : Server.Init capacity [.runBinary request spawn] s) {as : List Action}
    (hr : run Server.step s as = some s') (hn : n ≠ .stdinPipe) :
    ∃ c, s'.calls = [c] ∧ c.captured n <+: s.written n as ∧
      (c.todo = [] → c.captured n = s.written n as) := by
  by_cases hstarted : request.binaryPath ≠ [] ∧ spawn = .started
  · obtain ⟨hpath, rfl⟩ := hstarted
    obtain ⟨c, hc, hI⟩ := callInv_of_reachable (wellScripted_runBinary hpath) (.init h0)
    obtain rfl : Call.runBinary request .started = c := by
      rw [h0.calls] at hc
      exact (List.cons.inj hc).1
    obtain ⟨c, hc, hI, hC⟩ :=
      Captures.of_run h0.calls hI (captures_runBinary hpath hn h0.procs) hn hr
    refine ⟨c, hc, ⟨_, hC.whole⟩, fun hret => ?_⟩
    obtain ⟨closes, hs⟩ | ⟨r, hr⟩ := hC.begun
    · rw [hret] at hs
      cases hs
    · -- the reader has been joined, so it has come to the end of its pipe
      have hpc : r.pc = .finished := by
        by_contra hpc
        have hj := hI.drains.joins n r hr hpc
        rw [hret] at hj
        cases hj
      have hwhole := hC.whole
      rwa [hC.drained r hr (by rw [hpc]; simp), List.append_nil] at hwhole
  · have hc : request.binaryPath = [] ∨ spawn ≠ .started := by
      rw [not_and_or, not_not] at hstarted
      exact hstarted
    obtain ⟨hw, c, hc, hC⟩ := (childless_runBinary hc h0.procs).of_run h0.calls hr
    have hnone : c.captured n = [] := captured_none (hC.readers n)
    rw [hw]
    exact ⟨c, hc, List.prefix_nil.mpr hnone, fun _ => hnone⟩

/-! ## The limit -/

/-- The captured output is at most this long at every moment of the run. -/
def CapturedWithin (limit : Nat) (s : Server) (as : List Action) : Prop :=
  ∀ bs t c n, bs <+: as → run Server.step s bs = some t → c ∈ t.calls → n ≠ .stdinPipe →
    (c.captured n).length ≤ limit

/-- In the whole run at most this much is written into each of the output pipes. -/
def WrittenWithin (limit : Nat) (s : Server) (as : List Action) : Prop :=
  ∀ n, n ≠ .stdinPipe → (s.written n as).length ≤ limit

/-- **When the output limit holds.** A run captures at most `output_limit_bytes` of each output
at every moment as long as the processes write no more than that into its pipe; and once the
call has returned, only then. -/
theorem captured_within_iff {request : RunRequest} {spawn : Spawn} {capacity : Nat}
    (h0 : Server.Init capacity [.runBinary request spawn] s) {as : List Action}
    (hr : run Server.step s as = some s') :
    (WrittenWithin request.outputLimitBytes.toNat s as →
      CapturedWithin request.outputLimitBytes.toNat s as) ∧
    ((∀ c ∈ s'.calls, c.todo = []) → CapturedWithin request.outputLimitBytes.toNat s as →
      WrittenWithin request.outputLimitBytes.toNat s as) := by
  constructor
  · intro hw bs t c n hbs ht hc hn
    obtain ⟨c', hc', hpre, -⟩ := captured_of_run h0 ht hn
    rw [hc', List.mem_singleton] at hc
    subst hc
    exact Nat.le_trans (hpre.trans (emitted_mono hbs s)).length_le (hw n hn)
  · intro hret hcap n hn
    obtain ⟨c, hc, -, hall⟩ := captured_of_run h0 hr hn
    have hin : c ∈ s'.calls := hc ▸ List.mem_singleton_self c
    rw [← hall (hret c hin)]
    exact hcap as s' c n (List.prefix_refl as) hr hin hn

/-- The child of a run prints two bytes and exits; the readers get to the end of the pipes. -/
def printsTwo : List Action :=
  List.replicate 5 (.main 0) ++ List.replicate 11 (.proc 0 (.setup true)) ++
    List.replicate 6 (.main 0) ++
    [.proc 0 (.call (.write 1 [104, 105])), .reader 0 .stdoutPipe, .proc 0 (.die (.exited 0)),
      .main 0, .reader 0 .stdoutPipe, .reader 0 .stderrPipe] ++ List.replicate 4 (.main 0)

/-- A run with an output limit. -/
def printer (limit : UInt64) : List Call :=
  [.runBinary { binaryPath := [97], outputLimitBytes := limit } .started]

theorem captured_within_two : CapturedWithin 2 (.idle 65536 (printer 2)) printsTwo := by
  have hrun : (run Server.step (.idle 65536 (printer 2)) printsTwo).isSome = true := by decide
  obtain ⟨s, hs⟩ := Option.isSome_iff_exists.mp hrun
  refine (captured_within_iff (Server.init_idle 65536 _) hs).1 fun n hn => ?_
  cases n with
  | stdinPipe => exact absurd rfl hn
  | stdoutPipe => decide
  | stderrPipe => decide

/-- The child prints two bytes, the limit is one, and both bytes are captured. -/
theorem captures_beyond_limit :
    ¬ ∀ (request : RunRequest) (spawn : Spawn) (capacity : Nat) (s s' : Server) (as : List Action),
      Server.Init capacity [.runBinary request spawn] s → run Server.step s as = some s' →
      CapturedWithin request.outputLimitBytes.toNat s as := by
  intro h
  have hrun : (run Server.step (.idle 65536 (printer 1)) printsTwo).map (fun s =>
      s.calls.map fun c => (c.captured .stdoutPipe).length) = some [2] := by decide
  obtain ⟨s, hs, hlength⟩ := Option.map_eq_some_iff.mp hrun
  obtain ⟨c, hc, hlength⟩ := List.map_eq_singleton_iff.mp hlength
  have hin : c ∈ s.calls := hc ▸ List.mem_singleton_self c
  have hle := h _ _ _ _ s printsTwo (Server.init_idle 65536 (printer 1)) hs printsTwo s c
    .stdoutPipe (List.prefix_refl _) hs hin (by simp)
  rw [hlength] at hle
  exact absurd hle (by decide)

end MiniOj.Judge
