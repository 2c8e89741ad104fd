import MiniOj.Judge.Properties.Waiting

/-!
# Feeding the input to the child

`runBinary` writes the whole input before it starts the readers and before it looks at the
clock for the first time.

* `Feeds` — while the input is being written there is room in the pipe for what is left,
  because nobody else writes into it: the child closes its write end before it becomes the
  submission
* `kills_iff` — the time limit is enforced in every state, and feeding never blocks against a
  child with full output pipes, exactly when the input fits the pipe
-/

namespace MiniOj.Judge

open Infra

variable {now : Nat} {k k' : Kernel} {c c' : Call} {s s' : Server} {n : PipeName}

/-- How far the feeding of the child is. -/
structure Feeds (k : Kernel) (c : Call) : Prop where
  child : ∀ child, .fork child ∈ c.todo → child = runBinaryChild ∧ k.procs = []
  closesFirst : ∀ e, c.ends .stdinPipe = some e →
    ∃ rest, k.ClosesFirst (.writeEnd e.id) e.write rest
  fits : ∀ bytes, .feed bytes ∈ c.todo → bytes.length ≤ k.capacity ∧
    ∀ e, c.ends .stdinPipe = some e → (k.content e.id).length + bytes.length ≤ k.capacity
  clock : c.pid ≠ none → .startClock ∉ c.todo

/-- The statements that `Feeds` speaks of. -/
def Stmt.Feeds : Stmt → Prop
  | .fork _ | .feed _ | .startClock => True
  | _ => False

theorem Feeds.frame (h : Feeds k c) (hprocs : k.procs = [] → k'.procs = [])
    (hcf : ∀ e rest, c.ends .stdinPipe = some e → k.ClosesFirst (.writeEnd e.id) e.write rest →
      k'.ClosesFirst (.writeEnd e.id) e.write rest)
    (hcap : k'.capacity = k.capacity)
    (hcontent : ∀ e bytes, c.ends .stdinPipe = some e → .feed bytes ∈ c'.todo →
      (k'.content e.id).length ≤ (k.content e.id).length)
    (hends : c'.ends = c.ends) (hpid : c'.pid = c.pid)
    (htodo : ∀ s ∈ c'.todo, s.Feeds → s ∈ c.todo) : Feeds k' c' := by
  constructor
  · intro child hc
    obtain ⟨hchild, hp⟩ := h.child child (htodo _ hc trivial)
    exact ⟨hchild, hprocs hp⟩
  · intro e he
    rw [hends] at he
    obtain ⟨rest, hr⟩ := h.closesFirst e he
    exact ⟨rest, hcf e rest he hr⟩
  · intro bytes hb
    obtain ⟨hlen, hroom⟩ := h.fits bytes (htodo _ hb trivial)
    rw [hcap, hends]
    refine ⟨hlen, fun e he => ?_⟩
    have := hroom e he
    have := hcontent e bytes he hb
    omega
  · intro hp hc
    exact h.clock (hpid ▸ hp) (htodo _ hc trivial)

/-- The calling thread passes a statement, and neither the processes nor the pipes change. -/
theorem Feeds.pass (h : Feeds k c) {s : Stmt} {rest : List Stmt} (ht : c.todo = s :: rest)
    (hprocs : k'.procs = k.procs) (hpipes : k'.pipes = k.pipes) (hcap : k'.capacity = k.capacity)
    (hends : c'.ends = c.ends) (hpid : c'.pid = c.pid) (htodo : ∀ s ∈ c'.todo, s.Feeds → s ∈ rest) :
    Feeds k' c' := by
  refine h.frame (fun hp => hprocs ▸ hp) ?_ hcap ?_ hends hpid fun s hs hf => ?_
  · intro e rest _ hcf proc hm
    exact hcf proc (hprocs ▸ hm)
  · exact fun e _ _ _ => Nat.le_of_eq (congrArg _ (Kernel.content_of_pipes hpipes e.id))
  · exact mem_todo ht (htodo s hs hf)

/-- The child is reaped or killed. -/
theorem Feeds.passChild (h : Feeds k c) {s : Stmt} {rest : List Stmt} (ht : c.todo = s :: rest)
    (hprocs : k.procs = [] → k'.procs = [])
    (hcf : ∀ f fd rest, k.ClosesFirst f fd rest → k'.ClosesFirst f fd rest)
    (hpipes : k'.pipes = k.pipes) (hcap : k'.capacity = k.capacity)
    (hends : c'.ends = c.ends) (hpid : c'.pid = c.pid) (htodo : ∀ s ∈ c'.todo, s.Feeds → s ∈ rest) :
    Feeds k' c' := by
  refine h.frame hprocs (fun e rest _ => hcf _ _ _) hcap ?_ hends hpid
    fun s hs hf => ?_
  · exact fun e _ _ _ => Nat.le_of_eq (congrArg _ (Kernel.content_of_pipes hpipes e.id))
  · exact mem_todo ht (htodo s hs hf)

theorem mem_rest_of_loops (s₁ : Stmt) {s : Stmt} {rest : List Stmt} (h₁ : s₁.Loops)
    (hs : s ∈ s₁ :: rest) (hf : s.Feeds) : s ∈ rest := by
  rcases List.mem_cons.mp hs with rfl | hs
  · cases s <;> first | exact h₁.elim | exact hf.elim
  · exact hs

/-- What `write` does to the pipe of the input. -/
theorem write_input {e : PipeEnds} (hg : k.server.get e.write = some (.writeEnd e.id))
    (hid : e.id < k.pipes.length) {bytes : List UInt8} {written : Nat} (hb : bytes ≠ [])
    (hw : k.write (k.server.get e.write) bytes = some (k', some written)) :
    (k'.content e.id).length = (k.content e.id).length + written := by
  rw [hg] at hw
  rcases Kernel.write_cases hw with ⟨p, room, hp, -, -, -, -, hwr, rfl⟩ | ⟨-, hnone⟩
  · cases hp
    rw [Option.some.inj hwr, Kernel.content_set_self hid, List.length_append]
  · cases hnone e.id rfl hb

theorem write_keeps {g : Option File} {bytes : List UInt8} {written : Option Nat}
    (hw : k.write g bytes = some (k', written)) :
    k'.procs = k.procs ∧ k'.capacity = k.capacity := by
  rcases Kernel.write_cases hw with ⟨p, room, -, -, -, -, -, -, rfl⟩ | ⟨rfl, -⟩ <;> exact ⟨rfl, rfl⟩

theorem get_input (hD : Descriptors 0 k c) {bytes : List UInt8} {rest : List Stmt}
    (ht : c.todo = .feed bytes :: rest) {e : PipeEnds} (he : c.ends .stdinPipe = some e) :
    k.server.get e.write = some (.writeEnd e.id) := by
  obtain ⟨⟨-, hclose⟩, -⟩ := hD.tail ht
  have hopen : c.Open .stdinPipe .write := ⟨mem_todo ht hclose, fun _ hs => nomatch hs⟩
  exact hD.get_of_open he hopen

/-- The new pipe is empty, and no process has an end of it. -/
theorem Feeds.pipe (h : Feeds k c) (hwf : k.WellFormed) {rest : List Stmt}
    (ht : c.todo = .pipe n :: rest) :
    Feeds k.pipe.2 { c with todo := rest, ends := Function.update c.ends n (some k.pipe.1) } := by
  constructor
  · exact fun child hc => h.child child (mem_todo ht hc)
  · intro e he
    rcases of_update_some he with ⟨-, rfl⟩ | ⟨-, he⟩
    · refine ⟨[], fun proc hp hh => ?_⟩
      exact absurd (hwf _ _ rfl (Or.inr ⟨proc, hp, hh⟩)) (Nat.lt_irrefl _)
    · exact h.closesFirst e he
  · intro bytes hb
    obtain ⟨hlen, hroom⟩ := h.fits bytes (mem_todo ht hb)
    refine ⟨hlen, fun e he => ?_⟩
    rcases of_update_some he with ⟨-, rfl⟩ | ⟨-, he⟩
    · rw [Kernel.content_pipe, List.length_nil, Nat.zero_add]
      exact hlen
    · rw [Kernel.content_push Kernel.pipe_pipes]
      exact hroom e he
  · exact fun hp hc => h.clock hp (mem_todo ht hc)

/-- The child is the first process, and its first call closes its copy of the write end. -/
theorem Feeds.fork (h : Feeds k c) (hD : Descriptors 0 k c) {child : List ChildStmt}
    {rest : List Stmt} (ht : c.todo = .fork child :: rest) :
    Feeds (k.fork (child.filterMap (ChildStmt.resolve c.ends)) 0)
      { c with todo := rest, pid := some k.procs.length } := by
  obtain ⟨⟨hno, -, hclock⟩, -⟩ := hD.tail ht
  obtain ⟨rfl, hprocs⟩ := h.child child (head_mem_todo ht)
  constructor
  · exact fun child hc => absurd hc (hno child)
  · intro e he
    rw [runBinaryChild_setup he]
    refine ⟨_, Kernel.ClosesFirst.fork (fun proc hm => ?_) fun fd hg => ?_⟩
    · rw [hprocs] at hm
      cases hm
    · exact ((hD.table _ e .write fd he).mp hg).1
  · exact fun bytes hb => h.fits bytes (mem_todo ht hb)
  · exact fun _ hc => absurd hc hclock

/-- What has been written is in the pipe, what is left still fits. -/
theorem Feeds.feeding (h : Feeds k c) (hD : Descriptors 0 k c) {bytes : List UInt8}
    {rest : List Stmt} (ht : c.todo = .feed bytes :: rest) {written : Nat}
    (hlt : written < bytes.length)
    (hw : k.write ((c.ends .stdinPipe).bind fun e => k.server.get e.write) bytes =
      some (k', some written)) :
    Feeds k' { c with todo := .feed (bytes.drop written) :: rest } := by
  obtain ⟨⟨hno, -⟩, -⟩ := hD.tail ht
  obtain ⟨hprocs, hcap⟩ := write_keeps hw
  constructor
  · intro child hc
    rw [List.mem_cons, or_iff_right (by simp)] at hc
    obtain ⟨hchild, hp⟩ := h.child child (mem_todo ht hc)
    exact ⟨hchild, hprocs ▸ hp⟩
  · intro e he
    obtain ⟨rest', hr⟩ := h.closesFirst e he
    exact ⟨rest', fun proc hm => hr proc (hprocs ▸ hm)⟩
  · intro bytes' hb
    rw [List.mem_cons, or_iff_left (hno bytes')] at hb
    cases hb
    obtain ⟨hlen, hroom⟩ := h.fits bytes (head_mem_todo ht)
    rw [hcap, List.length_drop]
    refine ⟨by omega, fun e he => ?_⟩
    rw [he, Option.bind_some] at hw
    have hne : bytes ≠ [] := by
      rintro rfl
      exact absurd hlt (Nat.not_lt_zero _)
    -- what the write has added to the pipe is no longer left to write
    rw [write_input (get_input hD ht he) (hD.fresh _ e he) hne hw]
    have := hroom e he
    omega
  · intro hp hc
    rw [List.mem_cons, or_iff_right (by simp)] at hc
    exact h.clock hp (mem_todo ht hc)

/-- **`Feeds` is kept by every step of the calling thread.** -/
theorem Feeds.mainMove (h : Feeds k c) (hI : CallInv k c) (hm : MainMove 0 now k c k' c') :
    Feeds k' c' := by
  have hD := hI.descriptors
  cases hm with
  | openSource rest ht => exact h.pass ht rfl rfl rfl rfl rfl fun _ hs _ => hs
  | closeSource rest ht fd hs => exact h.pass ht rfl rfl rfl rfl rfl fun _ hs _ => hs
  | pipe n rest ht => exact h.pipe hI.wellFormed ht
  | startClock rest ht => exact h.pass ht rfl rfl rfl rfl rfl fun _ hs _ => hs
  | fork child rest ht => exact h.fork hD ht
  | close n side rest ht e he => exact h.pass ht rfl rfl rfl rfl rfl fun _ hs _ => hs
  | fed bytes rest ht _ written hw =>
    obtain ⟨⟨hno, -⟩, -⟩ := hD.tail ht
    obtain ⟨hprocs, hcap⟩ := write_keeps hw
    refine h.frame (fun hp => hprocs ▸ hp) ?_ hcap ?_ rfl rfl fun s hs _ => mem_todo ht hs
    · exact fun e rest _ hcf proc hm => hcf proc (hprocs ▸ hm)
    · exact fun e bytes _ hb => absurd hb (hno bytes)
  | feeding bytes rest ht _ written hlt hw => exact h.feeding hD ht hlt hw
  | startReader n closes rest ht e he => exact h.pass ht rfl rfl rfl rfl rfl fun _ hs _ => hs
  | waited s hs rest ht pid hp proc hproc status hl =>
    refine h.passChild ht ?_ ?_ rfl rfl rfl rfl fun _ hs _ => hs
    · intro hn
      rw [hn] at hproc
      cases hproc
    · exact fun f fd rest hcf => hcf.set fun hh => hcf proc (List.mem_of_getElem? hproc) hh
  | waitFailed s hs rest ht pid hp hl timedOut =>
    exact h.pass ht rfl rfl rfl rfl rfl fun _ hs _ => hs
  | waitAlive rest ht pid hp proc hproc hl =>
    exact h.pass ht rfl rfl rfl rfl rfl fun _ hs hf => mem_rest_of_loops .checkClock trivial hs hf
  | kill rest ht hup pid hp =>
    refine h.passChild ht (fun hn => ?_) (fun f fd rest hcf => hcf.exit) ?_ ?_ rfl rfl
      fun _ hs hf => mem_rest_of_loops .reap trivial hs hf
    · rw [Kernel.exit_of_no_procs hn, hn]
    all_goals
      rcases Kernel.exit_cases k pid (.signaled 9) with ⟨-, he⟩ | ⟨proc', hp', -, he⟩ <;> rw [he]
  | sleep rest ht hup =>
    exact h.pass ht rfl rfl rfl rfl rfl fun _ hs hf => mem_rest_of_loops .wait trivial hs hf
  | join n rest ht r hr hf => exact h.pass ht rfl rfl rfl rfl rfl fun _ hs _ => hs

/-- **`Feeds` is kept by every other step.** -/
theorem Feeds.procMove (h : Feeds k c) (hD : Descriptors 0 k c) {pid : Nat}
    (hm : Kernel.ProcMove k pid k') : Feeds k' c := by
  have hcf : ∀ e rest, c.ends .stdinPipe = some e → k.ClosesFirst (.writeEnd e.id) e.write rest →
      k'.ClosesFirst (.writeEnd e.id) e.write rest :=
    fun e rest he hcf => hcf.procMove rfl (hD.fresh _ e he) hm
  refine h.frame ?_ hcf hm.capacity ?_ rfl rfl fun _ hs _ => hs
  · intro hn
    have hnone : ∀ proc, k.procs[pid]? ≠ some proc := fun proc hp => by
      rw [hn] at hp
      cases hp
    cases hm with
    | idle => exact hn
    | setup proc c rest hp => exact absurd hp (hnone proc)
    | table proc fds hp => exact absurd hp (hnone proc)
    | pipe proc fds hp => exact absurd hp (hnone proc)
    | fork proc hp => exact absurd hp (hnone proc)
    | read proc p size hp => exact absurd hp (hnone proc)
    | write proc p bytes hp => exact absurd hp (hnone proc)
    | exit proc status hp => exact absurd hp (hnone proc)
  · intro e bytes he _
    rcases hm.length_content e.id with hle | ⟨proc, hp, hs, hh⟩
    · exact hle
    · -- nobody who writes there has its setup behind it
      obtain ⟨rest, hr⟩ := h.closesFirst e he
      have := (hr proc hp hh).1
      rw [hs] at this
      cases this

theorem Feeds.readerMove (h : Feeds k c) (hm : ReaderMove n k c k' c') : Feeds k' c' := by
  obtain ⟨htodo, hends, hpid, -, -, -⟩ := hm.keeps
  refine h.frame (fun hp => hm.procs ▸ hp) ?_ ?_ ?_ hends hpid fun s hs _ => htodo ▸ hs
  · exact fun e rest _ hcf proc hp => hcf proc (hm.procs ▸ hp)
  · cases hm <;> rfl
  · intro e bytes _ _
    cases hm with
    | got r hr hpc p hp hne => exact Kernel.length_content_drop_le k p e.id 4096
    | stop => exact Nat.le_refl _
    | close => exact Nat.le_refl _

theorem Feeds.soloMove {a : Action} (h : Feeds s.kernel c) (hI : CallInv s.kernel c)
    (hm : SoloMove s c a s' c') : Feeds s'.kernel c' := by
  cases hm with
  | main k' c' hm => exact h.mainMove hI hm
  | reader n k' c' hm => exact h.readerMove hm
  | proc pid a k' hm => exact h.procMove hI.descriptors hm
  | tick nanoseconds => exact h
  | openOther owner ho =>
    exact h.frame id (fun _ _ _ hcf => hcf) rfl (fun _ _ _ _ => Nat.le_refl _) rfl rfl
      fun _ hs _ => hs
  | closeOther fd owner ho hg =>
    exact h.frame id (fun _ _ _ hcf => hcf) rfl (fun _ _ _ _ => Nat.le_refl _) rfl rfl
      fun _ hs _ => hs

theorem feeds_of_reachable {request : RunRequest} {capacity : Nat}
    (hpath : request.binaryPath ≠ []) (hfits : request.stdinContent.length ≤ capacity)
    (h : Reachable Server.step (Server.Init capacity [.runBinary request .started]) s) :
    ∃ c, s.calls = [c] ∧ CallInv s.kernel c ∧ Feeds s.kernel c := by
  have hs := wellScripted_runBinary hpath
  refine h.invariant_with (J := fun s => ∃ c, s.calls = [c] ∧ CallInv s.kernel c)
    (I := fun s => ∃ c, s.calls = [c] ∧ CallInv s.kernel c ∧ Feeds s.kernel c)
    (fun _ hr => callInv_of_reachable hs hr) ?_ ?_
  · intro s h0
    obtain ⟨c, hc, hI⟩ := callInv_of_reachable hs (.init h0)
    rw [h0.calls] at hc
    cases hc
    refine ⟨_, h0.calls, hI, ?_, fun _ he => (nomatch he), ?_, fun hp => absurd rfl hp⟩
    · intro child hc
      refine ⟨?_, h0.procs⟩
      by_cases hin : request.stdinContent = [] <;>
        simpa [Call.runBinary, Call.fresh, runBinaryCalls, hpath, hin] using hc
    · intro bytes hb
      have : bytes = request.stdinContent := by
        by_cases hin : request.stdinContent = []
        · simp [Call.fresh, runBinaryCalls, hpath, hin] at hb
        · simpa [Call.runBinary, Call.fresh, runBinaryCalls, hpath, hin] using hb
      rw [this, h0.capacity]
      exact ⟨hfits, fun _ he => nomatch he⟩
  · rintro s a s' - ⟨c, hc, hI, hF⟩ - hstep
    obtain ⟨c', hc', hm⟩ := soloMove_of_step hc hstep
    exact ⟨c', hc', hI.soloMove hm, hF.soloMove hI hm⟩

/-! ## The way to the kill -/

/-- Call `i` has a child that runs. -/
def Server.ChildAlive (s : Server) (i : Nat) : Prop := ∃ c pid proc, s.calls[i]? = some c ∧
  c.pid = some pid ∧ s.kernel.procs[pid]? = some proc ∧ proc.life = .running

/-- The calling thread is blocked in the `write` of the input. -/
def FeedBlocked (k : Kernel) (now : Nat) (c : Call) : Prop :=
  (∃ bytes rest, c.todo = .feed bytes :: rest) ∧ c.main 0 now k = none

/-- The pipe of the output has no room. -/
def OutputFull (k : Kernel) (c : Call) : Prop :=
  ∃ n e, n ≠ .stdinPipe ∧ c.ends n = some e ∧ k.capacity ≤ (k.content e.id).length

/-- **Feeding does not block** while what is left fits the pipe. -/
theorem Feeds.not_blocked (h : Feeds k c) (hI : CallInv k c) : ¬ FeedBlocked k now c := by
  rintro ⟨⟨bytes, rest, ht⟩, hnone⟩
  obtain ⟨hlen, hroom⟩ := h.fits bytes (head_mem_todo ht)
  have hw : k.write ((c.ends .stdinPipe).bind fun e => k.server.get e.write) bytes = none := by
    simp only [Call.main, ht] at hnone
    split at hnone
    · assumption
    · cases hnone
    · cases hnone
  cases he : c.ends .stdinPipe with
  | none => rw [he] at hw; cases hw
  | some e =>
    rw [he, Option.bind_some, get_input hI.descriptors ht he] at hw
    have := hroom e he
    simp only [Kernel.write] at hw
    split at hw
    · cases hw
    · split at hw
      · cases hw
      · next hb =>
        have := List.length_pos_iff.mpr hb
        rw [if_neg (by omega)] at hw
        cases hw

/-- What a statement may still cost the calling thread. -/
def Stmt.cost : Stmt → Nat
  | .feed bytes => bytes.length + 1
  | .wait => 3
  | .checkClock => 2
  | _ => 1

theorem Stmt.cost_pos (s : Stmt) : 0 < s.cost := by
  cases s <;> simp [Stmt.cost]

theorem written_pos {g : Option File} {bytes : List UInt8} {written : Nat}
    (hw : k.write g bytes = some (k', some written)) (hlt : written < bytes.length) :
    0 < written := by
  unfold Kernel.write at hw
  split at hw
  · split at hw
    · cases hw
    · split at hw
      · next hb => rw [hb] at hlt; exact absurd hlt (Nat.not_lt_zero _)
      · next hb =>
        split at hw
        · cases hw
        · cases hw
          rw [List.length_take]
          have := List.length_pos_iff.mpr hb
          omega
  · cases hw
    exact absurd hlt (Nat.lt_irrefl _)
  · cases hw

/-- Every step of the calling thread costs something once the time is up. -/
theorem cost_lt (hup : c.TimeIsUp now) (hm : MainMove 0 now k c k' c') :
    (c'.todo.map Stmt.cost).sum < (c.todo.map Stmt.cost).sum := by
  cases hm with
  | feeding bytes rest ht _ written hlt hw =>
    -- a `write` that returns has written something
    have := written_pos hw hlt
    simp only [ht, List.map_cons, List.sum_cons, Stmt.cost, List.length_drop]
    omega
  | waitAlive rest ht => simp [ht, Stmt.cost]
  | kill rest ht => simp [ht, Stmt.cost]
  | sleep rest ht hnot => exact absurd hup hnot
  | openSource rest ht => simp [ht, Stmt.cost_pos]
  | closeSource rest ht => simp [ht, Stmt.cost_pos]
  | pipe n rest ht => simp [ht, Stmt.cost_pos]
  | startClock rest ht => simp [ht, Stmt.cost_pos]
  | fork child rest ht => simp [ht, Stmt.cost_pos]
  | close n side rest ht => simp [ht, Stmt.cost_pos]
  | fed bytes rest ht => simp [ht, Stmt.cost_pos]
  | startReader n closes rest ht => simp [ht, Stmt.cost_pos]
  | waited s hs rest ht => simp [ht, Stmt.cost_pos]
  | waitFailed s hs rest ht => simp [ht, Stmt.cost_pos]
  | join n rest ht => simp [ht, Stmt.cost_pos]

/-- **While the child is alive the calling thread can go on.** -/
theorem main_enabled (hI : CallInv k c) (hF : Feeds k c) (hup : c.TimeIsUp now) {pid : Nat}
    {proc : Proc} (hp : c.pid = some pid) (hproc : k.procs[pid]? = some proc)
    (hl : proc.life = .running) : ∃ kc, c.main 0 now k = some kc := by
  have hD := hI.descriptors
  -- a running child is still to be waited for
  have hin : .wait ∈ c.todo ∨ .checkClock ∈ c.todo := by
    obtain ⟨proc', hproc', -, hrun⟩ := hI.awaits.child pid hp
    rw [hproc] at hproc'
    cases hproc'
    exact hrun hl
  cases ht : c.todo with
  | nil => rw [ht] at hin; simp at hin
  | cons s rest =>
    obtain ⟨hfits, -⟩ := hD.tail ht
    have hrest : ∀ s', s' ≠ s → s' ∈ c.todo → s' ∈ rest := fun s' hne hs' => by
      rwa [ht, mem_cons_ne hne] at hs'
    cases s with
    | openSource => simp [Call.main, ht]
    | closeSource =>
      rcases hD.source (head_mem_todo ht) with hos | ⟨fd, hs, -⟩
      · exact absurd (hrest _ (by simp) hos) hfits.1
      · simp [Call.main, ht, hs]
    | pipe n => simp [Call.main, ht]
    | startClock => simp [Call.main, ht]
    | fork child => simp [Call.main, ht]
    | close n side =>
      obtain ⟨e, he⟩ := hD.ends_of_close ht (by simp) hfits.2.1 (head_mem_todo ht)
      simp [Call.main, ht, he]
    | feed bytes =>
      cases hmain : c.main 0 now k with
      | some kc => exact ⟨kc, rfl⟩
      | none => exact absurd ⟨⟨bytes, rest, ht⟩, hmain⟩ (hF.not_blocked hI)
    | startReader n closes =>
      obtain ⟨-, hj, hnp, -⟩ := hfits
      have hc : .close n .read ∈ c.todo := close_of_join hD.disciplined (mem_todo ht hj)
      obtain ⟨e, he⟩ := hD.ends_of_close ht (by simp) hnp hc
      simp [Call.main, ht, he]
    | wait =>
      rcases Kernel.waitpid_cases k pid with ⟨_, _, _, hw⟩ | ⟨_, _, _, _, hw⟩ | ⟨_, hw⟩ <;>
        simp [Call.main, ht, hp, hw]
    | checkClock => simp [Call.main, ht, hp, hup]
    | reap =>
      -- after the kill the loop is over, so it cannot be still to come
      rcases hin with hin | hin
      · have := hfits _ (hrest _ (by simp) hin)
        simp at this
      · have := hfits _ (hrest _ (by simp) hin)
        simp at this
    | join n =>
      rcases hin with hin | hin
      · exact absurd (hrest _ (by simp) hin) hfits.2.2.1
      · exact absurd (hrest _ (by simp) hin) hfits.2.2.2

/-- The limit, the start of the clock and the child are fixed once there is a child. -/
theorem MainMove.keeps_clock (hm : MainMove 0 now k c k' c') (hclock : .startClock ∉ c.todo) :
    c'.limit = c.limit ∧ c'.start = c.start ∧ (c.pid ≠ none → c'.pid ≠ none) := by
  cases hm with
  | startClock rest ht => exact absurd (head_mem_todo ht) hclock
  | fork child rest ht => exact ⟨rfl, rfl, fun _ => by simp⟩
  | _ => exact ⟨rfl, rfl, id⟩

theorem leads_to_kill (hc : s.calls = [c]) (hI : CallInv s.kernel c) (hF : Feeds s.kernel c)
    (hup : c.TimeIsUp s.now) (hpid : c.pid ≠ none) :
    Leads Server.step (Own 0) (fun s => ¬ s.ChildAlive 0) s := by
  refine Leads.of_measure
    (I := fun s => ∃ c, s.calls = [c] ∧ CallInv s.kernel c ∧ Feeds s.kernel c ∧
      c.TimeIsUp s.now ∧ c.pid ≠ none)
    (fun s => (s.calls.map fun c => (c.todo.map Stmt.cost).sum).sum) ?_
    ⟨c, hc, hI, hF, hup, hpid⟩
  rintro s ⟨c, hc, hI, hF, hup, hpid⟩
  by_cases halive : s.ChildAlive 0
  · obtain ⟨c₀, pid, proc, hc₀, hp, hproc, hl⟩ := halive
    rw [hc] at hc₀
    cases hc₀
    obtain ⟨⟨k', c'⟩, hmain⟩ := main_enabled hI hF hup hp hproc hl
    have hm := mainMove_of_main hmain
    obtain ⟨hlimit, hstart, hpid'⟩ := hm.keeps_clock (hF.clock hpid)
    have hset : s.update 0 (k', c') = { s with kernel := k', calls := [c'] } := by
      rw [Server.update, hc]
      rfl
    refine Or.inr ⟨.main 0, { s with kernel := k', calls := [c'] }, rfl, ?_,
      ⟨c', rfl, hI.mainMove hm, hF.mainMove hI hm, ?_, hpid' hpid⟩, ?_⟩
    · simp only [Server.step, hc, List.getElem?_cons_zero, Option.bind_some, hmain,
        Option.map_some, hset]
    · unfold Call.TimeIsUp
      rw [hlimit, hstart]
      exact hup
    · simp only [hc, List.map_cons, List.map_nil, List.sum_cons, List.sum_nil, Nat.add_zero]
      exact cost_lt hup hm
  · exact Or.inl halive

/-- A call that neither forks nor writes has no child and does not block. -/
theorem quiet_of_reachable {script : List Stmt} {limit : Int} {capacity : Nat}
    (hfork : ∀ child, .fork child ∉ script) (hfeed : ∀ bytes, .feed bytes ∉ script)
    (h : Reachable Server.step (Server.Init capacity [.fresh script limit]) s) :
    ∃ c, s.calls = [c] ∧ c.pid = none ∧ (∀ child, .fork child ∉ c.todo) ∧
      ∀ bytes, .feed bytes ∉ c.todo := by
  refine h.invariant (I := fun s => ∃ c, s.calls = [c] ∧ c.pid = none ∧
    (∀ child, .fork child ∉ c.todo) ∧ ∀ bytes, .feed bytes ∉ c.todo) ?_ ?_
  · exact fun s h0 => ⟨_, h0.calls, rfl, hfork, hfeed⟩
  · rintro s a s' ⟨c, hc, hpid, hfork, hfeed⟩ - hstep
    obtain ⟨c', hc', hm⟩ := soloMove_of_step hc hstep
    refine ⟨c', hc', ?_⟩
    cases hm with
    | main k' c' hm =>
      obtain ⟨s₀, rest, ht, hto⟩ := hm.todo
      have hkind : ∀ s ∈ c'.todo, s ∈ c.todo ∨ s.Loops := by
        intro s hs
        rcases hto with hto | ⟨s', hto, hkind⟩
        · exact Or.inl (mem_todo ht (hto ▸ hs))
        · rw [hto] at hs
          rcases List.mem_cons.mp hs with rfl | hs
          · rcases hkind with ⟨-, hl⟩ | ⟨bytes, bytes', hb, -⟩
            · exact Or.inr hl
            · exact absurd (by rw [ht, hb]; exact List.mem_cons_self) (hfeed bytes)
          · exact Or.inl (mem_todo ht hs)
      refine ⟨?_, fun child hin => ?_, fun bytes hin => ?_⟩
      · cases hm with
        | fork child rest ht => exact absurd (head_mem_todo ht) (hfork child)
        | _ => exact hpid
      · exact (hkind _ hin).elim (hfork child) id
      · exact (hkind _ hin).elim (hfeed bytes) id
    | reader n k' c' hm =>
      obtain ⟨htodo, -, hp, -⟩ := hm.keeps
      rw [htodo, hp]
      exact ⟨hpid, hfork, hfeed⟩
    | _ => exact ⟨hpid, hfork, hfeed⟩

/-! ## An input that does not fit the pipe -/

/-- The calling thread has filled the pipe and has more to write; the child reads nothing. -/
structure Stuck (s : Server) (c : Call) : Prop where
  calls : s.calls = [c]
  main : c.main 0 s.now s.kernel = none
  readers : ∀ n, c.readers n = none
  alive : s.ChildAlive 0

theorem Stuck.not_leads (h : Stuck s c) :
    ¬ Leads Server.step (Own 0) (fun s => ¬ s.ChildAlive 0) s := by
  refine not_leads_of_invariant (I := fun s' => s' = s) ?_ ?_ rfl
  · rintro s₀ a s' ha rfl hstep
    obtain ⟨c', -, hm⟩ := soloMove_of_step h.calls hstep
    -- neither the calling thread nor a reader can move
    cases a with
    | main i =>
      cases ha
      simp [Server.step, h.calls, h.main] at hstep
    | reader i n =>
      cases ha
      simp [Server.step, h.calls, Call.reader, h.readers] at hstep
    | _ => exact ha.elim
  · rintro s' rfl hnot
    exact hnot h.alive

/-- What the system looks like when the child is about to be forked. -/
structure AboutToFork (request : RunRequest) (capacity : Nat) (s : Server) (c : Call) : Prop where
  calls : s.calls = [c]
  todo : ∃ rest, c.todo = .fork runBinaryChild :: .close .stdinPipe .read ::
    .close .stdoutPipe .write :: .close .stderrPipe .write :: .feed request.stdinContent :: rest
  ends : (∃ e, c.ends .stdinPipe = some e ∧ e.id = 0) ∧ (∃ e, c.ends .stdoutPipe = some e) ∧
    ∃ e, c.ends .stderrPipe = some e
  procs : s.kernel.procs = []
  pipes : s.kernel.pipes = [[], [], []]
  capacity : s.kernel.capacity = capacity
  readers : ∀ n, c.readers n = none
  clock : c.limit = request.timeLimit * 1000000 ∧ c.start = 0

theorem run_to_fork {request : RunRequest} (hpath : request.binaryPath ≠ [])
    (hin : request.stdinContent ≠ []) (capacity : Nat) :
    ∃ s c, run Server.step (Server.idle capacity [.runBinary request .started])
      (List.replicate 4 (.main 0)) = some s ∧ AboutToFork request capacity s c := by
  unfold Call.runBinary runBinaryCalls
  rw [if_neg hpath]
  simp only [if_neg hin]
  exact ⟨_, _, rfl, rfl, ⟨_, rfl⟩, ⟨⟨_, rfl, rfl⟩, ⟨_, rfl⟩, ⟨_, rfl⟩⟩, rfl, rfl, rfl, fun _ => rfl,
    rfl, rfl⟩

/-- What it looks like when the calling thread is about to write the input. -/
structure AboutToFeed (request : RunRequest) (capacity : Nat) (s : Server) (c : Call) : Prop where
  calls : s.calls = [c]
  todo : ∃ rest, c.todo = .feed request.stdinContent :: rest
  ends : ∃ e, c.ends .stdinPipe = some e ∧ e.id = 0
  pipes : s.kernel.pipes = [[], [], []]
  capacity : s.kernel.capacity = capacity
  readers : ∀ n, c.readers n = none
  clock : c.limit = request.timeLimit * 1000000 ∧ c.start = 0
  child : c.pid = some 0 ∧ ∃ proc, s.kernel.procs = [proc] ∧ proc.life = .running ∧
    proc.fds.Holds (.readEnd 0)

/-- The child gets a copy of the read end, and three descriptors of the server are closed. -/
theorem AboutToFork.next {request : RunRequest} {capacity : Nat}
    (h : AboutToFork request capacity s c) (hI : CallInv s.kernel c) :
    ∃ s' c', run Server.step s (List.replicate 4 (.main 0)) = some s' ∧
      AboutToFeed request capacity s' c' := by
  obtain ⟨rest, ht⟩ := h.todo
  obtain ⟨⟨e₀, he₀, hid⟩, ⟨e₁, he₁⟩, ⟨e₂, he₂⟩⟩ := h.ends
  have hopen : c.Open .stdinPipe .read := by
    refine ⟨by rw [ht]; simp, fun r _ hr => ?_⟩
    rw [h.readers] at hr
    cases hr
  have hread : s.kernel.server.Holds (.readEnd 0) :=
    ⟨e₀.read, hid ▸ hI.descriptors.get_of_open he₀ hopen⟩
  obtain ⟨limit, start⟩ := h.clock
  simp only [List.replicate, run, Server.step, h.calls, List.getElem?_cons_zero, Option.bind_some,
    Call.main, ht, Option.map_some, Server.update, List.set_cons_zero, he₀, he₁, he₂, Call.closeFd]
  exact ⟨_, _, rfl, rfl, ⟨_, rfl⟩, ⟨e₀, he₀, hid⟩, h.pipes, h.capacity, h.readers, ⟨limit, start⟩,
    by rw [h.procs]; rfl, _, by rw [Kernel.fork, h.procs]; rfl, rfl, hread⟩

/-- With the pipe full and more to write, the calling thread waits for the child to read. -/
theorem stuck_of_full {e : PipeEnds} {bytes : List UInt8} {rest : List Stmt} (hc : s.calls = [c])
    (ht : c.todo = .feed bytes :: rest) (hb : bytes ≠ []) (he : c.ends .stdinPipe = some e)
    (hg : s.kernel.server.get e.write = some (.writeEnd e.id))
    (hheld : s.kernel.Held (.readEnd e.id))
    (hfull : s.kernel.capacity ≤ (s.kernel.content e.id).length) (hreaders : ∀ n, c.readers n = none)
    (halive : s.ChildAlive 0) : Stuck s c := by
  refine ⟨hc, ?_, hreaders, halive⟩
  simp [Call.main, ht, he, hg, Kernel.write, hheld, hb, hfull]

/-- **A child that does not read** a longer input than the pipe takes is never killed. -/
theorem stuck_of_long_input (request : RunRequest) {capacity : Nat}
    (hpath : request.binaryPath ≠ []) (hlong : capacity < request.stdinContent.length) :
    ∃ s c, Reachable Server.step (Server.Init capacity [.runBinary request .started]) s ∧
      Stuck s c ∧ c.TimeIsUp s.now := by
  have hin : request.stdinContent ≠ [] := by
    rintro hnil
    rw [hnil] at hlong
    exact absurd hlong (Nat.not_lt_zero _)
  have hwell := wellScripted_runBinary hpath
  obtain ⟨s₀, c₀, hrun₀, hfork⟩ := run_to_fork hpath hin capacity
  have hreach₀ := Reachable.run (.init (Server.init_idle capacity _)) hrun₀
  obtain ⟨c', hc', hI₀⟩ := callInv_of_reachable hwell hreach₀
  obtain rfl : c₀ = c' := by rw [hfork.calls] at hc'; exact (List.cons.inj hc').1
  obtain ⟨s₁, c₁, hrun₁, hfeed⟩ := hfork.next hI₀
  have hreach₁ := hreach₀.run hrun₁
  obtain ⟨c', hc', hI₁⟩ := callInv_of_reachable hwell hreach₁
  obtain rfl : c₁ = c' := by rw [hfeed.calls] at hc'; exact (List.cons.inj hc').1
  obtain ⟨rest, ht⟩ := hfeed.todo
  obtain ⟨e, he, hid⟩ := hfeed.ends
  obtain ⟨hlimit, hstart⟩ := hfeed.clock
  obtain ⟨hpid, proc, hprocs, hl, hread⟩ := hfeed.child
  have hg := get_input hI₁.descriptors ht he
  have hcontent : s₁.kernel.content e.id = [] := by
    rw [Kernel.content, hfeed.pipes, hid]
    rfl
  have hheld : s₁.kernel.Held (.readEnd e.id) :=
    Or.inr ⟨proc, by rw [hprocs]; exact List.mem_singleton_self _, hid ▸ hread⟩
  -- the clock may run before the input is written
  let s₂ : Server := { s₁ with now := s₁.now + (c₁.start + c₁.limit.toNat + 1) }
  have hreach₂ : Reachable Server.step (Server.Init capacity [.runBinary request .started]) s₂ :=
    hreach₁.step (.tick _) trivial rfl
  have hup : c₁.TimeIsUp s₂.now := by
    unfold Call.TimeIsUp
    simp only [s₂]
    omega
  have halive : s₂.ChildAlive 0 :=
    ⟨c₁, 0, proc, by simp only [s₂, hfeed.calls]; rfl, hpid, by simp only [s₂, hprocs]; rfl, hl⟩
  by_cases hzero : capacity = 0
  · refine ⟨s₂, c₁, hreach₂, ?_, hup⟩
    refine stuck_of_full hfeed.calls ht hin he hg hheld ?_ hfeed.readers halive
    simp only [s₂, hfeed.capacity, hzero]
    exact Nat.zero_le _
  · -- one more step fills the pipe
    let k₃ : Kernel := { s₁.kernel with
      pipes := s₁.kernel.pipes.set e.id (request.stdinContent.take capacity) }
    let c₃ : Call := { c₁ with todo := .feed (request.stdinContent.drop capacity) :: rest }
    have hmin : min capacity request.stdinContent.length = capacity := by omega
    have hmain : c₁.main 0 s₂.now s₂.kernel = some (k₃, c₃) := by
      simp [Call.main, ht, he, s₂, hg, Kernel.write, hheld, hin, hfeed.capacity, hcontent, hzero,
        hmin, Nat.not_le.mpr hlong, k₃, c₃]
    have hstep : s₂.step (.main 0) = some { s₂ with kernel := k₃, calls := [c₃] } := by
      have hcalls : s₂.calls = [c₁] := hfeed.calls
      simp [Server.step, hcalls, hmain, Server.update]
    refine ⟨_, c₃, hreach₂.step (.main 0) trivial hstep, ?_, hup⟩
    have hlt : e.id < s₁.kernel.pipes.length := hI₁.descriptors.fresh _ e he
    refine stuck_of_full rfl rfl ?_ he hg hheld ?_ hfeed.readers ?_
    · rw [Ne, List.drop_eq_nil_iff]
      omega
    · have hcontent₃ : k₃.content e.id = request.stdinContent.take capacity :=
        Kernel.content_set_self hlt
      show s₁.kernel.capacity ≤ (k₃.content e.id).length
      refine Nat.le_of_eq ?_
      rw [hcontent₃, hfeed.capacity, List.length_take, hmin]
    · exact ⟨c₃, 0, proc, rfl, hpid, by simp only [k₃, hprocs]; rfl, hl⟩

/-! ## The exact condition -/

/-- **When the time limit is enforced.** In every reachable state whose child is still alive
after the limit, `runBinary` gets to the kill by its own steps, and feeding the input never
blocks against a child with a full output pipe, exactly when the input fits the pipe (or there
is no child at all). -/
theorem kills_iff (request : RunRequest) (spawn : Spawn) (capacity : Nat) :
    (∀ s c, Reachable Server.step (Server.Init capacity [.runBinary request spawn]) s →
        s.calls = [c] →
        (s.ChildAlive 0 → c.TimeIsUp s.now →
          Leads Server.step (Own 0) (fun s => ¬ s.ChildAlive 0) s) ∧
        ¬ (FeedBlocked s.kernel s.now c ∧ OutputFull s.kernel c)) ↔
      request.binaryPath = [] ∨ spawn ≠ .started ∨ request.stdinContent.length ≤ capacity := by
  constructor
  · intro h
    by_cases hpath : request.binaryPath = []
    · exact Or.inl hpath
    by_cases hspawn : spawn = .started
    · subst hspawn
      refine Or.inr (Or.inr (Nat.le_of_not_lt fun hlong => ?_))
      obtain ⟨s, c, hreach, hstuck, hup⟩ := stuck_of_long_input request hpath hlong
      exact hstuck.not_leads ((h s c hreach hstuck.calls).1 hstuck.alive hup)
    · exact Or.inr (Or.inl hspawn)
  · intro h s c hreach hc
    by_cases hstarted : request.binaryPath ≠ [] ∧ spawn = .started
    · obtain ⟨hpath, rfl⟩ := hstarted
      have hfits : request.stdinContent.length ≤ capacity := by
        rcases h with h | h | h
        · exact absurd h hpath
        · exact absurd rfl h
        · exact h
      obtain ⟨c', hc', hI, hF⟩ := feeds_of_reachable hpath hfits hreach
      rw [hc] at hc'
      cases hc'
      refine ⟨?_, fun hb => hF.not_blocked hI hb.1⟩
      rintro ⟨c₀, pid, proc, hc₀, hp, -, -⟩ hup
      rw [hc] at hc₀
      cases hc₀
      exact leads_to_kill hc hI hF hup (by rw [hp]; simp)
    · have hquiet : (∀ child, .fork child ∉ runBinaryCalls request spawn) ∧
          ∀ bytes, .feed bytes ∉ runBinaryCalls request spawn := by
        by_cases hpath : request.binaryPath = []
        · simp [runBinaryCalls, hpath]
        · cases spawn with
          | started => exact absurd ⟨hpath, rfl⟩ hstarted
          | pipeFails n error => cases n <;> simp [runBinaryCalls, hpath]
          | _ => simp [runBinaryCalls, hpath]
      obtain ⟨c', hc', hpid, -, hfeed⟩ := quiet_of_reachable hquiet.1 hquiet.2 hreach
      rw [hc] at hc'
      cases hc'
      constructor
      · rintro ⟨c₀, pid, proc, hc₀, hp, -, -⟩
        rw [hc] at hc₀
        cases hc₀
        rw [hpid] at hp
        cases hp
      · rintro ⟨⟨⟨bytes, rest, ht⟩, -⟩, -⟩
        exact hfeed bytes (head_mem_todo ht)

/-- An input of 65537 bytes for a child that does not read: the kernel's default pipe takes
65536. -/
theorem not_killed_behind_long_input :
    ¬ ∀ (request : RunRequest) (spawn : Spawn) (capacity : Nat) (s : Server) (c : Call),
      Reachable Server.step (Server.Init capacity [.runBinary request spawn]) s → s.calls = [c] →
      (s.ChildAlive 0 → c.TimeIsUp s.now →
        Leads Server.step (Own 0) (fun s => ¬ s.ChildAlive 0) s) ∧
      ¬ (FeedBlocked s.kernel s.now c ∧ OutputFull s.kernel c) := by
  intro h
  have hlong : 65536 < (List.replicate 65537 (0 : UInt8)).length := by
    rw [List.length_replicate]
    omega
  let request : RunRequest := { binaryPath := [97], stdinContent := List.replicate 65537 0 }
  obtain ⟨s, c, hreach, hstuck, hup⟩ := stuck_of_long_input request (by simp [request]) hlong
  exact hstuck.not_leads ((h _ _ _ s c hreach hstuck.calls).1 hstuck.alive hup)

end MiniOj.Judge
