import MiniOj.Judge.Properties.Feeding

/-!
# What concurrent runs inherit from each other

A child starts with a copy of every descriptor that is open in the server, so it gets the
write ends of another run's pipes when it is forked while the server still has them.

* `ForksAlone` — a run forks only while no other run has still to close a write end
* `apart` — under this condition no process of one run ever holds a write end of another's
  pipes, so input and output of a run end independently of the others
* `inherits_input` — without it, a run's child keeps another run's input open
-/

namespace MiniOj.Judge

open Infra

variable {i j now : Nat} {k k' : Kernel} {c c' : Call} {s s' : Server} {n : PipeName} {e : PipeEnds}

/-! ## What the other calls see of a step -/

/-- The server gets no new descriptor for an existing pipe. -/
theorem MainMove.get_old (hm : MainMove j now k c k' c') {f : File} {p fd : Nat}
    (hf : f.pipe = some p) (hp : p < k.pipes.length) (hg : k'.server.get fd = some f) :
    k.server.get fd = some f := by
  cases hm with
  | openSource rest ht =>
    rcases Kernel.get_openFile.mp hg with ⟨-, rfl⟩ | hg
    · cases hf
    · exact hg
  | closeSource rest ht fd' hs => exact (Kernel.get_close.mp hg).2
  | pipe n rest ht =>
    rcases get_pipe_fileOf.mp hg with ⟨side, -, rfl⟩ | hg
    · rw [fileOf_pipe, Kernel.pipe_id, Option.some.injEq] at hf
      omega
    · exact hg
  | close n side rest ht e he => exact (Kernel.get_close.mp hg).2
  | fed bytes rest ht _ written hw => rwa [(write_frame hw).2] at hg
  | feeding bytes rest ht _ written hlt hw => rwa [(write_frame hw).2] at hg
  | kill rest ht hup pid hp => rwa [(exit_frame k pid (.signaled 9)).2] at hg
  | _ => exact hg

/-- Unless it forks, the calling thread leaves every process with what it had, or less. -/
theorem MainMove.procs (hm : MainMove j now k c k' c') {proc' : Proc} (hp : proc' ∈ k'.procs) :
    (∃ proc ∈ k.procs, proc.origin = proc'.origin ∧ ∀ f, proc'.fds.Holds f → proc.fds.Holds f) ∨
      ∃ child rest, c.todo = .fork child :: rest ∧ proc'.fds = k.server ∧ proc'.origin = j := by
  have hsame : proc' ∈ k.procs → (∃ proc ∈ k.procs, proc.origin = proc'.origin ∧
      ∀ f, proc'.fds.Holds f → proc.fds.Holds f) := fun h => ⟨proc', h, rfl, fun _ hh => hh⟩
  cases hm with
  | fork child rest ht =>
    rcases List.mem_append.mp hp with hp | hp
    · exact Or.inl (hsame hp)
    · rw [List.mem_singleton.mp hp]
      exact Or.inr ⟨child, rest, ht, rfl, rfl⟩
  | fed bytes rest ht _ written hw => exact Or.inl (hsame ((write_keeps hw).1 ▸ hp))
  | feeding bytes rest ht _ written hlt hw => exact Or.inl (hsame ((write_keeps hw).1 ▸ hp))
  | waited s hs rest ht pid hpid proc hproc status hl =>
    rcases List.mem_or_eq_of_mem_set hp with hp | rfl
    · exact Or.inl (hsame hp)
    · exact Or.inl ⟨proc, List.mem_of_getElem? hproc, rfl, fun _ hh => hh⟩
  | kill rest ht hup pid hpid =>
    rcases Kernel.exit_cases k pid (.signaled 9) with ⟨-, he⟩ | ⟨proc, hproc, -, he⟩ <;>
      rw [he] at hp
    · exact Or.inl (hsame hp)
    · rcases List.mem_or_eq_of_mem_set hp with hp | rfl
      · exact Or.inl (hsame hp)
      · exact Or.inl ⟨proc, List.mem_of_getElem? hproc, rfl, fun f hh =>
          absurd hh (FdTable.not_holds_nil f)⟩
  | _ => exact Or.inl (hsame hp)

/-- A call that does not fork while the end is open gives it to nobody. -/
theorem MainMove.closesFirst (hm : MainMove j now k c k' c') {f : File} {fd : Nat}
    {rest : List SetupCall} (h : k.ClosesFirst f fd rest)
    (hfork : ∀ child rest, c.todo = .fork child :: rest → ¬ k.server.Holds f) :
    k'.ClosesFirst f fd rest := by
  cases hm with
  | fork child rest' ht => exact h.fork_other (hfork child rest' ht)
  | fed bytes rest ht _ written hw => exact fun proc hp => h proc ((write_keeps hw).1 ▸ hp)
  | feeding bytes rest ht _ written hlt hw => exact fun proc hp => h proc ((write_keeps hw).1 ▸ hp)
  | waited s hs rest ht pid hpid proc hproc status hl =>
    exact h.set fun hh => h proc (List.mem_of_getElem? hproc) hh
  | kill rest ht hup pid hpid => exact h.exit
  | _ => exact h

/-! ## What holds of a run -/

/-- The write ends of run `i` are in the hands of its own processes only. -/
structure Mine (i : Nat) (k : Kernel) (c : Call) : Prop where
  fresh : ∀ n e, c.ends n = some e → e.id < k.pipes.length
  holders : ∀ n e proc, c.ends n = some e → proc ∈ k.procs → proc.fds.Holds (.writeEnd e.id) →
    proc.origin = i

/-- What holds besides of a run that closes its pipes. -/
structure Tidy (i : Nat) (k : Kernel) (c : Call) : Prop where
  disciplined : Disciplined c.todo
  unopened : ∀ n, .pipe n ∈ c.todo → c.ends n = none
  child : ∀ child, .fork child ∈ c.todo → child = runBinaryChild ∧
    ∀ proc ∈ k.procs, proc.origin ≠ i
  /-- the server has a write end until it closes it -/
  server : ∀ n e fd, c.ends n = some e → k.server.get fd = some (.writeEnd e.id) →
    fd = e.write ∧ .close n .write ∈ c.todo
  closesFirst : ∀ e, c.ends .stdinPipe = some e →
    ∃ rest, k.ClosesFirst (.writeEnd e.id) e.write rest

/-- What a step of somebody else leaves to call `i`: nobody gets a write end of its pipes
except as a copy made by a process of the same origin. -/
structure Spares (i : Nat) (k k' : Kernel) (c : Call) : Prop where
  length : k.pipes.length ≤ k'.pipes.length
  get : ∀ n e fd, c.ends n = some e → k'.server.get fd = some (.writeEnd e.id) →
    k.server.get fd = some (.writeEnd e.id)
  origin : ∀ proc' ∈ k'.procs, proc'.origin = i → ∃ proc ∈ k.procs, proc.origin = i
  holders : ∀ n e, c.ends n = some e → ∀ proc' ∈ k'.procs, proc'.fds.Holds (.writeEnd e.id) →
    ∃ proc ∈ k.procs, proc.fds.Holds (.writeEnd e.id) ∧ proc.origin = proc'.origin
  closesFirst : ∀ n e fd rest, c.ends n = some e → k.ClosesFirst (.writeEnd e.id) fd rest →
    k'.ClosesFirst (.writeEnd e.id) fd rest

/-- Steps of the others leave what is mine. -/
theorem Mine.spared (h : Mine i k c) (hs : Spares i k k' c) (he : c'.ends = c.ends) :
    Mine i k' c' where
  fresh n e hn := Nat.lt_of_lt_of_le (h.fresh n e (he ▸ hn)) hs.length
  holders n e proc' hn hp hh := by
    obtain ⟨proc, hproc, hh, ho⟩ := hs.holders n e (he ▸ hn) proc' hp hh
    rw [← ho]
    exact h.holders n e proc (he ▸ hn) hproc hh

/-- And leave my children tidy. -/
theorem Tidy.spared (h : Tidy i k c) (hs : Spares i k k' c) (ht : c'.todo = c.todo)
    (he : c'.ends = c.ends) : Tidy i k' c' where
  disciplined := ht ▸ h.disciplined
  unopened n hp := by
    rw [he]
    exact h.unopened n (ht ▸ hp)
  child ch hc := by
    obtain ⟨hchild, hno⟩ := h.child ch (ht ▸ hc)
    refine ⟨hchild, fun proc' hp ho => ?_⟩
    obtain ⟨proc, hproc, ho⟩ := hs.origin proc' hp ho
    exact hno proc hproc ho
  server n e fd hn hg := by
    rw [ht]
    exact h.server n e fd (he ▸ hn) (hs.get n e fd (he ▸ hn) hg)
  closesFirst e hn := by
    obtain ⟨rest, hr⟩ := h.closesFirst e (he ▸ hn)
    exact ⟨rest, hs.closesFirst _ e _ rest (he ▸ hn) hr⟩

/-- A step that leaves the processes alone and gives the server no end of an old pipe. -/
theorem Mine.spares_of_procs (h : Mine i k c) (hl : k.pipes.length ≤ k'.pipes.length)
    (hg : ∀ f p fd, f.pipe = some p → p < k.pipes.length → k'.server.get fd = some f →
      k.server.get fd = some f) (hp : k'.procs = k.procs) : Spares i k k' c where
  length := hl
  get n e fd he := hg _ _ fd rfl (h.fresh n e he)
  origin proc' hm ho := ⟨proc', hp ▸ hm, ho⟩
  holders _ _ _ proc' hm hh := ⟨proc', hp ▸ hm, hh, rfl⟩
  closesFirst _ _ _ _ _ hr := fun proc hm => hr proc (hp ▸ hm)

/-- The calling thread of another run may fork when the server has no write end of `c`. -/
theorem Mine.spares_main (h : Mine i k c) (hij : i ≠ j) {d d' : Call}
    (hm : MainMove j now k d k' d')
    (hfork : ∀ child rest, d.todo = .fork child :: rest →
      ∀ n e, c.ends n = some e → ¬ k.server.Holds (.writeEnd e.id)) : Spares i k k' c where
  length := hm.noNewHolder.length
  get n e fd he := hm.get_old rfl (h.fresh n e he)
  origin proc' hp ho := by
    rcases hm.procs hp with ⟨proc, hproc, ho', -⟩ | ⟨-, -, -, -, ho'⟩
    · exact ⟨proc, hproc, ho'.trans ho⟩
    · exact absurd (ho.symm.trans ho') hij
  holders n e he proc' hp hh := by
    rcases hm.procs hp with ⟨proc, hproc, ho, hsub⟩ | ⟨child, rest, ht, hfds, -⟩
    · exact ⟨proc, hproc, hsub _ hh, ho⟩
    · rw [hfds] at hh
      exact absurd hh (hfork child rest ht n e he)
  closesFirst n e fd rest he hr := hm.closesFirst hr fun child rest' ht => hfork child rest' ht n e he

/-- My readers close only what is mine. -/
theorem Mine.spares_reader (h : Mine i k c) {d d' : Call} (hm : ReaderMove n k d k' d') :
    Spares i k k' c := by
  refine h.spares_of_procs hm.noNewHolder.length ?_ hm.procs
  intro f p fd _ _ hg
  cases hm with
  | got r hr hpc p hp hne => exact hg
  | stop r hr hpc hw => exact hg
  | close r hr hpc => exact (Kernel.get_close.mp hg).2

/-- Processes hand descriptors on to their own children only. -/
theorem Mine.spares_proc (h : Mine i k c) {pid : Nat} (hm : k.ProcMove pid k') :
    Spares i k k' c where
  length := hm.length_pipes
  get n e fd _ hg := hm.server ▸ hg
  origin proc' hp ho := by
    obtain ⟨proc, hproc, ho'⟩ := hm.origin hp
    exact ⟨proc, hproc, ho'.trans ho⟩
  holders n e he proc' hp hh := by
    rcases hm.origin_of_holds rfl hp hh with hold | ⟨hge, -⟩
    · exact hold
    · exact absurd (h.fresh n e he) (Nat.not_lt.mpr hge)
  closesFirst n e fd rest he hr := hr.procMove rfl (h.fresh n e he) hm

/-! ## The steps of the run itself -/

/-- I may open and close what is mine. -/
theorem Mine.main (h : Mine i k c) (hwf : k.WellFormed) (hm : MainMove i now k c k' c') :
    Mine i k' c' := by
  have hold : ∀ n e, c.ends n = some e → e.id < k'.pipes.length ∧ ∀ proc ∈ k'.procs,
      proc.fds.Holds (.writeEnd e.id) → proc.origin = i := by
    intro n e he
    refine ⟨Nat.lt_of_lt_of_le (h.fresh n e he) hm.noNewHolder.length, fun proc' hp hh => ?_⟩
    rcases hm.procs hp with ⟨proc, hproc, ho, hsub⟩ | ⟨-, -, -, -, ho⟩
    · rw [← ho]
      exact h.holders n e proc he hproc (hsub _ hh)
    · exact ho
  cases hm with
  | pipe n rest ht =>
    constructor
    · intro m e he
      rcases of_update_some he with ⟨-, rfl⟩ | ⟨-, he⟩
      · simp
      · exact (hold m e he).1
    · intro m e proc he hp hh
      rcases of_update_some he with ⟨-, rfl⟩ | ⟨-, he⟩
      · exact absurd (hwf _ _ rfl (Or.inr ⟨proc, hp, hh⟩)) (Nat.lt_irrefl _)
      · exact (hold m e he).2 proc hp hh
  | _ => exact ⟨fun n e he => (hold n e he).1, fun n e proc he => (hold n e he).2 proc⟩

/-- The discipline goes on below the head. -/
theorem MainMove.disciplined (hm : MainMove j now k c k' c') (hd : Disciplined c.todo) :
    ∃ s rest, c.todo = s :: rest ∧ s.Fits rest ∧ Disciplined c'.todo ∧ (∀ t ∈ rest, t ∈ c'.todo) ∧
      ∀ t ∈ c'.todo, t ∈ rest ∨ t.Loops ∨ ∃ bytes, t = .feed bytes := by
  obtain ⟨s, rest, ht, hto⟩ := hm.todo
  rw [ht] at hd
  refine ⟨s, rest, ht, hd.1, ?_⟩
  rcases hto with hto | ⟨s', hto, hkind⟩
  · rw [hto]
    exact ⟨hd.2, fun t h => h, fun t h => Or.inl h⟩
  · rw [hto]
    refine ⟨⟨?_, hd.2⟩, fun t h => List.mem_cons_of_mem _ h, fun t h => ?_⟩
    · have hfits := hd.1
      rcases hkind with ⟨hs, hs'⟩ | ⟨bytes, bytes', rfl, rfl⟩
      · cases s <;> first | exact hs.elim | (cases s' <;> first | exact hs'.elim | exact hfits)
      · exact hfits
    · rcases List.mem_cons.mp h with rfl | h
      · rcases hkind with ⟨-, hl⟩ | ⟨bytes, bytes', -, rfl⟩
        · exact Or.inr (Or.inl hl)
        · exact Or.inr (Or.inr ⟨bytes', rfl⟩)
      · exact Or.inl h

/-- The rest of a script keeps to the rules. -/
theorem Tidy.tail (h : Tidy i k c) {s : Stmt} {rest : List Stmt} (ht : c.todo = s :: rest) :
    s.Fits rest ∧ Disciplined rest := by
  have := h.disciplined
  rwa [ht] at this

/-- A step that neither makes a pipe nor closes a write end nor forks. -/
theorem Tidy.plain (h : Tidy i k c) (hM : Mine i k c) (hm : MainMove i now k c k' c')
    (hends : c'.ends = c.ends) (hclose : ∀ n rest, c.todo ≠ .close n .write :: rest)
    (hfork : ∀ child rest, c.todo ≠ .fork child :: rest) : Tidy i k' c' := by
  obtain ⟨s₀, rest, ht, -, hd, hnew, hold⟩ := hm.disciplined h.disciplined
  have hin : ∀ t ∈ c'.todo, ¬ t.Loops → (∀ bytes, t ≠ .feed bytes) → t ∈ c.todo := by
    intro t hin hl hb
    rcases hold t hin with h | h | ⟨bytes, h⟩
    · exact mem_todo ht h
    · exact absurd h hl
    · exact absurd h (hb bytes)
  refine ⟨hd, ?_, ?_, ?_, ?_⟩
  · intro n hp
    rw [hends]
    exact h.unopened n (hin _ hp id (by simp))
  · intro child hc
    obtain ⟨hchild, hno⟩ := h.child child (hin _ hc id (by simp))
    refine ⟨hchild, fun proc' hp => ?_⟩
    rcases hm.procs hp with ⟨proc, hproc, ho, -⟩ | ⟨child', rest', ht', -⟩
    · rw [← ho]
      exact hno proc hproc
    · exact absurd ht' (hfork child' rest')
  · intro n e fd he hg
    rw [hends] at he
    obtain ⟨hfd, hc⟩ := h.server n e fd he (hm.get_old rfl (hM.fresh n e he) hg)
    have hne : .close n .write ≠ s₀ := by
      rintro rfl
      exact hclose n rest ht
    rw [ht, mem_cons_ne hne] at hc
    exact ⟨hfd, hnew _ hc⟩
  · intro e he
    obtain ⟨rest', hr⟩ := h.closesFirst e (hends ▸ he)
    exact ⟨rest', hm.closesFirst hr fun child rest' ht' => absurd ht' (hfork child rest')⟩

/-- The server gets both ends of a new pipe, and no process has a copy yet. -/
theorem Tidy.pipe (h : Tidy i k c) (hM : Mine i k c) (hwf : k.WellFormed) {rest : List Stmt}
    (ht : c.todo = .pipe n :: rest) :
    Tidy i k.pipe.2 { c with todo := rest, ends := Function.update c.ends n (some k.pipe.1) } := by
  obtain ⟨hfits, hd⟩ := h.tail ht
  refine ⟨hd, ?_, fun child hc => h.child child (mem_todo ht hc), ?_, ?_⟩
  · intro m hp
    have hmn : m ≠ n := by
      rintro rfl
      exact hfits.1 hp
    dsimp only
    rw [Function.update_of_ne hmn]
    exact h.unopened m (mem_todo ht hp)
  · intro m e fd he hg
    rcases of_update_some he with ⟨rfl, rfl⟩ | ⟨-, he⟩
    · refine ⟨?_, hfits.2.2⟩
      -- the number of a new pipe is fresh, so the table names no end of it twice
      rcases get_pipe_fileOf.mp hg with ⟨side, hfd, hf⟩ | hg
      · cases side with
        | read => cases hf
        | write => exact hfd
      · exact absurd (hwf _ _ rfl (Or.inl ⟨fd, hg⟩)) (Nat.lt_irrefl _)
    · rcases get_pipe_fileOf.mp hg with ⟨side, hfd, hf⟩ | hg
      · have hid := congrArg File.pipe hf
        rw [fileOf_pipe, Kernel.pipe_id] at hid
        exact absurd (hM.fresh m e he) (Option.some.inj hid ▸ Nat.lt_irrefl _)
      · obtain ⟨hfd, hc⟩ := h.server m e fd he hg
        rw [ht, mem_cons_ne (by simp)] at hc
        exact ⟨hfd, hc⟩
  · intro e he
    rcases of_update_some he with ⟨-, rfl⟩ | ⟨-, he⟩
    · refine ⟨[], fun proc hp hh => ?_⟩
      exact absurd (hwf _ _ rfl (Or.inr ⟨proc, hp, hh⟩)) (Nat.lt_irrefl _)
    · exact h.closesFirst e he

/-- The child closes its copy of the write end of its input first. -/
theorem Tidy.fork (h : Tidy i k c) (hM : Mine i k c) {child : List ChildStmt} {rest : List Stmt}
    (ht : c.todo = .fork child :: rest) :
    Tidy i (k.fork (child.filterMap (ChildStmt.resolve c.ends)) i)
      { c with todo := rest, pid := some k.procs.length } := by
  obtain ⟨hfits, hd⟩ := h.tail ht
  obtain ⟨rfl, hno⟩ := h.child child (head_mem_todo ht)
  refine ⟨hd, fun n hp => h.unopened n (mem_todo ht hp),
    fun child hc => absurd hc (hfits.1 child), ?_, ?_⟩
  · intro n e fd he hg
    obtain ⟨hfd, hc⟩ := h.server n e fd he hg
    rw [ht, mem_cons_ne (by simp)] at hc
    exact ⟨hfd, hc⟩
  · intro e he
    rw [runBinaryChild_setup he]
    refine ⟨_, Kernel.ClosesFirst.fork (fun proc hp hh => ?_) fun fd hg => ?_⟩
    · -- a run forks once, so no process of its own is there yet
      exact absurd (hM.holders _ e proc he hp hh) (hno proc hp)
    · exact (h.server _ e fd he hg).1

/-- A write end that the server still has is not the one that has just been closed. -/
theorem Tidy.close (h : Tidy i k c) {side : Side} {rest : List Stmt}
    (ht : c.todo = .close n side :: rest) (he : c.ends n = some e) (closed : List (Option File)) :
    Tidy i (k.close (fdOf e side)) { c with todo := rest, closed } := by
  refine ⟨(h.tail ht).2, fun n hp => h.unopened n (mem_todo ht hp),
    fun child hc => h.child child (mem_todo ht hc), ?_, h.closesFirst⟩
  intro m e' fd he' hg
  obtain ⟨hne, hg'⟩ := Kernel.get_close.mp hg
  obtain ⟨hfd, hc⟩ := h.server m e' fd he' hg'
  refine ⟨hfd, ?_⟩
  rw [ht] at hc
  rcases List.mem_cons.mp hc with hc | hc
  · cases hc
    rw [he] at he'
    cases he'
    exact absurd hfd hne
  · exact hc

/-- My own steps leave my children tidy. -/
theorem Tidy.main (h : Tidy i k c) (hM : Mine i k c) (hwf : k.WellFormed)
    (hm : MainMove i now k c k' c') : Tidy i k' c' := by
  have plain := h.plain hM hm
  cases hm with
  | pipe n rest ht => exact h.pipe hM hwf ht
  | fork child rest ht => exact h.fork hM ht
  | close n side rest ht e he => exact h.close ht he _
  | waited s hs rest ht =>
    rcases hs with rfl | rfl <;> exact plain rfl (by simp [ht]) (by simp [ht])
  | waitFailed s hs rest ht =>
    rcases hs with rfl | rfl <;> exact plain rfl (by simp [ht]) (by simp [ht])
  | openSource rest ht => exact plain rfl (by simp [ht]) (by simp [ht])
  | closeSource rest ht => exact plain rfl (by simp [ht]) (by simp [ht])
  | startClock rest ht => exact plain rfl (by simp [ht]) (by simp [ht])
  | fed bytes rest ht => exact plain rfl (by simp [ht]) (by simp [ht])
  | feeding bytes rest ht => exact plain rfl (by simp [ht]) (by simp [ht])
  | startReader n closes rest ht => exact plain rfl (by simp [ht]) (by simp [ht])
  | waitAlive rest ht => exact plain rfl (by simp [ht]) (by simp [ht])
  | kill rest ht => exact plain rfl (by simp [ht]) (by simp [ht])
  | sleep rest ht => exact plain rfl (by simp [ht]) (by simp [ht])
  | join n rest ht => exact plain rfl (by simp [ht]) (by simp [ht])

/-- A run whose `pipe` fails returns without closing the pipes it has made. -/
structure Leaks (c : Call) : Prop where
  todo : ∀ s ∈ c.todo, ∃ n, s = .pipe n
  pid : c.pid = none
  closed : c.closed = []
  readers : ∀ n, c.readers n = none

/-- A leak stays one. -/
theorem Leaks.main (h : Leaks c) (hm : MainMove j now k c k' c') : Leaks c' := by
  obtain ⟨s₀, rest, ht, -⟩ := hm.todo
  obtain ⟨n, rfl⟩ := h.todo s₀ (head_mem_todo ht)
  cases hm with
  | pipe n' rest' ht' =>
    obtain ⟨-, rfl⟩ := List.cons.inj (ht.symm.trans ht')
    exact ⟨fun s hs => h.todo s (mem_todo ht hs), h.pid, h.closed,
      h.readers⟩
  | waited s hs rest' ht' =>
    rcases hs with rfl | rfl <;> exact nomatch ht.symm.trans ht'
  | waitFailed s hs rest' ht' =>
    rcases hs with rfl | rfl <;> exact nomatch ht.symm.trans ht'
  | openSource rest' ht' => exact nomatch ht.symm.trans ht'
  | closeSource rest' ht' => exact nomatch ht.symm.trans ht'
  | startClock rest' ht' => exact nomatch ht.symm.trans ht'
  | fork child rest' ht' => exact nomatch ht.symm.trans ht'
  | close m side rest' ht' => exact nomatch ht.symm.trans ht'
  | fed bytes rest' ht' => exact nomatch ht.symm.trans ht'
  | feeding bytes rest' ht' => exact nomatch ht.symm.trans ht'
  | startReader m closes rest' ht' => exact nomatch ht.symm.trans ht'
  | waitAlive rest' ht' => exact nomatch ht.symm.trans ht'
  | kill rest' ht' => exact nomatch ht.symm.trans ht'
  | sleep rest' ht' => exact nomatch ht.symm.trans ht'
  | join m rest' ht' => exact nomatch ht.symm.trans ht'

/-! ## All runs of the server -/

/-- A run forks only while no other run has still to close a write end of a pipe it has made. -/
def ForksAlone (s : Server) (a : Action) : Prop :=
  ∀ j d child rest, a = .main j → s.calls[j]? = some d → d.todo = .fork child :: rest →
    ∀ i c, i ≠ j → s.calls[i]? = some c → ∀ n, c.ends n ≠ none → .close n .write ∉ c.todo

/-- The server keeps the runs apart. -/
structure KeepsApart (s : Server) : Prop where
  wellFormed : s.kernel.WellFormed
  runs : ∀ i c, s.calls[i]? = some c → Mine i s.kernel c ∧ Tidy i s.kernel c ∨ Leaks c

/-- A step of call `j`, if the others are spared. -/
theorem KeepsApart.update (h : KeepsApart s) {d d' : Call} (hd : s.calls[j]? = some d)
    (hwf : k'.WellFormed)
    (hown : Mine j s.kernel d ∧ Tidy j s.kernel d ∨ Leaks d → Mine j k' d' ∧ Tidy j k' d' ∨ Leaks d')
    (hspared : ∀ i c, i ≠ j → s.calls[i]? = some c → Mine i s.kernel c → Tidy i s.kernel c →
      Spares i s.kernel k' c) : KeepsApart (s.update j (k', d')) := by
  refine ⟨hwf, fun i c hc => ?_⟩
  rw [Server.update, List.getElem?_set] at hc
  split at hc
  · next hij =>
    subst hij
    split at hc
    · cases hc
      exact hown (h.runs j d hd)
    · cases hc
  · next hij =>
    refine (h.runs i c hc).imp ?_ id
    rintro ⟨hM, hT⟩
    have hs := hspared i c (Ne.symm hij) hc hM hT
    exact ⟨hM.spared hs rfl, hT.spared hs rfl rfl⟩

/-- A step of nobody's. -/
theorem KeepsApart.kernel (h : KeepsApart s) (hwf : k'.WellFormed)
    (hspared : ∀ i c, Mine i s.kernel c → Spares i s.kernel k' c) :
    KeepsApart { s with kernel := k' } := by
  refine ⟨hwf, fun i c hc => (h.runs i c hc).imp ?_ id⟩
  rintro ⟨hM, hT⟩
  have hs := hspared i c hM
  exact ⟨hM.spared hs rfl, hT.spared hs rfl rfl⟩

/-- **One step of the server**, when nobody forks while another has pipes. -/
theorem KeepsApart.step {a : Action} (h : KeepsApart s) (ha : ForksAlone s a)
    (hm : ServerMove s a s') : KeepsApart s' := by
  cases hm with
  | main j d hd k' d' hm =>
    refine h.update hd (hm.noNewHolder.wellFormed h.wellFormed) ?_ fun i c hij hc hM hT => ?_
    · rintro (⟨hM, hT⟩ | hL)
      · exact Or.inl ⟨hM.main h.wellFormed hm, hT.main hM h.wellFormed hm⟩
      · exact Or.inr (hL.main hm)
    · refine hM.spares_main hij hm fun child rest ht n e he hh => ?_
      obtain ⟨fd, hg⟩ := hh
      exact ha j d child rest rfl hd ht i c hij hc n (by rw [he]; simp) (hT.server n e fd he hg).2
  | reader j n d hd k' d' hm =>
    obtain ⟨ht, he, -⟩ := hm.keeps
    refine h.update hd (hm.noNewHolder.wellFormed h.wellFormed) ?_ fun i c _ _ hM _ =>
      hM.spares_reader hm
    rintro (⟨hM, hT⟩ | hL)
    · have hs := hM.spares_reader hm
      exact Or.inl ⟨hM.spared hs he, hT.spared hs ht he⟩
    · obtain ⟨r, hr⟩ : ∃ r, d.readers n = some r := by cases hm <;> exact ⟨_, ‹_›⟩
      rw [hL.readers n] at hr
      cases hr
  | proc pid a k' hm =>
    exact h.kernel (hm.noNewHolder.wellFormed h.wellFormed) fun i c hM => hM.spares_proc hm
  | tick nanoseconds => exact ⟨h.wellFormed, h.runs⟩
  | openOther owner ho =>
    refine h.kernel (Kernel.noNewHolder_openFile.wellFormed h.wellFormed) fun i c hM => ?_
    refine hM.spares_of_procs (Nat.le_refl _) (fun f p fd hf _ hg => ?_) rfl
    rcases Kernel.get_openFile.mp hg with ⟨-, rfl⟩ | hg
    · cases hf
    · exact hg
  | closeOther fd owner ho hg =>
    refine h.kernel (Kernel.noNewHolder_close.wellFormed h.wellFormed) fun i c hM => ?_
    exact hM.spares_of_procs (Nat.le_refl _) (fun f p fd' _ _ hg' => (Kernel.get_close.mp hg').2) rfl

/-! ## Runs that start -/

/-- The call is a run. -/
def IsRun (c : Call) : Prop := ∃ request spawn, c = .runBinary request spawn

/-- A call that has not begun has nothing. -/
theorem mine_fresh {script : List Stmt} {limit : Int} : Mine i k (.fresh script limit) where
  fresh _ _ he := nomatch he
  holders _ _ _ he := nomatch he

/-- And has no child. -/
theorem tidy_fresh {script : List Stmt} {limit : Int} (hd : Disciplined script)
    (hchild : ∀ child, .fork child ∈ script → child = runBinaryChild) (hp : k.procs = []) :
    Tidy i k (.fresh script limit) where
  disciplined := hd
  unopened _ _ := rfl
  child ch hc := by
    refine ⟨hchild ch hc, fun proc hm => ?_⟩
    rw [hp] at hm
    cases hm
  server _ _ _ he := nomatch he
  closesFirst _ he := nomatch he

/-- A run closes the pipes it makes, or it stops at a `pipe` that fails. -/
theorem tidy_or_leaks_of_isRun (hc : IsRun c) (hp : k.procs = []) :
    Mine i k c ∧ Tidy i k c ∨ Leaks c := by
  obtain ⟨request, spawn, rfl⟩ := hc
  have leaks : (∀ s ∈ runBinaryCalls request spawn, ∃ n, s = .pipe n) →
      Leaks (.runBinary request spawn) := fun ht => ⟨ht, rfl, rfl, fun _ => rfl⟩
  by_cases hpath : request.binaryPath = []
  · exact Or.inr (leaks (by simp [runBinaryCalls, hpath]))
  cases spawn with
  | refused error => exact Or.inr (leaks (by simp [runBinaryCalls]))
  | pipeFails n error =>
    refine Or.inr (leaks ?_)
    cases n <;> simp [runBinaryCalls, hpath]
  | forkFails error =>
    refine Or.inl ⟨mine_fresh, tidy_fresh ?_ ?_ hp⟩
    · simp [runBinaryCalls, hpath, Disciplined, Stmt.Fits]
    · simp [runBinaryCalls, hpath]
  | started =>
    refine Or.inl ⟨mine_fresh, tidy_fresh (wellScripted_runBinary hpath).disciplined ?_ hp⟩
    by_cases hs : request.stdinContent = [] <;> simp [runBinaryCalls, hpath, hs]

/-- **In every such run, children hold only the pipes of their own call.** -/
theorem keepsApart_of_reachable {capacity : Nat} {calls : List Call} (hcalls : ∀ c ∈ calls, IsRun c)
    (h : ReachableWhen Server.step (Server.Init capacity calls) ForksAlone s) : KeepsApart s := by
  refine h.invariant (fun s h0 => ⟨?_, ?_⟩) fun s a s' hI ha hstep =>
    hI.step ha (serverMove_of_step hstep)
  · rintro f p hf (hh | ⟨proc, hm, -⟩)
    · obtain ⟨owner, rfl, -⟩ := h0.table f hh
      cases hf
    · rw [h0.procs] at hm
      cases hm
  · intro i c hc
    rw [h0.calls] at hc
    exact tidy_or_leaks_of_isRun (hcalls c (List.mem_of_getElem? hc)) h0.procs

/-! ## Input and output of a run end by themselves -/

/-- What run `i` needs of the other runs. -/
structure Apart (i : Nat) (k : Kernel) (c : Call) : Prop where
  /-- the run has closed its write end of the input pipe -/
  input : ∀ e, c.ends .stdinPipe = some e → some (.writeEnd e.id) ∈ c.closed →
    ∀ proc ∈ k.procs, proc.fds.Holds (.writeEnd e.id) → proc.origin = i
  /-- the child has exited -/
  output : ∀ n e pid child, n ≠ .stdinPipe → c.ends n = some e → c.pid = some pid →
    k.procs[pid]? = some child → child.life ≠ .running →
    ∀ proc ∈ k.procs, proc.fds.Holds (.writeEnd e.id) → proc.origin = i
  /-- whether a pipe has come to its end is up to the processes of the run -/
  ends : ∀ n e, c.pid ≠ none → c.ends n = some e → .close n .write ∉ c.todo →
    k.Held (.writeEnd e.id) → ∃ proc ∈ k.procs, proc.origin = i ∧ proc.fds.Holds (.writeEnd e.id)
  /-- and the input of the child ends with its first call -/
  inputEnds : ∀ e, c.pid ≠ none → c.ends .stdinPipe = some e →
    ∀ proc ∈ k.procs, proc.fds.Holds (.writeEnd e.id) → ∃ rest, proc.setup = .close e.write :: rest

/-- **Concurrent runs are independent when each forks alone.** Any number of runs, in every
interleaving with their processes and with other threads. -/
theorem apart {capacity : Nat} {calls : List Call} (hcalls : ∀ c ∈ calls, IsRun c)
    (h : ReachableWhen Server.step (Server.Init capacity calls) ForksAlone s)
    (hc : s.calls[i]? = some c) : Apart i s.kernel c := by
  rcases (keepsApart_of_reachable hcalls h).runs i c hc with ⟨hM, hT⟩ | hL
  · constructor
    · exact fun e he _ proc hp hh => hM.holders _ e proc he hp hh
    · exact fun n e pid child _ he _ _ _ proc hp hh => hM.holders n e proc he hp hh
    · rintro n e - he hclosed (⟨fd, hg⟩ | ⟨proc, hp, hh⟩)
      · exact absurd (hT.server n e fd he hg).2 hclosed
      · exact ⟨proc, hp, hM.holders n e proc he hp hh, hh⟩
    · intro e _ he proc hp hh
      obtain ⟨rest, hr⟩ := hT.closesFirst e he
      exact ⟨rest, (hr proc hp hh).1⟩
  · constructor
    · intro e _ hin
      rw [hL.closed] at hin
      cases hin
    · intro n e pid child _ _ hpid
      rw [hL.pid] at hpid
      cases hpid
    · exact fun n e hpid => absurd hL.pid hpid
    · exact fun e hpid => absurd hL.pid hpid

/-! ## Two runs -/

/-- Two runs of the same program. -/
def twoRuns : List Call := List.replicate 2 (.runBinary { binaryPath := [97] } .started)

theorem isRun_of_mem_twoRuns : ∀ c ∈ twoRuns, IsRun c := fun _ hc =>
  ⟨_, _, List.eq_of_mem_replicate hc⟩

/-- A check for `ForksAlone` in a server with the calls 0 and 1: the other one has no write
end to close. -/
def mayStep (s : Server) (a : Action) : Bool :=
  match s.calls with
  | [c, d] => [(d, Action.main 0), (c, Action.main 1)].all fun (other, b) => a != b ||
      [PipeName.stdinPipe, .stdoutPipe, .stderrPipe].all fun n =>
        (other.ends n).isNone || !other.todo.contains (.close n .write)
  | _ => false

/-- The condition can be computed. -/
theorem forksAlone_of_mayStep {a : Action} (h : mayStep s a = true) : ForksAlone s a := by
  rintro j d₀ child rest rfl hd - i c₀ hij hc n hn hin
  unfold mayStep at h
  split at h
  · next c d hcalls =>
    -- the two calls are `i` and `j`
    have hpair : (c₀, Action.main j) ∈ [(d, Action.main 0), (c, Action.main 1)] := by
      rw [hcalls] at hc hd
      rcases j with _ | _ | j
      · rcases i with _ | _ | i
        · exact absurd rfl hij
        · cases hc
          exact List.mem_cons_self
        · cases hc
      · rcases i with _ | _ | i
        · cases hc
          exact List.mem_cons_of_mem _ List.mem_cons_self
        · exact absurd rfl hij
        · cases hc
      · cases hd
    have hother := List.all_eq_true.mp h _ hpair
    dsimp only at hother
    rw [bne_self_eq_false, Bool.false_or, List.all_eq_true] at hother
    have hcheck := hother n (by cases n <;> simp)
    rw [Bool.or_eq_true, Option.isNone_iff_eq_none, Bool.not_eq_true', List.contains_eq_mem,
      decide_eq_false_iff_not] at hcheck
    exact hcheck.elim hn fun hnot => hnot hin
  · cases h

/-- Run 1 forks when run 0 has closed all its write ends. -/
theorem apart_one_by_one : ∃ s c, ReachableWhen Server.step (Server.Init 65536 twoRuns) ForksAlone s ∧
    s.calls[0]? = some c ∧ s.kernel.procs.length = 2 ∧ Apart 0 s.kernel c := by
  obtain ⟨s, hreach, hp⟩ := exists_reachableWhen_of_run Server.step mayStep
    (fun _ _ => forksAlone_of_mayStep)
    (List.replicate 9 (.main 0) ++ List.replicate 5 (.main 1))
    (fun s => s.kernel.procs.length == 2 && s.calls[0]?.isSome)
    (Server.init_idle 65536 twoRuns) (by decide)
  rw [Bool.and_eq_true, beq_iff_eq, Option.isSome_iff_exists] at hp
  obtain ⟨hlen, c, hc⟩ := hp
  exact ⟨s, c, hreach, hc, hlen, apart isRun_of_mem_twoRuns hreach hc⟩

/-- Run 0 has closed its write end of the input pipe, which is pipe 0, and a process of run 1
has it still. -/
def inputInherited (s : Server) : Bool :=
  (s.calls[0]?.any fun c => c.closed.contains (some (.writeEnd 0)) &&
    (c.ends .stdinPipe).any fun e => e.id == 0) &&
  s.kernel.procs.any fun proc => proc.origin == 1 && decide (proc.fds.Holds (.writeEnd 0))

/-- Run 1 forks while run 0 has its input pipe open. Run 0 then closes its write end, and the
child of run 1 keeps it. -/
theorem inherits_input : ¬ ∀ (capacity : Nat) (calls : List Call) (s : Server) (i : Nat) (c : Call),
    (∀ c ∈ calls, IsRun c) → Reachable Server.step (Server.Init capacity calls) s →
    s.calls[i]? = some c → Apart i s.kernel c := by
  intro h
  obtain ⟨s, hreach, hp⟩ := exists_reachable_of_run Server.step
    (List.replicate 5 (.main 0) ++ List.replicate 5 (.main 1) ++ List.replicate 4 (.main 0))
    inputInherited (Server.init_idle 65536 twoRuns) (by decide)
  rw [inputInherited, Bool.and_eq_true, Option.any_eq_true, List.any_eq_true] at hp
  obtain ⟨⟨c, hc, hclosed⟩, proc, hproc, hholds⟩ := hp
  rw [Bool.and_eq_true, List.contains_iff_mem, Option.any_eq_true] at hclosed
  obtain ⟨hclosed, e, he, hid⟩ := hclosed
  rw [Bool.and_eq_true, beq_iff_eq, decide_eq_true_iff] at hholds
  rw [beq_iff_eq] at hid
  have horigin := (h _ _ s 0 c isRun_of_mem_twoRuns hreach hc).input e he (by rw [hid]; exact hclosed)
    proc hproc (by rw [hid]; exact hholds.2)
  rw [hholds.1] at horigin
  cases horigin

end MiniOj.Judge
