import MiniOj.Infra.Kernel

/-!
# Who holds the ends of a pipe

What each call changes, and what follows for the processes that hold a pipe end: a
descriptor comes from `pipe` or is a copy of one that some process already has. So an end
that nobody holds is never held again.

* `ProcMove` — one rule per thing a process can do
* `NoNewHolder` — no end of an existing pipe finds a new holder
* `HeldDuring` — an inherited end that forked processes close before they do anything else
-/

namespace MiniOj.Infra.Kernel

variable {k k' : Kernel} {pid : Nat} {f : File}

/-! ## The server's calls -/

/-- Only the lowest free descriptor changes. -/
theorem get_openFile {owner fd : Nat} :
    (k.openFile owner).2.server.get fd = some f ↔
      (fd = k.server.lowest ∧ f = .other owner) ∨ k.server.get fd = some f :=
  FdTable.get_put_lowest

/-- The two lowest free descriptors are the ends of the new pipe. -/
theorem get_pipe {fd : Nat} :
    k.pipe.2.server.get fd = some f ↔
      (fd = k.pipe.1.write ∧ f = .writeEnd k.pipes.length) ∨
        (fd = k.pipe.1.read ∧ f = .readEnd k.pipes.length) ∨ k.server.get fd = some f := by
  refine FdTable.get_put_lowest.trans (or_congr Iff.rfl ?_)
  exact FdTable.get_put_lowest

theorem get_close {n fd : Nat} :
    (k.close n).server.get fd = some f ↔ fd ≠ n ∧ k.server.get fd = some f :=
  FdTable.get_put_none

@[simp] theorem pipe_id : k.pipe.1.id = k.pipes.length := rfl
@[simp] theorem pipe_pipes : k.pipe.2.pipes = k.pipes ++ [[]] := rfl

/-- `exit` and `waitpid` change one process and nothing else. -/
theorem exit_cases (k : Kernel) (pid : Nat) (status : WaitStatus) :
    ((∀ proc, k.procs[pid]? = some proc → proc.life ≠ .running) ∧ k.exit pid status = k) ∨
    ∃ proc, k.procs[pid]? = some proc ∧ proc.life = .running ∧
      k.exit pid status = { k with
        procs := k.procs.set pid { proc with fds := [], life := .zombie status } } := by
  unfold exit
  cases hp : k.procs[pid]? with
  | none => exact Or.inl ⟨fun _ h => (nomatch h), rfl⟩
  | some proc =>
    by_cases hl : proc.life = .running
    · exact Or.inr ⟨proc, rfl, hl, if_pos hl⟩
    · refine Or.inl ⟨fun p h => ?_, if_neg hl⟩
      rw [← Option.some.inj h]
      exact hl

/-- There is nobody to end. -/
theorem exit_of_no_procs (h : k.procs = []) (status : WaitStatus) : k.exit pid status = k := by
  unfold exit
  rw [h]
  rfl

/-- A child is running, or ends with its status once, or is known no longer. -/
theorem waitpid_cases (k : Kernel) (pid : Nat) :
    (∃ proc, k.procs[pid]? = some proc ∧ proc.life = .running ∧ k.waitpid pid = (k, .alive)) ∨
    (∃ proc status, k.procs[pid]? = some proc ∧ proc.life = .zombie status ∧
      k.waitpid pid = ({ k with procs := k.procs.set pid { proc with life := .reaped } },
        .ended status)) ∨
    ((∀ proc, k.procs[pid]? = some proc → proc.life = .reaped) ∧
      k.waitpid pid = (k, .failed)) := by
  unfold waitpid
  cases hp : k.procs[pid]? with
  | none => exact Or.inr (Or.inr ⟨fun _ h => (nomatch h), rfl⟩)
  | some proc =>
    cases hl : proc.life with
    | running => exact Or.inl ⟨proc, rfl, hl, by simp only [hl]⟩
    | zombie status => exact Or.inr (Or.inl ⟨proc, status, rfl, hl, by simp only [hl]⟩)
    | reaped =>
      refine Or.inr (Or.inr ⟨fun p h => ?_, by simp only [hl]⟩)
      rw [← Option.some.inj h]
      exact hl

/-! ## Reads and writes -/

/-- A read shortens one pipe, or finds its end. -/
theorem read_cases {g : Option File} {size : Nat} {got : Option (List UInt8)}
    (h : k.read g size = some (k', got)) :
    (∃ p, g = some (.readEnd p) ∧ k.content p ≠ [] ∧ got = some ((k.content p).take size) ∧
      k' = { k with pipes := k.pipes.set p ((k.content p).drop size) }) ∨
    (∃ p, g = some (.readEnd p) ∧ k.content p = [] ∧ ¬ k.Held (.writeEnd p) ∧ got = some [] ∧
      k' = k) ∨
    ((∀ p, g ≠ some (.readEnd p)) ∧ got = none ∧ k' = k) := by
  unfold read at h
  split at h
  · next p =>
    split at h
    · next hc =>
      split at h
      · cases h
      · next hw => cases h; exact Or.inr (Or.inl ⟨p, rfl, hc, hw, rfl, rfl⟩)
    · next hc => cases h; exact Or.inl ⟨p, rfl, hc, rfl, rfl⟩
  · next hn =>
    cases h
    exact Or.inr (Or.inr ⟨fun p hp => hn p hp, rfl, rfl⟩)

/-- A write lengthens one pipe up to its capacity, or leaves everything as it was; then it has
failed, or there was nothing to write into a pipe. -/
theorem write_cases {g : Option File} {bytes : List UInt8} {written : Option Nat}
    (h : k.write g bytes = some (k', written)) :
    (∃ p room, g = some (.writeEnd p) ∧ k.Held (.readEnd p) ∧ bytes ≠ [] ∧ 0 < room ∧
      (k.content p).length + room = k.capacity ∧ written = some (bytes.take room).length ∧
      k' = { k with pipes := k.pipes.set p (k.content p ++ bytes.take room) }) ∨
    (k' = k ∧ ∀ p, g = some (.writeEnd p) → bytes ≠ [] → written = none) := by
  unfold write at h
  split at h
  · next p =>
    split at h
    · cases h; exact Or.inr ⟨rfl, fun _ _ _ => rfl⟩
    · next hr =>
      split at h
      · next hb => cases h; exact Or.inr ⟨rfl, fun _ _ hb' => absurd hb hb'⟩
      · next hb =>
        split at h
        · cases h
        · next hc =>
          cases h
          exact Or.inl ⟨p, k.capacity - (k.content p).length, rfl, Classical.not_not.mp hr, hb,
            by omega, by omega, rfl, rfl⟩
  · cases h; exact Or.inr ⟨rfl, fun _ hg => nomatch hg⟩
  · next hn _ => cases h; exact Or.inr ⟨rfl, fun p hg => (hn p hg).elim⟩

/-! ## What pipes contain -/

theorem content_set_self {p : Nat} {bytes : List UInt8} (h : p < k.pipes.length) :
    content { k with pipes := k.pipes.set p bytes } p = bytes := by
  simp [content, h]

/-- The other pipes keep what is in them. -/
theorem content_set_ne {p q : Nat} {bytes : List UInt8} (h : p ≠ q) :
    content { k with pipes := k.pipes.set p bytes } q = k.content q := by
  simp [content, List.getElem?_set_ne h]

theorem content_of_pipes (h : k'.pipes = k.pipes) (p : Nat) : k'.content p = k.content p := by
  unfold content
  rw [h]

/-- A pipe that does not exist and a new pipe both count as empty. -/
theorem content_push (h : k'.pipes = k.pipes ++ [[]]) (q : Nat) : k'.content q = k.content q := by
  unfold content
  rw [h, List.getD_eq_getElem?_getD, List.getD_eq_getElem?_getD]
  rcases Nat.lt_trichotomy q k.pipes.length with hq | rfl | hq
  · rw [List.getElem?_append_left hq]
  · rw [List.getElem?_concat_length, List.getElem?_eq_none (Nat.le_refl _)]
    rfl
  · rw [List.getElem?_eq_none (by simp; omega), List.getElem?_eq_none (by omega)]

/-- A new pipe is empty. -/
theorem content_pipe : k.pipe.2.content k.pipe.1.id = [] := by
  rw [content_push pipe_pipes, pipe_id, content, List.getD_eq_getElem?_getD,
    List.getElem?_eq_none (Nat.le_refl _)]
  rfl

/-- Reading only takes out of pipes. -/
theorem length_content_drop_le (k : Kernel) (p q size : Nat) :
    (content { k with pipes := k.pipes.set p ((k.content p).drop size) } q).length ≤
      (k.content q).length := by
  by_cases hpq : p = q
  · subst hpq
    by_cases hp : p < k.pipes.length
    · rw [content_set_self hp, List.length_drop]
      exact Nat.sub_le _ _
    · refine Nat.le_of_eq ?_
      rw [List.set_eq_of_length_le (by omega)]
  · exact Nat.le_of_eq (congrArg _ (content_set_ne hpq))

/-! ## What a process can do -/

/-- The outcomes of `procStep`. -/
inductive ProcMove (k : Kernel) (pid : Nat) : Kernel → Prop
  /-- a call that fails -/
  | idle : ProcMove k pid k
  | setup (proc : Proc) (c : SetupCall) (rest : List SetupCall) (hp : k.procs[pid]? = some proc)
      (hr : proc.life = .running) (hs : proc.setup = c :: rest) :
    ProcMove k pid { k with
      procs := k.procs.set pid { proc with fds := c.apply proc.fds, setup := rest } }
  /-- descriptors are closed, copied or opened -/
  | table (proc : Proc) (fds : FdTable File) (hp : k.procs[pid]? = some proc)
      (hr : proc.life = .running) (hs : proc.setup = [])
      (hf : ∀ f, fds.Holds f → proc.fds.Holds f ∨ f.pipe = none) :
    ProcMove k pid { k with procs := k.procs.set pid { proc with fds := fds } }
  | pipe (proc : Proc) (fds : FdTable File) (hp : k.procs[pid]? = some proc)
      (hr : proc.life = .running) (hs : proc.setup = [])
      (hf : ∀ f, fds.Holds f → proc.fds.Holds f ∨ f.pipe = some k.pipes.length) :
    ProcMove k pid { k with
      procs := k.procs.set pid { proc with fds := fds }, pipes := k.pipes ++ [[]] }
  | fork (proc : Proc) (hp : k.procs[pid]? = some proc) (hr : proc.life = .running)
      (hs : proc.setup = []) :
    ProcMove k pid { k with procs := k.procs ++ [proc] }
  | read (proc : Proc) (p size : Nat) (hp : k.procs[pid]? = some proc) (hr : proc.life = .running)
      (hs : proc.setup = []) (hf : proc.fds.Holds (.readEnd p)) :
    ProcMove k pid { k with pipes := k.pipes.set p ((k.content p).drop size) }
  | write (proc : Proc) (p : Nat) (bytes : List UInt8) (hp : k.procs[pid]? = some proc)
      (hr : proc.life = .running) (hs : proc.setup = []) (hf : proc.fds.Holds (.writeEnd p)) :
    ProcMove k pid { k with pipes := k.pipes.set p (k.content p ++ bytes) }
  | exit (proc : Proc) (status : WaitStatus) (hp : k.procs[pid]? = some proc)
      (hr : proc.life = .running) :
    ProcMove k pid { k with
      procs := k.procs.set pid { proc with fds := [], life := .zombie status } }

/-- Ending is a move of a child. -/
theorem procMove_exit {proc : Proc} {status : WaitStatus} (hp : k.procs[pid]? = some proc)
    (hr : proc.life = .running) : ProcMove k pid (k.exit pid status) := by
  rw [exit, hp]
  simp only [if_pos hr]
  exact .exit proc status hp hr

/-- A system call is a move of a child that has set itself up. -/
theorem procMove_syscall {proc : Proc} {c : Syscall} (hp : k.procs[pid]? = some proc)
    (hr : proc.life = .running) (hs : proc.setup = []) (h : k.syscall pid proc c = some k') :
    ProcMove k pid k' := by
  cases c with
  | close fd =>
    cases h
    exact .table proc _ hp hr hs fun f hf => Or.inl hf.of_put_none
  | dup2 old new =>
    cases h
    exact .table proc _ hp hr hs fun f hf => Or.inl hf.of_dup2
  | openFile owner =>
    cases h
    refine .table proc _ hp hr hs fun f hf => ?_
    rcases FdTable.holds_put_lowest.mp hf with rfl | hf
    · exact Or.inr rfl
    · exact Or.inl hf
  | pipe =>
    cases h
    refine .pipe proc _ hp hr hs fun f hf => ?_
    rcases FdTable.holds_put_lowest.mp hf with rfl | hf
    · exact Or.inr rfl
    · rcases FdTable.holds_put_lowest.mp hf with rfl | hf
      · exact Or.inr rfl
      · exact Or.inl hf
  | fork =>
    cases h
    exact .fork proc hp hr hs
  | read fd size =>
    obtain ⟨⟨k₁, got⟩, hread, rfl⟩ := Option.map_eq_some_iff.mp h
    rcases read_cases hread with ⟨p, hg, -, -, rfl⟩ | ⟨p, -, -, -, -, rfl⟩ | ⟨-, -, rfl⟩
    · exact .read proc p size hp hr hs ⟨fd, hg⟩
    · exact .idle
    · exact .idle
  | write fd bytes =>
    obtain ⟨⟨k₁, written⟩, hwrite, rfl⟩ := Option.map_eq_some_iff.mp h
    rcases write_cases hwrite with ⟨p, room, hg, -, -, -, -, -, rfl⟩ | ⟨rfl, -⟩
    · exact .write proc p _ hp hr hs ⟨fd, hg⟩
    · exact .idle

/-- **Every step of a child is one of the moves.** -/
theorem procMove_of_procStep {a : ProcAction} (h : k.procStep pid a = some k') :
    ProcMove k pid k' := by
  unfold procStep at h
  split at h
  · cases h
  next proc hp =>
  split at h
  · next hr =>
    split at h
    · next ok c rest hs =>
      split at h
      · cases h; exact procMove_exit hp hr
      · cases h; exact .setup proc _ rest hp hr hs
    · next c hs => exact procMove_syscall hp hr hs h
    · cases h; exact procMove_exit hp hr
    · cases h
  · cases h

/-- A child does not change the descriptors of the server. -/
theorem ProcMove.server (h : ProcMove k pid k') : k'.server = k.server := by
  cases h <;> rfl

theorem ProcMove.capacity (h : ProcMove k pid k') : k'.capacity = k.capacity := by
  cases h <;> rfl

/-- No pipe goes away. -/
theorem ProcMove.length_pipes (h : ProcMove k pid k') : k.pipes.length ≤ k'.pipes.length := by
  cases h <;> simp

/-- A pipe gets longer only through a process that has become another program and holds its
write end. -/
theorem ProcMove.length_content (h : ProcMove k pid k') (q : Nat) :
    (k'.content q).length ≤ (k.content q).length ∨
      ∃ proc ∈ k.procs, proc.setup = [] ∧ proc.fds.Holds (.writeEnd q) := by
  cases h with
  | pipe proc fds hp hr hs hf =>
    refine Or.inl (Nat.le_of_eq ?_)
    rw [content_push rfl q]
  | read proc p size hp hr hs hf => exact Or.inl (length_content_drop_le k p q size)
  | write proc p bytes hp hr hs hf =>
    by_cases hpq : p = q
    · exact Or.inr ⟨proc, List.mem_of_getElem? hp, hs, hpq ▸ hf⟩
    · exact Or.inl (Nat.le_of_eq (congrArg _ (content_set_ne hpq)))
  | _ => exact Or.inl (Nat.le_refl _)

/-- **Where a process's descriptors come from**: a pipe end is that of a new pipe, or was held
before by a process of the same origin. -/
theorem ProcMove.origin_of_holds (h : ProcMove k pid k') {p : Nat} (hf : f.pipe = some p)
    {proc' : Proc} (hm : proc' ∈ k'.procs) (hh : proc'.fds.Holds f) :
    (∃ proc ∈ k.procs, proc.fds.Holds f ∧ proc.origin = proc'.origin) ∨
      k.pipes.length ≤ p ∧ p < k'.pipes.length := by
  cases h with
  | idle => exact Or.inl ⟨proc', hm, hh, rfl⟩
  | setup proc c rest hpid hr hs =>
    rcases List.mem_or_eq_of_mem_set hm with hm | rfl
    · exact Or.inl ⟨proc', hm, hh, rfl⟩
    · refine Or.inl ⟨proc, List.mem_of_getElem? hpid, ?_, rfl⟩
      cases c with
      | close fd => exact FdTable.Holds.of_put_none hh
      | dup2 old new => exact FdTable.Holds.of_dup2 hh
      | orExit code => exact hh
  | table proc fds hpid hr hs hfds =>
    rcases List.mem_or_eq_of_mem_set hm with hm | rfl
    · exact Or.inl ⟨proc', hm, hh, rfl⟩
    · rcases hfds f hh with hh | hn
      · exact Or.inl ⟨proc, List.mem_of_getElem? hpid, hh, rfl⟩
      · rw [hf] at hn; cases hn
  | pipe proc fds hpid hr hs hfds =>
    rcases List.mem_or_eq_of_mem_set hm with hm | rfl
    · exact Or.inl ⟨proc', hm, hh, rfl⟩
    · rcases hfds f hh with hh | hn
      · exact Or.inl ⟨proc, List.mem_of_getElem? hpid, hh, rfl⟩
      · rw [hf, Option.some.injEq] at hn
        subst hn
        exact Or.inr ⟨Nat.le_refl _, by simp⟩
  | fork proc hpid hr hs =>
    rcases List.mem_append.mp hm with hm | hm
    · exact Or.inl ⟨proc', hm, hh, rfl⟩
    · rw [List.mem_singleton.mp hm] at hh ⊢
      exact Or.inl ⟨proc, List.mem_of_getElem? hpid, hh, rfl⟩
  | read => exact Or.inl ⟨proc', hm, hh, rfl⟩
  | write => exact Or.inl ⟨proc', hm, hh, rfl⟩
  | exit proc status hpid hr =>
    rcases List.mem_or_eq_of_mem_set hm with hm | rfl
    · exact Or.inl ⟨proc', hm, hh, rfl⟩
    · exact absurd hh (FdTable.not_holds_nil f)

/-- No process changes its origin, and a copy has the origin of the original. -/
theorem ProcMove.origin (h : ProcMove k pid k') {proc' : Proc} (hm : proc' ∈ k'.procs) :
    ∃ proc ∈ k.procs, proc.origin = proc'.origin := by
  have hset : ∀ {proc p : Proc}, k.procs[pid]? = some proc → proc' ∈ k.procs.set pid p →
      p.origin = proc.origin → ∃ proc ∈ k.procs, proc.origin = proc'.origin := by
    intro proc p hp hm ho
    rcases List.mem_or_eq_of_mem_set hm with hm | rfl
    · exact ⟨proc', hm, rfl⟩
    · exact ⟨proc, List.mem_of_getElem? hp, ho.symm⟩
  cases h with
  | setup proc c rest hp hr hs => exact hset hp hm rfl
  | table proc fds hp hr hs hf => exact hset hp hm rfl
  | pipe proc fds hp hr hs hf => exact hset hp hm rfl
  | exit proc status hp hr => exact hset hp hm rfl
  | fork proc hp hr hs =>
    rcases List.mem_append.mp hm with hm | hm
    · exact ⟨proc', hm, rfl⟩
    · rw [List.mem_singleton.mp hm]
      exact ⟨proc, List.mem_of_getElem? hp, rfl⟩
  | _ => exact ⟨proc', hm, rfl⟩

/-! ## Pipe ends find no new holders -/

/-- Every pipe end that somebody holds belongs to an existing pipe. -/
def WellFormed (k : Kernel) : Prop :=
  ∀ f p, f.pipe = some p → k.Held f → p < k.pipes.length

/-- From `k` to `k'` no pipe goes away and no end of an existing pipe that nobody held gets a
holder. -/
structure NoNewHolder (k k' : Kernel) : Prop where
  length : k.pipes.length ≤ k'.pipes.length
  held : ∀ f p, f.pipe = some p → k'.Held f → k.Held f ∨ k.pipes.length ≤ p ∧ p < k'.pipes.length

theorem NoNewHolder.refl (k : Kernel) : NoNewHolder k k :=
  ⟨Nat.le_refl _, fun _ _ _ h => Or.inl h⟩

/-- Descriptors go on pointing to pipes that are there. -/
theorem NoNewHolder.wellFormed (h : NoNewHolder k k') (hk : k.WellFormed) : k'.WellFormed := by
  intro f p hf hh
  rcases h.held f p hf hh with hh | ⟨-, hp⟩
  · exact Nat.lt_of_lt_of_le (hk f p hf hh) h.length
  · exact hp

/-- **An end that nobody holds stays so.** -/
theorem NoNewHolder.not_held (h : NoNewHolder k k') {p : Nat} (hf : f.pipe = some p)
    (hp : p < k.pipes.length) (hn : ¬ k.Held f) : ¬ k'.Held f := by
  intro hh
  rcases h.held f p hf hh with hh | ⟨hge, -⟩
  · exact hn hh
  · omega

/-- The server's table grew by files only, and every process holds what one held before. -/
theorem NoNewHolder.of_tables (hl : k.pipes.length ≤ k'.pipes.length)
    (hs : ∀ f p, f.pipe = some p → k'.server.Holds f →
      k.Held f ∨ k.pipes.length ≤ p ∧ p < k'.pipes.length)
    (hp : ∀ proc' ∈ k'.procs, ∀ f, proc'.fds.Holds f → k.Held f) : NoNewHolder k k' where
  length := hl
  held f p hf hh := by
    rcases hh with hh | ⟨proc', hm, hh⟩
    · exact hs f p hf hh
    · exact Or.inl (hp proc' hm f hh)

/-- A file opened for somebody is not the end of a pipe. -/
theorem noNewHolder_openFile {owner : Nat} : NoNewHolder k (k.openFile owner).2 := by
  refine .of_tables (Nat.le_refl _) ?_ fun proc hm f hh => Or.inr ⟨proc, hm, hh⟩
  rintro f p hf ⟨fd, hfd⟩
  rcases get_openFile.mp hfd with ⟨-, rfl⟩ | hfd
  · cases hf
  · exact Or.inl (Or.inl ⟨fd, hfd⟩)

/-- A new pipe is nobody's but the server's. -/
theorem noNewHolder_pipe : NoNewHolder k k.pipe.2 := by
  refine .of_tables (by simp) ?_ fun proc hm f hh => Or.inr ⟨proc, hm, hh⟩
  rintro f p hf ⟨fd, hfd⟩
  rcases get_pipe.mp hfd with ⟨-, rfl⟩ | ⟨-, rfl⟩ | hfd
  · cases hf; exact Or.inr ⟨Nat.le_refl _, by simp⟩
  · cases hf; exact Or.inr ⟨Nat.le_refl _, by simp⟩
  · exact Or.inl (Or.inl ⟨fd, hfd⟩)

theorem noNewHolder_close {n : Nat} : NoNewHolder k (k.close n) := by
  refine .of_tables (Nat.le_refl _) ?_ fun proc hm f hh => Or.inr ⟨proc, hm, hh⟩
  rintro f p - ⟨fd, hfd⟩
  exact Or.inl (Or.inl ⟨fd, (get_close.mp hfd).2⟩)

/-- A child gets only what the server holds. -/
theorem noNewHolder_fork {setup : List SetupCall} {origin : Nat} :
    NoNewHolder k (k.fork setup origin) := by
  refine .of_tables (Nat.le_refl _) (fun f p _ hh => Or.inl (Or.inl hh)) ?_
  intro proc hm f hh
  rcases List.mem_append.mp hm with hm | hm
  · exact Or.inr ⟨proc, hm, hh⟩
  · rw [List.mem_singleton.mp hm] at hh
    exact Or.inl hh

/-- Replacing a process by one that holds no more. -/
theorem noNewHolder_set {proc proc' : Proc} (hp : k.procs[pid]? = some proc)
    (hf : ∀ f, proc'.fds.Holds f → proc.fds.Holds f) :
    NoNewHolder k { k with procs := k.procs.set pid proc' } := by
  refine .of_tables (Nat.le_refl _) (fun f p _ hh => Or.inl (Or.inl hh)) ?_
  intro q hm f hh
  rcases List.mem_or_eq_of_mem_set hm with hm | rfl
  · exact Or.inr ⟨q, hm, hh⟩
  · exact Or.inr ⟨proc, List.mem_of_getElem? hp, hf f hh⟩

/-- Ending gives up everything. -/
theorem noNewHolder_exit {status : WaitStatus} : NoNewHolder k (k.exit pid status) := by
  rcases exit_cases k pid status with ⟨-, h⟩ | ⟨proc, hp, -, h⟩
  · rw [h]; exact .refl k
  · rw [h]; exact noNewHolder_set hp fun f hh => absurd hh (FdTable.not_holds_nil f)

theorem noNewHolder_pipes {p : Nat} {bytes : List UInt8} :
    NoNewHolder k { k with pipes := k.pipes.set p bytes } :=
  .of_tables (by simp) (fun _ _ _ hh => Or.inl (Or.inl hh)) fun proc hm _ hh => Or.inr ⟨proc, hm, hh⟩

theorem noNewHolder_write {g : Option File} {bytes : List UInt8} {written : Option Nat}
    (h : k.write g bytes = some (k', written)) : NoNewHolder k k' := by
  rcases write_cases h with ⟨p, room, -, -, -, -, -, -, rfl⟩ | ⟨rfl, -⟩
  · exact noNewHolder_pipes
  · exact .refl _

/-- **A child comes to hold nothing that it did not hold.** -/
theorem ProcMove.noNewHolder (h : ProcMove k pid k') : NoNewHolder k k' := by
  refine ⟨h.length_pipes, fun f p hf hh => ?_⟩
  rcases hh with hh | ⟨proc', hm, hh⟩
  · exact Or.inl (Or.inl (h.server ▸ hh))
  · rcases h.origin_of_holds hf hm hh with ⟨proc, hm, hh, -⟩ | hp
    · exact Or.inl (Or.inr ⟨proc, hm, hh⟩)
    · exact Or.inr hp

/-! ## Processes that have ended -/

/-- A process that has ended holds nothing. -/
def DeadHoldNothing (k : Kernel) : Prop :=
  ∀ proc ∈ k.procs, proc.life ≠ .running → proc.fds = []

/-- A new child is alive. -/
theorem DeadHoldNothing.fork (h : k.DeadHoldNothing) {setup : List SetupCall} {origin : Nat} :
    (k.fork setup origin).DeadHoldNothing := by
  intro proc hm hl
  rcases List.mem_append.mp hm with hm | hm
  · exact h proc hm hl
  · rw [List.mem_singleton.mp hm] at hl
    exact absurd rfl hl

theorem DeadHoldNothing.set (h : k.DeadHoldNothing) {proc : Proc}
    (hp : proc.life ≠ .running → proc.fds = []) :
    DeadHoldNothing { k with procs := k.procs.set pid proc } := by
  intro q hm hl
  rcases List.mem_or_eq_of_mem_set hm with hm | rfl
  · exact h q hm hl
  · exact hp hl

/-- Ending closes all descriptors. -/
theorem DeadHoldNothing.exit (h : k.DeadHoldNothing) {status : WaitStatus} :
    (k.exit pid status).DeadHoldNothing := by
  rcases exit_cases k pid status with ⟨-, he⟩ | ⟨proc, -, -, he⟩
  · rw [he]; exact h
  · rw [he]; exact h.set fun _ => rfl

/-- **Children that have ended hold nothing, whatever the others do.** -/
theorem DeadHoldNothing.procMove (h : k.DeadHoldNothing) (hm : ProcMove k pid k') :
    k'.DeadHoldNothing := by
  cases hm with
  | idle => exact h
  | setup proc c rest hp hr hs => exact h.set fun hl => absurd hr hl
  | table proc fds hp hr hs hf => exact h.set fun hl => absurd hr hl
  | pipe proc fds hp hr hs hf => exact h.set (k := k) fun hl => absurd hr hl
  | fork proc hp hr hs =>
    intro q hq hl
    rcases List.mem_append.mp hq with hq | hq
    · exact h q hq hl
    · rw [List.mem_singleton.mp hq] at hl
      exact absurd hr hl
  | read => exact h
  | write => exact h
  | exit proc status hp hr => exact h.set fun _ => rfl

/-- Processes stay, and only a running one changes its life, by ending. -/
def LivesOn (k k' : Kernel) : Prop :=
  ∀ (q : Nat) (proc : Proc), k.procs[q]? = some proc → ∃ proc', k'.procs[q]? = some proc' ∧
    (proc'.life = proc.life ∨ proc.life = .running ∧ ∃ status, proc'.life = .zombie status)

theorem livesOn_of_procs (h : k'.procs = k.procs) : LivesOn k k' :=
  fun _ proc hp => ⟨proc, h ▸ hp, Or.inl rfl⟩

/-- A new child does not disturb the others. -/
theorem livesOn_push {l : List Proc} (h : k'.procs = k.procs ++ l) : LivesOn k k' := by
  intro q proc hp
  refine ⟨proc, ?_, Or.inl rfl⟩
  rw [h]
  exact (List.getElem?_append_left (List.getElem?_eq_some_iff.mp hp).1).trans hp

/-- One child may end. -/
theorem livesOn_set {proc proc' : Proc} (h : k'.procs = k.procs.set pid proc')
    (hp : k.procs[pid]? = some proc)
    (hl : proc'.life = proc.life ∨ proc.life = .running ∧ ∃ status, proc'.life = .zombie status) :
    LivesOn k k' := by
  intro q proc₀ hq
  rw [h]
  by_cases hqp : pid = q
  · subst hqp
    rw [hp] at hq
    cases hq
    exact ⟨proc', List.getElem?_set_self (List.getElem?_eq_some_iff.mp hp).1, hl⟩
  · exact ⟨proc₀, (List.getElem?_set_ne hqp).trans hq, Or.inl rfl⟩

/-- **Children go on living until they end.** -/
theorem ProcMove.livesOn (h : ProcMove k pid k') : LivesOn k k' := by
  cases h with
  | idle => exact livesOn_of_procs rfl
  | setup proc c rest hp hr hs => exact livesOn_set rfl hp (Or.inl rfl)
  | table proc fds hp hr hs hf => exact livesOn_set rfl hp (Or.inl rfl)
  | pipe proc fds hp hr hs hf => exact livesOn_set rfl hp (Or.inl rfl)
  | fork proc hp hr hs => exact livesOn_push rfl
  | read => exact livesOn_of_procs rfl
  | write => exact livesOn_of_procs rfl
  | exit proc status hp hr => exact livesOn_set rfl hp (Or.inr ⟨hr, status, rfl⟩)

/-! ## Ends that a new process gives up -/

/-- Whoever holds `f` besides the server is still in a setup that `P` describes, and `fd` is its
only descriptor for `f`. -/
def HeldDuring (k : Kernel) (f : File) (fd : Nat) (P : List SetupCall → Prop) : Prop :=
  ∀ proc ∈ k.procs, proc.fds.Holds f → P proc.setup ∧ ∀ n, proc.fds.get n = some f → n = fd

/-- A setup of `P` makes no call but `close` until it has closed `fd`. -/
structure GivesUp (fd : Nat) (P : List SetupCall → Prop) : Prop where
  nil : ¬ P []
  cons : ∀ c rest, P (c :: rest) → c = .close fd ∨ (∃ n, c = .close n) ∧ P rest

variable {fd p : Nat} {rest : List SetupCall} {P : List SetupCall → Prop}

/-- A new child may hold the file while it has the rest of its setup before it. -/
theorem HeldDuring.fork (h : k.HeldDuring f fd P) {setup : List SetupCall} {origin : Nat}
    (hP : P setup) (hs : ∀ n, k.server.get n = some f → n = fd) :
    (k.fork setup origin).HeldDuring f fd P := by
  intro proc hm hh
  rcases List.mem_append.mp hm with hm | hm
  · exact h proc hm hh
  · rw [List.mem_singleton.mp hm]
    exact ⟨hP, hs⟩

/-- A fork that copies no descriptor for `f`. -/
theorem HeldDuring.fork_other (h : k.HeldDuring f fd P) {setup : List SetupCall}
    {origin : Nat} (hs : ¬ k.server.Holds f) : (k.fork setup origin).HeldDuring f fd P := by
  intro proc hm hh
  rcases List.mem_append.mp hm with hm | hm
  · exact h proc hm hh
  · rw [List.mem_singleton.mp hm] at hh
    exact absurd hh hs

theorem HeldDuring.set (h : k.HeldDuring f fd P) {proc : Proc}
    (hp : proc.fds.Holds f → P proc.setup ∧ ∀ n, proc.fds.get n = some f → n = fd) :
    HeldDuring { k with procs := k.procs.set pid proc } f fd P := by
  intro q hm hh
  rcases List.mem_or_eq_of_mem_set hm with hm | rfl
  · exact h q hm hh
  · exact hp hh

/-- Who has ended holds nothing. -/
theorem HeldDuring.exit (h : k.HeldDuring f fd P) {status : WaitStatus} :
    (k.exit pid status).HeldDuring f fd P := by
  rcases exit_cases k pid status with ⟨-, he⟩ | ⟨proc, -, -, he⟩
  · rw [he]; exact h
  · rw [he]; exact h.set fun hh => absurd hh (FdTable.not_holds_nil f)

/-- A process that is through with its setup does not hold `f`. -/
theorem HeldDuring.not_holds (h : k.HeldDuring f fd P) (hP : GivesUp fd P) {proc : Proc}
    (hm : proc ∈ k.procs) (hs : proc.setup = []) : ¬ proc.fds.Holds f := by
  intro hh
  have hset := (h proc hm hh).1
  rw [hs] at hset
  exact hP.nil hset

/-- The setup of a new process lets go of `f`, and after it nothing brings `f` back. -/
theorem HeldDuring.procMove (h : k.HeldDuring f fd P) (hP : GivesUp fd P) (hf : f.pipe = some p)
    (hp : p < k.pipes.length) (hm : ProcMove k pid k') : k'.HeldDuring f fd P := by
  cases hm with
  | idle => exact h
  | setup proc c rest' hpid hr hs =>
    refine h.set fun hh => ?_
    by_cases hold : proc.fds.Holds f
    · obtain ⟨hset, hn⟩ := h proc (List.mem_of_getElem? hpid) hold
      rw [hs] at hset
      rcases hP.cons c rest' hset with rfl | ⟨⟨n, rfl⟩, hrest⟩
      · -- the call it makes is the `close` of its only descriptor for `f`
        exact absurd hh (FdTable.not_holds_put_none hn)
      · exact ⟨hrest, fun m hm => hn m (FdTable.get_put_none.mp hm).2⟩
    · -- no call brings back what the process does not hold
      cases c with
      | close n => exact absurd (FdTable.Holds.of_put_none hh) hold
      | dup2 old new => exact absurd (FdTable.Holds.of_dup2 hh) hold
      | orExit code => exact absurd hh hold
  | table proc fds hpid hr hs hfds =>
    refine h.set fun hh => ?_
    rcases hfds f hh with hold | hn
    · exact absurd hold (h.not_holds hP (List.mem_of_getElem? hpid) hs)
    · rw [hf] at hn; cases hn
  | pipe proc fds hpid hr hs hfds =>
    refine h.set fun hh => ?_
    rcases hfds f hh with hold | hn
    · exact absurd hold (h.not_holds hP (List.mem_of_getElem? hpid) hs)
    · rw [hf, Option.some.injEq] at hn; omega
  | fork proc hpid hr hs =>
    intro q hq hh
    rcases List.mem_append.mp hq with hq | hq
    · exact h q hq hh
    · -- the copy holds what the original holds
      rw [List.mem_singleton.mp hq] at hh ⊢
      exact h proc (List.mem_of_getElem? hpid) hh
  | read => exact h
  | write => exact h
  | exit proc status hpid hr => exact h.set fun hh => absurd hh (FdTable.not_holds_nil f)

/-- Whoever holds `f` besides the server still has to make the calls `close fd :: rest`, and
`fd` is its only descriptor for `f`. -/
def ClosesFirst (k : Kernel) (f : File) (fd : Nat) (rest : List SetupCall) : Prop :=
  ∀ proc ∈ k.procs, proc.fds.Holds f →
    proc.setup = .close fd :: rest ∧ ∀ n, proc.fds.get n = some f → n = fd

/-- This is to hold the file during a setup of one form. -/
theorem closesFirst_iff :
    k.ClosesFirst f fd rest ↔ k.HeldDuring f fd fun setup => setup = .close fd :: rest :=
  Iff.rfl

/-- A setup whose first call closes `fd` gives it up. -/
theorem givesUp_eq (fd : Nat) (rest : List SetupCall) :
    GivesUp fd fun setup => setup = .close fd :: rest where
  nil h := by cases h
  cons c rest' h := Or.inl (List.cons.inj h).1

/-- A child that is started with this setup. -/
theorem ClosesFirst.fork (h : k.ClosesFirst f fd rest) {origin : Nat}
    (hs : ∀ n, k.server.get n = some f → n = fd) :
    (k.fork (.close fd :: rest) origin).ClosesFirst f fd rest :=
  (closesFirst_iff.mp h).fork rfl hs

/-- The server does not hold the file, and so the child does not. -/
theorem ClosesFirst.fork_other (h : k.ClosesFirst f fd rest) {setup : List SetupCall}
    {origin : Nat} (hs : ¬ k.server.Holds f) : (k.fork setup origin).ClosesFirst f fd rest :=
  (closesFirst_iff.mp h).fork_other hs

theorem ClosesFirst.set (h : k.ClosesFirst f fd rest) {proc : Proc}
    (hp : proc.fds.Holds f → proc.setup = .close fd :: rest ∧
      ∀ n, proc.fds.get n = some f → n = fd) :
    ClosesFirst { k with procs := k.procs.set pid proc } f fd rest :=
  (closesFirst_iff.mp h).set hp

theorem ClosesFirst.exit (h : k.ClosesFirst f fd rest) {status : WaitStatus} :
    (k.exit pid status).ClosesFirst f fd rest :=
  (closesFirst_iff.mp h).exit

/-- **The moves of the children keep this**: the first call of a holder ends its holding. -/
theorem ClosesFirst.procMove (h : k.ClosesFirst f fd rest) (hf : f.pipe = some p)
    (hp : p < k.pipes.length) (hm : ProcMove k pid k') : k'.ClosesFirst f fd rest :=
  (closesFirst_iff.mp h).procMove (givesUp_eq fd rest) hf hp hm

/-- The setup closes `fd` before it makes any call but `close`. -/
def ClosesSoon (fd : Nat) : List SetupCall → Prop
  | .close n :: rest => n = fd ∨ ClosesSoon fd rest
  | _ => False

/-- So does one that closes it a few calls later. -/
theorem givesUp_closesSoon (fd : Nat) : GivesUp fd (ClosesSoon fd) where
  nil := id
  cons c rest h := by
    cases c with
    | close n =>
      rcases h with rfl | h
      · exact Or.inl rfl
      · exact Or.inr ⟨⟨n, rfl⟩, h⟩
    | dup2 old new => exact h.elim
    | orExit code => exact h.elim

end MiniOj.Infra.Kernel
