import Mathlib.Algebra.GroupWithZero.Nat
import MiniOj.Judge.Properties.Calls

/-!
# When a call returns after its time is up

Once the time is up the calling thread kills its child, waits for it and joins the readers;
a reader ends when nobody holds the write end of its pipe. The kill reaches the child only.

* `Finishing` — what the steps of the call itself keep from that moment on
* `left` — the work that is left, lowered by every such step
* `returns_iff` — the call gets to its return by its own steps exactly when no process but
  the child holds a write end that a reader waits for
-/

namespace MiniOj.Judge

open Infra

variable {now : Nat} {k k' : Kernel} {c c' : Call} {n m : PipeName} {s : Server}

/-- The calling thread is in the wait loop and has not killed the child. -/
def Call.InWaitLoop (c : Call) : Prop :=
  ∃ rest, c.todo = .wait :: rest ∨ c.todo = .checkClock :: rest

/-- Call `i` has nothing left to do. -/
def Server.Returned (s : Server) (i : Nat) : Prop := ∃ c, s.calls[i]? = some c ∧ c.todo = []

/-- Some process other than the child of the call holds a write end that a reader of the call
drains. -/
def OthersHold (k : Kernel) (c : Call) : Prop :=
  ∃ n r e q proc, c.readers n = some r ∧ c.ends n = some e ∧ k.procs[q]? = some proc ∧
    c.pid ≠ some q ∧ proc.fds.Holds (.writeEnd e.id)

/-! ## Another process keeps the call from returning -/

/-- The calling thread touches no process but its child. -/
theorem MainMove.getElem?_procs (hm : MainMove 0 now k c k' c') {q : Nat} {proc : Proc}
    (hq : k.procs[q]? = some proc) (hp : c.pid ≠ some q) :
    k'.procs[q]? = some proc ∧ c'.pid ≠ some q := by
  have hlt : q < k.procs.length := (List.getElem?_eq_some_iff.mp hq).1
  have hset : ∀ {pid : Nat} {proc' : Proc}, c.pid = some pid →
      (k.procs.set pid proc')[q]? = some proc := by
    intro pid proc' hpid
    have hne : pid ≠ q := by
      rintro rfl
      exact hp hpid
    exact (List.getElem?_set_ne hne).trans hq
  cases hm with
  | fork child rest ht =>
    refine ⟨(List.getElem?_append_left hlt).trans hq, ?_⟩
    intro h
    have := Option.some.inj h
    omega
  | fed bytes rest ht k' written hw =>
    rcases Kernel.write_cases hw with ⟨p, room, -, -, -, -, -, -, rfl⟩ | ⟨rfl, -⟩ <;> exact ⟨hq, hp⟩
  | feeding bytes rest ht k' written hlt' hw =>
    rcases Kernel.write_cases hw with ⟨p, room, -, -, -, -, -, -, rfl⟩ | ⟨rfl, -⟩ <;> exact ⟨hq, hp⟩
  | waited s hs rest ht pid hpid proc' hproc status hl => exact ⟨hset hpid, hp⟩
  | kill rest ht hup pid hpid =>
    refine ⟨?_, hp⟩
    rcases Kernel.exit_cases k pid (.signaled 9) with ⟨-, he⟩ | ⟨proc', -, -, he⟩ <;> rw [he]
    · exact hq
    · exact hset hpid
  | _ => exact ⟨hq, hp⟩

/-- Ends and readers stay known. -/
theorem MainMove.keeps (hD : Descriptors 0 k c) (hm : MainMove 0 now k c k' c') {e : PipeEnds}
    {r : Reader} (he : c.ends n = some e) (hr : c.readers n = some r) :
    c'.ends n = some e ∧ ∃ r', c'.readers n = some r' := by
  cases hm with
  | pipe n' rest ht =>
    have hne : n ≠ n' := by
      rintro rfl
      rw [(hD.unopened n (head_mem_todo ht)).1] at he
      cases he
    exact ⟨(Function.update_of_ne hne _ _).trans he, r, hr⟩
  | startReader n' closes rest ht e' he' =>
    refine ⟨he, ?_⟩
    by_cases hne : n = n'
    · subst hne
      exact ⟨_, Function.update_self ..⟩
    · exact ⟨r, (Function.update_of_ne hne _ _).trans hr⟩
  | _ => exact ⟨he, r, hr⟩

theorem ReaderMove.keeps (hm : ReaderMove m k c k' c') :
    c'.todo = c.todo ∧ c'.ends = c.ends ∧ c'.pid = c.pid ∧ c'.start = c.start ∧
      c'.limit = c.limit ∧ (∀ n, c'.readers n = none ↔ c.readers n = none) := by
  have hnone : ∀ (r r' : Reader), c.readers m = some r → ∀ n,
      Function.update c.readers m (some r') n = none ↔ c.readers n = none := by
    intro r r' hr n
    by_cases hnm : n = m
    · subst hnm
      rw [Function.update_self, hr]
      simp
    · rw [Function.update_of_ne hnm]
  cases hm with
  | got r hr => exact ⟨rfl, rfl, rfl, rfl, rfl, hnone r _ hr⟩
  | stop r hr => exact ⟨rfl, rfl, rfl, rfl, rfl, hnone r _ hr⟩
  | close r hr => exact ⟨rfl, rfl, rfl, rfl, rfl, hnone r _ hr⟩

/-- The steps of the call itself do not change who else holds its pipes. -/
theorem othersHold_own {a : Action} {s' : Server} (ha : Own 0 a) (hI : CallInv s.kernel c)
    (hm : SoloMove s c a s' c') (h : OthersHold s.kernel c) : OthersHold s'.kernel c' := by
  obtain ⟨n, r, e, q, proc, hr, he, hq, hp, hh⟩ := h
  cases hm with
  | main k' c' hm =>
    obtain ⟨he', r', hr'⟩ := hm.keeps hI.descriptors he hr
    obtain ⟨hq', hp'⟩ := hm.getElem?_procs hq hp
    exact ⟨n, r', e, q, proc, hr', he', hq', hp', hh⟩
  | reader m k' c' hm =>
    obtain ⟨-, hends, hpid, -, -, hnone⟩ := hm.keeps
    obtain ⟨r', hr'⟩ := Option.ne_none_iff_exists'.mp fun h => by
      rw [hnone, hr] at h
      cases h
    exact ⟨n, r', e, q, proc, hr', hends ▸ he, hm.procs ▸ hq, hpid ▸ hp, hh⟩
  | _ => exact ha.elim

/-- A reader whose pipe somebody else holds never ends, so it is never joined. -/
theorem not_returned_of_othersHold (hI : CallInv k c) (h : OthersHold k c) : c.todo ≠ [] := by
  obtain ⟨n, r, e, q, proc, hr, he, hq, -, hh⟩ := h
  -- by `Drains.eof` the reader stops only when nobody holds the write end
  have hreading : r.pc = .reading := Classical.byContradiction fun hpc =>
    hI.drains.eof n r e hr hpc he (Or.inr ⟨proc, List.mem_of_getElem? hq, hh⟩)
  have := hI.drains.joins n r hr (by rw [hreading]; simp)
  exact List.ne_nil_of_mem this

theorem not_leads_of_othersHold (hc : s.calls = [c]) (hI : CallInv s.kernel c)
    (h : OthersHold s.kernel c) : ¬ Leads Server.step (Own 0) (fun s => s.Returned 0) s := by
  refine not_leads_of_invariant
    (I := fun s => ∃ c, s.calls = [c] ∧ CallInv s.kernel c ∧ OthersHold s.kernel c) ?_ ?_
    ⟨c, hc, hI, h⟩
  · rintro s a s' ha ⟨c, hc, hI, h⟩ hstep
    obtain ⟨c', hc', hm⟩ := soloMove_of_step hc hstep
    exact ⟨c', hc', hI.soloMove hm, othersHold_own ha hI hm h⟩
  · rintro s ⟨c, hc, hI, h⟩ ⟨c', hc', ht⟩
    rw [hc] at hc'
    cases hc'
    exact not_returned_of_othersHold hI h ht

/-! ## The work that is left -/

/-- What may stand after the wait loop. -/
def Stmt.Passive (s : Stmt) : Prop := (∃ n, s = .join n) ∨ ∃ n, s = .close n .read

/-- The loop with what follows it, or some of what follows it. -/
inductive Ending : List Stmt → Prop
  | loop (s : Stmt) (rest : List Stmt) (hs : s.Loops) (hrest : ∀ s ∈ rest, s.Passive) :
    Ending (s :: rest)
  | after (todo : List Stmt) (h : ∀ s ∈ todo, s.Passive) : Ending todo

theorem Ending.passive {todo : List Stmt} (h : Ending todo) (hno : ¬ InLoop todo) :
    ∀ s ∈ todo, s.Passive := by
  cases h with
  | loop s rest hs hrest => exact absurd ⟨s, List.mem_cons_self, hs⟩ hno
  | after _ hp => exact hp

/-- Once the time is up, `wait` leads to `checkClock` and that to `reap`. -/
def Stmt.weight : Stmt → Nat
  | .wait => 3
  | .checkClock => 2
  | _ => 1

/-- What a reader still has to do. -/
def readerLeft (k : Kernel) (c : Call) (n : PipeName) : Nat :=
  match c.readers n, c.ends n with
  | some r, some e =>
    match r.pc with
    | .reading => (k.content e.id).length + 2
    | .closing => 1
    | .finished => 0
  | _, _ => 0

/-- What the calling thread and the readers still have to do. -/
def left (k : Kernel) (c : Call) : Nat :=
  (c.todo.map Stmt.weight).sum +
    (readerLeft k c .stdinPipe + readerLeft k c .stdoutPipe + readerLeft k c .stderrPipe)

theorem readerLeft_congr (hp : k'.pipes = k.pipes) (hr : c'.readers = c.readers)
    (he : c'.ends = c.ends) (n : PipeName) : readerLeft k' c' n = readerLeft k c n := by
  unfold readerLeft Kernel.content
  rw [hp, hr, he]

/-- From the moment the time is up, with nobody else on the pipes. -/
structure Finishing (k : Kernel) (now : Nat) (c : Call) : Prop where
  inv : CallInv k c
  up : c.TimeIsUp now
  ending : Ending c.todo
  free : ¬ OthersHold k c

theorem not_othersHold (h : ¬ OthersHold k c) (hr : c'.readers = c.readers) (he : c'.ends = c.ends)
    (hpid : c'.pid = c.pid) (hprocs : ∀ (q : Nat) (proc : Proc), c.pid ≠ some q →
      k'.procs[q]? = some proc → k.procs[q]? = some proc) : ¬ OthersHold k' c' := by
  rintro ⟨n, r, e, q, proc, hr', he', hq, hp, hh⟩
  rw [hpid] at hp
  exact h ⟨n, r, e, q, proc, hr ▸ hr', he ▸ he', hprocs q proc hp hq, hp, hh⟩

theorem left_lt_of_todo (hp : k'.pipes = k.pipes) (hr : c'.readers = c.readers)
    (he : c'.ends = c.ends) {s : Stmt} {rest : List Stmt} (ht : c.todo = s :: rest)
    (hlt : (c'.todo.map Stmt.weight).sum < s.weight + (rest.map Stmt.weight).sum) :
    left k' c' < left k c := by
  unfold left
  rw [readerLeft_congr hp hr he, readerLeft_congr hp hr he, readerLeft_congr hp hr he, ht,
    List.map_cons, List.sum_cons]
  omega

theorem getElem?_of_set {pid q : Nat} {proc proc' : Proc} {procs : List Proc}
    (hpid : c.pid = some pid) (hp : c.pid ≠ some q) (h : (procs.set pid proc')[q]? = some proc) :
    procs[q]? = some proc := by
  have hne : pid ≠ q := by
    rintro rfl
    exact hp hpid
  rwa [List.getElem?_set_ne hne] at h

/-- **A step of the calling thread** keeps `Finishing` and lowers the work left. -/
theorem Finishing.mainMove (h : Finishing k now c) (hm : MainMove 0 now k c k' c') :
    Finishing k' now c' ∧ left k' c' < left k c := by
  have hinv := h.inv.mainMove hm
  have hup := h.up
  have hrest : ∀ s rest, c.todo = s :: rest → ∀ s' ∈ rest, s'.Passive := by
    intro s rest ht s' hs'
    have hend := h.ending
    rw [ht] at hend
    cases hend with
    | loop _ _ hs hr => exact hr s' hs'
    | after _ hp => exact hp s' (List.mem_cons_of_mem _ hs')
  have hhead : ∀ s rest, c.todo = s :: rest → s.Loops ∨ s.Passive := by
    intro s rest ht
    have hend := h.ending
    rw [ht] at hend
    cases hend with
    | loop _ _ hs hr => exact Or.inl hs
    | after _ hp => exact Or.inr (hp s List.mem_cons_self)
  cases hm with
  | close n side rest ht e he =>
    refine ⟨⟨hinv, hup, .after _ (hrest _ _ ht), ?_⟩, left_lt_of_todo rfl rfl rfl ht ?_⟩
    · exact not_othersHold h.free rfl rfl rfl fun _ _ _ hq => hq
    · simp [Stmt.weight]
  | waited s hs rest ht pid hp proc hproc status hl =>
    refine ⟨⟨hinv, hup, .after _ (hrest _ _ ht), ?_⟩, left_lt_of_todo rfl rfl rfl ht ?_⟩
    · exact not_othersHold h.free rfl rfl rfl fun _ _ hne hq => getElem?_of_set hp hne hq
    · rcases hs with rfl | rfl <;> simp [Stmt.weight]
  | waitFailed s hs rest ht pid hp hl timedOut =>
    refine ⟨⟨hinv, hup, .after _ (hrest _ _ ht), ?_⟩, left_lt_of_todo rfl rfl rfl ht ?_⟩
    · exact not_othersHold h.free rfl rfl rfl fun _ _ _ hq => hq
    · rcases hs with rfl | rfl <;> simp [Stmt.weight]
  | waitAlive rest ht pid hp proc hproc hl =>
    refine ⟨⟨hinv, hup, .loop _ _ trivial (hrest _ _ ht), ?_⟩, left_lt_of_todo rfl rfl rfl ht ?_⟩
    · exact not_othersHold h.free rfl rfl rfl fun _ _ _ hq => hq
    · simp [Stmt.weight]
  | kill rest ht hup' pid hp =>
    have hprocs : ∀ (q : Nat) (proc : Proc), c.pid ≠ some q →
        (k.exit pid (.signaled 9)).procs[q]? = some proc → k.procs[q]? = some proc := by
      intro q proc hne hq
      rcases Kernel.exit_cases k pid (.signaled 9) with ⟨-, he⟩ | ⟨proc', -, -, he⟩ <;>
        rw [he] at hq
      · exact hq
      · exact getElem?_of_set hp hne hq
    have hpipes : (k.exit pid (.signaled 9)).pipes = k.pipes := by
      rcases Kernel.exit_cases k pid (.signaled 9) with ⟨-, he⟩ | ⟨proc', -, -, he⟩ <;> rw [he]
    refine ⟨⟨hinv, hup, .loop _ _ trivial (hrest _ _ ht), ?_⟩, left_lt_of_todo hpipes rfl rfl ht ?_⟩
    · exact not_othersHold h.free rfl rfl rfl hprocs
    · simp [Stmt.weight]
  -- the loop does not turn again once the time is up
  | sleep rest ht hnot => exact absurd h.up hnot
  | join n rest ht r hr hf =>
    refine ⟨⟨hinv, hup, .after _ (hrest _ _ ht), ?_⟩, left_lt_of_todo rfl rfl rfl ht ?_⟩
    · exact not_othersHold h.free rfl rfl rfl fun _ _ _ hq => hq
    · simp [Stmt.weight]
  -- none of these stands after the start of the loop
  | openSource rest ht => exact absurd (hhead _ _ ht) (by simp [Stmt.Loops, Stmt.Passive])
  | closeSource rest ht => exact absurd (hhead _ _ ht) (by simp [Stmt.Loops, Stmt.Passive])
  | pipe n rest ht => exact absurd (hhead _ _ ht) (by simp [Stmt.Loops, Stmt.Passive])
  | startClock rest ht => exact absurd (hhead _ _ ht) (by simp [Stmt.Loops, Stmt.Passive])
  | fork child rest ht => exact absurd (hhead _ _ ht) (by simp [Stmt.Loops, Stmt.Passive])
  | fed bytes rest ht => exact absurd (hhead _ _ ht) (by simp [Stmt.Loops, Stmt.Passive])
  | feeding bytes rest ht => exact absurd (hhead _ _ ht) (by simp [Stmt.Loops, Stmt.Passive])
  | startReader n closes rest ht => exact absurd (hhead _ _ ht) (by simp [Stmt.Loops, Stmt.Passive])

/-- Reading lowers the work left for the reader and adds none for the others. -/
theorem left_readerMove (hI : CallInv k c) (hm : ReaderMove m k c k' c') : left k' c' < left k c := by
  have key : ∀ (hlt : readerLeft k' c' m < readerLeft k c m)
      (hle : ∀ n, n ≠ m → readerLeft k' c' n ≤ readerLeft k c n), left k' c' < left k c := by
    intro hlt hle
    unfold left
    rw [hm.keeps.1]
    have h1 := hle .stdinPipe
    have h2 := hle .stdoutPipe
    have h3 := hle .stderrPipe
    cases m <;> simp only [ne_eq, not_true_eq_false, not_false_eq_true, reduceCtorEq,
      forall_const, false_implies] at h1 h2 h3 <;> omega
  cases hm with
  | got r hr hpc p hp hne =>
    obtain ⟨e, he, -, hg⟩ := get_reader_fd hI.drains hI.descriptors hr (by rw [hpc]; simp)
    rw [hg, Option.some.injEq, File.readEnd.injEq] at hp
    subst hp
    have hid := hI.descriptors.fresh m e he
    refine key ?_ fun n hn => ?_
    · have hpos : 0 < (k.content e.id).length := List.length_pos_iff.mpr hne
      simp only [readerLeft, Function.update_self, he, hr, hpc, Kernel.content_set_self hid,
        List.length_drop]
      omega
    · simp only [readerLeft, Function.update_of_ne hn]
      split
      · split
        · exact Nat.add_le_add_right (Kernel.length_content_drop_le k _ _ _) 2
        · exact Nat.le_refl _
        · exact Nat.le_refl _
      · exact Nat.le_refl _
  | stop r hr hpc hw =>
    obtain ⟨e, he, -, -⟩ := get_reader_fd hI.drains hI.descriptors hr (by rw [hpc]; simp)
    refine key ?_ fun n hn => ?_
    · simp only [readerLeft, Function.update_self, he, hr, hpc]
      cases r.closes <;> simp
    · simp only [readerLeft, Function.update_of_ne hn]
      exact Nat.le_refl _
  | close r hr hpc =>
    obtain ⟨e, he, -, -⟩ := get_reader_fd hI.drains hI.descriptors hr (by rw [hpc]; simp)
    refine key ?_ fun n hn => ?_
    · simp [readerLeft, Function.update_self, he, hr, hpc]
    · simp only [readerLeft, Function.update_of_ne hn]
      exact Nat.le_refl _

/-- **A step of a reader** keeps `Finishing` and lowers the work left. -/
theorem Finishing.readerMove (h : Finishing k now c) (hm : ReaderMove m k c k' c') :
    Finishing k' now c' ∧ left k' c' < left k c := by
  obtain ⟨htodo, hends, hpid, hstart, hlimit, hnone⟩ := hm.keeps
  refine ⟨⟨h.inv.readerMove hm, ?_, by rw [htodo]; exact h.ending, ?_⟩, left_readerMove h.inv hm⟩
  · unfold Call.TimeIsUp
    rw [hlimit, hstart]
    exact h.up
  · rintro ⟨n, r, e, q, proc, hr, he, hq, hp, hh⟩
    obtain ⟨r', hr'⟩ := Option.ne_none_iff_exists'.mp fun hn => by
      rw [← hnone, hr] at hn
      cases hn
    exact h.free ⟨n, r', e, q, proc, hr', hends ▸ he, hm.procs ▸ hq, hpid ▸ hp, hh⟩

/-! ## Nothing is in the way -/

/-- After the loop nobody holds what a reader waits for. -/
theorem Finishing.not_held (h : Finishing k now c) (hloop : ¬ InLoop c.todo) {e : PipeEnds}
    {r : Reader} (hr : c.readers n = some r) (he : c.ends n = some e) :
    ¬ k.Held (.writeEnd e.id) := by
  rintro (⟨fd, hg⟩ | ⟨proc, hm, hh⟩)
  · -- the server has closed its write end
    have hopen := ((h.inv.descriptors.table n e .write fd he).mp hg).2.1
    have hp := h.ending.passive hloop _ hopen
    simp [Stmt.Passive] at hp
  · obtain ⟨q, hq⟩ := List.getElem?_of_mem hm
    by_cases hp : c.pid = some q
    · -- the child has ended
      obtain ⟨proc', hproc', -, hrun⟩ := h.inv.awaits.child q hp
      rw [hq] at hproc'
      cases hproc'
      have hl : proc.life ≠ .running := fun hl => by
        rcases hrun hl with hin | hin
        · exact hloop ⟨.wait, hin, trivial⟩
        · exact hloop ⟨.checkClock, hin, trivial⟩
      rw [h.inv.dead proc hm hl] at hh
      exact FdTable.not_holds_nil _ hh
    · exact h.free ⟨n, r, e, q, proc, hr, he, hq, hp, hh⟩

/-- **Until the call has returned, one of its own threads can go on.** -/
theorem Finishing.progress (h : Finishing k now c) : c.todo = [] ∨
    (∃ kc, c.main 0 now k = some kc) ∨ ∃ n kc, c.reader n k = some kc := by
  have hI := h.inv
  have hend := h.ending
  -- the child, while the loop goes on
  have hchild : InLoop c.todo → (∀ s ∈ c.todo, ∀ child, s ≠ .fork child) →
      ∃ pid proc, c.pid = some pid ∧ k.procs[pid]? = some proc ∧ proc.life ≠ .reaped := by
    intro hin hno
    rcases hI.awaits.forked hin with ⟨child, hc⟩ | ⟨pid, hp⟩
    · exact absurd rfl (hno _ hc child)
    · obtain ⟨proc, hproc, hl, -⟩ := hI.awaits.child pid hp
      exact ⟨pid, proc, hp, hproc, hl hin⟩
  cases ht : c.todo with
  | nil => exact Or.inl rfl
  | cons s rest =>
    rw [ht] at hend hchild
    refine Or.inr ?_
    cases hend with
    | loop _ _ hs hrest =>
      have hno : ∀ s' ∈ s :: rest, ∀ child, s' ≠ .fork child := by
        rintro s' hs' child rfl
        rcases List.mem_cons.mp hs' with rfl | hs'
        · exact hs
        · have := hrest _ hs'
          simp [Stmt.Passive] at this
      obtain ⟨pid, proc, hp, hproc, hl⟩ := hchild ⟨s, List.mem_cons_self, hs⟩ hno
      refine Or.inl ?_
      cases s with
      | wait =>
        rcases Kernel.waitpid_cases k pid with ⟨_, _, _, hw⟩ | ⟨_, _, _, _, hw⟩ | ⟨_, hw⟩ <;>
          simp [Call.main, ht, hp, hw]
      | checkClock => simp [Call.main, ht, hp, h.up]
      | reap =>
        -- the child has been killed, so the blocking `waitpid` does not block
        have hrun : proc.life ≠ .running := fun hrun => by
          obtain ⟨proc', hproc', -, hin⟩ := hI.awaits.child pid hp
          rw [hproc] at hproc'
          cases hproc'
          rw [ht] at hin
          rcases hin hrun with hin | hin <;> rcases List.mem_cons.mp hin with hin | hin
          · cases hin
          · have := hrest _ hin
            simp [Stmt.Passive] at this
          · cases hin
          · have := hrest _ hin
            simp [Stmt.Passive] at this
        rcases Kernel.waitpid_cases k pid with ⟨p, hproc', hl', hw⟩ | ⟨_, _, _, _, hw⟩ | ⟨_, hw⟩
        · rw [hproc] at hproc'
          cases hproc'
          exact absurd hl' hrun
        · simp [Call.main, ht, hp, hw]
        · simp [Call.main, ht, hp, hw]
      | _ => exact hs.elim
    | after _ hpassive =>
      rcases hpassive s List.mem_cons_self with ⟨n, rfl⟩ | ⟨n, rfl⟩
      · -- the reader has finished, or has something to read, or is at the end of file
        have hloop : ¬ InLoop c.todo := by
          rintro ⟨s', hs', hl⟩
          rw [ht] at hs'
          rcases hpassive s' hs' with ⟨m, rfl⟩ | ⟨m, rfl⟩ <;> exact hl
        obtain ⟨r, hr⟩ : ∃ r, c.readers n = some r := by
          rcases hI.drains.starts n (head_mem_todo ht) with ⟨closes, hs⟩ | hr
          · rw [ht] at hs
            have := hpassive _ hs
            simp [Stmt.Passive] at this
          · exact hr
        cases hpc : r.pc with
        | finished => exact Or.inl (by simp [Call.main, ht, hr, hpc])
        | closing => exact Or.inr ⟨n, by simp [Call.reader, hr, hpc]⟩
        | reading =>
          obtain ⟨e, he, -, hg⟩ := get_reader_fd hI.drains hI.descriptors hr (by rw [hpc]; simp)
          refine Or.inr ⟨n, ?_⟩
          have hheld := h.not_held hloop hr he
          simp only [Call.reader, hr, hpc, hg, Kernel.read]
          by_cases hcontent : k.content e.id = []
          · -- an empty pipe without a holder is at its end
            simp [hcontent, hheld]
          · rw [if_neg hcontent]
            split
            · next hnone => cases hnone
            · exact ⟨_, rfl⟩
            · exact ⟨_, rfl⟩
      · -- a `close` never blocks
        rcases hI.descriptors.opened n .read (head_mem_todo ht) with hin | ⟨e, he⟩
        · rw [ht] at hin
          have := hpassive _ hin
          simp [Stmt.Passive] at this
        · exact Or.inl (by simp [Call.main, ht, he])

/-- **The call returns** by its own steps. -/
theorem Finishing.leads (hc : s.calls = [c]) (h : Finishing s.kernel s.now c) :
    Leads Server.step (Own 0) (fun s => s.Returned 0) s := by
  refine Leads.of_measure (I := fun s => ∃ c, s.calls = [c] ∧ Finishing s.kernel s.now c)
    (fun s => (s.calls.map (left s.kernel)).sum) ?_ ⟨c, hc, h⟩
  rintro s ⟨c, hc, h⟩
  have hset : ∀ kc, s.update 0 kc = { s with kernel := kc.1, calls := [kc.2] } := fun kc => by
    rw [Server.update, hc]
    rfl
  rcases h.progress with ht | ⟨⟨k', c'⟩, hmain⟩ | ⟨n, ⟨k', c'⟩, hreader⟩
  · exact Or.inl ⟨c, by rw [hc]; rfl, ht⟩
  · obtain ⟨h', hlt⟩ := h.mainMove (mainMove_of_main hmain)
    refine Or.inr ⟨.main 0, { s with kernel := k', calls := [c'] }, rfl, ?_, ⟨c', rfl, h'⟩, ?_⟩
    · simp only [Server.step, hc, List.getElem?_cons_zero, Option.bind_some, hmain,
        Option.map_some, hset]
    · simp only [hc, List.map_cons, List.map_nil, List.sum_cons, List.sum_nil, Nat.add_zero]
      exact hlt
  · obtain ⟨h', hlt⟩ := h.readerMove (readerMove_of_reader hreader)
    refine Or.inr ⟨.reader 0 n, { s with kernel := k', calls := [c'] }, rfl, ?_, ⟨c', rfl, h'⟩, ?_⟩
    · simp only [Server.step, hc, List.getElem?_cons_zero, Option.bind_some, hreader,
        Option.map_some, hset]
    · simp only [hc, List.map_cons, List.map_nil, List.sum_cons, List.sum_nil, Nat.add_zero]
      exact hlt

/-! ## Calls of `runBinary` and `compileSource` -/

/-- One of the two calls of the judge. -/
def JudgeCall (c : Call) : Prop :=
  (∃ request spawn, c = .runBinary request spawn) ∨
    ∃ request spawn, c = .compileSource request spawn

theorem MainMove.inLoop {owner : Nat} (hm : MainMove owner now k c k' c') (h : InLoop c'.todo) :
    InLoop c.todo := by
  obtain ⟨s, hs, hl⟩ := h
  obtain ⟨s₀, rest, ht, hto | ⟨s', hto, hkind⟩⟩ := hm.todo
  · exact ⟨s, mem_todo ht (hto ▸ hs), hl⟩
  · rw [hto] at hs
    rcases List.mem_cons.mp hs with rfl | hs
    · rcases hkind with ⟨hs₀, -⟩ | ⟨bytes, bytes', -, rfl⟩
      · exact ⟨s₀, head_mem_todo ht, hs₀⟩
      · exact hl.elim
    · exact ⟨s, mem_todo ht hs, hl⟩

/-- A call without a wait loop never gets into one. -/
theorem not_inLoop_of_reachable {script : List Stmt} {limit : Int} {capacity : Nat}
    (hno : ¬ InLoop script)
    (h : Reachable Server.step (Server.Init capacity [.fresh script limit]) s) :
    ∃ c, s.calls = [c] ∧ ¬ InLoop c.todo := by
  refine h.invariant (I := fun s => ∃ c, s.calls = [c] ∧ ¬ InLoop c.todo) ?_ ?_
  · exact fun s h0 => ⟨_, h0.calls, hno⟩
  · rintro s a s' ⟨c, hc, hI⟩ - hstep
    obtain ⟨c', hc', hm⟩ := soloMove_of_step hc hstep
    refine ⟨c', hc', ?_⟩
    cases hm with
    | main k' c' hm => exact fun hl => hI (hm.inLoop hl)
    | reader n k' c' hm => rw [hm.keeps.1]; exact hI
    | _ => exact hI

theorem callInv_of_judgeCall {c₀ : Call} {capacity : Nat} (hcall : JudgeCall c₀)
    (h : Reachable Server.step (Server.Init capacity [c₀]) s) (hc : s.calls = [c])
    (hloop : InLoop c.todo) : CallInv s.kernel c := by
  have key : ∀ script limit, c₀ = .fresh script limit → (WellScripted script ∨ ¬ InLoop script) →
      CallInv s.kernel c := by
    rintro script limit rfl (hs | hno)
    · obtain ⟨c', hc', hI⟩ := callInv_of_reachable hs h
      rw [hc] at hc'
      cases hc'
      exact hI
    · obtain ⟨c', hc', hI⟩ := not_inLoop_of_reachable hno h
      rw [hc] at hc'
      cases hc'
      exact absurd hloop hI
  rcases hcall with ⟨request, spawn, rfl⟩ | ⟨request, spawn, rfl⟩
  · refine key _ _ rfl ?_
    by_cases hpath : request.binaryPath = []
    · simp [runBinaryCalls, hpath, InLoop]
    · cases spawn with
      | started => exact Or.inl (wellScripted_runBinary hpath)
      | refused error => simp [runBinaryCalls, hpath, InLoop]
      | pipeFails n error => cases n <;> simp [runBinaryCalls, hpath, InLoop, Stmt.Loops]
      | forkFails error => simp [runBinaryCalls, hpath, InLoop, Stmt.Loops]
  · exact key _ _ rfl (Or.inl (wellScripted_compileSource request spawn))

/-- **When a call returns after its time is up.** In every reachable state in which the time
limit has passed in the wait loop, `runBinary` and `compileSource` get to their return by
their own steps exactly when no process other than the direct child holds the write end of a
pipe that one of the call's readers drains. -/
theorem returns_iff {c₀ : Call} {capacity : Nat} (hcall : JudgeCall c₀)
    (h : Reachable Server.step (Server.Init capacity [c₀]) s) (hc : s.calls = [c])
    (hloop : c.InWaitLoop) (hup : c.TimeIsUp s.now) :
    Leads Server.step (Own 0) (fun s => s.Returned 0) s ↔ ¬ OthersHold s.kernel c := by
  obtain ⟨rest, ht⟩ := hloop
  have hin : InLoop c.todo := by
    rcases ht with ht | ht <;> rw [ht] <;> exact ⟨_, List.mem_cons_self, trivial⟩
  have hI := callInv_of_judgeCall hcall h hc hin
  constructor
  · exact fun hl ho => not_leads_of_othersHold hc hI ho hl
  · intro ho
    have hd := hI.descriptors.disciplined
    have hend : Ending c.todo := by
      rcases ht with ht | ht <;> rw [ht] at hd ⊢ <;> exact .loop _ _ trivial hd.1
    exact Finishing.leads hc ⟨hI, hup, hend, ho⟩

/-! ### A submission that forks -/

/-- `runBinary` with a limit of 500 ms, up to the moment the time is up. The child calls `c`
(if anything) before. -/
def overdueRun (c : List Kernel.Syscall) : List Action :=
  List.replicate 5 (.main 0) ++ List.replicate 11 (.proc 0 (.setup true)) ++
    c.map (fun c => .proc 0 (.call c)) ++ List.replicate 6 (.main 0) ++ [.tick 500000001]

/-- A run whose child never ends. -/
def overdueCall : Call := .runBinary { binaryPath := [97] } .started

/-- A call in its wait loop with the time up, of whose pipe process `q` has the write end. -/
def overdue (q : Nat) (s : Server) : Bool :=
  match s.calls with
  | [c] =>
    match c.todo.head?, c.readers .stdoutPipe, c.ends .stdoutPipe, s.kernel.procs[q]? with
    | some .wait, some _, some e, some proc =>
      decide (c.TimeIsUp s.now) && decide (proc.fds.Holds (.writeEnd e.id)) &&
        decide (c.pid = some 0)
    | _, _, _, _ => false
  | _ => false

theorem overdue_spec {q : Nat} (h : overdue q s = true) : ∃ c, s.calls = [c] ∧ c.InWaitLoop ∧
    c.TimeIsUp s.now ∧ c.pid = some 0 ∧ (q ≠ 0 → OthersHold s.kernel c) := by
  unfold overdue at h
  split at h
  · next c hc =>
    split at h
    · next r e proc hhead hr he hq =>
      simp only [Bool.and_eq_true, decide_eq_true_eq] at h
      obtain ⟨⟨hup, hh⟩, hpid⟩ := h
      obtain ⟨rest, ht⟩ := List.head?_eq_some_iff.mp hhead
      refine ⟨c, hc, ⟨rest, Or.inl ht⟩, hup, hpid, fun hne => ?_⟩
      exact ⟨.stdoutPipe, r, e, q, proc, hr, he, hq, by rw [hpid]; simpa using hne.symm, hh⟩
    · cases h
  · cases h

/-- A child that does nothing of the kind is killed, and `runBinary` returns. -/
theorem returns_when_alone : ∃ s c, Reachable Server.step (Server.Init 65536 [overdueCall]) s ∧
    s.calls = [c] ∧ c.InWaitLoop ∧ c.TimeIsUp s.now ∧
    Leads Server.step (Own 0) (fun s => s.Returned 0) s := by
  obtain ⟨s, hreach, hp⟩ := exists_reachable_of_run Server.step (overdueRun [])
    (fun s => overdue 0 s && s.kernel.procs.length == 1)
    (Server.init_idle 65536 [overdueCall]) (by decide)
  obtain ⟨hp, hlen⟩ : overdue 0 s = true ∧ s.kernel.procs.length = 1 := by simpa using hp
  obtain ⟨c, hc, hloop, hup, hpid, -⟩ := overdue_spec hp
  refine ⟨s, c, hreach, hc, hloop, hup, ?_⟩
  refine (returns_iff (Or.inl ⟨_, _, rfl⟩) hreach hc hloop hup).mpr ?_
  rintro ⟨n, r, e, q, proc, -, -, hq, hne, -⟩
  have hlt := (List.getElem?_eq_some_iff.mp hq).1
  exact hne (by rw [hpid]; congr 1; omega)

/-- A submission that forks once keeps `runBinary` from ever returning by itself: the copy
still has the write ends when the child has been killed. -/
theorem not_returns_after_fork :
    ¬ ∀ (c₀ : Call) (capacity : Nat) (s : Server) (c : Call), JudgeCall c₀ →
      Reachable Server.step (Server.Init capacity [c₀]) s → s.calls = [c] → c.InWaitLoop →
      c.TimeIsUp s.now → Leads Server.step (Own 0) (fun s => s.Returned 0) s := by
  intro h
  obtain ⟨s, hreach, hp⟩ := exists_reachable_of_run Server.step (overdueRun [.fork]) (overdue 1)
    (Server.init_idle 65536 [overdueCall]) (by decide)
  obtain ⟨c, hc, hloop, hup, -, hold⟩ := overdue_spec hp
  have hcall : JudgeCall overdueCall := Or.inl ⟨_, _, rfl⟩
  have hin : InLoop c.todo := by
    obtain ⟨rest, ht | ht⟩ := hloop <;> rw [ht] <;> exact ⟨_, List.mem_cons_self, trivial⟩
  exact not_leads_of_othersHold hc (callInv_of_judgeCall hcall hreach hc hin) (hold (by decide))
    (h overdueCall 65536 s c hcall hreach hc hloop hup)

end MiniOj.Judge
