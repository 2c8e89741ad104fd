import MiniOj.Judge.Properties.Descriptors

/-!
# The child and the readers of a call

* `Awaits` — a call waits for its child exactly once
* `Drains` — a reader thread stops only when nobody holds the write end any more, and is
  joined after that
* `callInv_of_reachable` — these hold of a call alone in the server, whatever the processes
  and the other threads do
-/

namespace MiniOj.Judge

open Infra

variable {owner now : Nat} {k k' : Kernel} {c c' : Call} {n m : PipeName}

/-! ## Holders -/

/-- A step of the call gives an old pipe to nobody else. -/
theorem MainMove.noNewHolder (hm : MainMove owner now k c k' c') : k.NoNewHolder k' := by
  cases hm with
  | openSource rest ht => exact Kernel.noNewHolder_openFile
  | closeSource rest ht fd hs => exact Kernel.noNewHolder_close
  | pipe n rest ht => exact Kernel.noNewHolder_pipe
  | fork child rest ht => exact Kernel.noNewHolder_fork
  | close n side rest ht e he => exact Kernel.noNewHolder_close
  | fed bytes rest ht k' written hw => exact Kernel.noNewHolder_write hw
  | feeding bytes rest ht k' written hlt hw => exact Kernel.noNewHolder_write hw
  | waited s hs rest ht pid hp proc hproc status hl =>
    exact Kernel.noNewHolder_set hproc fun _ hh => hh
  | kill rest ht hup pid hp => exact Kernel.noNewHolder_exit
  | _ => exact .refl _

/-- Nor does a step of a reader. -/
theorem ReaderMove.noNewHolder (hm : ReaderMove n k c k' c') : k.NoNewHolder k' := by
  cases hm with
  | got r hr hpc p hp hne => exact Kernel.noNewHolder_pipes
  | stop r hr hpc hw => exact .refl _
  | close r hr hpc => exact Kernel.noNewHolder_close

/-- Children that have ended go on holding nothing. -/
theorem MainMove.deadHoldNothing (hk : k.DeadHoldNothing) (hm : MainMove owner now k c k' c') :
    k'.DeadHoldNothing := by
  cases hm with
  | fork child rest ht => exact hk.fork
  | fed bytes rest ht k' written hw =>
    rcases Kernel.write_cases hw with ⟨p, room, -, -, -, -, -, -, rfl⟩ | ⟨rfl, -⟩ <;> exact hk
  | feeding bytes rest ht k' written hlt hw =>
    rcases Kernel.write_cases hw with ⟨p, room, -, -, -, -, -, -, rfl⟩ | ⟨rfl, -⟩ <;> exact hk
  | waited s hs rest ht pid hp proc hproc status hl =>
    exact hk.set fun _ => hk proc (List.mem_of_getElem? hproc) (by rw [hl]; simp)
  | kill rest ht hup pid hp => exact hk.exit
  | _ => exact hk

/-- A reader does nothing to the children. -/
theorem ReaderMove.procs (hm : ReaderMove n k c k' c') : k'.procs = k.procs := by
  cases hm <;> rfl

/-! ## The child -/

/-- The wait loop is still to come. -/
def InLoop (todo : List Stmt) : Prop := ∃ s ∈ todo, s.Loops

/-- The call waits for its child until it has ended, and only so long. -/
structure Awaits (k : Kernel) (c : Call) : Prop where
  unforked : ∀ child, .fork child ∈ c.todo → c.pid = none
  forked : InLoop c.todo → (∃ child, .fork child ∈ c.todo) ∨ ∃ pid, c.pid = some pid
  child : ∀ pid, c.pid = some pid → ∃ proc, k.procs[pid]? = some proc ∧
    (InLoop c.todo → proc.life ≠ .reaped) ∧
    (proc.life = .running → .wait ∈ c.todo ∨ .checkClock ∈ c.todo)

/-- The statements that `Awaits` speaks of. -/
def Stmt.Minds : Stmt → Prop
  | .fork _ | .wait | .checkClock | .reap => True
  | _ => False

/-- The wait loop is about the child. -/
theorem Stmt.Loops.minds {s : Stmt} (h : s.Loops) : s.Minds := by
  cases s <;> trivial

/-- Steps that are not about the child. -/
theorem Awaits.frame (h : Awaits k c) (hlife : k.LivesOn k') (hpid : c'.pid = c.pid)
    (htodo : ∀ s, s.Minds → (s ∈ c'.todo ↔ s ∈ c.todo)) : Awaits k' c' := by
  have hloop : InLoop c'.todo ↔ InLoop c.todo :=
    exists_congr fun s => and_congr_left fun hs => htodo s hs.minds
  constructor
  · intro child hc
    rw [hpid]
    exact h.unforked child ((htodo (.fork child) trivial).mp hc)
  · intro hl
    rw [hpid]
    refine (h.forked (hloop.mp hl)).imp ?_ id
    rintro ⟨child, hc⟩
    exact ⟨child, (htodo (.fork child) trivial).mpr hc⟩
  · intro pid hp
    obtain ⟨proc, hproc, hreap, hrun⟩ := h.child pid (hpid ▸ hp)
    obtain ⟨proc', hproc', hl⟩ := hlife pid proc hproc
    rw [hloop, htodo .wait trivial, htodo .checkClock trivial]
    refine ⟨proc', hproc', fun hin => ?_, fun hr => hrun ?_⟩
    · rcases hl with hl | ⟨-, status, hl⟩ <;> rw [hl]
      · exact hreap hin
      · simp
    · rcases hl with hl | ⟨-, status, hl⟩
      · rw [← hl]; exact hr
      · rw [hr] at hl; cases hl

/-- A statement that is not about the child is done. -/
theorem mem_cons_minds {s s₀ : Stmt} {rest : List Stmt} (h₀ : ¬ s₀.Minds) (hs : s.Minds) :
    s ∈ s₀ :: rest ↔ s ∈ rest :=
  mem_cons_ne fun he => h₀ (he ▸ hs)

/-- The calling thread passes a statement that has nothing to do with the child. -/
theorem Awaits.pass (h : Awaits k c) {s : Stmt} {rest : List Stmt} (ht : c.todo = s :: rest)
    (hs : ¬ s.Minds) (hlife : k.LivesOn k') (hpid : c'.pid = c.pid)
    (htodo : ∀ s, s.Minds → (s ∈ c'.todo ↔ s ∈ rest)) : Awaits k' c' :=
  h.frame hlife hpid fun s' hs' => by rw [htodo s' hs', ht, mem_cons_minds hs hs']

/-- After the loop nothing of it is left. -/
theorem not_minds_of_fits {rest : List Stmt} {s : Stmt} (hs : s.Loops) (h : s.Fits rest) :
    ∀ s' ∈ rest, ¬ s'.Minds := by
  intro s' hs' hm
  have h : ∀ s ∈ rest, (∃ n, s = .join n) ∨ ∃ n, s = .close n .read := by
    cases s <;> first | exact h | exact hs.elim
  rcases h s' hs' with ⟨n, rfl⟩ | ⟨n, rfl⟩ <;> exact hm

/-- Nothing to come is about the child. -/
theorem not_inLoop {rest : List Stmt} (h : ∀ s ∈ rest, ¬ s.Minds) : ¬ InLoop rest :=
  fun ⟨s, hs, hl⟩ => h s hs hl.minds

/-- Writing ends nobody. -/
theorem livesOn_write {g : Option File} {bytes : List UInt8} {written : Option Nat}
    (h : k.write g bytes = some (k', written)) : k.LivesOn k' := by
  rcases Kernel.write_cases h with ⟨p, room, -, -, -, -, -, -, rfl⟩ | ⟨rfl, -⟩ <;>
    exact Kernel.livesOn_of_procs rfl

/-- The wait loop ends: the child has been waited for. -/
theorem Awaits.leave {s : Stmt} (hs : s.Loops) {rest : List Stmt}
    (hfits : s.Fits rest) (hpid : c'.pid = c.pid) (htodo : c'.todo = rest)
    (hlife : ∀ pid, c.pid = some pid → ∃ proc, k'.procs[pid]? = some proc ∧ proc.life = .reaped) :
    Awaits k' c' := by
  have hno := not_minds_of_fits hs hfits
  constructor
  · intro child hc
    exact absurd trivial (hno (.fork child) (htodo ▸ hc))
  · intro hl
    exact absurd (htodo ▸ hl) (not_inLoop hno)
  · intro pid hp
    obtain ⟨proc, hproc, hl⟩ := hlife pid (hpid ▸ hp)
    refine ⟨proc, hproc, fun hin => absurd (htodo ▸ hin) (not_inLoop hno), fun hr => ?_⟩
    rw [hl] at hr
    cases hr

/-- The wait loop goes on. -/
theorem Awaits.turn {s : Stmt} (hs : s.Loops) {rest : List Stmt} (hfits : s.Fits rest)
    (s' : Stmt) (hs' : s'.Loops) (htodo : c'.todo = s' :: rest) {pid : Nat}
    (hpid : c'.pid = some pid) {proc : Proc} (hproc : k'.procs[pid]? = some proc)
    (hl : proc.life ≠ .reaped) (hr : proc.life = .running → s' = .wait ∨ s' = .checkClock) :
    Awaits k' c' := by
  have hno := not_minds_of_fits hs hfits
  constructor
  · intro child hc
    rw [htodo] at hc
    rcases List.mem_cons.mp hc with rfl | hc
    · exact hs'.elim
    · exact absurd trivial (hno (.fork child) hc)
  · exact fun _ => Or.inr ⟨pid, hpid⟩
  · intro pid' hp
    rw [hpid] at hp
    cases hp
    refine ⟨proc, hproc, fun _ => hl, fun hrun => ?_⟩
    rw [htodo]
    rcases hr hrun with rfl | rfl
    · exact Or.inl List.mem_cons_self
    · exact Or.inr List.mem_cons_self

/-- **`Awaits` is kept by every step of the calling thread.** -/
theorem Awaits.mainMove (h : Awaits k c) (hd : Disciplined c.todo)
    (hm : MainMove owner now k c k' c') : Awaits k' c' := by
  have htail : ∀ s rest, c.todo = s :: rest → s.Fits rest := fun s rest ht => by
    rw [ht] at hd
    exact hd.1
  cases hm with
  | openSource rest ht =>
    exact h.pass ht id (Kernel.livesOn_of_procs rfl) rfl fun _ _ => Iff.rfl
  | closeSource rest ht fd hs =>
    exact h.pass ht id (Kernel.livesOn_of_procs rfl) rfl fun _ _ => Iff.rfl
  | pipe n rest ht => exact h.pass ht id (Kernel.livesOn_of_procs rfl) rfl fun _ _ => Iff.rfl
  | startClock rest ht => exact h.pass ht id (Kernel.livesOn_of_procs rfl) rfl fun _ _ => Iff.rfl
  | fork child rest ht =>
    obtain ⟨hno, hwait, -⟩ := htail _ _ ht
    refine ⟨fun child' hc => absurd hc (hno child'), fun _ => Or.inr ⟨_, rfl⟩, ?_⟩
    intro pid hp
    cases hp
    exact ⟨_, List.getElem?_concat_length, fun _ => by simp, fun _ => Or.inl hwait⟩
  | close n side rest ht e he =>
    exact h.pass ht id (Kernel.livesOn_of_procs rfl) rfl fun _ _ => Iff.rfl
  | fed bytes rest ht k' written hw =>
    exact h.pass ht id (livesOn_write hw) rfl fun _ _ => Iff.rfl
  | feeding bytes rest ht k' written hlt hw =>
    exact h.pass ht id (livesOn_write hw) rfl fun _ hs => mem_cons_minds id hs
  | startReader n closes rest ht e he =>
    exact h.pass ht id (Kernel.livesOn_of_procs rfl) rfl fun _ _ => Iff.rfl
  | waited s hs rest ht pid hp proc hproc status hl =>
    have hs' : s.Loops := by rcases hs with rfl | rfl <;> trivial
    refine Awaits.leave hs' (htail _ _ ht) rfl rfl fun pid' hp' => ?_
    rw [hp] at hp'
    cases hp'
    exact ⟨_, List.getElem?_set_self (List.getElem?_eq_some_iff.mp hproc).1, rfl⟩
  | waitFailed s hs rest ht pid hp hl timedOut =>
    have hs' : s.Loops := by rcases hs with rfl | rfl <;> trivial
    refine Awaits.leave hs' (htail _ _ ht) rfl rfl fun pid' hp' => ?_
    rw [hp] at hp'
    cases hp'
    obtain ⟨proc, hproc, -⟩ := h.child pid hp
    exact ⟨proc, hproc, hl proc hproc⟩
  | waitAlive rest ht pid hp proc hproc hl =>
    exact Awaits.turn (s := .wait) trivial (htail _ _ ht) .checkClock trivial rfl hp hproc
      (by rw [hl]; simp) fun _ => Or.inr rfl
  | kill rest ht hup pid hp =>
    obtain ⟨proc, hproc, hreap, -⟩ := h.child pid hp
    have hin : InLoop c.todo := ⟨.checkClock, head_mem_todo ht, trivial⟩
    rcases Kernel.exit_cases k pid (.signaled 9) with ⟨hnr, he⟩ | ⟨proc', hproc', hl, he⟩
    · -- the child has ended by itself, and the signal does nothing
      rw [he]
      exact Awaits.turn (s := .checkClock) trivial (htail _ _ ht) .reap trivial rfl hp hproc
        (hreap hin) fun hr => absurd hr (hnr proc hproc)
    · rw [he]
      exact Awaits.turn (s := .checkClock) trivial (htail _ _ ht) .reap trivial rfl hp
        (List.getElem?_set_self (List.getElem?_eq_some_iff.mp hproc').1) (by simp)
        fun hr => by cases hr
  | sleep rest ht hup =>
    have hin : InLoop c.todo := ⟨.checkClock, head_mem_todo ht, trivial⟩
    rcases h.forked hin with ⟨child, hc⟩ | ⟨pid, hp⟩
    · -- no `fork` comes after the loop
      rw [ht] at hc
      rcases List.mem_cons.mp hc with hc | hc
      · cases hc
      · exact absurd trivial (not_minds_of_fits (s := .checkClock) trivial (htail _ _ ht) _ hc)
    · obtain ⟨proc, hproc, hreap, -⟩ := h.child pid hp
      exact Awaits.turn (s := .checkClock) trivial (htail _ _ ht) .wait trivial rfl hp hproc
        (hreap hin) fun _ => Or.inl rfl
  | join n rest ht r hr hf =>
    exact h.pass ht id (Kernel.livesOn_of_procs rfl) rfl fun _ _ => Iff.rfl

/-! ## The readers -/

/-- A reader has its end of the pipe as long as it needs it. -/
structure Drains (k : Kernel) (c : Call) : Prop where
  starts : ∀ n, .join n ∈ c.todo → (∃ closes, .startReader n closes ∈ c.todo) ∨
    ∃ r, c.readers n = some r
  joins : ∀ n r, c.readers n = some r → r.pc ≠ .finished → .join n ∈ c.todo
  /-- a reader has stopped only at the end of file -/
  eof : ∀ n r e, c.readers n = some r → r.pc ≠ .reading → c.ends n = some e →
    ¬ k.Held (.writeEnd e.id)

/-- The statements that `Drains` speaks of. -/
def Stmt.Drives : Stmt → Prop
  | .startReader _ _ | .join _ => True
  | _ => False

/-- A statement that is not about the readers is done. -/
theorem mem_cons_drives {s s₀ : Stmt} {rest : List Stmt} (h₀ : ¬ s₀.Drives) (hs : s.Drives) :
    s ∈ s₀ :: rest ↔ s ∈ rest :=
  mem_cons_ne fun he => h₀ (he ▸ hs)

/-- Steps that are not about the readers. -/
theorem Drains.frame (h : Drains k c) (hfresh : ∀ n e, c.ends n = some e → e.id < k.pipes.length)
    (hn : k.NoNewHolder k') (hends : ∀ n r, c.readers n = some r → c'.ends n = c.ends n)
    (hreaders : c'.readers = c.readers) (htodo : ∀ s, s.Drives → (s ∈ c'.todo ↔ s ∈ c.todo)) :
    Drains k' c' := by
  constructor
  · intro n hj
    rw [hreaders]
    refine (h.starts n ((htodo (.join n) trivial).mp hj)).imp ?_ id
    rintro ⟨closes, hs⟩
    exact ⟨closes, (htodo (.startReader n closes) trivial).mpr hs⟩
  · intro n r hr hpc
    exact (htodo (.join n) trivial).mpr (h.joins n r (hreaders ▸ hr) hpc)
  · intro n r e hr hpc he
    rw [hreaders] at hr
    rw [hends n r hr] at he
    exact hn.not_held rfl (hfresh n e he) (h.eof n r e hr hpc he)

/-- The calling thread passes a statement that has nothing to do with the readers. -/
theorem Drains.pass (h : Drains k c) (hfresh : ∀ n e, c.ends n = some e → e.id < k.pipes.length)
    (hn : k.NoNewHolder k') {s : Stmt} {rest : List Stmt} (ht : c.todo = s :: rest)
    (hs : ¬ s.Drives) (hends : c'.ends = c.ends) (hreaders : c'.readers = c.readers)
    (htodo : ∀ s, s.Drives → (s ∈ c'.todo ↔ s ∈ rest)) : Drains k' c' :=
  h.frame hfresh hn (fun _ _ _ => by rw [hends]) hreaders fun s' hs' => by
    rw [htodo s' hs', ht, mem_cons_drives hs hs']

/-- **`Drains` is kept by every step of the calling thread.** -/
theorem Drains.mainMove (h : Drains k c) (hD : Descriptors owner k c)
    (hm : MainMove owner now k c k' c') : Drains k' c' := by
  have hn := hm.noNewHolder
  cases hm with
  | openSource rest ht => exact h.pass hD.fresh hn ht id rfl rfl fun _ _ => Iff.rfl
  | closeSource rest ht fd hs => exact h.pass hD.fresh hn ht id rfl rfl fun _ _ => Iff.rfl
  | pipe n rest ht =>
    refine h.frame hD.fresh hn (fun m r hr => ?_) rfl fun s hs => ?_
    · refine Function.update_of_ne ?_ _ _
      rintro rfl
      rw [(hD.unopened m (head_mem_todo ht)).2] at hr
      cases hr
    · rw [ht, mem_cons_drives id hs]
  | startClock rest ht => exact h.pass hD.fresh hn ht id rfl rfl fun _ _ => Iff.rfl
  | fork child rest ht => exact h.pass hD.fresh hn ht id rfl rfl fun _ _ => Iff.rfl
  | close n side rest ht e he => exact h.pass hD.fresh hn ht id rfl rfl fun _ _ => Iff.rfl
  | fed bytes rest ht k' written hw => exact h.pass hD.fresh hn ht id rfl rfl fun _ _ => Iff.rfl
  | feeding bytes rest ht k' written hlt hw =>
    exact h.pass hD.fresh hn ht id rfl rfl fun _ hs => mem_cons_drives id hs
  | startReader n closes rest ht e he =>
    obtain ⟨⟨-, hj, -⟩, -⟩ := hD.tail ht
    constructor
    · intro m hm
      dsimp only
      by_cases hmn : m = n
      · subst hmn
        exact Or.inr ⟨_, Function.update_self ..⟩
      · rw [Function.update_of_ne hmn]
        refine (h.starts m (mem_todo ht hm)).imp ?_ id
        rintro ⟨closes', hs⟩
        rw [ht, mem_cons_ne (by simp [hmn])] at hs
        exact ⟨closes', hs⟩
    · intro m r hr hpc
      rcases of_update_some hr with ⟨rfl, -⟩ | ⟨-, hr⟩
      · exact hj
      · have := h.joins m r hr hpc
        rwa [ht, mem_cons_ne (by simp)] at this
    · intro m r e' hr hpc he'
      rcases of_update_some hr with ⟨rfl, rfl⟩ | ⟨-, hr⟩
      · exact absurd rfl hpc
      · exact h.eof m r e' hr hpc he'
  | waited s hs rest ht pid hp proc hproc status hl =>
    rcases hs with rfl | rfl <;> exact h.pass hD.fresh hn ht id rfl rfl fun _ _ => Iff.rfl
  | waitFailed s hs rest ht pid hp hl timedOut =>
    rcases hs with rfl | rfl <;> exact h.pass hD.fresh hn ht id rfl rfl fun _ _ => Iff.rfl
  | waitAlive rest ht pid hp proc hproc hl =>
    exact h.pass hD.fresh hn ht id rfl rfl fun _ hs => mem_cons_drives id hs
  | kill rest ht hup pid hp =>
    exact h.pass hD.fresh hn ht id rfl rfl fun _ hs => mem_cons_drives id hs
  | sleep rest ht hup => exact h.pass hD.fresh hn ht id rfl rfl fun _ hs => mem_cons_drives id hs
  | join n rest ht r hr hf =>
    obtain ⟨⟨hno, -⟩, -⟩ := hD.tail ht
    constructor
    · intro m hm
      refine (h.starts m (mem_todo ht hm)).imp ?_ id
      rintro ⟨closes, hs⟩
      rw [ht, mem_cons_ne (by simp)] at hs
      exact ⟨closes, hs⟩
    · intro m r' hr' hpc
      have hin := h.joins m r' hr' hpc
      rw [ht] at hin
      rcases List.mem_cons.mp hin with hin | hin
      · -- this reader has finished, or it could not be joined
        cases hin
        rw [hr] at hr'
        cases hr'
        exact absurd hf hpc
      · exact hin
    · exact h.eof

/-- A reader that is still to be joined has its end still to be closed. -/
theorem close_of_join {todo : List Stmt} (hd : Disciplined todo) (hj : .join n ∈ todo) :
    .close n .read ∈ todo := by
  induction todo with
  | nil => cases hj
  | cons s rest ih =>
    rcases List.mem_cons.mp hj with rfl | hj
    · exact List.mem_cons_of_mem _ hd.1.2.1
    · exact List.mem_cons_of_mem _ (ih hd.2 hj)

/-- A reader that has not finished still has its end of the pipe. -/
theorem get_reader_fd (h : Drains k c) (hD : Descriptors owner k c) {r : Reader}
    (hr : c.readers n = some r) (hpc : r.pc ≠ .finished) :
    ∃ e, c.ends n = some e ∧ r.fd = e.read ∧ k.server.get r.fd = some (.readEnd e.id) := by
  obtain ⟨-, e, he, hfd⟩ := hD.started n r hr
  have hopen : c.Open n .read := by
    refine ⟨close_of_join hD.disciplined (h.joins n r hr hpc), fun r' _ hr' _ => ?_⟩
    rw [hr] at hr'
    cases hr'
    exact hpc
  exact ⟨e, he, hfd, by rw [hfd]; exact hD.get_of_open he hopen⟩

/-- **`Drains` is kept by every step of a reader thread.** -/
theorem Drains.readerMove (h : Drains k c) (hD : Descriptors owner k c)
    (hm : ReaderMove n k c k' c') : Drains k' c' := by
  have hn := hm.noNewHolder
  -- what a reader does with its own record, and when it may stop
  have key : ∀ (c' : Call) (r r' : Reader), c.readers n = some r →
      c'.todo = c.todo → c'.ends = c.ends →
      c'.readers = Function.update c.readers n (some r') → (r'.pc ≠ .finished → r.pc ≠ .finished) →
      (r'.pc ≠ .reading → ∀ e, c.ends n = some e → ¬ k'.Held (.writeEnd e.id)) →
      Drains k' c' := by
    intro c' r r' hr ht hends hreaders hfin hstop
    constructor
    · intro m hj
      rw [ht] at hj ⊢
      rw [hreaders]
      refine (h.starts m hj).imp id fun ⟨r₀, hr₀⟩ => ?_
      by_cases hmn : m = n
      · subst hmn
        exact ⟨_, Function.update_self ..⟩
      · exact ⟨r₀, by rw [Function.update_of_ne hmn]; exact hr₀⟩
    · intro m r₁ hr₁ hpc
      rw [hreaders] at hr₁
      rw [ht]
      rcases of_update_some hr₁ with ⟨rfl, rfl⟩ | ⟨-, hr₁⟩
      · exact h.joins m r hr (hfin hpc)
      · exact h.joins m r₁ hr₁ hpc
    · intro m r₁ e hr₁ hpc he
      rw [hreaders] at hr₁
      rw [hends] at he
      rcases of_update_some hr₁ with ⟨rfl, rfl⟩ | ⟨-, hr₁⟩
      · exact hstop hpc e he
      · exact hn.not_held rfl (hD.fresh m e he) (h.eof m r₁ e hr₁ hpc he)
  cases hm with
  | got r hr hpc p hp hne =>
    refine key _ r _ hr rfl rfl rfl (fun _ => by rw [hpc]; simp) fun hne' => absurd hpc hne'
  | stop r hr hpc hw =>
    refine key _ r _ hr rfl rfl rfl (fun _ => by rw [hpc]; simp) fun _ e he => ?_
    obtain ⟨e', he', -, hg⟩ := get_reader_fd h hD hr (by rw [hpc]; simp)
    rw [he] at he'
    cases he'
    exact (hw _ hg).2
  | close r hr hpc =>
    refine key _ r _ hr rfl rfl rfl (fun hf => absurd rfl hf) fun _ e he => ?_
    exact hn.not_held rfl (hD.fresh n e he) (h.eof n r e hr (by rw [hpc]; simp) he)

/-! ## A call alone in the server -/

/-- **What holds of a call alone on its server.** -/
structure CallInv (k : Kernel) (c : Call) : Prop where
  wellFormed : k.WellFormed
  dead : k.DeadHoldNothing
  descriptors : Descriptors 0 k c
  awaits : Awaits k c
  drains : Drains k c

/-- A step of the call keeps it. -/
theorem CallInv.mainMove (h : CallInv k c) (hm : MainMove 0 now k c k' c') : CallInv k' c' where
  wellFormed := hm.noNewHolder.wellFormed h.wellFormed
  dead := hm.deadHoldNothing h.dead
  descriptors := h.descriptors.mainMove h.wellFormed hm
  awaits := h.awaits.mainMove h.descriptors.disciplined hm
  drains := h.drains.mainMove h.descriptors hm

/-- A step of a reader keeps it. -/
theorem CallInv.readerMove (h : CallInv k c) (hm : ReaderMove n k c k' c') : CallInv k' c' where
  wellFormed := hm.noNewHolder.wellFormed h.wellFormed
  dead := fun proc hp => h.dead proc (hm.procs ▸ hp)
  descriptors := h.descriptors.readerMove hm
  awaits := h.awaits.frame (Kernel.livesOn_of_procs hm.procs) (by cases hm <;> rfl) fun s _ => by
    cases hm <;> rfl
  drains := h.drains.readerMove h.descriptors hm

/-- Nothing but the kernel changes. -/
theorem CallInv.kernel (h : CallInv k c) (hn : k.NoNewHolder k') (hdead : k'.DeadHoldNothing)
    (hlife : k.LivesOn k') (hD : Descriptors 0 k' c) : CallInv k' c where
  wellFormed := hn.wellFormed h.wellFormed
  dead := hdead
  descriptors := hD
  awaits := h.awaits.frame hlife rfl fun _ _ => Iff.rfl
  drains := h.drains.frame h.descriptors.fresh hn (fun _ _ _ => rfl) rfl fun _ _ => Iff.rfl

/-- Before it starts, a call has no child. -/
theorem awaits_fresh {script : List Stmt} {limit : Int} (hs : WellScripted script) :
    Awaits k (.fresh script limit) where
  unforked := fun _ _ => rfl
  forked := fun ⟨s, hin, hl⟩ => by
    refine Or.inl (hs.forks ?_)
    cases s with
    | wait => exact hin
    | checkClock => exact absurd hin hs.entersLoop.1
    | reap => exact absurd hin hs.entersLoop.2
    | _ => exact hl.elim
  child := fun _ hp => nomatch hp

/-- The steps of a server with one call. -/
inductive SoloMove (s : Server) (c : Call) : Action → Server → Call → Prop
  | main (k' : Kernel) (c' : Call) (hm : MainMove 0 s.now s.kernel c k' c') :
    SoloMove s c (.main 0) { s with kernel := k', calls := [c'] } c'
  | reader (n : PipeName) (k' : Kernel) (c' : Call) (hm : ReaderMove n s.kernel c k' c') :
    SoloMove s c (.reader 0 n) { s with kernel := k', calls := [c'] } c'
  | proc (pid : Nat) (a : Kernel.ProcAction) (k' : Kernel) (hm : s.kernel.ProcMove pid k') :
    SoloMove s c (.proc pid a) { s with kernel := k' } c
  | tick (nanoseconds : Nat) :
    SoloMove s c (.tick nanoseconds) { s with now := s.now + nanoseconds } c
  | openOther (owner : Nat) (ho : owner ≠ 0) :
    SoloMove s c (.openOther owner) { s with kernel := (s.kernel.openFile owner).2 } c
  | closeOther (fd owner : Nat) (ho : owner ≠ 0)
      (hg : s.kernel.server.get fd = some (.other owner)) :
    SoloMove s c (.closeOther fd) { s with kernel := s.kernel.close fd } c

/-- On a server with one call every step is a step of its own or of its child. -/
theorem soloMove_of_step {s s' : Server} {a : Action} (hc : s.calls = [c])
    (h : s.step a = some s') : ∃ c', s'.calls = [c'] ∧ SoloMove s c a s' c' := by
  have hget : ∀ i c₀, s.calls[i]? = some c₀ → i = 0 ∧ c₀ = c := by
    intro i c₀ hi
    rw [hc, List.getElem?_singleton] at hi
    split at hi
    · next h0 => exact ⟨h0, (Option.some.inj hi).symm⟩
    · cases hi
  have hset : ∀ kc, s.update 0 kc = { s with kernel := kc.1, calls := [kc.2] } := by
    intro kc
    rw [Server.update, hc]
    rfl
  have howner : ∀ owner, s.calls.length ≤ owner → owner ≠ 0 := by
    intro owner ho
    rw [hc] at ho
    exact Nat.ne_of_gt ho
  cases serverMove_of_step h with
  | main i c₀ hi k' c' hm =>
    obtain ⟨rfl, rfl⟩ := hget i c₀ hi
    rw [hset]
    exact ⟨c', rfl, .main k' c' hm⟩
  | reader i n c₀ hi k' c' hm =>
    obtain ⟨rfl, rfl⟩ := hget i c₀ hi
    rw [hset]
    exact ⟨c', rfl, .reader n k' c' hm⟩
  | proc pid a k' hm => exact ⟨c, hc, .proc pid a k' hm⟩
  | tick nanoseconds => exact ⟨c, hc, .tick nanoseconds⟩
  | openOther owner ho => exact ⟨c, hc, .openOther owner (howner owner ho)⟩
  | closeOther fd owner ho hg => exact ⟨c, hc, .closeOther fd owner (howner owner ho) hg⟩

/-- **Each of them keeps the invariant.** -/
theorem CallInv.soloMove {s s' : Server} {a : Action} (h : CallInv s.kernel c)
    (hm : SoloMove s c a s' c') : CallInv s'.kernel c' := by
  cases hm with
  | main k' c' hm => exact h.mainMove hm
  | reader n k' c' hm => exact h.readerMove hm
  | proc pid a k' hm =>
    exact h.kernel hm.noNewHolder (h.dead.procMove hm) hm.livesOn (h.descriptors.procMove hm)
  | tick nanoseconds => exact h
  | openOther owner ho =>
    exact h.kernel Kernel.noNewHolder_openFile h.dead (Kernel.livesOn_of_procs rfl)
      (h.descriptors.openOther ho)
  | closeOther fd owner ho hg =>
    exact h.kernel Kernel.noNewHolder_close h.dead (Kernel.livesOn_of_procs rfl)
      (h.descriptors.closeOther ho hg)

/-- **A call alone in the server keeps its books right**, whatever the processes and the
other threads do. -/
theorem callInv_of_reachable {script : List Stmt} {limit : Int} {capacity : Nat} {s : Server}
    (hs : WellScripted script)
    (h : Reachable Server.step (Server.Init capacity [.fresh script limit]) s) :
    ∃ c, s.calls = [c] ∧ CallInv s.kernel c := by
  refine h.invariant (I := fun s => ∃ c, s.calls = [c] ∧ CallInv s.kernel c) ?_ ?_
  · intro s h0
    refine ⟨_, h0.calls, ?_⟩
    have htable : ∀ f, s.kernel.Held f → ∃ owner, f = .other owner ∧ owner ≠ 0 := by
      rintro f (hf | ⟨proc, hm, -⟩)
      · obtain ⟨owner, rfl, ho⟩ := h0.table f hf
        rw [h0.calls] at ho
        exact ⟨owner, rfl, Nat.ne_of_gt ho⟩
      · rw [h0.procs] at hm
        cases hm
    exact {
      wellFormed := fun f p hf hh => by
        obtain ⟨owner, rfl, -⟩ := htable f hh
        cases hf
      dead := fun proc hm => by
        rw [h0.procs] at hm
        cases hm
      descriptors := descriptors_fresh hs fun f hf => htable f (Or.inl hf)
      awaits := awaits_fresh hs
      drains := {
        starts := fun n hj => Or.inl (hs.starts n hj)
        joins := fun _ _ hr => nomatch hr
        eof := fun _ _ _ hr => nomatch hr } }
  · rintro s a s' ⟨c, hc, hI⟩ - hstep
    obtain ⟨c', hc', hm⟩ := soloMove_of_step hc hstep
    exact ⟨c', hc', hI.soloMove hm⟩

end MiniOj.Judge
