import MiniOj.Infra.Table
import MiniOj.Judge.WorkerPool

/-!
# The worker pool runs every accepted task exactly once

`Move` reads `WorkerPool.step` as a relation with one named rule per outcome; each invariant
is one case analysis over it.

* `Inv` — accepted, queued, running and finished tasks, and how far `shutdown` has come
* `orderly_of_reachable` — FIFO order, at most `n` tasks at once, nothing accepted after
  `stopping_`, and a returned `shutdown` leaves no task behind
* `Alert` — while there is something to do, somebody is awake or about to be notified
* `not_stranded` — no lost wakeup
-/

namespace MiniOj.Judge

open Infra

variable {s s' : WorkerPool} {n : Nat}

/-! ## One rule per outcome -/

/-- The steps of the pool, each with what it needs. -/
inductive Move (s : WorkerPool) : WorkerPoolAction → WorkerPool → Prop
  | refuse (hs : s.stopping = true) :
    Move s .submit { s with submitted := s.submitted + 1, refused := s.refused ++ [s.submitted] }
  | accept (hs : s.stopping = false) :
    Move s .submit { s with
      submitted := s.submitted + 1, tasks := s.tasks ++ [s.submitted]
      accepted := s.accepted ++ [s.submitted], notifying := s.notifying + 1 }
  | notifyNobody {woken : Option Nat} (hn : 0 < s.notifying)
      (hall : ∀ w ∈ s.workers, w.isAsleep = false) :
    Move s (.notifyOne woken) { s with notifying := s.notifying - 1 }
  | notifyWorker {woken : Option Nat} (hn : 0 < s.notifying) (i : Nat)
      (hi : s.workers[i]? = some .asleep) :
    Move s (.notifyOne woken) { s with
      workers := s.workers.set i .looking, notifying := s.notifying - 1 }
  | take {w : Nat} (hw : s.workers[w]? = some .looking) (task : Task) (rest : List Task)
      (ht : s.tasks = task :: rest) :
    Move s (.look w) { s with
      workers := s.workers.set w (.running task), tasks := rest, started := s.started ++ [task] }
  | leave {w : Nat} (hw : s.workers[w]? = some .looking) (ht : s.tasks = [])
      (hs : s.stopping = true) :
    Move s (.look w) { s with workers := s.workers.set w .exited }
  | sleep {w : Nat} (hw : s.workers[w]? = some .looking) (ht : s.tasks = [])
      (hs : s.stopping = false) :
    Move s (.look w) { s with workers := s.workers.set w .asleep }
  | spurious {w : Nat} (hw : s.workers[w]? = some .asleep) :
    Move s (.spurious w) { s with workers := s.workers.set w .looking }
  | finish {w : Nat} {threw : Bool} (task : Task) (hw : s.workers[w]? = some (.running task)) :
    Move s (.finish w threw) { s with
      workers := s.workers.set w .looking, results := s.results ++ [(task, threw)] }
  | stopAgain (hs : s.stopping = true) : Move s .shutdown s
  | stop (hs : s.stopping = false) :
    Move s .shutdown { s with stopping := true, shutdown := .notifying }
  | wakeAll (hs : s.shutdown = .notifying) :
    Move s .notifyAll { s with
      workers := Infra.notifyAll Worker.isAsleep (fun _ => .looking) s.workers
      shutdown := .joining 0 }
  | joinNext (next : Nat) (hs : s.shutdown = .joining next)
      (hw : s.workers[next]? = some .exited) :
    Move s .join { s with shutdown := .joining (next + 1) }
  | joinEnd (next : Nat) (hs : s.shutdown = .joining next) (hw : s.workers[next]? = none) :
    Move s .join { s with shutdown := .returned }

theorem Worker.eq_asleep {w : Worker} (h : w.isAsleep = true) : w = .asleep := by
  cases w <;> first | rfl | cases h

theorem move_of_step {a : WorkerPoolAction} (h : s.step a = some s') : Move s a s' := by
  cases a with
  | submit =>
    simp only [WorkerPool.step] at h
    split at h
    · next hs => cases h; exact .refuse hs
    · next hs => cases h; exact .accept (by simpa using hs)
  | notifyOne woken =>
    simp only [WorkerPool.step] at h
    split at h
    · next hn =>
      obtain ⟨ws, hws, rfl⟩ := Option.map_eq_some_iff.mp h
      rcases notifyOne_cases hws with ⟨rfl, hall⟩ | ⟨i, t, hi, ht, rfl⟩
      · exact .notifyNobody hn hall
      · exact .notifyWorker hn i (Worker.eq_asleep ht ▸ hi)
    · cases h
  | look w =>
    simp only [WorkerPool.step] at h
    split at h
    · next hw =>
      split at h
      · next hp =>
        split at h
        · next ht =>
          cases h
          exact .leave hw ht (by simpa [ht] using hp)
        · next task rest ht => cases h; exact .take hw task rest ht
      · next hp =>
        cases h
        simp only [Bool.or_eq_true, not_or, Bool.not_eq_true, Bool.not_eq_false',
          List.isEmpty_iff] at hp
        exact .sleep hw hp.2 hp.1
    · cases h
  | spurious w =>
    simp only [WorkerPool.step] at h
    split at h
    · next hw => cases h; exact .spurious hw
    · cases h
  | finish w threw =>
    simp only [WorkerPool.step] at h
    split at h
    · next task hw => cases h; exact .finish task hw
    · cases h
  | shutdown =>
    simp only [WorkerPool.step] at h
    split at h
    · next hs => cases h; exact .stopAgain hs
    · next hs => cases h; exact .stop (by simpa using hs)
  | notifyAll =>
    simp only [WorkerPool.step] at h
    split at h
    · next hs => cases h; exact .wakeAll hs
    · cases h
  | join =>
    simp only [WorkerPool.step] at h
    split at h
    · next next hs =>
      split at h
      · next hw => cases h; exact .joinNext next hs hw
      · cases h
      · next hw => cases h; exact .joinEnd next hs hw
    · cases h

/-! ## Tasks -/

/-- It has this task. -/
def Worker.runs (t : Task) : Worker → Bool
  | .running task => task == t
  | _ => false

/-- The invariant over accepted, queued, running and finished tasks. -/
structure Inv (n : Nat) (s : WorkerPool) : Prop where
  pos : 0 < n
  size : s.workers.length = n
  fifo : s.started ++ s.tasks = s.accepted
  fresh : ∀ t ∈ s.accepted, t < s.submitted
  nodup : s.accepted.Nodup
  /-- a started task is running on one worker or has a result, and is so once -/
  ran : ∀ t, s.started.count t =
    s.workers.countP (Worker.runs t) + s.results.countP (·.1 == t)
  /-- workers leave only when nothing is left to do -/
  exited : .exited ∈ s.workers → s.stopping = true ∧ s.tasks = []
  called : s.stopping = true ↔ s.shutdown ≠ .notCalled
  joined : ∀ next, s.shutdown = .joining next → ∀ i < next, s.workers[i]? = some .exited
  returned : s.shutdown = .returned → ∀ w ∈ s.workers, w = .exited

theorem inv_init (h : WorkerPool.Init n s) : Inv n s := by
  simp only [WorkerPool.Init, WorkerPool.create, Option.ite_none_left_eq_some,
    Option.some.injEq] at h
  obtain ⟨hn, rfl⟩ := h
  exact {
    pos := Nat.pos_of_ne_zero hn
    size := List.length_replicate
    fifo := rfl
    fresh := by simp
    nodup := List.nodup_nil
    ran := fun t => by simp [List.countP_replicate, Worker.runs]
    exited := fun h => by simp at h
    called := by simp
    joined := fun _ h => by cases h
    returned := fun h => by cases h }

/-! ### One worker moves on -/

variable {ws : List Worker} {w : Nat} {a b : Worker}

theorem exited_of_set (hb : b ≠ .exited) (h : .exited ∈ ws.set w b) : .exited ∈ ws := by
  rcases List.mem_or_eq_of_mem_set h with h | h
  · exact h
  · exact absurd h.symm hb

theorem joined_of_set {next : Nat} (hw : ws[w]? = some a) (ha : a ≠ .exited)
    (h : ∀ i < next, ws[i]? = some .exited) : ∀ i < next, (ws.set w b)[i]? = some .exited := by
  intro i hi
  have hne : w ≠ i := by
    rintro rfl
    rw [h w hi] at hw
    exact ha (Option.some.inj hw).symm
  rw [List.getElem?_set_ne hne]
  exact h i hi

/-- After `shutdown` has returned no worker moves any more. -/
theorem not_returned (hI : Inv n s) (hw : s.workers[w]? = some a) (ha : a ≠ .exited) :
    s.shutdown ≠ .returned := fun hr =>
  ha (hI.returned hr a (List.mem_of_getElem? hw))

/-- A worker that neither starts nor ends a task keeps the counts. -/
theorem countP_runs_set {t : Task} (hw : ws[w]? = some a) (ha : a.runs t = false)
    (hb : b.runs t = false) : (ws.set w b).countP (Worker.runs t) = ws.countP (Worker.runs t) := by
  have := countP_set_add (Worker.runs t) b hw
  rwa [ha, hb, Bool.toNat_false, Nat.add_zero, Nat.add_zero] at this

/-- The invariant only looks at the workers through these facts. -/
theorem inv_set (hI : Inv n s) (hw : s.workers[w]? = some a) (ha : a ≠ .exited)
    (ha' : ∀ t, a.runs t = false) (hb' : ∀ t, b.runs t = false)
    (hb : b = .exited → s.stopping = true ∧ s.tasks = []) :
    Inv n { s with workers := s.workers.set w b } where
  pos := hI.pos
  size := by rw [← hI.size]; exact List.length_set
  fifo := hI.fifo
  fresh := hI.fresh
  nodup := hI.nodup
  ran := fun t => by rw [hI.ran t, countP_runs_set hw (ha' t) (hb' t)]
  exited := fun h => by
    by_cases hbe : b = .exited
    · exact hb hbe
    · exact hI.exited (exited_of_set hbe h)
  called := hI.called
  joined := fun next h => joined_of_set hw ha (hI.joined next h)
  returned := fun h => (not_returned hI hw ha h).elim

/-- A task is accepted under a number that no earlier one has. -/
theorem inv_accept (hI : Inv n s) (hs : s.stopping = false) : Inv n { s with
    submitted := s.submitted + 1, tasks := s.tasks ++ [s.submitted]
    accepted := s.accepted ++ [s.submitted], notifying := s.notifying + 1 } := by
  have hnew : s.submitted ∉ s.accepted := fun hm => absurd (hI.fresh _ hm) (Nat.lt_irrefl _)
  exact { hI with
    fifo := by rw [← List.append_assoc, hI.fifo]
    fresh := fun t ht => by
      rcases List.mem_append.mp ht with ht | ht
      · exact Nat.lt_succ_of_lt (hI.fresh t ht)
      · rw [List.mem_singleton.mp ht]; exact Nat.lt_succ_self _
    nodup := by
      rw [List.nodup_append]
      refine ⟨hI.nodup, List.pairwise_singleton _ _, fun x hx y hy hxy => hnew ?_⟩
      rw [List.mem_singleton] at hy
      exact (hxy.trans hy) ▸ hx
    exited := fun h => by
      have := (hI.exited h).1
      rw [hs] at this
      cases this }

/-- The oldest task goes from the queue to a worker. -/
theorem inv_take (hI : Inv n s) (hw : s.workers[w]? = some .looking) {task : Task}
    {rest : List Task} (ht : s.tasks = task :: rest) : Inv n { s with
      workers := s.workers.set w (.running task), tasks := rest
      started := s.started ++ [task] } where
  pos := hI.pos
  size := by rw [← hI.size]; exact List.length_set
  fifo := by rw [← hI.fifo, ht, List.append_assoc]; rfl
  fresh := hI.fresh
  nodup := hI.nodup
  ran := fun t => by
    -- the task counts once more among the started and once more among the running
    have hc := countP_set_add (Worker.runs t) (.running task) hw
    have hr := hI.ran t
    simp only [Worker.runs, Bool.toNat_false] at hc
    rw [List.count_append, List.count_singleton]
    cases h : task == t <;> simp only [h, Bool.toNat_false, Bool.toNat_true, if_true,
      Bool.false_eq_true, if_false] at hc ⊢ <;> omega
  exited := fun h => by
    have := (hI.exited (exited_of_set (by simp) h)).2
    rw [ht] at this
    cases this
  called := hI.called
  joined := fun next h => joined_of_set hw (by simp) (hI.joined next h)
  returned := fun h => (not_returned hI hw (by simp) h).elim

/-- A running task gets its result. -/
theorem inv_finish (hI : Inv n s) {task : Task} (hw : s.workers[w]? = some (.running task))
    (threw : Bool) : Inv n { s with
      workers := s.workers.set w .looking, results := s.results ++ [(task, threw)] } where
  pos := hI.pos
  size := by rw [← hI.size]; exact List.length_set
  fifo := hI.fifo
  fresh := hI.fresh
  nodup := hI.nodup
  ran := fun t => by
    -- the task leaves its worker and enters the results
    have hc := countP_set_add (Worker.runs t) .looking hw
    have hr := hI.ran t
    simp only [Worker.runs, Bool.toNat_false] at hc
    rw [List.countP_append, List.countP_singleton]
    cases h : task == t <;> simp only [h, Bool.toNat_false, Bool.toNat_true, if_true,
      Bool.false_eq_true, if_false] at hc ⊢ <;> omega
  exited := fun h => hI.exited (exited_of_set (by simp) h)
  called := hI.called
  joined := fun next h => joined_of_set hw (by simp) (hI.joined next h)
  returned := fun h => (not_returned hI hw (by simp) h).elim

/-- `notify_all` wakes workers and does nothing else to them. -/
theorem inv_wakeAll (hI : Inv n s) (hs : s.shutdown = .notifying) : Inv n { s with
    workers := Infra.notifyAll Worker.isAsleep (fun _ => .looking) s.workers
    shutdown := .joining 0 } := by
  have hex : ∀ w ∈ Infra.notifyAll Worker.isAsleep (fun _ => .looking) s.workers,
      w = .exited → w ∈ s.workers := by
    intro w hw hwe
    obtain ⟨u, hu, rfl⟩ := List.mem_map.mp hw
    cases u <;> first | exact hu | cases hwe
  exact {
    pos := hI.pos
    size := by rw [← hI.size]; exact List.length_map _
    fifo := hI.fifo
    fresh := hI.fresh
    nodup := hI.nodup
    ran := fun t => by
      rw [hI.ran t]
      congr 1
      simp only [Infra.notifyAll, List.countP_map]
      exact List.countP_congr fun w _ => by cases w <;> rfl
    exited := fun h => hI.exited (hex _ h rfl)
    called := by rw [hI.called, hs]; simp
    joined := fun _ h i hi => by cases h; exact absurd hi (Nat.not_lt_zero i)
    returned := fun h => by cases h }

/-- **The invariant is kept by every step.** -/
theorem inv_step {a : WorkerPoolAction} (hI : Inv n s) (h : s.step a = some s') : Inv n s' := by
  cases move_of_step h with
  | refuse hs =>
    exact { hI with fresh := fun t ht => Nat.lt_succ_of_lt (hI.fresh t ht) }
  | accept hs => exact inv_accept hI hs
  | notifyNobody hn hall => exact { hI with }
  | notifyWorker hn i hi =>
    exact { inv_set hI hi (by simp) (fun _ => rfl) (fun _ => rfl) (by simp) with }
  | take hw task rest ht => exact inv_take hI hw ht
  | leave hw ht hs =>
    exact inv_set hI hw (by simp) (fun _ => rfl) (fun _ => rfl) fun _ => ⟨hs, ht⟩
  | sleep hw ht hs => exact inv_set hI hw (by simp) (fun _ => rfl) (fun _ => rfl) (by simp)
  | spurious hw => exact inv_set hI hw (by simp) (fun _ => rfl) (fun _ => rfl) (by simp)
  | finish task hw => exact inv_finish hI hw _
  | stopAgain hs => exact hI
  | stop hs =>
    exact { hI with
      exited := fun h => by
        have := (hI.exited h).1
        rw [hs] at this
        cases this
      called := by simp
      joined := fun _ h => by cases h
      returned := fun h => by cases h }
  | wakeAll hs => exact inv_wakeAll hI hs
  | joinNext next hs hw =>
    exact { hI with
      called := by rw [hI.called, hs]; simp
      joined := fun k hk i hi => by
        -- the one just joined, or one joined before
        cases hk
        rcases Nat.lt_succ_iff_lt_or_eq.mp hi with hi | rfl
        · exact hI.joined next hs i hi
        · exact hw
      returned := fun h => by cases h }
  | joinEnd next hs hw =>
    exact { hI with
      called := by rw [hI.called, hs]; simp
      joined := fun _ h => by cases h
      returned := fun _ w hw' => by
        obtain ⟨i, hi⟩ := List.getElem?_of_mem hw'
        have hlen : s.workers.length ≤ next := List.getElem?_eq_none_iff.mp hw
        have hlt : i < s.workers.length := (List.getElem?_eq_some_iff.mp hi).1
        exact Option.some.inj (hi.symm.trans (hI.joined next hs i (by omega))) }

theorem inv_of_reachable (h : Reachable WorkerPool.step (WorkerPool.Init n) s) : Inv n s :=
  h.invariant (fun _ h0 => inv_init h0) fun _ _ _ hI _ hs => inv_step hI hs

/-! ### What the invariant says -/

/-- Tasks being run at this moment. -/
def WorkerPool.runningNow (s : WorkerPool) : Nat :=
  s.workers.countP fun w => match w with | .running _ => true | _ => false

/-- A task has run exactly once: it was started once and its future is ready. -/
def WorkerPool.ranOnce (s : WorkerPool) (t : Task) : Prop :=
  s.started.count t = 1 ∧ s.results.countP (·.1 == t) = 1

theorem count_accepted (hI : Inv n s) {t : Task} (ht : t ∈ s.accepted) :
    s.accepted.count t = 1 := by
  rw [hI.nodup.count, if_pos ht]

/-- When `shutdown` has returned, nothing is queued or running any more. -/
theorem drained (hI : Inv n s) (hr : s.shutdown = .returned) {t : Task} (ht : t ∈ s.accepted) :
    s.ranOnce t := by
  have hall := hI.returned hr
  obtain ⟨w, hw⟩ : ∃ w, w ∈ s.workers := List.exists_mem_of_length_pos (by
    rw [hI.size]; exact hI.pos)
  have hempty : s.tasks = [] := (hI.exited (hall w hw ▸ hw)).2
  have hstarted : s.started = s.accepted := by rw [← hI.fifo, hempty, List.append_nil]
  have hnone : s.workers.countP (Worker.runs t) = 0 :=
    List.countP_eq_zero.mpr fun w hw => by rw [hall w hw]; simp [Worker.runs]
  have hran := hI.ran t
  have hone := count_accepted hI ht
  unfold WorkerPool.ranOnce
  rw [hstarted] at hran ⊢
  omega

/-- Nothing is accepted once `stopping_` is set: every later `submit` throws. -/
theorem closed_run {as : List WorkerPoolAction} : ∀ {s s' : WorkerPool}, s.stopping = true →
    run WorkerPool.step s as = some s' →
      s'.stopping = true ∧ s'.accepted = s.accepted ∧
        s'.refused.length = s.refused.length + as.count .submit := by
  induction as with
  | nil =>
    intro s s' hs h
    cases h
    exact ⟨hs, rfl, rfl⟩
  | cons a as ih =>
    intro s s' hs h
    obtain ⟨t, ht, hr⟩ := run_cons_some.mp h
    have hstep : t.stopping = true ∧ t.accepted = s.accepted ∧
        t.refused.length = s.refused.length + (if a = .submit then 1 else 0) := by
      cases move_of_step ht <;> simp_all
    obtain ⟨h1, h2, h3⟩ := ih hstep.1 hr
    refine ⟨h1, h2.trans hstep.2.1, ?_⟩
    rw [h3, hstep.2.2, List.count_cons]
    by_cases ha : a = .submit <;> simp [ha] <;> omega

/-- What callers of the pool may rely on, in a state of a pool with `n` workers. -/
structure Orderly (n : Nat) (s : WorkerPool) : Prop where
  /-- tasks are taken in the order in which they were accepted -/
  fifo : s.started ++ s.tasks = s.accepted
  atMost : s.runningNow ≤ n
  /-- no task is started twice -/
  once : s.started.Nodup
  /-- after `stopping_` is set nothing is accepted and each `submit` throws -/
  closed : s.stopping = true → ∀ as s', run WorkerPool.step s as = some s' →
    s'.accepted = s.accepted ∧ s'.refused.length = s.refused.length + as.count .submit
  /-- when the `shutdown` that set `stopping_` returns, every accepted task has run once -/
  drained : s.shutdown = .returned → ∀ t ∈ s.accepted, s.ranOnce t

/-- **Every accepted task runs exactly once, in order, before `shutdown` returns.** -/
theorem orderly_of_reachable (n : Nat) (s : WorkerPool)
    (h : Reachable WorkerPool.step (WorkerPool.Init n) s) : Orderly n s := by
  have hI := inv_of_reachable h
  refine ⟨hI.fifo, ?_, ?_, ?_, fun hr _ ht => drained hI hr ht⟩
  · rw [← hI.size]
    exact List.countP_le_length
  · have hnd := hI.nodup
    rw [← hI.fifo] at hnd
    exact (List.nodup_append.mp hnd).1
  · intro hs as s' hr
    exact (closed_run hs hr).2

/-- A pool of one worker: one task is accepted and run, one is refused, `shutdown` returns. -/
theorem orderly_after_shutdown :
    ∃ s : WorkerPool, s.shutdown = .returned ∧ s.refused = [1] ∧ Orderly 1 s := by
  obtain ⟨s, hs, hp⟩ := exists_reachable_of_run WorkerPool.step
    [.look 0, .submit, .shutdown, .submit, .notifyOne (some 0), .look 0, .finish 0 true,
      .notifyAll, .look 0, .join, .join]
    (fun s => s.shutdown == .returned && s.refused == [1])
    (show WorkerPool.Init 1 _ from rfl) (by decide)
  simp only [Bool.and_eq_true, beq_iff_eq] at hp
  exact ⟨s, hp.1, hp.2, orderly_of_reachable 1 s hs⟩

/-! ## No lost wakeup -/

/-- While there is something to do, somebody looks at it or is about to be told. -/
structure Alert (s : WorkerPool) : Prop where
  queued : s.tasks ≠ [] → s.stopping = false →
    0 < s.notifying ∨ ∃ w ∈ s.workers, w.isAsleep = false
  stopped : s.stopping = true →
    s.shutdown = .notifying ∨ ∀ w ∈ s.workers, w.isAsleep = false

theorem alert_init (h : WorkerPool.Init n s) : Alert s := by
  simp only [WorkerPool.Init, WorkerPool.create, Option.ite_none_left_eq_some,
    Option.some.injEq] at h
  obtain ⟨-, rfl⟩ := h
  exact ⟨fun h => absurd rfl h, by simp⟩

theorem mem_set_self_of_getElem? (hw : ws[w]? = some a) : b ∈ ws.set w b :=
  List.mem_set (List.getElem?_eq_some_iff.mp hw).1 b

/-- A worker that is awake after its step keeps the pool alert. -/
theorem alert_set (hA : Alert s) (hw : s.workers[w]? = some a) (hb : b.isAsleep = false)
    {tasks started : List Task} {results : List (Task × Bool)} {notifying : Nat} :
    Alert { s with
      workers := s.workers.set w b, tasks := tasks, started := started, results := results
      notifying := notifying } where
  queued := fun _ _ => Or.inr ⟨b, mem_set_self_of_getElem? hw, hb⟩
  stopped := fun hs => (hA.stopped hs).imp id fun hall u hu => by
    rcases List.mem_or_eq_of_mem_set hu with hu | rfl
    · exact hall u hu
    · exact hb

/-- **No step puts the pool to sleep over work.** -/
theorem alert_step {a : WorkerPoolAction} (hI : Inv n s) (hA : Alert s)
    (h : s.step a = some s') : Alert s' := by
  cases move_of_step h with
  | refuse hs => exact ⟨hA.queued, hA.stopped⟩
  | accept hs =>
    exact ⟨fun _ _ => Or.inl (Nat.succ_pos _), fun h => by rw [hs] at h; cases h⟩
  | notifyNobody hn hall =>
    -- nobody sleeps, and there is a worker since the pool is never empty
    obtain ⟨w, hw⟩ : ∃ w, w ∈ s.workers := List.exists_mem_of_length_pos (by
      rw [hI.size]; exact hI.pos)
    exact ⟨fun _ _ => Or.inr ⟨w, hw, hall w hw⟩, fun _ => Or.inr hall⟩
  | notifyWorker hn i hi => exact alert_set hA hi rfl
  | take hw task rest ht => exact alert_set hA hw rfl
  | leave hw ht hs => exact alert_set hA hw rfl
  | sleep hw ht hs =>
    exact ⟨fun hne => absurd ht hne, fun h => by rw [hs] at h; cases h⟩
  | spurious hw => exact alert_set hA hw rfl
  | finish task hw => exact alert_set hA hw rfl
  | stopAgain hs => exact hA
  -- the `notify_all` is still to come
  | stop hs => exact ⟨fun _ h => (by cases h), fun _ => Or.inl rfl⟩
  | wakeAll hs =>
    have hall : ∀ w ∈ Infra.notifyAll Worker.isAsleep (fun _ => .looking) s.workers,
        w.isAsleep = false := fun w hw => not_asleep_notifyAll (fun _ _ => rfl) hw
    refine ⟨fun _ hs' => ?_, fun _ => Or.inr hall⟩
    have : s.stopping = true := hI.called.mpr (by rw [hs]; simp)
    rw [this] at hs'
    cases hs'
  | joinNext next hs hw =>
    exact ⟨hA.queued, fun h => (hA.stopped h).imp (fun h' => by rw [hs] at h'; cases h') id⟩
  | joinEnd next hs hw =>
    exact ⟨hA.queued, fun h => (hA.stopped h).imp (fun h' => by rw [hs] at h'; cases h') id⟩

theorem alert_of_reachable (h : Reachable WorkerPool.step (WorkerPool.Init n) s) : Alert s :=
  h.invariant_with (fun _ hr => inv_of_reachable hr) (fun _ h0 => alert_init h0)
    fun _ _ _ hI hA _ hs => alert_step hI hA hs

/-- Work is waiting, every worker still alive sleeps, and no notification is on its way. -/
def WorkerPool.Stranded (s : WorkerPool) : Prop :=
  (s.tasks ≠ [] ∨ s.stopping = true) ∧ (∃ w ∈ s.workers, w ≠ .exited) ∧
    (∀ w ∈ s.workers, w ≠ .exited → w = .asleep) ∧ s.notifying = 0 ∧ s.shutdown ≠ .notifying

/-- **No request is stranded by a lost wakeup.** -/
theorem not_stranded (n : Nat) (s : WorkerPool)
    (h : Reachable WorkerPool.step (WorkerPool.Init n) s) : ¬ s.Stranded := by
  rintro ⟨hwork, ⟨u, hu, hue⟩, hsleep, hn, hshut⟩
  have hI := inv_of_reachable h
  have hA := alert_of_reachable h
  cases hs : s.stopping with
  | true =>
    rcases hA.stopped hs with hs' | hall
    · exact hshut hs'
    · have := hall u hu
      rw [hsleep u hu hue] at this
      cases this
  | false =>
    have htasks : s.tasks ≠ [] := hwork.resolve_right (by rw [hs]; simp)
    rcases hA.queued htasks hs with hpos | ⟨w, hw, hawake⟩
    · omega
    · have hne : w ≠ .exited := by
        rintro rfl
        have := (hI.exited hw).1
        rw [hs] at this
        cases this
      rw [hsleep w hw hne] at hawake
      cases hawake

/-- Two workers asleep, two tasks queued, one notification sent and one still to come. -/
theorem not_stranded_between_notifications :
    ∃ s : WorkerPool, s.workers = [.looking, .asleep] ∧ s.tasks = [0, 1] ∧ ¬ s.Stranded := by
  obtain ⟨s, hs, hp⟩ := exists_reachable_of_run WorkerPool.step
    [.look 0, .look 1, .submit, .submit, .notifyOne (some 0)]
    (fun s => s.workers == [.looking, .asleep] && s.tasks == [0, 1])
    (show WorkerPool.Init 2 _ from rfl) (by decide)
  simp only [Bool.and_eq_true, beq_iff_eq] at hp
  exact ⟨s, hp.1, hp.2, not_stranded 2 s hs⟩

end MiniOj.Judge
