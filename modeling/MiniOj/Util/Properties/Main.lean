import MiniOj.Util.Main
import MiniOj.Util.Properties.Signal

/-!
# Whether `main` gets out

The main thread and the listening thread tell each other nothing but through the flags of
`httplib::Server`: a failed bind does not wake the main thread, and `stop` does nothing before
the accept loop is entered.

* `main_gets_out` — the main thread does not get stuck in a run in which binding fails and the
  accept loop is entered only at certain moments
* `main_stuck` — runs in which it gets stuck in `waitForShutdown` and in `join`
-/

namespace MiniOj.Util

open Infra

variable {s s' : MainProcess}

/-! ## What stays as it is -/

/-- Shutdown is asked for, and the main thread neither sleeps nor is about to. -/
def NoMoreSleep (s : Signals) : Prop :=
  s.stopping = true ∧ s.waiter ≠ .refused ∧ s.waiter ≠ .asleep

instance (s : Signals) : Decidable (NoMoreSleep s) := inferInstanceAs (Decidable (_ ∧ _))

theorem Waiter.notified_cases (w : Waiter) :
    w.notified = w ∨ w = .asleep ∧ w.notified = .unlocked := by
  cases w with
  | asleep => exact .inr ⟨rfl, rfl⟩
  | _ => exact .inl rfl

/-- A step of the handlers keeps `stopping_` set and moves the main thread only out of its
sleep. -/
theorem Signals.step_other {s s' : Signals} {a : SignalAction} (ha : a ≠ .main)
    (h : s.step a = some s') :
    (s.stopping = true → s'.stopping = true) ∧
      (s'.waiter = s.waiter ∨ s.waiter = .asleep ∧ s'.waiter = .unlocked) := by
  cases a with
  | main => exact absurd rfl ha
  | spurious =>
    simp only [Signals.step, Option.ite_none_right_eq_some, Option.some.injEq] at h
    obtain ⟨hasleep, rfl⟩ := h
    exact ⟨fun h => h, .inr ⟨hasleep, rfl⟩⟩
  | deliver thread =>
    simp only [Signals.step, Option.some.injEq] at h
    subst h
    exact ⟨fun h => h, .inl rfl⟩
  | handler i =>
    obtain ⟨thread, -, ⟨-, rfl⟩ | ⟨-, rfl⟩⟩ := Signals.step_handler h
    · exact ⟨fun _ => rfl, .inl rfl⟩
    · exact ⟨fun h => h, s.waiter.notified_cases⟩

theorem NoMoreSleep.step_other {s s' : Signals} {a : SignalAction} (hI : NoMoreSleep s)
    (ha : a ≠ .main) (h : s.step a = some s') : NoMoreSleep s' := by
  obtain ⟨hstopping, hwaiter⟩ := Signals.step_other ha h
  have hsame := hwaiter.resolve_right fun h => hI.2.2 h.1
  rw [NoMoreSleep, hsame]
  exact ⟨hstopping hI.1, hI.2⟩

theorem Signals.step_main {s s' : Signals} (h : s.step .main = some s') :
    ∃ waiter, s.waiter.next s.stopping = some waiter ∧ s' = { s with waiter } := by
  simp only [Signals.step, Option.ite_none_left_eq_some, Option.map_eq_some_iff] at h
  obtain ⟨-, waiter, hnext, rfl⟩ := h
  exact ⟨waiter, hnext, rfl⟩

theorem NoMoreSleep.step_main {s s' : Signals} (hI : NoMoreSleep s) (h : s.step .main = some s') :
    NoMoreSleep s' := by
  obtain ⟨hstopping, hrefused, hasleep⟩ := hI
  obtain ⟨waiter, hnext, rfl⟩ := Signals.step_main h
  refine ⟨hstopping, ?_⟩
  rw [hstopping] at hnext
  cases hw : s.waiter with
  | unlocked =>
    rw [hw] at hnext
    cases hnext
    simp
  | testing =>
    rw [hw] at hnext
    cases hnext
    simp
  | refused => exact absurd hw hrefused
  | asleep => exact absurd hw hasleep
  | past =>
    rw [hw] at hnext
    cases hnext

/-! ## The invariant -/

/-- `waitForShutdown` has returned. -/
def MainPc.pastWait : MainPc → Bool
  | .starting | .waiting => false
  | _ => true

/-- `Server::stop` has found nothing to take away, or has taken it away. -/
def MainPc.pastStop : MainPc → Bool
  | .clearing | .joining | .returned => true
  | _ => false

theorem MainPc.pastWait_of_pastStop {pc : MainPc} (h : pc.pastStop = true) :
    pc.pastWait = true := by
  cases pc <;> first | rfl | cases h

/-- The listening thread has a socket, or had one until the main thread took it away. -/
def ListenPc.hasSocket : ListenPc → Bool
  | .bound | .entering | .accepting => true
  | _ => false

/-- The listening thread goes on to its end. -/
def ListenPc.isEnding : ListenPc → Bool
  | .failing | .leaving | .resetting | .returned => true
  | _ => false

/-- Binding fails only when the main thread will not sleep any more, and the accept loop is
entered only before `stop` has tested `is_running_`. -/
def Timely (s : MainProcess) : MainAction → Prop
  | .bind false => NoMoreSleep s.signals
  | .listen => s.listen = .entering → s.main.pastStop = false
  | _ => True

structure Orderly (s : MainProcess) : Prop where
  seen : s.signals.waiter = .past → s.signals.stopping = true
  past : s.main.pastWait = true → s.signals.waiter = .past
  ending : s.listen.isEnding = true ∨ s.isDecommissioned = true → NoMoreSleep s.signals
  socket : s.listen.hasSocket = true → s.socketValid = true ∨ s.main.pastStop = true
  stopped : s.main.pastStop = true → s.listen = .accepting → s.socketValid = false
  running : s.listen = .accepting → s.isRunning = true

theorem Orderly.noMoreSleep (hI : Orderly s) (h : s.main.pastWait = true) :
    NoMoreSleep s.signals := by
  have hpast := hI.past h
  rw [NoMoreSleep, hpast]
  exact ⟨hI.seen hpast, by simp⟩

theorem Orderly.start : Orderly .start := by
  constructor <;>
    simp [MainProcess.start, Signals.start, MainPc.pastWait, MainPc.pastStop, ListenPc.isEnding,
      ListenPc.hasSocket]

theorem MainProcess.step_signal {a : SignalAction} (h : s.step (.signal a) = some s') :
    ∃ signals, a ≠ .main ∧ s.signals.step a = some signals ∧ s' = { s with signals } := by
  have hmap : a ≠ .main →
      s.step (.signal a) = (s.signals.step a).map fun signals => { s with signals } := by
    intro ha
    cases a with
    | main => exact absurd rfl ha
    | _ => rfl
  by_cases ha : a = .main
  · subst ha
    cases h
  · rw [hmap ha] at h
    obtain ⟨signals, hstep, rfl⟩ := Option.map_eq_some_iff.mp h
    exact ⟨signals, ha, hstep, rfl⟩

/-- The wait ends only when the predicate holds. -/
theorem Waiter.next_past {w : Waiter} {stopping : Bool} (h : w.next stopping = some .past) :
    stopping = true := by
  cases w with
  | testing =>
    cases stopping with
    | true => rfl
    | false => cases h
  | _ => cases h

/-- The handlers leave the main thread past its wait once it is there. -/
theorem Orderly.signal {a : SignalAction} (hI : Orderly s) (h : s.step (.signal a) = some s') :
    Orderly s' := by
  obtain ⟨signals, ha, hstep, rfl⟩ := MainProcess.step_signal h
  obtain ⟨hstopping, hwaiter⟩ := Signals.step_other ha hstep
  refine ⟨fun hpast => ?_, fun hp => ?_, fun he => (hI.ending he).step_other ha hstep, hI.socket,
    hI.stopped, hI.running⟩
  · have hnow : signals.waiter = .past := hpast
    rcases hwaiter with hsame | ⟨-, hunlocked⟩
    · exact hstopping (hI.seen (hsame ▸ hnow))
    · rw [hunlocked] at hnow
      cases hnow
  · rcases hwaiter with hsame | ⟨hasleep, -⟩
    · exact hsame ▸ hI.past hp
    · rw [hI.past hp] at hasleep
      cases hasleep

/-- A step of `waitForShutdown`. -/
theorem Orderly.wait {signals : Signals} (hI : Orderly s) (hmain : s.main = .waiting)
    (h : s.signals.step .main = some signals) : Orderly { s with signals } := by
  refine ⟨fun hpast => ?_, fun hp => ?_, fun he => (hI.ending he).step_main h, hI.socket,
    hI.stopped, hI.running⟩
  · obtain ⟨waiter, hnext, rfl⟩ := Signals.step_main h
    have hnow : waiter = .past := hpast
    exact Waiter.next_past (hnow ▸ hnext)
  · simp [hmain, MainPc.pastWait] at hp

theorem Orderly.main (hI : Orderly s) (h : s.step .main = some s') : Orderly s' := by
  simp only [MainProcess.step, Option.ite_none_left_eq_some] at h
  obtain ⟨-, h⟩ := h
  obtain ⟨hseen, hpastWait, hending, hsocket, hstopped, hrunning⟩ := hI
  unfold MainProcess.mainStep at h
  split at h
  · next hmain =>
    cases h
    exact ⟨hseen, nofun, fun he => hending (.inr (he.resolve_left nofun)), nofun, nofun, nofun⟩
  · next hmain =>
    split at h
    · next hpast =>
      cases h
      rw [hmain] at hsocket
      exact ⟨hseen, fun _ => hpast, hending, hsocket, nofun, hrunning⟩
    · obtain ⟨signals, hstep, rfl⟩ := Option.map_eq_some_iff.mp h
      exact Orderly.wait ⟨hseen, hpastWait, hending, hsocket, hstopped, hrunning⟩ hmain hstep
  · next hmain =>
    cases h
    rw [hmain] at hpastWait hsocket
    exact ⟨hseen, hpastWait, hending, hsocket, nofun, hrunning⟩
  · next hmain =>
    cases h
    rw [hmain] at hpastWait hsocket
    refine ⟨hseen, fun _ => hpastWait rfl, hending, fun hs => ?_, fun hstop haccepting => ?_,
      hrunning⟩
    · exact .inl ((hsocket hs).resolve_right nofun)
    · simp [hrunning haccepting, MainPc.pastStop] at hstop
  · next hmain =>
    cases h
    rw [hmain] at hpastWait
    exact ⟨hseen, hpastWait, hending, fun _ => .inr rfl, fun _ _ => rfl, hrunning⟩
  · next hmain =>
    cases h
    rw [hmain] at hpastWait hstopped
    exact ⟨hseen, hpastWait, fun he => hending (he.imp_right nofun), fun _ => .inr rfl, hstopped,
      hrunning⟩
  · next hmain =>
    rw [Option.ite_none_right_eq_some] at h
    obtain ⟨-, h⟩ := h
    cases h
    rw [hmain] at hpastWait hstopped
    exact ⟨hseen, hpastWait, hending, fun _ => .inr rfl, hstopped, hrunning⟩
  · cases h

theorem Orderly.listen (hI : Orderly s) (hok : Timely s .listen) (h : s.step .listen = some s') :
    Orderly s' := by
  simp only [MainProcess.step, Option.ite_none_left_eq_some] at h
  obtain ⟨-, h⟩ := h
  have hnoSleep := hI.noMoreSleep
  obtain ⟨hseen, hpastWait, hending, hsocket, hstopped, hrunning⟩ := hI
  unfold MainProcess.listenStep at h
  split at h
  · cases h
  · cases h
    split
    · next hd => exact ⟨hseen, hpastWait, fun _ => hending (.inr hd), nofun, nofun, nofun⟩
    · exact ⟨hseen, hpastWait, fun he => hending (he.imp_left nofun), nofun, nofun, nofun⟩
  · cases h
  · next hlisten =>
    cases h
    exact ⟨hseen, hpastWait, fun _ => hending (.inl (by rw [hlisten]; rfl)), nofun, nofun, nofun⟩
  · next hlisten =>
    cases h
    rw [hlisten] at hsocket
    split
    · next hd => exact ⟨hseen, hpastWait, fun _ => hending (.inr hd), nofun, nofun, nofun⟩
    · exact ⟨hseen, hpastWait, fun he => hending (he.imp_left nofun), hsocket, nofun, nofun⟩
  · next hlisten =>
    cases h
    rw [hlisten] at hsocket
    refine ⟨hseen, hpastWait, fun he => hending (he.imp_left nofun), hsocket, fun hstop => ?_,
      fun _ => rfl⟩
    rw [hok hlisten] at hstop
    cases hstop
  · next hlisten =>
    cases h
    rw [hlisten] at hending hsocket hstopped hrunning
    split
    · exact ⟨hseen, hpastWait, hending, hsocket, hstopped, hrunning⟩
    · next hv =>
      have hstop := (hsocket rfl).resolve_left hv
      have hend := hnoSleep (MainPc.pastWait_of_pastStop hstop)
      exact ⟨hseen, hpastWait, fun _ => hend, nofun, nofun, nofun⟩
  · next hlisten =>
    cases h
    have hend := hending (.inl (by rw [hlisten]; rfl))
    exact ⟨hseen, hpastWait, fun _ => hend, nofun, nofun, nofun⟩
  · next hlisten =>
    cases h
    have hend := hending (.inl (by rw [hlisten]; rfl))
    exact ⟨hseen, hpastWait, fun _ => hend, nofun, nofun, nofun⟩
  · cases h

theorem Orderly.bind {ok : Bool} (hI : Orderly s) (hok : Timely s (.bind ok))
    (h : s.step (.bind ok) = some s') : Orderly s' := by
  simp only [MainProcess.step, Option.ite_none_right_eq_some, Option.some.injEq] at h
  obtain ⟨⟨hlisten, -⟩, rfl⟩ := h
  obtain ⟨hseen, hpastWait, hending, hsocket, hstopped, hrunning⟩ := hI
  cases ok with
  | true => exact ⟨hseen, hpastWait, fun he => hending (he.imp_left nofun), fun _ => .inl rfl,
      nofun, nofun⟩
  | false => exact ⟨hseen, hpastWait, fun _ => hok, nofun, nofun, nofun⟩

theorem Orderly.step {a : MainAction} (hI : Orderly s) (hok : Timely s a)
    (h : s.step a = some s') : Orderly s' := by
  cases a with
  | signal a => exact hI.signal h
  | main => exact hI.main h
  | listen => exact hI.listen hok h
  | bind ok => exact hI.bind hok h

/-- **`main` does not get stuck** in a run in which binding fails only once the main thread will
not sleep any more, and the accept loop is entered only before `stop` looks for it. -/
theorem main_gets_out (h : ReachableWhen MainProcess.step (· = .start) Timely s) :
    ¬ s.StuckWaiting ∧ ¬ s.StuckJoining := by
  have hI : Orderly s := by
    refine h.invariant (I := Orderly) ?_ fun s a s' hI hok hs => hI.step hok hs
    rintro s rfl
    exact .start
  constructor
  · rintro ⟨-, hasleep, hreturned⟩
    exact (hI.ending (.inl (by rw [hreturned]; rfl))).2.2 hasleep
  · rintro ⟨hjoining, haccepting, hvalid⟩
    have hinvalid := hI.stopped (by rw [hjoining]; rfl) haccepting
    rw [hvalid] at hinvalid
    cases hinvalid

/-- The server is up when SIGTERM arrives on a third thread. -/
theorem main_gets_out_running :
    ∃ s, ReachableWhen MainProcess.step (· = .start) Timely s ∧ s.main = .returned ∧
      ¬ s.StuckWaiting ∧ ¬ s.StuckJoining := by
  have hrun : ∃ s, ReachableWhen MainProcess.step (· = .start) Timely s ∧
      decide (s.main = .returned) = true := exists_reachableWhen_of_run MainProcess.step
    (fun s a => a ≠ .bind false && (a ≠ .listen || s.main.pastStop = false || s.listen ≠ .entering))
    (by
      rintro s (_ | _ | _ | ok) hcheck
      · trivial
      · trivial
      · intro hentering
        simpa [hentering] using hcheck
      · cases ok with
        | true => trivial
        | false => simp at hcheck)
    [.main, .main, .listen, .main, .main, .bind true, .listen, .listen, .listen,
      .signal (.deliver 2), .signal (.handler 0), .signal (.handler 0),
      .main, .main, .main, .main, .main, .main, .listen, .main, .listen, .listen, .main]
    _ rfl (by decide)
  obtain ⟨s, hs, hreturned⟩ := hrun
  exact ⟨s, hs, of_decide_eq_true hreturned, main_gets_out hs⟩

/-- The port is taken, and nobody wakes the main thread; or a signal arrives before the listening
thread has entered its accept loop, and nobody takes its socket away. -/
theorem main_stuck :
    ¬ (∀ s, Reachable MainProcess.step (· = .start) s → ¬ s.StuckWaiting) ∧
      ¬ (∀ s, Reachable MainProcess.step (· = .start) s → ¬ s.StuckJoining) := by
  constructor
  · intro h
    have hrun : ∃ s, Reachable MainProcess.step (· = .start) s ∧ decide s.StuckWaiting = true :=
      exists_reachable_of_run MainProcess.step
        [.main, .listen, .bind false, .listen, .main, .main, .main] _ rfl (by decide)
    obtain ⟨s, hs, hstuck⟩ := hrun
    exact h s hs (of_decide_eq_true hstuck)
  · intro h
    have hrun : ∃ s, Reachable MainProcess.step (· = .start) s ∧ decide s.StuckJoining = true :=
      exists_reachable_of_run MainProcess.step
        [.main, .listen, .bind true, .listen, .signal (.deliver 2), .signal (.handler 0),
          .signal (.handler 0), .main, .main, .main, .main, .main, .main, .listen] _ rfl (by decide)
    obtain ⟨s, hs, hstuck⟩ := hrun
    exact h s hs (of_decide_eq_true hstuck)

end MiniOj.Util
