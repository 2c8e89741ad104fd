import Mathlib.Algebra.Group.Int.Defs
import MiniOj.Judge.Properties.Memory

/-!
# How a run is classified

What `runBinary` reports about a child, given the whole life of that child and what each turn
of the wait loop sees of it. A turn asks `waitpid` first and reads the clock only while the
child runs, so a child that ends past the limit, but before the next turn, counts as ended. A
child that the CPU limit has killed is one more signal.

* `waitLoop_ended_iff` — when the wait loop finds the child ended
* `classified_iff` — when the status and the figures are right
* `overtime_reported_ok` — a run past the limit is reported `Ok`
-/

namespace MiniOj.Judge

open Infra

/-- The signal a process gets when it has used up the soft `RLIMIT_CPU`. -/
def sigxcpu : Nat := 24

/-- What a child does while nobody kills it. -/
structure ChildLife where
  /-- nanoseconds from the start of the clock to the end of the child -/
  endsAt : Nat
  status : WaitStatus
  /-- processor time of all its threads, in nanoseconds -/
  cpuTime : Nat
  /-- peak memory of this child alone, in KiB -/
  maxRss : Nat
  deriving DecidableEq, Repr

/-- One turn of the wait loop, in nanoseconds on the same clock. -/
inductive Turn where
  | failed
  | polled (look reading : Nat)
  deriving DecidableEq, Repr

namespace ChildLife

variable (life : ChildLife) (request : RunRequest)

/-- What a turn sees of the child. -/
def poll : Turn → Poll
  | .failed => .failed
  | .polled look reading => if life.endsAt ≤ look then .ended life.status else .alive reading

/-- The run of the child that these turns see; the clock is read once more at `elapsed`. -/
def run (turns : List Turn) (elapsed : Nat) (stdout stderr : Bytes) : ChildRun :=
  { polls := turns.map life.poll, stdout, stderr, elapsed, maxRss := life.maxRss }

/-- The child outlived its time. -/
def RanLonger : Prop := request.timeLimit * 1000000 < life.endsAt

/-- The kernel has ended it for its CPU time. -/
def KilledByCpuLimit : Prop :=
  life.status = .signaled sigxcpu ∧ (cpuLimit request).cur.toNat * 1000000000 ≤ life.cpuTime

/-- It never had more memory than it may. -/
def WithinMemory : Prop := life.maxRss * 1024 ≤ request.memoryLimitBytes.toNat

/-- A non-zero exit, or a signal that is not the one of the CPU limit. -/
def Crashed : Prop :=
  (∃ code, code ≠ 0 ∧ life.status = .exited code) ∨
    (∃ signal, life.status = .signaled signal) ∧ ¬ life.KilledByCpuLimit request

end ChildLife

variable {request : RunRequest} {life : ChildLife} {turns : List Turn}

/-- Ok only within the limits, Timeout whenever a time limit is passed, and RuntimeError only
for a crash within the limits. -/
structure Classified (request : RunRequest) (life : ChildLife) (result : RunResult) : Prop where
  ok : result.status = .ok → life.status = .exited 0 ∧
    (result.timeMs.toNat : Int) ≤ request.timeLimit ∧ life.WithinMemory request
  timeout : life.RanLonger request ∨ life.KilledByCpuLimit request → result.status = .timeout
  runtimeError : result.status = .runtimeError →
    life.Crashed request ∧ ¬ life.RanLonger request ∧ life.WithinMemory request

/-! ## The wait loop -/

/-- A turn finds the child ended, and before it no `waitpid` fails and no reading is past the
limit. -/
def FoundEnded (request : RunRequest) (life : ChildLife) (turns : List Turn) : Prop :=
  ∃ before look reading after, turns = before ++ .polled look reading :: after ∧
    life.endsAt ≤ look ∧
    ∀ turn ∈ before, ∃ look reading : Nat, turn = .polled look reading ∧
      look < life.endsAt ∧ (reading : Int) ≤ request.timeLimit * 1000000

theorem not_foundEnded_nil : ¬ FoundEnded request life [] := by
  rintro ⟨before, look, reading, after, h, -⟩
  cases before <;> cases h

theorem not_foundEnded_failed : ¬ FoundEnded request life (.failed :: turns) := by
  rintro ⟨before, look, reading, after, h, -, hbefore⟩
  cases before with
  | nil => cases h
  | cons turn before =>
    obtain ⟨_, _, hturn, -⟩ := hbefore turn (List.mem_cons_self ..)
    rw [hturn] at h
    cases h

/-- Either this turn finds the end, or its reading is in time and a later one does. -/
theorem foundEnded_polled {look reading : Nat} :
    FoundEnded request life (.polled look reading :: turns) ↔
      life.endsAt ≤ look ∨
        (reading : Int) ≤ request.timeLimit * 1000000 ∧ FoundEnded request life turns := by
  constructor
  · rintro ⟨before, look', reading', after, h, hends, hbefore⟩
    cases before with
    | nil =>
      cases h
      exact .inl hends
    | cons turn before =>
      obtain ⟨look₁, reading₁, hturn, -, hreading⟩ := hbefore turn (List.mem_cons_self ..)
      rw [hturn] at h
      cases h
      exact .inr ⟨hreading, before, look', reading', after, rfl, hends,
        fun turn h => hbefore turn (List.mem_cons_of_mem _ h)⟩
  · intro h
    by_cases hends : life.endsAt ≤ look
    · exact ⟨[], look, reading, turns, rfl, hends, nofun⟩
    obtain ⟨hreading, before, look', reading', after, rfl, hends', hbefore⟩ :=
      h.resolve_left hends
    refine ⟨.polled look reading :: before, look', reading', after, rfl, hends', ?_⟩
    intro turn hturn
    rcases List.mem_cons.mp hturn with rfl | hturn
    · exact ⟨look, reading, rfl, by omega, hreading⟩
    · exact hbefore turn hturn

/-- **The wait loop finds the child ended** exactly when a turn does so in time, and then it
reports what became of the child. -/
theorem waitLoop_ended_iff {status : WaitStatus} :
    waitLoop request.timeLimit (turns.map life.poll) = some (.ended status) ↔
      status = life.status ∧ FoundEnded request life turns := by
  induction turns with
  | nil => simp [waitLoop, not_foundEnded_nil]
  | cons turn turns ih =>
    cases turn with
    | failed => simp [waitLoop, ChildLife.poll, not_foundEnded_failed]
    | polled look reading =>
      rw [foundEnded_polled]
      simp only [List.map_cons, ChildLife.poll]
      split
      · next hends => simp [waitLoop, hends, eq_comm]
      · next hends =>
        simp only [waitLoop, hends, false_or]
        split
        · next hlate =>
          have hreading : ¬ (reading : Int) ≤ request.timeLimit * 1000000 := by omega
          simp [hreading]
        · next hlate =>
          have hreading : (reading : Int) ≤ request.timeLimit * 1000000 := by omega
          simp [ih, hreading]

/-! ## The classification -/

/-- The memory figure is over the limit. -/
def FigureOver (request : RunRequest) (life : ChildLife) : Prop :=
  request.memoryLimitBytes.toNat < mib life.maxRss % 2 ^ 32 * 2 ^ 20

theorem rssExceeded_iff {m : UInt32} {limit : UInt64} :
    m.toUInt64 * 1024 * 1024 > limit ↔ limit.toNat < m.toNat * 2 ^ 20 := by
  have hm := m.toNat_lt
  have htoNat : (m.toUInt64 * 1024 * 1024).toNat = m.toNat * 2 ^ 20 := by
    simp only [UInt64.toNat_mul, UInt32.toNat_toUInt64, UInt64.reduceToNat]
    omega
  rw [gt_iff_lt, UInt64.lt_iff_toNat_lt, htoNat]

theorem ended_figureOver_iff {elapsed : Nat} {stdout stderr : Bytes} {loopEnd : LoopEnd}
    (h : loopEnd ≠ .failed) :
    (memoryInMb (childrenMaxRss (waitedFor []
        (life.run turns elapsed stdout stderr) loopEnd))).toUInt64 * 1024 * 1024 >
          request.memoryLimitBytes ↔ FigureOver request life := by
  rw [rssExceeded_iff, childrenMaxRss_waitedFor, memoryInMb_eq, UInt32.toNat_ofNat']
  have hown : ownRss (life.run turns elapsed stdout stderr) loopEnd = life.maxRss := by
    cases loopEnd <;> first | rfl | exact absurd rfl h
  rw [hown]
  show _ < mib (max 0 life.maxRss) % 2 ^ 32 * 2 ^ 20 ↔ _
  rw [Nat.zero_max]
  rfl

instance : Decidable (FigureOver request life) := inferInstanceAs (Decidable (_ < _))

/-- The status of a child whose end was found. -/
theorem runBinaryResult_ended_status {elapsed : Nat} {stdout stderr : Bytes}
    {status : WaitStatus} :
    (runBinaryResult request (life.run turns elapsed stdout stderr) [] (.ended status)).status =
      if FigureOver request life then .memoryLimit
      else if status = .exited 0 then .ok
      else .runtimeError := by
  have hended : LoopEnd.ended status ≠ .failed := by simp
  unfold runBinaryResult
  simp only [ended_figureOver_iff hended]
  cases status with
  | exited code =>
    dsimp only
    split
    · rfl
    · by_cases hcode : code = 0 <;> simp [hcode]
  | signaled signal =>
    dsimp only
    split
    · rfl
    · simp

theorem classified_of_timeout {result : RunResult} (h : result.status = .timeout) :
    Classified request life result := by
  refine ⟨?_, fun _ => h, ?_⟩ <;>
    · intro hstatus
      rw [h] at hstatus
      cases hstatus

/-- What has to hold of a child that is found ended, with `elapsed` the last reading of the
clock. -/
def FoundInOrder (request : RunRequest) (life : ChildLife) (elapsed : Nat) : Prop :=
  ¬ life.RanLonger request ∧ ¬ life.KilledByCpuLimit request ∧
    (life.WithinMemory request ∨ FigureOver request life) ∧
    (life.status = .exited 0 → ¬ FigureOver request life →
      ((elapsed / 1000000 % 2 ^ 32 : Nat) : Int) ≤ request.timeLimit)

theorem ChildLife.crashed_iff :
    life.Crashed request ↔ life.status ≠ .exited 0 ∧ ¬ life.KilledByCpuLimit request := by
  unfold ChildLife.Crashed ChildLife.KilledByCpuLimit
  cases life.status <;> simp

theorem classified_ended_iff {elapsed : Nat} {stdout stderr : Bytes} :
    Classified request life (runBinaryResult request (life.run turns elapsed stdout stderr) []
      (.ended life.status)) ↔ FoundInOrder request life elapsed := by
  have hstatus : (runBinaryResult request (life.run turns elapsed stdout stderr) []
    (.ended life.status)).status = _ := runBinaryResult_ended_status
  have htime : (runBinaryResult request (life.run turns elapsed stdout stderr) []
    (.ended life.status)).timeMs = _ := (runBinaryResult_figures ..).1
  generalize runBinaryResult request _ _ _ = result at hstatus htime ⊢
  have hms : result.timeMs.toNat = elapsed / 1000000 % 2 ^ 32 := by
    rw [htime, UInt32.toNat_ofNat']
    rfl
  by_cases hover : FigureOver request life
  · rw [if_pos hover] at hstatus
    constructor
    · rintro ⟨-, htimeout, -⟩
      rw [hstatus] at htimeout
      simp only [reduceCtorEq, imp_false, not_or] at htimeout
      exact ⟨htimeout.1, htimeout.2, .inr hover, fun _ h => absurd hover h⟩
    · rintro ⟨hlonger, hcpu, -, -⟩
      refine ⟨?_, fun h => absurd h (not_or.mpr ⟨hlonger, hcpu⟩), ?_⟩ <;> simp [hstatus]
  rw [if_neg hover] at hstatus
  by_cases hexit : life.status = .exited 0
  · rw [if_pos hexit] at hstatus
    constructor
    · rintro ⟨hok, htimeout, -⟩
      rw [hstatus] at htimeout
      simp only [reduceCtorEq, imp_false, not_or] at htimeout
      obtain ⟨-, hms', hmemory⟩ := hok hstatus
      exact ⟨htimeout.1, htimeout.2, .inl hmemory, fun _ _ => hms ▸ hms'⟩
    · rintro ⟨hlonger, hcpu, hmemory, hms'⟩
      refine ⟨fun _ => ⟨hexit, hms ▸ hms' hexit hover, hmemory.resolve_right hover⟩,
        fun h => absurd h (not_or.mpr ⟨hlonger, hcpu⟩), ?_⟩
      simp [hstatus]
  · rw [if_neg hexit] at hstatus
    constructor
    · rintro ⟨-, htimeout, hcrash⟩
      rw [hstatus] at htimeout
      simp only [reduceCtorEq, imp_false, not_or] at htimeout
      obtain ⟨-, -, hmemory⟩ := hcrash hstatus
      exact ⟨htimeout.1, htimeout.2, .inl hmemory, fun h => absurd h hexit⟩
    · rintro ⟨hlonger, hcpu, hmemory, -⟩
      refine ⟨?_, fun h => absurd h (not_or.mpr ⟨hlonger, hcpu⟩), fun _ => ?_⟩
      · simp [hstatus]
      · exact ⟨ChildLife.crashed_iff.mpr ⟨hexit, hcpu⟩, hlonger, hmemory.resolve_right hover⟩

/-- **What a run reports is right** exactly when no turn finds the child ended, or the child
that is found has passed neither limit, its peak is within the memory limit or shows as over
it, and for an exit with 0 the last reading of the clock is within the time limit too. -/
theorem classified_iff (request : RunRequest) (life : ChildLife) (turns : List Turn)
    (elapsed : Nat) (stdout stderr : Bytes) (hpath : request.binaryPath ≠ []) :
    (∀ result, runBinary request .started (life.run turns elapsed stdout stderr) [] =
        some result → Classified request life result) ↔
      (FoundEnded request life turns → FoundInOrder request life elapsed) := by
  simp only [runBinary, hpath, if_false, Option.map_eq_some_iff]
  show (∀ result, (∃ loopEnd, waitLoop request.timeLimit (turns.map life.poll) = some loopEnd ∧ _) →
    _) ↔ _
  constructor
  · intro h hfound
    exact classified_ended_iff.mp (h _ ⟨_, waitLoop_ended_iff.mpr ⟨rfl, hfound⟩, rfl⟩)
  · rintro h result ⟨loopEnd, hloop, rfl⟩
    cases loopEnd with
    | failed => exact classified_of_timeout rfl
    | killed => exact classified_of_timeout rfl
    | ended status =>
      obtain ⟨rfl, hfound⟩ := waitLoop_ended_iff.mp hloop
      exact classified_ended_iff.mpr (h hfound)

/-- An exit with 0 after 3 ms, found at 5 ms. -/
theorem classified_iff_short :
    ∃ result, runBinary { binaryPath := [47, 97] } .started
        (({ endsAt := 3000000, status := .exited 0, cpuTime := 2000000, maxRss := 3072 } :
          ChildLife).run [.polled 100000 100100, .polled 5200000 5200100] 5300000 [49] []) [] =
        some result ∧
      Classified { binaryPath := [47, 97] }
        { endsAt := 3000000, status := .exited 0, cpuTime := 2000000, maxRss := 3072 } result := by
  refine ⟨_, rfl, (classified_iff _ _ [.polled 100000 100100, .polled 5200000 5200100] 5300000
    [49] [] (by simp)).mpr (fun _ => ⟨?_, ?_, .inl ?_, fun _ _ => ?_⟩) _ rfl⟩
  · simp [ChildLife.RanLonger]
  · simp [ChildLife.KilledByCpuLimit]
  · simp [ChildLife.WithinMemory]
  · decide

/-- A child that exits with 0 after 502 ms, two turns apart from the one at 498 ms, is reported
Ok with 504 ms, though the limit is 500 ms. -/
theorem overtime_reported_ok :
    ¬ ∀ (request : RunRequest) (life : ChildLife) (turns : List Turn) (elapsed : Nat)
        (stdout stderr : Bytes) (result : RunResult), request.binaryPath ≠ [] →
      runBinary request .started (life.run turns elapsed stdout stderr) [] = some result →
      Classified request life result := by
  intro h
  have hlate := (h { binaryPath := [47, 97] }
    { endsAt := 502000000, status := .exited 0, cpuTime := 2000000, maxRss := 3072 }
    [.polled 498000000 498000100, .polled 503100000 503100100] 504000000 [] [] _
    (by simp) rfl).timeout (.inl (by simp [ChildLife.RanLonger]))
  revert hlate
  decide

end MiniOj.Judge
