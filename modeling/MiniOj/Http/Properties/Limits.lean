import MiniOj.Http.Handlers
import MiniOj.Judge.Pipeline
import MiniOj.Judge.Properties.Limits

/-!
# From the limits of a problem to those of a run

A problem has its limits in milliseconds and MiB. `buildPipelineInput` and `applyLimits` turn them
into bytes and whole seconds, and the peak memory of a run comes in KiB and is compared in bytes,
rounded up to MiB. The rounding does no harm, as the limit is a whole number of MiB.

* `limits_exact` — none of the numbers wraps around, and the verdict is the one of exact numbers
-/

namespace MiniOj.Http

open Infra Judge

variable {problem : AdminProblemDetail} {submission : SubmissionInput} {dir : Bytes}
  {testcase : TestCase} {request : RunRequest}

/-- The request for a test case of a problem. -/
abbrev limitedRequest (problem : AdminProblemDetail) (submission : SubmissionInput) (dir : Bytes)
    (testcase : TestCase) : RunRequest :=
  runRequest (buildPipelineInput problem submission) dir testcase

/-- What is computed from the limits of a problem, and from `ru_maxrss`, with machine integers is
what it would be with integers of any size, and so are the steps on the way. -/
structure Exact (problem : AdminProblemDetail) (request : RunRequest) (maxRss : Nat) : Prop where
  time : request.timeLimit = problem.timeLimitMs.toNat
  product : request.memoryLimitBytes = problem.memoryLimitMb.toUInt64 * 1024 * 1024
  bytes : request.memoryLimitBytes.toNat = problem.memoryLimitMb.toNat * 1024 * 1024
  sum : (Int64.ofInt request.timeLimit + 999).toInt = request.timeLimit + 999
  softCpu : ((cpuLimit request).cur.toNat : Int) = (request.timeLimit + 999) / 1000 + 1
  hardCpu : (cpuLimit request).max.toNat = (cpuLimit request).cur.toNat + 1
  addressSpace : (addressSpaceLimit request).cur.toNat = request.memoryLimitBytes.toNat * 2 ∧
    (addressSpaceLimit request).max.toNat = request.memoryLimitBytes.toNat * 2
  fileSize : (fileSizeLimit request).cur.toNat = 16 * 1024 * 1024 ∧
    (fileSizeLimit request).max.toNat = 16 * 1024 * 1024
  kilobytes : (UInt64.ofNat maxRss + 1023).toNat = maxRss + 1023
  memory : (memoryInMb maxRss).toNat = (maxRss + 1023) / 1024
  used : ((memoryInMb maxRss).toUInt64 * 1024 * 1024).toNat =
    (memoryInMb maxRss).toNat * 1024 * 1024

/-! ## The limits -/

theorem limitedRequest_memoryLimitBytes :
    (limitedRequest problem submission dir testcase).memoryLimitBytes.toNat =
      problem.memoryLimitMb.toNat * 1024 * 1024 := by
  have hmb := problem.memoryLimitMb.toNat_lt
  show (UInt64.ofNat (problem.memoryLimitMb.toNat * 1024 * 1024)).toNat = _
  rw [UInt64.toNat_ofNat']
  omega

theorem cpuLimit_cur (h0 : 0 ≤ request.timeLimit) (hlt : request.timeLimit < 2 ^ 32) :
    ((cpuLimit request).cur.toNat : Int) = (request.timeLimit + 999) / 1000 + 1 := by
  simp only [cpuLimit, UInt64.ofInt, UInt64.toNat_ofNat']
  rw [Int.tdiv_eq_ediv_of_nonneg (by omega)]
  omega

theorem cpuLimit_max (h : (cpuLimit request).cur.toNat < 2 ^ 63) :
    (cpuLimit request).max.toNat = (cpuLimit request).cur.toNat + 1 := by
  show ((cpuLimit request).cur + 1).toNat = _
  rw [UInt64.toNat_add]
  simp only [UInt64.reduceToNat]
  omega

/-! ## The memory of a run -/

theorem memoryInMb_toNat {maxRss : Nat} (h : maxRss ≤ 2 ^ 42 - 1024) :
    (memoryInMb maxRss).toNat = (maxRss + 1023) / 1024 := by
  rw [memoryInMb_eq, UInt32.toNat_ofNat']
  unfold mib
  omega

theorem used_toNat (m : UInt32) : (m.toUInt64 * 1024 * 1024).toNat = m.toNat * 1024 * 1024 := by
  have hm := m.toNat_lt
  simp only [UInt64.toNat_mul, UInt32.toNat_toUInt64, UInt64.reduceToNat]
  omega

/-- **Rounding up to MiB does not change the verdict.** -/
theorem rssExceeded_iff_exact {limit : UInt64} {mb maxRss : Nat}
    (hlimit : limit.toNat = mb * 2 ^ 20) (h : maxRss ≤ 2 ^ 42 - 1024) :
    (memoryInMb maxRss).toUInt64 * 1024 * 1024 > limit ↔ mb * 2 ^ 20 < maxRss * 1024 := by
  rw [rssExceeded_iff, memoryInMb_toNat h, hlimit]
  omega

/-! ## From the problem to the verdict -/

theorem exact_of_le {maxRss : Nat} (h : maxRss ≤ 2 ^ 42 - 1024) :
    Exact problem (limitedRequest problem submission dir testcase) maxRss := by
  have hms := problem.timeLimitMs.toNat_lt
  have hmb := problem.memoryLimitMb.toNat_lt
  have hbytes : (limitedRequest problem submission dir testcase).memoryLimitBytes.toNat =
      problem.memoryLimitMb.toNat * 1024 * 1024 := limitedRequest_memoryLimitBytes
  have htime : (limitedRequest problem submission dir testcase).timeLimit =
    problem.timeLimitMs.toNat := rfl
  have hsoft : ((cpuLimit (limitedRequest problem submission dir testcase)).cur.toNat : Int) =
      ((limitedRequest problem submission dir testcase).timeLimit + 999) / 1000 + 1 :=
    cpuLimit_cur (by omega) (by omega)
  have hspace : ((limitedRequest problem submission dir testcase).memoryLimitBytes * 2).toNat =
      (limitedRequest problem submission dir testcase).memoryLimitBytes.toNat * 2 := by
    simp only [UInt64.toNat_mul, UInt64.reduceToNat]
    omega
  constructor
  case time => exact htime
  case product =>
    rw [← UInt64.toNat_inj, hbytes, used_toNat]
  case bytes => exact hbytes
  case sum =>
    have h999 : (999 : Int64).toInt = 999 := rfl
    rw [Int64.toInt_add, Int64.toInt_ofInt_of_le (by omega) (by omega), h999]
    exact Int.bmod_eq_of_le (by omega) (by omega)
  case softCpu => exact hsoft
  case hardCpu => exact cpuLimit_max (by omega)
  case addressSpace => exact ⟨hspace, hspace⟩
  case fileSize => exact ⟨rfl, rfl⟩
  case kilobytes =>
    simp only [UInt64.toNat_add, UInt64.toNat_ofNat', UInt64.reduceToNat]
    omega
  case memory => exact memoryInMb_toNat h
  case used => exact used_toNat _

theorem status_memoryLimit_iff {child : ChildRun} {earlier : List Nat} {status : WaitStatus} :
    (runBinaryResult request child earlier (.ended status)).status = .memoryLimit ↔
      request.memoryLimitBytes <
        (memoryInMb (childrenMaxRss (waitedFor earlier child (.ended status)))).toUInt64 *
          1024 * 1024 := by
  unfold runBinaryResult
  cases status with
  | exited code =>
    dsimp only
    split
    · simp_all
    · split <;> simp_all
  | signaled signal =>
    dsimp only
    split <;> simp_all

/-- **From the limits of a problem to the verdict** no number wraps around, for any limits and any
peak memory up to `2 ^ 42 - 1024` KiB. The CPU limit is longer than the limit of the wall clock,
and a run is over the memory limit exactly when its peak in bytes is. -/
theorem limits_exact (problem : AdminProblemDetail) (submission : SubmissionInput) (dir : Bytes)
    (testcase : TestCase) {maxRss : Nat} (h : maxRss ≤ 2 ^ 42 - 1024) :
    Exact problem (limitedRequest problem submission dir testcase) maxRss ∧
      ((problem.timeLimitMs.toNat : Int) <
          (cpuLimit (limitedRequest problem submission dir testcase)).cur.toNat * 1000 ∧
        (cpuLimit (limitedRequest problem submission dir testcase)).cur <
          (cpuLimit (limitedRequest problem submission dir testcase)).max) ∧
      ((memoryInMb maxRss).toUInt64 * 1024 * 1024 >
          (limitedRequest problem submission dir testcase).memoryLimitBytes ↔
        problem.memoryLimitMb.toNat * 2 ^ 20 < maxRss * 1024) ∧
      ∀ (child : ChildRun) (earlier : List Nat) (status : WaitStatus),
        childrenMaxRss (waitedFor earlier child (.ended status)) = maxRss →
        ((runBinaryResult (limitedRequest problem submission dir testcase) child earlier
            (.ended status)).status = .memoryLimit ↔
          problem.memoryLimitMb.toNat * 2 ^ 20 < maxRss * 1024) := by
  have hexact : Exact problem (limitedRequest problem submission dir testcase) maxRss :=
    exact_of_le h
  have hverdict : (memoryInMb maxRss).toUInt64 * 1024 * 1024 >
      (limitedRequest problem submission dir testcase).memoryLimitBytes ↔
        problem.memoryLimitMb.toNat * 2 ^ 20 < maxRss * 1024 :=
    rssExceeded_iff_exact (by rw [hexact.bytes]; omega) h
  refine ⟨hexact, ⟨?_, ?_⟩, hverdict, ?_⟩
  · -- rounding up and one second more
    have hsoft := hexact.softCpu
    rw [hexact.time] at hsoft
    omega
  · rw [UInt64.lt_iff_toNat_lt, hexact.hardCpu]
    exact Nat.lt_succ_self _
  · intro child earlier status hrss
    rw [status_memoryLimit_iff, hrss]
    exact hverdict

/-- A limit of 500 ms and 256 MiB. -/
def defaultProblem : AdminProblemDetail := ⟨1, [], [], .easy, 500, 256, [], []⟩

/-- A run with a peak of 256 MiB is not over that limit. -/
theorem limits_exact_at_limit : ¬ (memoryInMb 262144).toUInt64 * 1024 * 1024 >
    (limitedRequest defaultProblem ⟨1, [], []⟩ [] ⟨1, 1, [], [], false⟩).memoryLimitBytes := by
  have hpeak : 262144 ≤ 2 ^ 42 - 1024 := by decide
  have hverdict := (limits_exact defaultProblem ⟨1, [], []⟩ [] ⟨1, 1, [], [], false⟩ hpeak).2.2.1
  exact fun h => absurd (hverdict.mp h) (by decide)

end MiniOj.Http
