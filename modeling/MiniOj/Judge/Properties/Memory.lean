import Mathlib.Algebra.Group.Nat.Defs
import MiniOj.Judge.Runner

/-!
# Which children the memory figure depends on

`runBinary` takes the memory of a run from `getrusage(RUSAGE_CHILDREN)`, the maximum over
every child the server has ever waited for.

* `same_memory_iff` — two histories give the same figure and status exactly when they cannot
  be told apart next to the child of the run itself
* `memory_not_own` — an earlier large child turns a small run into a `MemoryLimit`
-/

namespace MiniOj.Judge

variable {request : RunRequest} {child : ChildRun} {earlier : List Nat} {loopEnd : LoopEnd}

/-- KiB rounded up to MiB, as a number of any size. -/
def mib (kilobytes : Nat) : Nat := (kilobytes + 1023) / 1024

theorem mib_max (a b : Nat) : mib (max a b) = max (mib a) (mib b) := by
  unfold mib
  omega

theorem memoryInMb_eq (kilobytes : Nat) : memoryInMb kilobytes = .ofNat (mib kilobytes) := by
  unfold memoryInMb
  split
  · next h =>
    have h0 : kilobytes = 0 := by omega
    subst h0
    rfl
  · rfl

theorem ofNat_eq_ofNat_iff {a b : Nat} :
    UInt32.ofNat a = UInt32.ofNat b ↔ a % 2 ^ 32 = b % 2 ^ 32 := by
  rw [← UInt32.toNat_inj, UInt32.toNat_ofNat', UInt32.toNat_ofNat']

/-- The memory of the run's own child, as far as it has been waited for. -/
def ownRss (child : ChildRun) : LoopEnd → Nat
  | .failed => 0
  | _ => child.maxRss

theorem childrenMaxRss_waitedFor :
    childrenMaxRss (waitedFor earlier child loopEnd) =
      max (childrenMaxRss earlier) (ownRss child loopEnd) := by
  cases loopEnd with
  | failed => exact (Nat.max_zero _).symm
  | ended status => exact Nat.max_comm _ _
  | killed => exact Nat.max_comm _ _

/-- The two figures do not depend on how the child ended. -/
theorem runBinaryResult_figures (request : RunRequest) (child : ChildRun) (earlier : List Nat)
    (loopEnd : LoopEnd) :
    (runBinaryResult request child earlier loopEnd).timeMs = .ofNat (child.elapsed / 1000000) ∧
      (runBinaryResult request child earlier loopEnd).memoryMb =
        memoryInMb (childrenMaxRss (waitedFor earlier child loopEnd)) := by
  unfold runBinaryResult
  cases loopEnd with
  | failed => exact ⟨rfl, rfl⟩
  | killed => exact ⟨rfl, rfl⟩
  | ended status => cases status <;> (dsimp only; split <;> (try split) <;> exact ⟨rfl, rfl⟩)

theorem runBinaryResult_memoryMb (request : RunRequest) (child : ChildRun) (earlier : List Nat)
    (loopEnd : LoopEnd) :
    (runBinaryResult request child earlier loopEnd).memoryMb =
      .ofNat (max (mib (childrenMaxRss earlier)) (mib (ownRss child loopEnd))) := by
  rw [(runBinaryResult_figures ..).2, memoryInMb_eq, childrenMaxRss_waitedFor, mib_max]

/-- The history reaches the status through the memory figure only. -/
theorem runBinaryResult_status_congr {earlier' : List Nat}
    (h : (runBinaryResult request child earlier loopEnd).memoryMb =
      (runBinaryResult request child earlier' loopEnd).memoryMb) :
    (runBinaryResult request child earlier loopEnd).status =
      (runBinaryResult request child earlier' loopEnd).status := by
  rw [runBinaryResult_memoryMb, runBinaryResult_memoryMb, ← mib_max, ← mib_max,
    ← childrenMaxRss_waitedFor, ← childrenMaxRss_waitedFor, ← memoryInMb_eq, ← memoryInMb_eq] at h
  simp only [runBinaryResult, h]

/-- What the two figures of a finished run depend on. -/
def memoryAndStatus (r : RunResult) : UInt32 × RunStatus := (r.memoryMb, r.status)

/-- **Two histories of waited-for children give the same memory figure and status** exactly
when the run never waits for its child, or the peaks of both histories, each next to the peak
of the child itself, round up to the same number of MiB (modulo the 32 bits of `memory_mb`). -/
theorem same_memory_iff (request : RunRequest) (spawn : Spawn) (child : ChildRun)
    (earlier₁ earlier₂ : List Nat) :
    (runBinary request spawn child earlier₁).map memoryAndStatus =
        (runBinary request spawn child earlier₂).map memoryAndStatus ↔
      request.binaryPath = [] ∨ spawn ≠ .started ∨
        ∀ loopEnd, waitLoop request.timeLimit child.polls = some loopEnd →
          max (mib (childrenMaxRss earlier₁)) (mib (ownRss child loopEnd)) % 2 ^ 32 =
            max (mib (childrenMaxRss earlier₂)) (mib (ownRss child loopEnd)) % 2 ^ 32 := by
  by_cases hpath : request.binaryPath = []
  · simp [runBinary, hpath]
  cases spawn with
  | refused error => simp [runBinary, hpath]
  | pipeFails n error => simp [runBinary, hpath]
  | forkFails error => simp [runBinary, hpath]
  | started =>
    simp only [runBinary, hpath, if_false, ne_eq, not_true_eq_false, false_or]
    cases hloop : waitLoop request.timeLimit child.polls with
    | none => simp
    | some loopEnd =>
      simp only [Option.map_some, Option.some.injEq, forall_eq', memoryAndStatus, Prod.mk.injEq]
      have hmemory := fun earlier => runBinaryResult_memoryMb request child earlier loopEnd
      rw [← ofNat_eq_ofNat_iff, ← hmemory, ← hmemory]
      exact ⟨fun h => h.1, fun h => ⟨h, runBinaryResult_status_congr h⟩⟩

/-- A submission that needs 3 MiB and exits normally is judged `MemoryLimit` once the server
has waited for a compiler that needed 300 MiB. -/
theorem memory_not_own :
    ¬ ∀ (request : RunRequest) (spawn : Spawn) (child : ChildRun) (earlier₁ earlier₂ : List Nat),
      (runBinary request spawn child earlier₁).map memoryAndStatus =
        (runBinary request spawn child earlier₂).map memoryAndStatus := by
  intro h
  have := h { binaryPath := [47, 97] } .started
    { polls := [.alive 5000000, .ended (.exited 0)], stdout := [], stderr := []
      elapsed := 10000000, maxRss := 3072 } [] [307200]
  revert this
  decide

end MiniOj.Judge
