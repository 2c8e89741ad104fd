import MiniOj.Db.Properties.Reseeding
import MiniOj.Db.Properties.Accepting
import MiniOj.Http.Properties.CrossOrigin
import MiniOj.Http.Properties.Sessions

/-!
# Resetting twice

A reset writes nothing but the problem bank, and what it leaves there is a function of the seed
file and the collation.

* `reset_regardless` — two resets of healthy databases with the same seed file
-/

namespace MiniOj.Http

open Infra Db

variable {env : Env} {b : Backend}

/-- `resetProblemBank` as a program on the whole state. -/
def reset (read : JsonReader) (file : SeedFile) : Handler Unit := ofDao (resetProblemBank read file)

/-- The outcome of a reset, and the state it leaves. -/
def Env.afterReset (env : Env) (read : JsonReader) (file : SeedFile) (b : Backend) :
    Except Exn Unit × Backend := (reset read file).run env.exec b

theorem accounts_afterReset (env : Env) (read : JsonReader) (file : SeedFile) (b : Backend) :
    (env.afterReset read file b).2.accounts = b.accounts := by
  unfold Env.afterReset reset
  rw [run_ofDao]

/-- What a reset leaves that completes. -/
structure Reseeded (read : JsonReader) (file : SeedFile) (rows : Bank) (b : Backend) : Prop where
  rows : b.db.bank.timeless = rows
  order : InFileOrder read file b.db.bank
  idle : b.db.work = none

/-- **A reset of a healthy database** completes when the seed file allows it. -/
theorem afterReset_ok_iff (h : env.mysql.Healthy) (hw : b.db.work = none) (read : JsonReader)
    (file : SeedFile) : (env.afterReset read file b).1 = .ok () ↔
      (Mysql.reseeded env.mysql.weight read file).2 = true := by
  unfold Env.afterReset reset
  rw [run_ofDao]
  rcases run_reset h hw read file with ⟨hdone, w', hrun, -⟩ | ⟨hdone, e, w', hrun⟩
  · simp [hrun, hdone]
  · simp [hrun, hdone]

theorem reseeded_afterReset (h : env.mysql.Healthy) (hw : b.db.work = none) {read : JsonReader}
    {file : SeedFile} (hok : (env.afterReset read file b).1 = .ok ()) :
    Reseeded read file (Mysql.reseeded env.mysql.weight read file).1
      (env.afterReset read file b).2 := by
  have hdone := (afterReset_ok_iff h hw read file).mp hok
  unfold Env.afterReset reset
  rw [run_ofDao]
  rcases run_reset h hw read file with ⟨-, w', hrun, hwork, hrows, horder⟩ | ⟨hfail, -⟩
  · rw [hrun]
    exact ⟨hrows, horder, hwork⟩
  · rw [hfail] at hdone
    cases hdone

/-- **Reset is independent of what was there before**: from any two contents it completes on
both or on neither, and leaves the same problem bank up to the timestamps, numbered from 1 in the
order of the file, and the users and sessions as they are. Resetting again changes nothing. -/
theorem reset_regardless (env₁ env₂ : Env) (h₁ : env₁.mysql.Healthy) (h₂ : env₂.mysql.Healthy)
    (hweight : env₁.mysql.weight = env₂.mysql.weight) (read : JsonReader) (file : SeedFile)
    (b₁ b₂ : Backend) (hw₁ : b₁.db.work = none) (hw₂ : b₂.db.work = none) :
    ((env₁.afterReset read file b₁).1 = .ok () ↔ (env₂.afterReset read file b₂).1 = .ok ()) ∧
    (env₁.afterReset read file b₁).2.accounts = b₁.accounts ∧
    (env₂.afterReset read file b₂).2.accounts = b₂.accounts ∧
    ((env₁.afterReset read file b₁).1 = .ok () →
      (env₁.afterReset read file b₁).2.db.bank.timeless =
        (env₂.afterReset read file b₂).2.db.bank.timeless ∧
      InFileOrder read file (env₁.afterReset read file b₁).2.db.bank ∧
      InFileOrder read file (env₂.afterReset read file b₂).2.db.bank ∧
      ∃ b', env₂.afterReset read file (env₁.afterReset read file b₁).2 = (.ok (), b') ∧
        b'.db.bank.timeless = (env₁.afterReset read file b₁).2.db.bank.timeless ∧
        b'.accounts = b₁.accounts) := by
  have hiff : (env₁.afterReset read file b₁).1 = .ok () ↔
      (env₂.afterReset read file b₂).1 = .ok () := by
    rw [afterReset_ok_iff h₁ hw₁, afterReset_ok_iff h₂ hw₂, hweight]
  refine ⟨hiff, accounts_afterReset .., accounts_afterReset .., fun hok => ?_⟩
  have hfirst := reseeded_afterReset h₁ hw₁ hok
  have hsecond := reseeded_afterReset h₂ hw₂ (hiff.mp hok)
  have hagain : (env₂.afterReset read file (env₁.afterReset read file b₁).2).1 = .ok () := by
    rw [afterReset_ok_iff h₂ hfirst.idle, ← afterReset_ok_iff h₂ hw₂]
    exact hiff.mp hok
  have hlast := reseeded_afterReset h₂ hfirst.idle hagain
  refine ⟨?_, hfirst.order, hsecond.order, _, Prod.ext hagain rfl, ?_, ?_⟩
  · rw [hfirst.rows, hsecond.rows, hweight]
  · rw [hlast.rows, hfirst.rows, hweight]
  · rw [accounts_afterReset, accounts_afterReset]

/-- A seed file with one problem. -/
def oneEntry : SeedFile where
  path := utf8 "seed.json"
  content := some (utf8 ("[\x7b\"title\":\"A+B\",\"description_md\":\"\"," ++
    "\"difficulty\":\"easy\"," ++
    "\"time_limit_ms\":500,\"memory_limit_mb\":256,\"tags\":[\"dp\"]," ++
    "\"testcases\":[\x7b\"input\":\"1 2\",\"expected_output\":\"3\"\x7d]\x7d]"))

/-- What is read from it. -/
def readOneEntry : JsonReader := fun _ => .ok (.array [taggedBody [utf8 "dp"]])

/-- The bank without a problem and the one with a problem are reset to the same. -/
theorem reset_regardless_entry :
    (calmEnv.afterReset readOneEntry oneEntry
      { oneProblem with db := .resting .empty ⟨1, 1, 1⟩ }).2.db.bank.timeless =
    (calmEnv.afterReset readOneEntry oneEntry oneProblem).2.db.bank.timeless :=
  ((reset_regardless calmEnv calmEnv (fun _ => rfl) (fun _ => rfl) rfl readOneEntry oneEntry
    { oneProblem with db := .resting .empty ⟨1, 1, 1⟩ } oneProblem rfl rfl).2.2.2 rfl).1

end MiniOj.Http
