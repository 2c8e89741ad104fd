import MiniOj.Http.Properties.Submissions
import MiniOj.Judge.Properties.Diff

/-!
# Which submissions are accepted

The way of a submission from its body over the stored problem, the compiler, the runs and the
comparison of their outputs to the verdict in the answer.

* `Solves`, `SolvesAll` — what `runBinary` has to report
* `accepted_iff` — the answer says `AC` exactly for a program that solves every stored testcase
-/

namespace MiniOj.Http

open Infra Db Judge

variable {env : Env} {cfg : Config} {req : Request} {submission : SubmissionInput} {b : Backend}
  {box : Sandbox} {s : JudgeState} {input : PipelineInput}

/-! ## The judge -/

/-- `future.get()` of a task that runs the pipeline. -/
def outcomeOf : Except Exn SubmissionResult → Except Bytes SubmissionResult
  | .ok result => .ok result
  | .error e => .error e.what

/-- The `n`th call is a run of the pipeline. -/
def Piped (env : Env) (box : Nat → Sandbox) (s : Nat → JudgeState) : Prop :=
  ∀ n input, env.judge n input =
    outcomeOf ((runPipeline input : Judging Exn _).run (box n).exec (s n)).1

/-- `runBinary` reports the status `Ok` for the run, and what was printed is what is expected up to
blanks at the end. -/
def Solves (run : RunResult) (expected : Bytes) : Prop :=
  run.status = .ok ∧ ∃ p w₁ w₂, Blank w₁ ∧ Blank w₂ ∧
    expected = p ++ w₁ ∧ run.stdoutOutput = p ++ w₂

/-- The working directory is made, the program compiles, and each run solves its testcase. -/
structure SolvesAll (box : Sandbox) (s : JudgeState) (input : PipelineInput) : Prop where
  directory : box.createDirectories (s.calls.length + 1) (box.workDir s) = none
  compiles : (box.compileResult input s).ok = true
  solves : ∀ (i : Nat) (t : TestCase), input.testcases[i]? = some t →
    Solves (box.runResult input s i t) t.expectedOutput

theorem caseResult_eq_AC_iff {index : UInt32} {t : TestCase} {run : RunResult} :
    (caseResult index t run).verdict = .AC ↔ Solves run t.expectedOutput := by
  unfold caseResult Solves
  split
  · next h =>
    have hne : mapRunStatus run.status ≠ .AC := by
      intro hverdict
      cases hstatus : run.status with
      | ok => exact h hstatus
      | timeout | memoryLimit | runtimeError | spawnError =>
        rw [hstatus] at hverdict
        cases hverdict
    exact ⟨fun hverdict => absurd hverdict hne, fun hsolves => absurd hsolves.1 h⟩
  · next h =>
    rw [← outputsMatch_iff]
    split
    · next hmatch => exact ⟨fun _ => ⟨not_not.mp h, hmatch⟩, fun _ => rfl⟩
    · next hmatch =>
      exact ⟨fun hverdict => (nomatch hverdict), fun hsolves => absurd hsolves.2 hmatch⟩

theorem entries_accepted_iff {run : Nat → TestCase → RunResult} {testcases : List TestCase} :
    (∀ c ∈ Judge.entries 0 run testcases, c.verdict = .AC) ↔
      ∀ (i : Nat) (t : TestCase), testcases[i]? = some t → Solves (run i t) t.expectedOutput := by
  constructor
  · intro h i t ht
    refine caseResult_eq_AC_iff.mp (h (caseResult (.ofNat (0 + i + 1)) t (run i t)) ?_)
    refine List.mem_of_getElem? (i := i) ?_
    rw [Judge.entries, List.getElem?_mapIdx, ht]
    rfl
  · intro h c hc
    obtain ⟨i, hi⟩ := List.mem_iff_getElem?.mp hc
    obtain ⟨t, ht, rfl⟩ := getElem?_entries hi
    exact caseResult_eq_AC_iff.mpr (h i t ht)

/-- The verdict of the pipeline. -/
theorem runPipeline_accepts_iff (box : Sandbox) (s : JudgeState) (hne : input.testcases ≠ []) :
    ∃ result, ((runPipeline input : Judging Exn _).run box.exec s).1 = .ok result ∧
      (result.verdict = .AC ↔ SolvesAll box s input) := by
  cases hdir : box.createDirectories (s.calls.length + 1) (box.workDir s) with
  | some error =>
    rw [run_runPipeline_of_error hdir]
    refine ⟨_, rfl, fun h => (nomatch h), fun h => ?_⟩
    cases hdir.symm.trans h.directory
  | none =>
    cases hok : (box.compileResult input s).ok with
    | false =>
      rw [run_runPipeline_of_not_ok hdir hok]
      refine ⟨_, rfl, fun h => (nomatch h), fun h => ?_⟩
      cases hok.symm.trans h.compiles
    | true =>
      rw [run_runPipeline_of_ok hdir hok]
      refine ⟨_, rfl, ?_⟩
      rw [judged_pipelineResult.accepted, entries_accepted_iff]
      exact ⟨fun h => ⟨hdir, hok, h.2⟩, fun h => ⟨hne, h.solves⟩⟩

/-! ## The answer -/

/-- What the browser is told. -/
def Accepts (answer : Except Exn Response) : Prop :=
  ∃ body, answer = .ok (writeJson 200 body) ∧
    body.member? "verdict" = some (.string (utf8 "AC"))

theorem accepts_ofSubmission {result : SubmissionResult} :
    Accepts (.ok (writeJson 200 (Dto.ofSubmission result))) ↔ result.verdict = .AC := by
  have hmember : (Dto.ofSubmission result).member? "verdict" =
      some (.string (utf8 (verdictName result.verdict))) := rfl
  constructor
  · rintro ⟨body, hbody, hverdict⟩
    cases hbody
    rw [hmember] at hverdict
    injection hverdict with hverdict
    injection hverdict with hverdict
    cases h : result.verdict with
    | AC => rfl
    | WA | TLE | CE | MLE | RE =>
      rw [h] at hverdict
      exact absurd hverdict (by decide)
  · intro h
    refine ⟨_, rfl, ?_⟩
    rw [hmember, h]
    rfl

theorem not_accepts_error {status : Nat} {message : Bytes} (h : status ≠ 200) :
    ¬ Accepts (.ok (writeError status message)) := by
  rintro ⟨body, hbody, -⟩
  injection hbody with hbody
  injection hbody with hstatus
  exact h hstatus

theorem not_accepts_refuseInvalid (e : Exn) :
    ¬ Accepts ((refuseInvalid e).run env.exec b).1 := by
  unfold refuseInvalid
  split
  · exact not_accepts_error (by decide)
  · rintro ⟨body, hbody, -⟩
    cases hbody

/-- How many calls come before the judge's. -/
def judgeCall (env : Env) (b : Backend) (submission : SubmissionInput) : Nat :=
  ((attempt (ofDao (getFullProblem submission.problemId.toNat)) databaseError).run
    env.exec b).2.db.calls

theorem run_submitParsed_judgeCall (env : Env) (b : Backend) (submission : SubmissionInput) :
    ((submitParsed submission).run env.exec b).1 = .ok (match queried env b submission with
      | .error e => databaseError e
      | .ok none => writeError 404 (utf8 "problem not found")
      | .ok (some full) =>
        if full.testcases.isEmpty then writeError 400 (utf8 "problem has no testcases")
        else judgeResponse (env.judge (judgeCall env b submission)
          (buildPipelineInput full submission))) := by
  obtain ⟨b', hrun⟩ := run_query env b submission
  rw [submitParsed, Program.run_bind, judgeCall, hrun]
  rcases queried env b submission with e | _ | full
  · rfl
  · rfl
  · dsimp only
    split <;> rfl

/-- The job of a submission to the problem. -/
def jobOf (m : Mysql) (bank : Bank) (p : ProblemRow) (submission : SubmissionInput) :
    PipelineInput :=
  buildPipelineInput (p.detail (bank.tagsOf m.weight p.id) (bank.testcasesOf p.id)) submission

/-- The answer for a stored problem. -/
theorem accepts_iff_solvesAll {box : Nat → Sandbox} {s : Nat → JudgeState} {m : Mysql}
    {bank : Bank} {p : ProblemRow} {n : Nat} (hpiped : Piped env box s) :
    Accepts (.ok (
        if (p.detail (bank.tagsOf m.weight p.id) (bank.testcasesOf p.id)).testcases.isEmpty
        then writeError 400 (utf8 "problem has no testcases")
        else judgeResponse (env.judge n (jobOf m bank p submission)))) ↔
      bank.testcasesOf p.id ≠ [] ∧ SolvesAll (box n) (s n) (jobOf m bank p submission) := by
  have hempty : (p.detail (bank.tagsOf m.weight p.id) (bank.testcasesOf p.id)).testcases.isEmpty =
      (bank.testcasesOf p.id).isEmpty := List.isEmpty_map
  rw [hempty]
  cases hcases : bank.testcasesOf p.id with
  | nil =>
    refine ⟨fun h => absurd h (not_accepts_error (by decide)), fun h => absurd rfl h.1⟩
  | cons c cases =>
    have hne : (jobOf m bank p submission).testcases ≠ [] := by
      simp [jobOf, buildPipelineInput, ProblemRow.detail, hcases]
    obtain ⟨result, hresult, haccepted⟩ := runPipeline_accepts_iff (box n) (s n) hne
    rw [hpiped n, hresult]
    exact accepts_ofSubmission.trans (haccepted.trans
      ⟨fun h => ⟨List.cons_ne_nil _ _, h⟩, fun h => h.2⟩)

/-- **When the answer says `AC`.** -/
theorem accepted_iff (env : Env) (cfg : Config) (req : Request) (b : Backend)
    (box : Nat → Sandbox) (s : Nat → JudgeState) (hpiped : Piped env box s) :
    Accepts ((submitHandler cfg req).run env.exec b).1 ↔
      ∃ submission p, parseSubmissionInput cfg.readJson req.body = .ok submission ∧
        b.db.view.problem? submission.problemId.toNat = some p ∧
        b.db.view.testcasesOf p.id ≠ [] ∧
        (∀ e, queried env b submission ≠ .error e) ∧
        SolvesAll (box (judgeCall env b submission)) (s (judgeCall env b submission))
          (jobOf env.mysql b.db.view p submission) := by
  cases hparse : parseSubmissionInput cfg.readJson req.body with
  | error e =>
    have hrun : submitHandler cfg req = refuseInvalid e := by
      unfold submitHandler
      rw [hparse]
    rw [hrun]
    refine ⟨fun h => absurd h (not_accepts_refuseInvalid e), ?_⟩
    rintro ⟨_, _, h, -⟩
    cases h
  | ok submission =>
    rw [submitHandler_eq hparse, run_submitParsed_judgeCall]
    obtain ⟨-, ⟨d, hd, hdetail⟩ | ⟨⟨e, he⟩, -⟩⟩ :=
      reports_getFullProblem (m := env.mysql) submission.problemId.toNat b.db
    · have hd : queried env b submission = .ok d := hd
      rw [hd]
      cases hp : b.db.view.problem? submission.problemId.toNat with
      | none =>
        have hnone : d = none := by
          rw [hdetail, Bank.detail, hp]
          rfl
        subst hnone
        refine ⟨fun h => absurd h (not_accepts_error (by decide)), ?_⟩
        rintro ⟨submission', _, h, hp', -⟩
        cases h
        cases hp.symm.trans hp'
      | some p =>
        have hsome : d = some (p.detail (b.db.view.tagsOf env.mysql.weight p.id)
            (b.db.view.testcasesOf p.id)) := by
          rw [hdetail, Bank.detail, hp]
          rfl
        subst hsome
        have hread : ∀ e, queried env b submission ≠ .error e := by
          intro e he
          cases hd.symm.trans he
        dsimp only
        refine (accepts_iff_solvesAll hpiped).trans ?_
        constructor
        · rintro ⟨hne, hsolves⟩
          exact ⟨submission, p, rfl, hp, hne, hread, hsolves⟩
        · rintro ⟨submission', p', h, hp', hne, -, hsolves⟩
          cases h
          cases hp.symm.trans hp'
          exact ⟨hne, hsolves⟩
    · have he : queried env b submission = .error e := he
      rw [he]
      refine ⟨fun h => absurd h (not_accepts_error (by decide)), ?_⟩
      rintro ⟨submission', _, h, -, -, hread, -⟩
      cases h
      exact absurd he (hread e)

/-- The runs of each submission print `3`. -/
def threeEnv : Env :=
  { calmEnv with
    judge := fun _ input => outcomeOf ((runPipeline input : Judging Exn _).run threeBox.exec {}).1 }

theorem accepted_iff_three :
    Accepts ((submitHandler (submissionConfig "cpp") (submissionRequest "cpp")).run threeEnv.exec
        oneTestcase).1 ↔
      ∃ submission p,
        parseSubmissionInput (submissionConfig "cpp").readJson (submissionRequest "cpp").body =
          .ok submission ∧
        oneTestcase.db.view.problem? submission.problemId.toNat = some p ∧
        oneTestcase.db.view.testcasesOf p.id ≠ [] ∧
        (∀ e, queried threeEnv oneTestcase submission ≠ .error e) ∧
        SolvesAll threeBox {} (jobOf threeEnv.mysql oneTestcase.db.view p submission) :=
  accepted_iff threeEnv (submissionConfig "cpp") (submissionRequest "cpp") oneTestcase
    (fun _ => threeBox) (fun _ => {}) fun _ _ => rfl

end MiniOj.Http
