import MiniOj.Db.Properties.Contents
import MiniOj.Http.Properties.Sessions
import MiniOj.Infra.Relational
import MiniOj.Judge.Properties.Pipeline

/-!
# From a submission to its verdict

* `judged_input` — what `submitHandler` hands over to the judge
* `job_as_submitted_iff` — when the job that is judged is the one submitted
-/

namespace MiniOj.Http

open Infra Db Judge

variable {env : Env} {cfg : Config} {req : Request} {submission : SubmissionInput} {b : Backend}
  {α β : Type}

/-! ## The request -/

theorem except_bind_eq_ok {x : Except Exn α} {f : α → Except Exn β} {c : β} :
    x >>= f = .ok c ↔ ∃ a, x = .ok a ∧ f a = .ok c := by
  cases x <;> simp [bind, Except.bind]

/-- A check that is passed. -/
theorem check_eq_ok {c : Prop} [Decidable c] {message : String} {k : α → Except Exn β}
    {y : Except Exn β} {r : β} :
    (if c then Admin.invalid message >>= k else y) = .ok r ↔ ¬ c ∧ y = .ok r := by
  split
  · next h => simp [h, Admin.invalid, bind, Except.bind]
  · next h => simp [h]

theorem requireString_eq_ok {body : Json} {key : String} {value : Bytes}
    (h : Admin.requireString body key = .ok value) : body.member? key = some (.string value) := by
  unfold Admin.requireString at h
  split at h
  · cases h
  · next v hv =>
    cases h
    exact hv
  · cases h

/-- The fields of a body that `parseSubmissionInput` accepts. -/
structure Submitted (root : Json) (submission : SubmissionInput) : Prop where
  problemId : requireId root "problem_id" = .ok submission.problemId
  language : root.member? "lang" = some (.string submission.language)
  sourceCode : root.member? "code" = some (.string submission.sourceCode)

theorem submitted_of_parse {read : JsonReader} {raw : Bytes}
    (h : parseSubmissionInput read raw = .ok submission) :
    ∃ root, read raw = .ok root ∧ Submitted root submission := by
  unfold parseSubmissionInput at h
  simp only [except_bind_eq_ok, check_eq_ok] at h
  obtain ⟨root, hread, -, id, hid, language, hlang, -, code, hcode, -, -, h⟩ := h
  cases h
  refine ⟨root, ?_, hid, requireString_eq_ok hlang, requireString_eq_ok hcode⟩
  unfold parseJsonBody at hread
  split at hread
  · cases hread
  · split at hread <;> cases hread
    assumption

/-! ## The call of the judge -/

/-- The response to what the judge answers. -/
def judgeResponse : Except Bytes SubmissionResult → Response
  | .ok result => writeJson 200 (Dto.ofSubmission result)
  | .error error => writeError 500 (utf8 "judge error: " ++ error)

/-- The part of `submitHandler` after the body has been parsed. -/
def submitParsed (submission : SubmissionInput) : Handler Response := do
  match ← attempt (ofDao (getFullProblem submission.problemId.toNat)) databaseError with
  | .error res => return res
  | .ok none => return writeError 404 (utf8 "problem not found")
  | .ok (some full) =>
    if full.testcases.isEmpty then return writeError 400 (utf8 "problem has no testcases")
    else .call (.judge (buildPipelineInput full submission)) fun r => return judgeResponse r

theorem submitHandler_eq (h : parseSubmissionInput cfg.readJson req.body = .ok submission) :
    submitHandler cfg req = submitParsed submission := by
  unfold submitHandler submitParsed
  rw [h]
  refine congrArg (attempt (ofDao (getFullProblem submission.problemId.toNat)) databaseError >>= ·)
    (funext fun r => ?_)
  rcases r with res | _ | full
  · rfl
  · rfl
  · dsimp only
    split
    · rfl
    · refine congrArg (Program.call _) (funext fun r => ?_)
      cases r <;> rfl

/-- What the query of `submitParsed` answers. -/
def queried (env : Env) (b : Backend) (submission : SubmissionInput) :
    Except Exn (Option AdminProblemDetail) :=
  ((getFullProblem submission.problemId.toNat).run env.mysql.exec b.db).1

theorem run_query (env : Env) (b : Backend) (submission : SubmissionInput) : ∃ b',
    (attempt (ofDao (getFullProblem submission.problemId.toNat)) databaseError).run env.exec b =
      (.ok (match queried env b submission with
        | .ok full => .ok full
        | .error e => .error (databaseError e)), b') := by
  rw [run_attempt env.exec, run_ofDao, queried]
  generalize (getFullProblem submission.problemId.toNat).run env.mysql.exec b.db = x
  obtain ⟨x, w⟩ := x
  cases x <;> exact ⟨_, rfl⟩

/-- When a submission is handed over to the judge. -/
theorem judge_mem_trace_iff {input : PipelineInput} :
    .judge input ∈ (submitParsed submission).trace env.exec b ↔
      ∃ full, queried env b submission = .ok (some full) ∧ full.testcases ≠ [] ∧
        input = buildPipelineInput full submission := by
  have hquery : .judge input ∉ (attempt (ofDao (getFullProblem submission.problemId.toNat))
      databaseError).trace env.exec b := by
    intro h
    have hany : (getFullProblem submission.problemId.toNat).Only fun _ => True := .any _
    have honly : (attempt (ofDao (getFullProblem submission.problemId.toNat))
        databaseError).Only fun c => ∃ st, c = .bank st :=
      only_attempt (only_ofDao (fun st _ => ⟨st, rfl⟩) hany)
    obtain ⟨st, hst⟩ := honly.trace h
    cases hst
  obtain ⟨b', hrun⟩ := run_query env b submission
  rw [submitParsed, Program.trace_bind, List.mem_append, or_iff_right hquery, hrun]
  rcases queried env b submission with e | _ | full
  · simp
  · simp
  · dsimp only
    by_cases hne : full.testcases = []
    · simp [hne]
    · rw [if_neg (by simpa using hne)]
      constructor
      · intro h
        rcases List.mem_cons.mp h with h | h
        · cases h
          exact ⟨full, rfl, hne, rfl⟩
        · cases h
      · rintro ⟨full', hfull, -, rfl⟩
        cases hfull
        exact List.mem_cons_self

/-- The response of `submitParsed`. The number says how many calls came before the judge's. -/
theorem run_submitParsed (env : Env) (b : Backend) (submission : SubmissionInput) : ∃ n,
    ((submitParsed submission).run env.exec b).1 = .ok (match queried env b submission with
      | .error e => databaseError e
      | .ok none => writeError 404 (utf8 "problem not found")
      | .ok (some full) =>
        if full.testcases.isEmpty then writeError 400 (utf8 "problem has no testcases")
        else judgeResponse (env.judge n (buildPipelineInput full submission))) := by
  obtain ⟨b', hrun⟩ := run_query env b submission
  refine ⟨b'.db.calls, ?_⟩
  rw [submitParsed, Program.run_bind, hrun]
  rcases queried env b submission with e | _ | full
  · rfl
  · rfl
  · dsimp only
    split <;> rfl

/-- **What is handed over to the judge**: the code submitted, and the problem as it is stored. -/
theorem judged_input {input : PipelineInput}
    (h : .judge input ∈ (submitParsed submission).trace env.exec b) :
    ∃ full, b.db.view.detail env.mysql.weight submission.problemId.toNat = some full ∧
      full.testcases ≠ [] ∧ input = buildPipelineInput full submission := by
  obtain ⟨full, hfull, hne, rfl⟩ := judge_mem_trace_iff.mp h
  obtain ⟨-, ⟨d, hd, rfl⟩ | ⟨⟨e, he⟩, -⟩⟩ :=
    reports_getFullProblem (m := env.mysql) submission.problemId.toNat b.db
  · exact ⟨full, Except.ok.inj (hd.symm.trans hfull), hne, rfl⟩
  · cases he.symm.trans hfull

/-! ## The job -/

/-- Input, time limit in milliseconds and memory limit in bytes of a run. -/
structure RunLimits where
  input : Bytes
  timeLimit : Int
  memoryLimit : Nat

/-- The limits of a run. -/
def ranOn : JudgingCall → Option RunLimits
  | .runBinary request =>
    some ⟨request.stdinContent, request.timeLimit, request.memoryLimitBytes.toNat⟩
  | _ => none

/-- A testcase under the limits of its problem. -/
def limitsOf (p : ProblemRow) (input : Bytes) : RunLimits :=
  ⟨input, p.timeLimitMs.toNat, p.memoryLimitMb.toNat * 1024 * 1024⟩

/-- The calls are those of the job that the body asks for: its code is compiled in its language,
and the problem's testcases are run on, by id and under the problem's limits, as many as
`judged`. -/
structure SameJob (root : Json) (bank : Bank) (problemId : Nat) (calls : List JudgingCall)
    (judged : Nat) : Prop where
  compile : ∀ request, .compileSource request ∈ calls →
    root.member? "code" = some (.string request.sourceCode) ∧
      ∃ language, root.member? "lang" = some (.string language) ∧
        compiledAs (compileCommand request) = some language
  runs : ∃ p, bank.problem? problemId = some p ∧
    calls.filterMap ranOn = ((bank.testcasesOf p.id).take judged).map fun c => limitsOf p c.input

theorem compiledAs_compileRequest (input : PipelineInput) (dir : Bytes) :
    compiledAs (compileCommand (compileRequest input dir)) = some (utf8 "cpp") := rfl

theorem ranOn_runRequest {p : ProblemRow} {tags : List TagRow} {cases : List TestcaseRow}
    {dir : Bytes} (t : TestCase) :
    ranOn (.runBinary (runRequest (buildPipelineInput (p.detail tags cases) submission) dir t)) =
      some (limitsOf p t.input) := by
  have hlt : p.memoryLimitMb.toNat * 1024 * 1024 < 2 ^ 64 := by
    have := p.memoryLimitMb.toNat_lt
    omega
  show some (RunLimits.mk t.input p.timeLimitMs.toNat
    (UInt64.ofNat (p.memoryLimitMb.toNat * 1024 * 1024)).toNat) = _
  rw [UInt64.toNat_ofNat_of_lt' hlt]
  rfl

/-- The runs of a pipeline that judges so many testcases. -/
theorem ranOn_judgingCalls {box : Sandbox} {s : JudgeState} {p : ProblemRow} {tags : List TagRow}
    {cases : List TestcaseRow} (judged : Nat) :
    (judgingCalls box (buildPipelineInput (p.detail tags cases) submission) s judged).filterMap
      ranOn = (cases.take judged).map fun c => limitsOf p c.input := by
  have hruns : ∀ ts : List TestCase, (ts.map fun t => JudgingCall.runBinary (runRequest
      (buildPipelineInput (p.detail tags cases) submission) (box.workDir s) t)).filterMap ranOn =
        ts.map fun t => limitsOf p t.input := by
    intro ts
    induction ts with
    | nil => rfl
    | cons t ts ih => rw [List.map_cons, List.filterMap_cons_some (ranOn_runRequest t), ih,
        List.map_cons]
  have hpreparing :
      (preparing box (buildPipelineInput (p.detail tags cases) submission) s).filterMap ranOn =
        [] := rfl
  rw [judgingCalls, List.filterMap_append, List.filterMap_append, hruns, hpreparing]
  simp [ranOn, buildPipelineInput, ProblemRow.detail, List.map_take, Function.comp_def]

theorem compileSource_mem_judgingCalls {box : Sandbox} {input : PipelineInput} {s : JudgeState}
    {judged : Nat} {request : CompileRequest} :
    .compileSource request ∈ judgingCalls box input s judged ↔
      request = compileRequest input (box.workDir s) := by
  constructor
  · intro h
    simp only [judgingCalls, List.mem_append, List.mem_map] at h
    rcases h with (h | ⟨t, -, h⟩) | h
    · simpa [preparing] using h
    · cases h
    · simp at h
  · rintro rfl
    simp [judgingCalls, preparing]

/-- Every call is recorded. -/
theorem calls_run (box : Sandbox) (p : Judging Exn α) (s : JudgeState) :
    (p.run box.exec s).2.calls = s.calls ++ p.trace box.exec s := by
  induction p generalizing s with
  | ret a => exact (List.append_nil _).symm
  | throw e => exact (List.append_nil _).symm
  | call c k ih =>
    refine (ih _ _).trans ?_
    show (s.calls ++ [c]) ++ _ = s.calls ++ c :: _
    rw [List.append_assoc]
    rfl

theorem trace_runPipeline (box : Sandbox) (input : PipelineInput) (s : JudgeState)
    (hdir : box.createDirectories (s.calls.length + 1) (box.workDir s) = none) :
    ∃ result, ((runPipeline input : Judging Exn _).run box.exec s).1 = .ok result ∧
      (runPipeline input : Judging Exn _).trace box.exec s =
        judgingCalls box input s result.perCase.length := by
  have hcalls := calls_run box (runPipeline input : Judging Exn _) s
  cases hok : (box.compileResult input s).ok with
  | false =>
    rw [run_runPipeline_of_not_ok hdir hok] at hcalls ⊢
    exact ⟨_, rfl, (List.append_cancel_left hcalls).symm⟩
  | true =>
    rw [run_runPipeline_of_ok hdir hok] at hcalls ⊢
    exact ⟨_, rfl, (List.append_cancel_left hcalls).symm⟩

/-- **When the job judged is the job submitted**: the language is dropped on the way, and
everything is compiled as C++. -/
theorem job_as_submitted_iff (env : Env) (cfg : Config) (req : Request) (b : Backend) (root : Json)
    (submission : SubmissionInput) (input : PipelineInput) (box : Sandbox) (s : JudgeState)
    (hparse : parseSubmissionInput cfg.readJson req.body = .ok submission)
    (hread : cfg.readJson req.body = .ok root)
    (hjudge : .judge input ∈ (submitHandler cfg req).trace env.exec b)
    (hdir : box.createDirectories (s.calls.length + 1) (box.workDir s) = none) :
    ∃ result, ((runPipeline input : Judging Exn _).run box.exec s).1 = .ok result ∧
      (SameJob root b.db.view submission.problemId.toNat
          ((runPipeline input : Judging Exn _).trace box.exec s) result.perCase.length ↔
        root.member? "lang" = some (.string (utf8 "cpp"))) := by
  obtain ⟨result, hresult, htrace⟩ := trace_runPipeline box input s hdir
  refine ⟨result, hresult, ?_⟩
  rw [submitHandler_eq hparse] at hjudge
  obtain ⟨full, hfull, -, rfl⟩ := judged_input hjudge
  obtain ⟨root', hread', hsubmitted⟩ := submitted_of_parse hparse
  cases hread.symm.trans hread'
  obtain ⟨p, hp, rfl⟩ := Option.map_eq_some_iff.mp hfull
  rw [htrace]
  constructor
  · intro h
    obtain ⟨-, language, hlang, hcompiled⟩ := h.compile _ (compileSource_mem_judgingCalls.mpr rfl)
    rw [compiledAs_compileRequest] at hcompiled
    cases hcompiled
    exact hlang
  · intro hlang
    refine ⟨?_, p, hp, ranOn_judgingCalls _⟩
    intro request hrequest
    cases compileSource_mem_judgingCalls.mp hrequest
    exact ⟨hsubmitted.sourceCode, _, hlang, compiledAs_compileRequest _ _⟩

/-! ## A program in C -/

/-- The body of a submission to problem 1. -/
def submissionBody (language : String) : Json :=
  .object [
    (utf8 "problem_id", .int 1),
    (utf8 "lang", .string (utf8 language)),
    (utf8 "code", .string (utf8 "int main(void)\x7bint *p=malloc(4);\x7d"))]

/-- A submission of a short program. -/
def submissionOf (language : String) : SubmissionInput where
  problemId := 1
  language := utf8 language
  sourceCode := utf8 "int main(void)\x7bint *p=malloc(4);\x7d"

/-- Every body is read as this submission. -/
def submissionConfig (language : String) : Config :=
  { bareConfig with readJson := fun _ => .ok (submissionBody language) }

/-- The same as a request. -/
def submissionRequest (language : String) : Request where
  method := utf8 "POST"
  path := utf8 "/api/submissions"
  remoteAddr := utf8 "192.0.2.1"
  body := utf8 ("\x7b\"problem_id\":1,\"lang\":\"" ++ language ++
    "\",\"code\":\"int main(void)\x7bint *p=malloc(4);\x7d\"\x7d")

/-- One problem with one hidden testcase. -/
def oneTestcase : Backend :=
  { oneProblem with db := .resting {
      problems := [⟨1, utf8 "A+B", [], .easy, 500, 256, 0, 0⟩]
      testcases := [⟨1, 1, utf8 "1 2", utf8 "3", false, 100, 0⟩]
      tags := []
      problemTags := [] } ⟨2, 2, 1⟩ }

/-- What is handed over for it. -/
def oneTestcaseInput : PipelineInput where
  sourceCode := utf8 "int main(void)\x7bint *p=malloc(4);\x7d"
  testcases := [⟨1, 1, utf8 "1 2", utf8 "3", false⟩]
  runTimeoutMs := 500
  memoryLimitBytes := 256 * 1024 * 1024

theorem job_as_submitted_iff_cpp :
    ∃ result, ((runPipeline oneTestcaseInput : Judging Exn _).run threeBox.exec {}).1 =
        .ok result ∧
      (SameJob (submissionBody "cpp") oneTestcase.db.view 1
          ((runPipeline oneTestcaseInput : Judging Exn _).trace threeBox.exec {})
          result.perCase.length ↔
        (submissionBody "cpp").member? "lang" = some (.string (utf8 "cpp"))) :=
  job_as_submitted_iff calmEnv (submissionConfig "cpp") (submissionRequest "cpp") oneTestcase
    (submissionBody "cpp") (submissionOf "cpp") oneTestcaseInput threeBox {} rfl rfl
    (by decide +kernel) rfl

/-- A program in C is compiled as C++. -/
theorem c_compiled_as_cpp : ¬ ∀ (env : Env) (cfg : Config) (req : Request) (b : Backend)
    (root : Json) (submission : SubmissionInput) (input : PipelineInput) (box : Sandbox)
    (s : JudgeState) (result : SubmissionResult),
    parseSubmissionInput cfg.readJson req.body = .ok submission →
    cfg.readJson req.body = .ok root →
    .judge input ∈ (submitHandler cfg req).trace env.exec b →
    box.createDirectories (s.calls.length + 1) (box.workDir s) = none →
    ((runPipeline input : Judging Exn _).run box.exec s).1 = .ok result →
    SameJob root b.db.view submission.problemId.toNat
      ((runPipeline input : Judging Exn _).trace box.exec s) result.perCase.length := by
  intro h
  obtain ⟨result, hresult, -⟩ := trace_runPipeline threeBox oneTestcaseInput {} rfl
  have hjob := h calmEnv (submissionConfig "c") (submissionRequest "c") oneTestcase
    (submissionBody "c") (submissionOf "c") oneTestcaseInput threeBox {} result rfl rfl
    (by decide +kernel) rfl hresult
  obtain ⟨-, language, hlang, hcompiled⟩ := hjob.compile _ (.tail _ (.tail _ (.head _)))
  rw [compiledAs_compileRequest] at hcompiled
  cases hcompiled
  have hmember : (submissionBody "c").member? "lang" = some (.string (utf8 "c")) := rfl
  rw [hmember] at hlang
  injection hlang with hlang
  injection hlang with hlang
  exact absurd hlang (by decide)

end MiniOj.Http
