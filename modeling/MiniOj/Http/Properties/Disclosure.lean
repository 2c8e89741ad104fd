import MiniOj.Db.Properties.Hidden
import MiniOj.Http.Properties.Submissions

/-!
# What responses tell about hidden testcases

* `agree_listProblems`, `agree_getProblemDetail` — the public pages depend on nothing hidden
* `runs_alike` — the runs of a submission do not depend on expected outputs
* `hidden_testcases_iff` — when the response to a submission does
-/

namespace MiniOj.Http

open Infra Db Judge

variable {env : Env} {cfg : Config} {req : Request} {submission : SubmissionInput} {b b' : Backend}
  {R : Bank → Bank → Prop} {α : Type}

/-! ## Public pages -/

/-- Two backends that differ in the rows of the bank, related by `R`. -/
structure Backend.Beside (R : Bank → Bank → Prop) (b b' : Backend) : Prop where
  same : b' = { b with db := b'.db }
  db : b.db.Beside R b'.db

/-- Two backends stay side by side when their databases do. -/
theorem Backend.Beside.withDb (hb : b.Beside R b') {w w' : World} (hw : w.Beside R w') :
    Backend.Beside R { b with db := w } { b' with db := w' } where
  same := by rw [hb.same]
  db := hw

/-- Calls that see no hidden testcase and leave the bank alone. -/
def Call.Visible : Call → Prop
  | bank st => st.Visible
  | selectProblems .. | selectSamples _ => True
  | _ => False

/-- A query that sees no difference. -/
theorem parallel_select {a : Backend → α} (hb : b.Beside R b') (h : a b = a b') :
    (env.query a b).1 = (env.query a b').1 ∧
      (env.query a b).2.Beside R (env.query a b').2 := by
  have hcalls : b'.db.calls = b.db.calls := by rw [hb.db.same]
  constructor
  · unfold Env.query
    rw [hcalls, h]
    split <;> rfl
  · rw [Env.query_snd, Env.query_snd]
    exact hb.withDb ⟨by rw [hb.db.same], hb.db.work, hb.db.rows⟩

/-- **Calls that see no hidden testcase** are answered alike. -/
theorem parallel_call (hR : ∀ b b', R b b' → b.SameVisible b') {c : Call} (hc : c.Visible) :
    Program.Parallel env.exec env.exec (Backend.Beside R) c (· = ·) := by
  intro b b' hb
  obtain ⟨hv, hv'⟩ := hb.db.view
  have hrows := hR _ _ hb.db.rows
  cases c with
  | bank st =>
    obtain ⟨hreply, hafter⟩ := parallel_visible (m := env.mysql) hR st hc b.db b'.db hb.db
    exact ⟨hreply, hb.withDb hafter⟩
  | selectProblems difficulty tag =>
    refine parallel_select (a := fun b =>
      b.db.view.problemsWith env.mysql.weight difficulty tag) hb ?_
    show b.db.view.problemsWith _ _ _ = b'.db.view.problemsWith _ _ _
    rw [hv, hv']
    exact (hrows.problemsWith difficulty tag).symm
  | selectSamples problemId =>
    refine parallel_select (a := fun b => b.db.view.samplesOf problemId) hb ?_
    show b.db.view.samplesOf _ = b'.db.view.samplesOf _
    rw [hv, hv']
    exact (hrows.samplesOf problemId).symm
  | _ => exact hc.elim

theorem visible_storeResult (context : String) :
    (ofDao (executeQuery .storeResult context)).Only Call.Visible :=
  only_ofDao (fun _ h => h) (visible_executeQuery .storeResult trivial context)

/-- Freeing a result sees nothing. -/
theorem visible_freeResult (res : Nat) :
    (ofDao (ignoring (.freeResult res))).Only Call.Visible := by
  have hfree : (ignoring (.freeResult res)).Only Statement.Visible := ⟨trivial, fun _ => trivial⟩
  exact only_ofDao (fun _ h => h) hfree

/-- Tags are the same on both sides. -/
theorem visible_tags (problemId : Nat) :
    (ofDao (tagsWithIdForProblem problemId)).Only Call.Visible :=
  only_ofDao (fun _ h => h) (visible_tagsWithIdForProblem problemId)

theorem visible_summaryOf (p : ProblemRow) : (ofDao (summaryOf p)).Only Call.Visible := by
  have hsummary : (summaryOf p).Only Statement.Visible := by
    refine Program.Only.bind (Program.Only.bind ?_ fun rows => ?_) fun tags => ?_
    · refine Program.Only.bind (visible_executeQuery (.selectTags p.id) trivial _) fun rows => ?_
      exact Program.Only.bind (visible_executeQuery .storeResult trivial _) fun res =>
        ⟨trivial, fun _ => trivial⟩
    · trivial
    · trivial
  exact only_ofDao (fun _ h => h) hsummary

/-- The list sees no testcase. -/
theorem visible_listProblems (filters : ProblemFilters) :
    (listProblems filters).Only Call.Visible := by
  refine only_withLease trivial trivial (Program.Only.bind ⟨trivial, only_orThrow⟩ fun rows => ?_)
  refine Program.Only.bind (visible_storeResult _) fun res => ?_
  refine Program.Only.bind (Program.Only.mapM visible_summaryOf rows) fun summaries => ?_
  exact Program.Only.bind (visible_freeResult res) fun _ => trivial

/-- The public page sees samples only. -/
theorem visible_problemDetailOf (p : ProblemRow) : (problemDetailOf p).Only Call.Visible := by
  refine Program.Only.bind (Program.Only.bind ⟨trivial, only_orThrow⟩ fun rows => ?_)
    fun samples => Program.Only.bind (visible_tags p.id) fun tags => trivial
  exact Program.Only.bind (visible_storeResult _) fun res =>
    Program.Only.bind (visible_freeResult res) fun _ => trivial

/-- The public page of a problem that may not be there. -/
theorem visible_getProblemDetail (problemId : Nat) :
    (getProblemDetail problemId).Only Call.Visible := by
  refine only_withLease trivial trivial (Program.Only.bind ?_ fun row => ?_)
  · exact only_ofDao (fun _ h => h) (visible_executeQuery (.selectProblem problemId) trivial _)
  refine Program.Only.bind (visible_storeResult _) fun res => ?_
  refine Program.Only.bind ?_ fun result => Program.Only.bind (visible_freeResult res) fun _ => ?_
  · cases row with
    | none => trivial
    | some p => exact Program.Only.bind (visible_problemDetailOf p) fun _ => trivial
  · trivial

/-- The handler of the list. -/
theorem visible_listProblemsHandler (req : Request) :
    (listProblemsHandler req).Only Call.Visible := by
  unfold listProblemsHandler
  split
  · trivial
  · exact Program.Only.tryCatch (Program.Only.bind (visible_listProblems _) fun _ => trivial)
      fun _ => trivial

/-- The handler of the page. -/
theorem visible_getProblemHandler (id : Bytes) : (getProblemHandler id).Only Call.Visible := by
  unfold getProblemHandler
  split
  · trivial
  · refine Program.Only.tryCatch (Program.Only.bind (visible_getProblemDetail _) fun r => ?_)
      fun _ => trivial
    cases r <;> trivial

/-- **The public pages tell nothing about hidden testcases.** -/
theorem response_of_visible {p : Handler Response} (hp : p.Only Call.Visible)
    (hb : b.Beside Bank.SameVisible b') : (p.run env.exec b).1 = (p.run env.exec b').1 := by
  have hagree : Program.Agree env.exec env.exec (Backend.Beside Bank.SameVisible) (· = ·) p p :=
    hp.agree fun c hc => parallel_call (fun _ _ h => h) hc
  exact Program.sameOutcome_eq.mp (hagree b b' hb).1

/-! ## Two jobs -/

/-- The same testcase, except that a hidden one may expect another output. -/
structure TestCaseAlike (t t' : TestCase) : Prop where
  same : t' = { t with expectedOutput := t'.expectedOutput }
  sample : t.isSample = true → t' = t

/-- Two jobs that differ in expected outputs of hidden testcases only. -/
structure InputAlike (input input' : PipelineInput) : Prop where
  same : input' = { input with testcases := input'.testcases }
  testcases : List.Forall₂ TestCaseAlike input.testcases input'.testcases

/-- Problems that differ so give jobs that differ so. -/
theorem alike_buildPipelineInput (submission : SubmissionInput) {d d' : AdminProblemDetail}
    (h : DetailAlike d d') :
    InputAlike (buildPipelineInput d submission) (buildPipelineInput d' submission) where
  same := by
    rw [h.same]
    rfl
  testcases := by
    refine List.forall₂_map_left_iff.mpr (List.forall₂_map_right_iff.mpr ?_)
    refine h.testcases.imp fun c c' hc => ⟨?_, fun hs => ?_⟩
    · rw [hc.same]
    · rw [hc.sample hs]

variable {input input' : PipelineInput} {box : Sandbox} {s : JudgeState}

/-- **What compiles and runs does not depend on expected outputs.** -/
theorem runs_alike (box : Sandbox) (s : JudgeState) (h : InputAlike input input') :
    box.compileResult input' s = box.compileResult input s ∧
      ∀ i t t', TestCaseAlike t t' → box.runResult input' s i t' = box.runResult input s i t := by
  constructor
  · rw [Sandbox.compileResult, Sandbox.compileResult, compileRequest, compileRequest, h.same]
  · intro i t t' ht
    rw [Sandbox.runResult, Sandbox.runResult, runsFrom, runsFrom, runRequest, runRequest, ht.same,
      h.same]

section Loops

variable {ts ts' : List TestCase} {run run' : Nat → TestCase → RunResult}

/-- Two lists are compared at each place. -/
theorem forall₂_getElem? {P : TestCase → TestCase → Prop} (h : List.Forall₂ P ts ts') :
    ∀ {i : Nat} {t t' : TestCase}, ts[i]? = some t → ts'[i]? = some t' → P t t' := by
  induction h with
  | nil =>
    intro i t t' ht
    cases ht
  | cons hp _ ih =>
    intro i t t' ht ht'
    cases i with
    | zero =>
      cases ht
      cases ht'
      exact hp
    | succ i => exact ih ht ht'

/-- The entries at the same place. -/
theorem entries_alike (hts : List.Forall₂ TestCaseAlike ts ts')
    (hrun : ∀ i t t', TestCaseAlike t t' → run' i t' = run i t) {i : Nat} {c c' : CaseResult}
    (hc : (afterLoop ts run).perCase[i]? = some c)
    (hc' : (afterLoop ts' run').perCase[i]? = some c') :
    ∃ t t', ts[i]? = some t ∧ ts'[i]? = some t' ∧ TestCaseAlike t t' ∧
      c = caseResult (.ofNat (0 + i + 1)) t (run i t) ∧
      c' = caseResult (.ofNat (0 + i + 1)) t' (run i t) := by
  obtain ⟨t, ht, rfl⟩ := getElem?_perCase hc
  obtain ⟨t', ht', rfl⟩ := getElem?_perCase hc'
  have halike := forall₂_getElem? hts ht ht'
  exact ⟨t, t', ht, ht', halike, rfl, by rw [hrun i t t' halike]⟩

/-- Entries at the same place have the same verdict. -/
theorem getElem?_of_verdicts {cs cs' : List CaseResult}
    (h : cs.map (·.verdict) = cs'.map (·.verdict)) {i : Nat} {c : CaseResult}
    (hc : cs[i]? = some c) : ∃ c', cs'[i]? = some c' ∧ c'.verdict = c.verdict := by
  have hi := congrArg (fun l => l[i]?) h
  simp only [List.getElem?_map, hc, Option.map_some] at hi
  exact Option.map_eq_some_iff.mp hi.symm

/-- When the wrong answer meets the same expectation, all entries are the same. -/
theorem perCase_alike (hts : List.Forall₂ TestCaseAlike ts ts')
    (hrun : ∀ i t t', TestCaseAlike t t' → run' i t' = run i t)
    (hverdicts : (afterLoop ts run).perCase.map (·.verdict) =
      (afterLoop ts' run').perCase.map (·.verdict))
    (hwrong : ∀ i t t', WrongAt ts run i → ts[i]? = some t → ts'[i]? = some t' →
      t'.expectedOutput = t.expectedOutput) :
    (afterLoop ts' run').perCase = (afterLoop ts run).perCase := by
  have hlength : (afterLoop ts run).perCase.length = (afterLoop ts' run').perCase.length := by
    simpa using congrArg List.length hverdicts
  refine List.ext_getElem? fun i => ?_
  cases hc : (afterLoop ts run).perCase[i]? with
  | none =>
    rw [List.getElem?_eq_none_iff] at hc ⊢
    omega
  | some c =>
    obtain ⟨c', hc', hv⟩ := getElem?_of_verdicts hverdicts hc
    rw [hc']
    obtain ⟨t, t', ht, ht', halike, rfl, rfl⟩ := entries_alike hts hrun hc hc'
    by_cases hwa : (caseResult (.ofNat (0 + i + 1)) t (run i t)).verdict = .WA
    · have hsame := hwrong i t t' (wrongAt_iff.mpr ⟨_, hc, hwa⟩) ht ht'
      have ht : t' = t := by
        rw [halike.same, hsame]
      rw [ht]
    · obtain ⟨hi, htime, hmemory⟩ := caseResult_figures (.ofNat (0 + i + 1)) t (run i t)
      obtain ⟨hi', htime', hmemory'⟩ := caseResult_figures (.ofNat (0 + i + 1)) t' (run i t)
      obtain ⟨hexpected, hactual⟩ :=
        (caseResult_outputs (.ofNat (0 + i + 1)) t (run i t)).2 hwa
      obtain ⟨hexpected', hactual'⟩ :=
        (caseResult_outputs (.ofNat (0 + i + 1)) t' (run i t)).2 (hv ▸ hwa)
      refine congrArg some ?_
      generalize caseResult (.ofNat (0 + i + 1)) t (run i t) = c at *
      generalize caseResult (.ofNat (0 + i + 1)) t' (run i t) = c' at *
      obtain ⟨_, _, _, _, _, _⟩ := c
      obtain ⟨_, _, _, _, _, _⟩ := c'
      simp_all

/-- The JSON of a wrong answer shows what was expected. -/
theorem expected_of_json {c c' : CaseResult} (h : Dto.ofCaseResult c' = Dto.ofCaseResult c)
    (hc : c.verdict = .WA) (hc' : c'.verdict = .WA) : c'.expected = c.expected := by
  unfold Dto.ofCaseResult at h
  rw [if_pos hc, if_pos hc'] at h
  have hfields := Json.object.inj h
  simp only [List.cons_append, List.nil_append, List.cons.injEq, Prod.mk.injEq, true_and, and_true,
    Json.string.injEq] at hfields
  exact hfields.2.2.2.2.1

/-- When all entries read the same, the wrong answer meets the same expectation. -/
theorem expected_of_perCase (hts : List.Forall₂ TestCaseAlike ts ts')
    (hrun : ∀ i t t', TestCaseAlike t t' → run' i t' = run i t)
    (hverdicts : (afterLoop ts run).perCase.map (·.verdict) =
      (afterLoop ts' run').perCase.map (·.verdict))
    (hjson : (afterLoop ts run).perCase.map Dto.ofCaseResult =
      (afterLoop ts' run').perCase.map Dto.ofCaseResult) {i : Nat} {t t' : TestCase}
    (hwrong : WrongAt ts run i) (ht : ts[i]? = some t) (ht' : ts'[i]? = some t') :
    t'.expectedOutput = t.expectedOutput := by
  obtain ⟨c, hc, hwa⟩ := wrongAt_iff.mp hwrong
  obtain ⟨c', hc', hv⟩ := getElem?_of_verdicts hverdicts hc
  have hi := congrArg (fun l => l[i]?) hjson
  simp only [List.getElem?_map, hc, hc', Option.map_some, Option.some.injEq] at hi
  have hexpected := expected_of_json hi.symm hwa (hv.trans hwa)
  obtain ⟨u, u', hu, hu', -, rfl, rfl⟩ := entries_alike hts hrun hc hc'
  cases hu.symm.trans ht
  cases hu'.symm.trans ht'
  rwa [((caseResult_outputs _ _ _).1 hwa).1, ((caseResult_outputs _ _ _).1 (hv.trans hwa)).1]
    at hexpected

end Loops

/-! ## The response to a submission -/

/-- What the judge answers to a job when it starts in `s`. -/
def judgeAnswer (box : Sandbox) (s : JudgeState) (input : PipelineInput) :
    Except Bytes SubmissionResult :=
  match ((runPipeline input : Judging Exn _).run box.exec s).1 with
  | .ok result => .ok result
  | .error e => .error e.what

/-- The same verdicts, times and memory figures, entry by entry. -/
def SameFigures (r r' : SubmissionResult) : Prop :=
  (r.perCase.map fun c => (c.verdict, c.timeMs, c.memoryMb)) =
    r'.perCase.map fun c => (c.verdict, c.timeMs, c.memoryMb)

/-- If the program compiles and its first failure is a wrong output, the two jobs expect the same
of the testcase on which it fails. -/
def SameWhereWrong (box : Sandbox) (s : JudgeState) (input input' : PipelineInput) : Prop :=
  box.createDirectories (s.calls.length + 1) (box.workDir s) = none →
  (box.compileResult input s).ok = true →
  ∀ i t t', WrongAt input.testcases (box.runResult input s) i → input.testcases[i]? = some t →
    input'.testcases[i]? = some t' → t'.expectedOutput = t.expectedOutput

/-- The answer of a pipeline that compiles. -/
theorem judgeAnswer_of_ok
    (hdir : box.createDirectories (s.calls.length + 1) (box.workDir s) = none)
    (hok : (box.compileResult input s).ok = true) : judgeAnswer box s input =
      .ok (pipelineResult (box.compileResult input s).stderrOutput
        (afterLoop input.testcases (box.runResult input s))) := by
  rw [judgeAnswer, run_runPipeline_of_ok hdir hok]

/-- The figures include the verdicts. -/
theorem SameFigures.verdicts {r r' : SubmissionResult} (h : SameFigures r r') :
    r.perCase.map (·.verdict) = r'.perCase.map (·.verdict) := by
  have hfst := congrArg (List.map Prod.fst) h
  simpa [List.map_map, Function.comp_def] using hfst

/-- Equal answers have equal entries. -/
theorem perCase_of_response {r r' : SubmissionResult}
    (h : judgeResponse (.ok r) = judgeResponse (.ok r')) :
    r.perCase.map Dto.ofCaseResult = r'.perCase.map Dto.ofCaseResult := by
  have hbody := Option.some.inj (congrArg Response.body h)
  have hfields := Json.object.inj hbody
  simp only [List.cons.injEq, Prod.mk.injEq, true_and, and_true, Json.array.injEq] at hfields
  exact hfields.2.2.2.2

/-- **When the responses for two jobs are the same.** -/
theorem judgeResponse_eq_iff (box : Sandbox) (s : JudgeState) (halike : InputAlike input input')
    (hfigures : ∀ r r', judgeAnswer box s input = .ok r → judgeAnswer box s input' = .ok r' →
      SameFigures r r') :
    judgeResponse (judgeAnswer box s input) = judgeResponse (judgeAnswer box s input') ↔
      SameWhereWrong box s input input' := by
  obtain ⟨hcompile, hrun⟩ := runs_alike box s halike
  cases hdir : box.createDirectories (s.calls.length + 1) (box.workDir s) with
  | some error =>
    have hsame : judgeAnswer box s input = judgeAnswer box s input' := by
      rw [judgeAnswer, judgeAnswer, run_runPipeline_of_error hdir, run_runPipeline_of_error hdir]
    refine ⟨fun _ hnone => ?_, fun _ => by rw [hsame]⟩
    cases hdir.symm.trans hnone
  | none =>
    cases hok : (box.compileResult input s).ok with
    | false =>
      have hsame : judgeAnswer box s input = judgeAnswer box s input' := by
        rw [judgeAnswer, judgeAnswer, run_runPipeline_of_not_ok hdir hok,
          run_runPipeline_of_not_ok hdir (hcompile ▸ hok), hcompile]
      refine ⟨fun _ _ htrue => ?_, fun _ => by rw [hsame]⟩
      cases hok.symm.trans htrue
    | true =>
      have hresult := judgeAnswer_of_ok hdir hok
      have hresult' := judgeAnswer_of_ok hdir (hcompile ▸ hok)
      have hverdicts := (hfigures _ _ hresult hresult').verdicts
      rw [hresult, hresult', hcompile]
      constructor
      · intro h _ _ i t t' hwrong ht ht'
        exact expected_of_perCase halike.testcases hrun hverdicts (perCase_of_response h) hwrong
          ht ht'
      · intro h
        have hloop : afterLoop input'.testcases (box.runResult input' s) =
            afterLoop input.testcases (box.runResult input s) := by
          have hperCase := perCase_alike halike.testcases hrun hverdicts (h hdir hok)
          rw [perCase_afterLoop, perCase_afterLoop] at hperCase
          rw [afterLoop, afterLoop, hperCase]
        rw [hloop]

/-- Submissions are judged in `box`, by a pipeline that starts in `s`. -/
def Env.judging (env : Env) (box : Sandbox) (s : JudgeState) : Env :=
  { env with judge := fun _ => judgeAnswer box s }

/-- The responses to a submission that has been parsed. -/
theorem submitParsed_eq_iff (hbeside : b.Beside Bank.SameButAnswers b')
    (hfigures : ∀ input input', .judge input ∈ (submitParsed submission).trace
        (env.judging box s).exec b →
      .judge input' ∈ (submitParsed submission).trace (env.judging box s).exec b' →
      ∀ r r', judgeAnswer box s input = .ok r → judgeAnswer box s input' = .ok r' →
        SameFigures r r') :
    ((submitParsed submission).run (env.judging box s).exec b).1 =
        ((submitParsed submission).run (env.judging box s).exec b').1 ↔
      ∀ input input', .judge input ∈ (submitParsed submission).trace (env.judging box s).exec b →
        .judge input' ∈ (submitParsed submission).trace (env.judging box s).exec b' →
        SameWhereWrong box s input input' := by
  obtain ⟨n, hrun⟩ := run_submitParsed (env.judging box s) b submission
  obtain ⟨n', hrun'⟩ := run_submitParsed (env.judging box s) b' submission
  obtain ⟨hqueried, -⟩ := agree_getFullProblem (m := (env.judging box s).mysql)
    submission.problemId.toNat b.db b'.db hbeside.db
  simp only [judge_mem_trace_iff] at hfigures ⊢
  rw [hrun, hrun']
  have hq : Program.SameOutcome (Option.Rel DetailAlike) (queried (env.judging box s) b submission)
      (queried (env.judging box s) b' submission) := hqueried
  generalize queried (env.judging box s) b submission = q at *
  generalize queried (env.judging box s) b' submission = q' at *
  cases q <;> cases q'
  · cases hq
    simp
  · exact hq.elim
  · exact hq.elim
  · next full full' =>
    have hq : Option.Rel DetailAlike full full' := hq
    cases hq with
    | none => simp
    | @some d d' hd =>
      have hempty : d'.testcases = [] ↔ d.testcases = [] := by
        rw [← List.length_eq_zero_iff, ← List.length_eq_zero_iff, hd.testcases.length_eq]
      by_cases hne : d.testcases = []
      · simp [hne, hempty.mpr hne]
      · have hne' : d'.testcases ≠ [] := fun h => hne (hempty.mp h)
        have hjobs := judgeResponse_eq_iff box s (alike_buildPipelineInput submission hd)
          (hfigures _ _ ⟨d, rfl, hne, rfl⟩ ⟨d', rfl, hne', rfl⟩)
        dsimp only
        rw [if_neg (by simpa using hne), if_neg (by simpa using hne'), Except.ok.injEq]
        refine hjobs.trans ⟨?_, fun h => h _ _ ⟨d, rfl, hne, rfl⟩ ⟨d', rfl, hne', rfl⟩⟩
        rintro h input input' ⟨_, hfull, -, rfl⟩ ⟨_, hfull', -, rfl⟩
        cases hfull
        cases hfull'
        exact h

/-- **What responses tell about hidden testcases.** The public pages tell nothing. The response to
a submission does not depend on hidden expected outputs exactly when a wrong answer meets the same
expectation. -/
theorem hidden_testcases_iff (env : Env) (box : Sandbox) (s : JudgeState) (cfg : Config)
    (req : Request) (b b' b'' : Backend) (hanswers : b.Beside Bank.SameButAnswers b')
    (hfigures : ∀ input input',
      .judge input ∈ (submitHandler cfg req).trace (env.judging box s).exec b →
      .judge input' ∈ (submitHandler cfg req).trace (env.judging box s).exec b' →
      ∀ r r', judgeAnswer box s input = .ok r → judgeAnswer box s input' = .ok r' →
        SameFigures r r')
    (hvisible : b.Beside Bank.SameVisible b'') :
    (((submitHandler cfg req).run (env.judging box s).exec b).1 =
        ((submitHandler cfg req).run (env.judging box s).exec b').1 ↔
      ∀ input input', .judge input ∈ (submitHandler cfg req).trace (env.judging box s).exec b →
        .judge input' ∈ (submitHandler cfg req).trace (env.judging box s).exec b' →
        SameWhereWrong box s input input') ∧
      ((listProblemsHandler req).run env.exec b).1 =
        ((listProblemsHandler req).run env.exec b'').1 ∧
      ∀ id, ((getProblemHandler id).run env.exec b).1 =
        ((getProblemHandler id).run env.exec b'').1 := by
  refine ⟨?_, response_of_visible (visible_listProblemsHandler req) hvisible,
    fun id => response_of_visible (visible_getProblemHandler id) hvisible⟩
  cases hparse : parseSubmissionInput cfg.readJson req.body with
  | ok submission =>
    rw [submitHandler_eq hparse] at hfigures ⊢
    exact submitParsed_eq_iff hanswers hfigures
  | error e =>
    have hrefused : submitHandler cfg req = refuseInvalid e := by
      unfold submitHandler
      rw [hparse]
    rw [hrefused]
    unfold refuseInvalid
    split
    · exact ⟨fun _ _ _ h => absurd h (by simp), fun _ => rfl⟩
    · exact ⟨fun _ _ _ h => (nomatch h), fun _ => rfl⟩

/-! ## One testcase with two expectations -/

/-- The testcase of `oneTestcase` with another expected output. -/
def otherAnswer : Backend :=
  { oneTestcase with db := .resting {
      problems := [⟨1, utf8 "A+B", [], .easy, 500, 256, 0, 0⟩]
      testcases := [⟨1, 1, utf8 "1 2", utf8 "4", false, 100, 0⟩]
      tags := []
      problemTags := [] } ⟨2, 2, 1⟩ }

/-- The two banks differ in the expected output of the hidden testcase. -/
theorem oneTestcase_beside : oneTestcase.Beside Bank.SameButAnswers otherAnswer where
  same := rfl
  db := ⟨rfl, rfl, rfl, rfl, rfl, .cons ⟨rfl, fun h => nomatch h⟩ .nil⟩

/-- Every run prints `5`. -/
def fiveBox : Sandbox :=
  { threeBox with run := fun _ _ => { stdoutOutput := utf8 "5\n", exitCode := 0 } }

/-- The job for a bank with one testcase. -/
def inputExpecting (expected : Bytes) : PipelineInput where
  sourceCode := utf8 "int main(void)\x7bint *p=malloc(4);\x7d"
  testcases := [⟨1, 1, utf8 "1 2", expected, false⟩]
  runTimeoutMs := 500
  memoryLimitBytes := 256 * 1024 * 1024

theorem parsed_cpp :
    parseSubmissionInput (submissionConfig "cpp").readJson (submissionRequest "cpp").body =
    .ok (submissionOf "cpp") := rfl

/-- The job on the one bank. -/
theorem job_oneTestcase {input : PipelineInput}
    (h : .judge input ∈ (submitHandler (submissionConfig "cpp") (submissionRequest "cpp")).trace
      (calmEnv.judging fiveBox {}).exec oneTestcase) : input = inputExpecting (utf8 "3") := by
  rw [submitHandler_eq parsed_cpp, judge_mem_trace_iff] at h
  obtain ⟨full, hfull, -, rfl⟩ := h
  cases hfull
  rfl

/-- The job on the other. -/
theorem job_otherAnswer {input : PipelineInput}
    (h : .judge input ∈ (submitHandler (submissionConfig "cpp") (submissionRequest "cpp")).trace
      (calmEnv.judging fiveBox {}).exec otherAnswer) : input = inputExpecting (utf8 "4") := by
  rw [submitHandler_eq parsed_cpp, judge_mem_trace_iff] at h
  obtain ⟨full, hfull, -, rfl⟩ := h
  cases hfull
  rfl

/-- Both jobs end with a wrong answer. -/
theorem sameFigures_expecting (r r' : SubmissionResult)
    (h : judgeAnswer fiveBox {} (inputExpecting (utf8 "3")) = .ok r)
    (h' : judgeAnswer fiveBox {} (inputExpecting (utf8 "4")) = .ok r') : SameFigures r r' := by
  cases h
  cases h'
  rfl

theorem hidden_testcases_iff_one :
    (((submitHandler (submissionConfig "cpp") (submissionRequest "cpp")).run
          (calmEnv.judging fiveBox {}).exec oneTestcase).1 =
        ((submitHandler (submissionConfig "cpp") (submissionRequest "cpp")).run
          (calmEnv.judging fiveBox {}).exec otherAnswer).1 ↔
      ∀ input input',
        .judge input ∈ (submitHandler (submissionConfig "cpp") (submissionRequest "cpp")).trace
          (calmEnv.judging fiveBox {}).exec oneTestcase →
        .judge input' ∈ (submitHandler (submissionConfig "cpp") (submissionRequest "cpp")).trace
          (calmEnv.judging fiveBox {}).exec otherAnswer →
        SameWhereWrong fiveBox {} input input') ∧
      ((listProblemsHandler (submissionRequest "cpp")).run calmEnv.exec oneTestcase).1 =
        ((listProblemsHandler (submissionRequest "cpp")).run calmEnv.exec otherAnswer).1 ∧
      ∀ id, ((getProblemHandler id).run calmEnv.exec oneTestcase).1 =
        ((getProblemHandler id).run calmEnv.exec otherAnswer).1 :=
  hidden_testcases_iff calmEnv fiveBox {} (submissionConfig "cpp") (submissionRequest "cpp")
    oneTestcase otherAnswer otherAnswer oneTestcase_beside
    (fun _ _ h h' r r' => by
      rw [job_oneTestcase h, job_otherAnswer h']
      exact sameFigures_expecting r r')
    { same := rfl
      db := ⟨rfl, rfl, oneTestcase_beside.db.rows.sameVisible⟩ }

/-- A wrong answer shows what a hidden testcase expects. -/
theorem discloses_hidden_testcase : ¬ ∀ (env : Env) (box : Sandbox) (s : JudgeState) (cfg : Config)
    (req : Request) (b b' : Backend), b.Beside Bank.SameButAnswers b' →
    (∀ input input', .judge input ∈ (submitHandler cfg req).trace (env.judging box s).exec b →
      .judge input' ∈ (submitHandler cfg req).trace (env.judging box s).exec b' →
      ∀ r r', judgeAnswer box s input = .ok r → judgeAnswer box s input' = .ok r' →
        SameFigures r r') →
    ((submitHandler cfg req).run (env.judging box s).exec b).1 =
      ((submitHandler cfg req).run (env.judging box s).exec b').1 := by
  intro h
  have hsame := h calmEnv fiveBox {} (submissionConfig "cpp") (submissionRequest "cpp") oneTestcase
    otherAnswer oneTestcase_beside fun _ _ hin hin' r r' => by
      rw [job_oneTestcase hin, job_otherAnswer hin']
      exact sameFigures_expecting r r'
  have hfigures : ∀ input input',
      .judge input ∈ (submitParsed (submissionOf "cpp")).trace (calmEnv.judging fiveBox {}).exec
        oneTestcase →
      .judge input' ∈ (submitParsed (submissionOf "cpp")).trace (calmEnv.judging fiveBox {}).exec
        otherAnswer →
      ∀ r r', judgeAnswer fiveBox {} input = .ok r → judgeAnswer fiveBox {} input' = .ok r' →
        SameFigures r r' := by
    intro input input' hin hin' r r'
    rw [← submitHandler_eq parsed_cpp] at hin hin'
    rw [job_oneTestcase hin, job_otherAnswer hin']
    exact sameFigures_expecting r r'
  rw [submitHandler_eq parsed_cpp] at hsame
  have hwrong := (submitParsed_eq_iff oneTestcase_beside hfigures).mp hsame
    (inputExpecting (utf8 "3")) (inputExpecting (utf8 "4"))
    (judge_mem_trace_iff.mpr ⟨_, rfl, by decide, rfl⟩)
    (judge_mem_trace_iff.mpr ⟨_, rfl, by decide, rfl⟩) rfl rfl 0 _ _
    ⟨fun j hj => absurd hj (Nat.not_lt_zero j), _, rfl, rfl, by decide⟩ rfl rfl
  exact absurd hwrong (by decide)

end MiniOj.Http
