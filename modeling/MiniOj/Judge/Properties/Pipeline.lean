import MiniOj.Judge.Pipeline

/-!
# What the pipeline answers

* `run_judgeTestcases` — the loop, in terms of the results of the single runs
* `runPipeline_result` — verdict, entries and figures of a submission that has been compiled
-/

namespace MiniOj.Judge

open Infra
open Http (PipelineInput)

/-! ## The first entry that ends the loop -/

/-- The elements up to and including the first that has `p`; all when none has. -/
def upToFirst {α : Type} (p : α → Bool) : List α → List α
  | [] => []
  | a :: as => if p a then [a] else a :: upToFirst p as

section UpToFirst

variable {α : Type} {p : α → Bool}

/-- What is kept comes from the front. -/
theorem upToFirst_prefix (as : List α) : upToFirst p as <+: as := by
  induction as with
  | nil => exact List.prefix_refl []
  | cons a as ih =>
    simp only [upToFirst]
    split
    · exact List.prefix_append [a] as
    · exact (List.prefix_cons_inj a).mpr ih

/-- The first element is always kept. -/
theorem upToFirst_eq_nil {as : List α} : upToFirst p as = [] ↔ as = [] := by
  cases as with
  | nil => simp [upToFirst]
  | cons a as =>
    simp only [upToFirst]
    split <;> simp

/-- The first with `p` is kept. -/
theorem find?_upToFirst (as : List α) : (upToFirst p as).find? p = as.find? p := by
  induction as with
  | nil => rfl
  | cons a as ih =>
    simp only [upToFirst]
    split
    · next ha => simp [ha]
    · next ha => rw [List.find?_cons_of_neg ha, List.find?_cons_of_neg ha, ih]

/-- Only the last of them can have `p`. -/
theorem find?_eq_getLast? (as : List α) :
    (upToFirst p as).find? p = (upToFirst p as).getLast?.filter p := by
  induction as with
  | nil => rfl
  | cons a as ih =>
    simp only [upToFirst]
    split
    · next ha => simp [Option.filter, ha]
    · next ha =>
      rw [List.find?_cons_of_neg ha, ih, List.getLast?_cons]
      cases hl : (upToFirst p as).getLast? with
      | none => simp [Option.filter, ha]
      | some b => simp

/-- An element is kept when none before it has `p`. -/
theorem getElem?_upToFirst {as : List α} {i : Nat} {a : α} :
    (upToFirst p as)[i]? = some a ↔
      as[i]? = some a ∧ ∀ j < i, ∀ b, as[j]? = some b → p b = false := by
  induction as generalizing i with
  | nil => simp [upToFirst]
  | cons c as ih =>
    simp only [upToFirst]
    cases i with
    | zero => split <;> simp
    | succ i =>
      split
      · next hc =>
        have hno : ¬ ∀ j < i + 1, ∀ b, (c :: as)[j]? = some b → p b = false := by
          intro h
          rw [h 0 (Nat.succ_pos i) c rfl] at hc
          cases hc
        have hone : [c][i + 1]? = none := rfl
        rw [hone]
        exact ⟨fun h => (nomatch h), fun h => absurd h.2 hno⟩
      · next hc =>
        rw [List.getElem?_cons_succ, List.getElem?_cons_succ, ih]
        refine and_congr_right fun _ => ⟨fun h j hj b hb => ?_, fun h j hj b hb => ?_⟩
        · cases j with
          | zero =>
            cases hb
            simpa using hc
          | succ j => exact h j (by omega) b hb
        · exact h (j + 1) (by omega) b hb

end UpToFirst

/-! ## The loop -/

/-- `push`, in terms of the entry. -/
def LoopState.add (l : LoopState) (c : CaseResult) : LoopState where
  verdict := aggregateVerdict l.verdict c.verdict
  perCase := l.perCase ++ [c]
  maxTime := max l.maxTime c.timeMs
  maxMemory := max l.maxMemory c.memoryMb

/-- The figures of an entry are those of its run. -/
theorem caseResult_figures (index : UInt32) (testcase : TestCase) (run : RunResult) :
    (caseResult index testcase run).index = index ∧
      (caseResult index testcase run).timeMs = run.timeMs ∧
      (caseResult index testcase run).memoryMb = run.memoryMb := by
  unfold caseResult
  split
  · exact ⟨rfl, rfl, rfl⟩
  · split <;> exact ⟨rfl, rfl, rfl⟩

/-- A turn of the loop adds the entry of its testcase. -/
theorem LoopState.push_eq_add (l : LoopState) (testcase : TestCase) (run : RunResult) :
    l.push testcase run =
      l.add (caseResult (.ofNat (l.perCase.length + 1)) testcase run) := by
  obtain ⟨-, ht, hm⟩ := caseResult_figures (.ofNat (l.perCase.length + 1)) testcase run
  simp only [push, add, ht, hm]

/-- The verdict that ends the loop. -/
def Failing (c : CaseResult) : Bool := c.verdict ≠ .AC

/-- The entries of all testcases, from the `first`th on, if none of them ended the loop. -/
def entries (first : Nat) (run : Nat → TestCase → RunResult) (testcases : List TestCase) :
    List CaseResult :=
  testcases.mapIdx fun i t => caseResult (.ofNat (first + i + 1)) t (run i t)

/-- The entry of the first testcase, then those of the others. -/
theorem entries_cons (first : Nat) (run : Nat → TestCase → RunResult) (t : TestCase)
    (ts : List TestCase) : entries first run (t :: ts) =
      caseResult (.ofNat (first + 1)) t (run 0 t) ::
        entries (first + 1) (fun i => run (i + 1)) ts := by
  have h : ∀ i, first + (i + 1) + 1 = first + 1 + i + 1 := by omega
  simp only [entries, List.mapIdx_cons, h, Nat.add_zero]

variable {ε : Type} {box : Sandbox} {s : JudgeState} {input : PipelineInput} {dir : Bytes}

/-- What the runs answer when so many calls have been made before. -/
def runsFrom (box : Sandbox) (input : PipelineInput) (dir : Bytes) (calls i : Nat) (t : TestCase) :
    RunResult := box.run (calls + i) (runRequest input dir t)

/-- **The loop stops at the first entry that is not AC.** -/
theorem run_judgeTestcases {testcases : List TestCase} {l : LoopState} (hl : l.verdict = .AC) :
    let judged := upToFirst Failing
      (entries l.perCase.length (runsFrom box input dir s.calls.length) testcases)
    (judgeTestcases input dir testcases l : Judging ε LoopState).run box.exec s =
      (.ok (judged.foldl .add l), { s with
        calls := s.calls ++ (testcases.take judged.length).map
          fun t => .runBinary (runRequest input dir t) }) := by
  induction testcases generalizing l s with
  | nil => simp [judgeTestcases, entries, upToFirst, Program.run]
  | cons t ts ih =>
    rw [judgeTestcases, Program.run_call, entries_cons]
    have hexec : box.exec (.runBinary (runRequest input dir t)) s =
        (runsFrom box input dir s.calls.length 0 t,
          { s with calls := s.calls ++ [.runBinary (runRequest input dir t)] }) := rfl
    simp only [hexec, LoopState.push_eq_add]
    generalize hc : caseResult _ t (runsFrom box input dir s.calls.length 0 t) = c
    have hv : (l.add c).verdict = c.verdict := by
      show aggregateVerdict l.verdict c.verdict = c.verdict
      rw [aggregateVerdict, if_pos hl]
    simp only [upToFirst]
    by_cases hstop : Failing c = true
    · have hne : c.verdict ≠ .AC := by simpa [Failing] using hstop
      rw [if_pos (hv ▸ hne), if_pos hstop]
      simp [Program.run]
    · have hac : c.verdict = .AC := by simpa [Failing] using hstop
      rw [if_neg (by rw [hv, hac]; simp), if_neg hstop]
      refine (ih (l := l.add c) (hv.trans hac)).trans ?_
      have hruns : runsFrom box input dir (s.calls.length + 1) =
          fun i => runsFrom box input dir s.calls.length (i + 1) := by
        funext i u
        rw [runsFrom, runsFrom, Nat.add_assoc, Nat.add_comm 1 i]
      simp [LoopState.add, hruns]

/-! ## What the loop has added up -/

/-- `m` is the greatest of the values, 0 when there is none. -/
def IsMaximum (m : UInt32) (values : List UInt32) : Prop :=
  (∀ v ∈ values, v ≤ m) ∧ (m ∈ values ∨ values = [] ∧ m = 0)

theorem max_spec (m v : UInt32) : m ≤ max m v ∧ v ≤ max m v ∧ (max m v = m ∨ max m v = v) := by
  show m ≤ (if m ≤ v then v else m) ∧ v ≤ (if m ≤ v then v else m) ∧ _
  by_cases h : m ≤ v
  · rw [if_pos h]
    exact ⟨h, UInt32.le_refl v, .inr (if_pos h)⟩
  · rw [if_neg h]
    exact ⟨UInt32.le_refl m, (UInt32.le_total m v).resolve_left h, .inl (if_neg h)⟩

/-- The maximum of a list and a start value. -/
theorem foldl_max (values : List UInt32) : ∀ m : UInt32,
    m ≤ values.foldl max m ∧ (∀ v ∈ values, v ≤ values.foldl max m) ∧
      (values.foldl max m = m ∨ values.foldl max m ∈ values) := by
  induction values with
  | nil =>
    intro m
    exact ⟨UInt32.le_refl m, by simp, .inl rfl⟩
  | cons v vs ih =>
    intro m
    obtain ⟨hm, hall, hin⟩ := ih (max m v)
    obtain ⟨hml, hvl, hmax⟩ := max_spec m v
    simp only [List.foldl_cons, List.mem_cons, forall_eq_or_imp]
    refine ⟨UInt32.le_trans hml hm, ⟨UInt32.le_trans hvl hm, hall⟩, ?_⟩
    rcases hin with hin | hin
    · rw [hin]
      rcases hmax with h | h <;> simp [h]
    · exact .inr (.inr hin)

/-- From 0 on, the maximum is that of the list. -/
theorem isMaximum_foldl (values : List UInt32) : IsMaximum (values.foldl max 0) values := by
  obtain ⟨-, hall, hin⟩ := foldl_max values 0
  refine ⟨hall, ?_⟩
  cases values with
  | nil => exact .inr ⟨rfl, rfl⟩
  | cons v vs =>
    rcases hin with hin | hin
    · have hv : v ≤ 0 := hin ▸ hall v List.mem_cons_self
      have hv : v = 0 := UInt32.le_antisymm hv UInt32.zero_le
      rw [hin]
      exact .inl (List.mem_cons.mpr (.inl hv.symm))
    · exact .inl hin

/-- What the loop has added up after some entries. -/
theorem foldl_add (cs : List CaseResult) (l : LoopState) :
    (cs.foldl .add l).perCase = l.perCase ++ cs ∧
      (cs.foldl .add l).maxTime = (cs.map (·.timeMs)).foldl max l.maxTime ∧
      (cs.foldl .add l).maxMemory = (cs.map (·.memoryMb)).foldl max l.maxMemory := by
  induction cs generalizing l with
  | nil => simp
  | cons c cs ih =>
    obtain ⟨hp, ht, hm⟩ := ih (l.add c)
    rw [List.foldl_cons, hp, ht, hm]
    simp [LoopState.add]

/-- `aggregateVerdict` keeps the first verdict that is not `AC`. -/
theorem verdict_foldl_add (cs : List CaseResult) {l : LoopState} (hl : l.verdict = .AC) :
    (cs.foldl .add l).verdict = ((cs.find? Failing).map (·.verdict)).getD .AC := by
  have hstay : ∀ (cs : List CaseResult) (l : LoopState), l.verdict ≠ .AC →
      (cs.foldl .add l).verdict = l.verdict := by
    intro cs
    induction cs with
    | nil => intro l _; rfl
    | cons c cs ih =>
      intro l h
      have hv : (l.add c).verdict = l.verdict := if_neg h
      rw [List.foldl_cons, ih (l.add c) (hv ▸ h), hv]
  induction cs generalizing l with
  | nil => simpa using hl
  | cons c cs ih =>
    have hv : (l.add c).verdict = c.verdict := if_pos hl
    rw [List.foldl_cons]
    by_cases hc : c.verdict = .AC
    · rw [ih (hv.trans hc), List.find?_cons_of_neg (by simp [Failing, hc])]
    · rw [hstay cs (l.add c) (hv ▸ hc), List.find?_cons_of_pos (by simp [Failing, hc]), hv]
      rfl

/-! ## Verdicts of single testcases -/

/-- The run ends well and its output is the expected one. -/
def Accepted (t : TestCase) (r : RunResult) : Prop :=
  r.status = .ok ∧ outputsMatch t.expectedOutput r.stdoutOutput = true

/-- **When a testcase is accepted**: the run is `Ok` and its output matches. -/
theorem verdict_caseResult_eq_AC {i : UInt32} {t : TestCase} {r : RunResult} :
    (caseResult i t r).verdict = .AC ↔ Accepted t r := by
  unfold caseResult Accepted
  split
  · next h =>
    have hne : mapRunStatus r.status ≠ .AC := by
      cases hs : r.status with
      | ok => exact absurd hs h
      | _ => decide
    simp [hne, h]
  · next h =>
    have hok : r.status = .ok := not_not.mp h
    split <;> simp [*]

/-- **When its answer is wrong**: the run is `Ok` and its output does not match. -/
theorem verdict_caseResult_eq_WA {index : UInt32} {t : TestCase} {r : RunResult} :
    (caseResult index t r).verdict = .WA ↔
      r.status = .ok ∧ outputsMatch t.expectedOutput r.stdoutOutput = false := by
  unfold caseResult
  split
  · next h =>
    have hne : mapRunStatus r.status ≠ .WA := by cases r.status <;> decide
    simp [hne, h]
  · next h =>
    have hok : r.status = .ok := not_not.mp h
    split <;> simp [*]

/-! ## The result -/

/-- The result of a submission that compiles, from what its runs answer. -/
structure Judged (testcases : List TestCase) (run : Nat → TestCase → RunResult)
    (result : SubmissionResult) : Prop where
  perCase : result.perCase = upToFirst Failing (entries 0 run testcases)
  index : ∀ (i : Nat) (c : CaseResult), result.perCase[i]? = some c →
    c.index = .ofNat (i + 1)
  accepted : result.verdict = .AC ↔
    testcases ≠ [] ∧ ∀ c ∈ entries 0 run testcases, c.verdict = .AC
  noTestcase : testcases = [] → result.verdict = .RE
  last : ∀ c, result.perCase.getLast? = some c → result.verdict = c.verdict
  time : IsMaximum result.timeMs (result.perCase.map (·.timeMs))
  memory : IsMaximum result.memoryMb (result.perCase.map (·.memoryMb))
  outputs : ∀ (i : Nat) (c : CaseResult) (t : TestCase), result.perCase[i]? = some c →
    testcases[i]? = some t →
    (c.verdict = .WA → c.expected = t.expectedOutput ∧ c.actual = (run i t).stdoutOutput) ∧
      (c.verdict ≠ .WA → c.expected = [] ∧ c.actual = [])

/-- The two outputs are disclosed for a wrong answer only. -/
theorem caseResult_outputs (index : UInt32) (t : TestCase) (r : RunResult) :
    let c := caseResult index t r
    (c.verdict = .WA → c.expected = t.expectedOutput ∧ c.actual = r.stdoutOutput) ∧
      (c.verdict ≠ .WA → c.expected = [] ∧ c.actual = []) := by
  unfold caseResult
  split
  · next h =>
    have hne : mapRunStatus r.status ≠ .WA := by
      cases r.status <;> decide
    exact ⟨fun hw => absurd hw hne, fun _ => ⟨rfl, rfl⟩⟩
  · split
    · exact ⟨fun hw => (nomatch hw), fun _ => ⟨rfl, rfl⟩⟩
    · exact ⟨fun _ => ⟨rfl, rfl⟩, fun hw => absurd rfl hw⟩

/-- Each entry is that of its testcase, with its number. -/
theorem getElem?_entries {first i : Nat} {run : Nat → TestCase → RunResult}
    {testcases : List TestCase} {c : CaseResult}
    (h : (entries first run testcases)[i]? = some c) : ∃ t, testcases[i]? = some t ∧
      c = caseResult (.ofNat (first + i + 1)) t (run i t) := by
  rw [entries, List.getElem?_mapIdx] at h
  obtain ⟨t, ht, rfl⟩ := Option.map_eq_some_iff.mp h
  exact ⟨t, ht, rfl⟩

/-- What `runPipeline` returns after its loop. -/
def pipelineResult (compileOutput : Bytes) (l : LoopState) : SubmissionResult where
  verdict := if l.verdict = .AC ∧ l.perCase = [] then .RE else l.verdict
  timeMs := l.maxTime
  memoryMb := l.maxMemory
  perCase := l.perCase
  compileOutput

section Judged

variable {testcases : List TestCase} {run : Nat → TestCase → RunResult} {compileOutput : Bytes}

/-- The state of the loop when it ends. -/
def afterLoop (testcases : List TestCase) (run : Nat → TestCase → RunResult) : LoopState :=
  (upToFirst Failing (entries 0 run testcases)).foldl .add {}

/-- The loop ends after the first entry that fails. -/
theorem perCase_afterLoop :
    (afterLoop testcases run).perCase = upToFirst Failing (entries 0 run testcases) :=
  (foldl_add _ {}).1

/-- The loop as `runPipeline` starts it. -/
theorem run_judgeTestcases_start {box : Sandbox} {s : JudgeState} {input : PipelineInput}
    {dir : Bytes} {n : Nat} (h : s.calls.length = n) :
    let l := afterLoop testcases (runsFrom box input dir n)
    (judgeTestcases input dir testcases {} : Judging ε LoopState).run box.exec s =
      (.ok l, { s with
        calls := s.calls ++ (testcases.take l.perCase.length).map
          fun t => .runBinary (runRequest input dir t) }) := by
  subst h
  intro l
  rw [run_judgeTestcases rfl, perCase_afterLoop]
  rfl

/-- Some testcase is always run, if there is one. -/
theorem perCase_afterLoop_eq_nil : (afterLoop testcases run).perCase = [] ↔ testcases = [] := by
  rw [perCase_afterLoop, upToFirst_eq_nil, entries, List.mapIdx_eq_nil_iff]

/-- The time of a submission is that of its slowest entry. -/
theorem maxTime_afterLoop : (afterLoop testcases run).maxTime =
    ((afterLoop testcases run).perCase.map (·.timeMs)).foldl max 0 := by
  rw [perCase_afterLoop]
  exact (foldl_add _ {}).2.1

/-- The memory of a submission is that of its largest entry. -/
theorem maxMemory_afterLoop : (afterLoop testcases run).maxMemory =
    ((afterLoop testcases run).perCase.map (·.memoryMb)).foldl max 0 := by
  rw [perCase_afterLoop]
  exact (foldl_add _ {}).2.2

/-- The verdict is that of the first entry that fails. -/
theorem verdict_afterLoop : (afterLoop testcases run).verdict =
    (((entries 0 run testcases).find? Failing).map (·.verdict)).getD .AC := by
  rw [← find?_upToFirst]
  exact verdict_foldl_add _ rfl

/-- Every testcase counts for `AC`. -/
theorem verdict_afterLoop_eq_AC :
    (afterLoop testcases run).verdict = .AC ↔ ∀ c ∈ entries 0 run testcases, c.verdict = .AC := by
  rw [verdict_afterLoop]
  constructor
  · intro h c hc
    cases hf : (entries 0 run testcases).find? Failing with
    | none => simpa [Failing] using List.find?_eq_none.mp hf c hc
    | some d =>
      rw [hf] at h
      exact absurd h (by simpa [Failing] using List.find?_some hf)
  · intro h
    rw [List.find?_eq_none.mpr]
    · rfl
    · intro c hc
      simp [Failing, h c hc]

/-- The verdict is that of the last entry. -/
theorem verdict_of_getLast? {c : CaseResult}
    (h : (afterLoop testcases run).perCase.getLast? = some c) :
    (afterLoop testcases run).verdict = c.verdict := by
  have hfind := find?_eq_getLast? (p := Failing) (entries 0 run testcases)
  rw [← perCase_afterLoop, h, perCase_afterLoop, find?_upToFirst] at hfind
  rw [verdict_afterLoop, hfind]
  by_cases hc : c.verdict = .AC
  · simp [Option.filter, Failing, hc]
  · simp [Option.filter, Failing, hc]

/-- Each entry that is reported is that of its testcase. -/
theorem getElem?_perCase {i : Nat} {c : CaseResult}
    (h : (afterLoop testcases run).perCase[i]? = some c) : ∃ t, testcases[i]? = some t ∧
      c = caseResult (.ofNat (0 + i + 1)) t (run i t) := by
  rw [perCase_afterLoop] at h
  obtain ⟨rest, hrest⟩ := upToFirst_prefix (p := Failing) (entries 0 run testcases)
  refine getElem?_entries ?_
  rw [← hrest, List.getElem?_append_left (List.getElem?_eq_some_iff.mp h).1, h]

/-- Testcase `i` is the one that ends the loop, and it does so with a wrong output. -/
def WrongAt (testcases : List TestCase) (run : Nat → TestCase → RunResult) (i : Nat) : Prop :=
  (∀ j < i, ∀ t, testcases[j]? = some t → Accepted t (run j t)) ∧
    ∃ t, testcases[i]? = some t ∧ (run i t).status = .ok ∧
      outputsMatch t.expectedOutput (run i t).stdoutOutput = false

/-- Each testcase has an entry. -/
theorem getElem?_entries_of_testcase {first i : Nat} {t : TestCase}
    (h : testcases[i]? = some t) : (entries first run testcases)[i]? =
      some (caseResult (.ofNat (first + i + 1)) t (run i t)) := by
  rw [entries, List.getElem?_mapIdx, h]
  rfl

/-- A wrong answer is reported where it is given. -/
theorem wrongAt_iff {i : Nat} : WrongAt testcases run i ↔
    ∃ c, (afterLoop testcases run).perCase[i]? = some c ∧ c.verdict = .WA := by
  have hfailing : ∀ {index : UInt32} {t : TestCase} {r : RunResult},
      Failing (caseResult index t r) = false ↔ Accepted t r := by
    intro index t r
    rw [← verdict_caseResult_eq_AC (i := index)]
    simp [Failing]
  simp only [perCase_afterLoop, getElem?_upToFirst]
  constructor
  · rintro ⟨hbefore, t, ht, hrun⟩
    refine ⟨_, ⟨getElem?_entries_of_testcase ht, fun j hj b hb => ?_⟩,
      verdict_caseResult_eq_WA.mpr hrun⟩
    obtain ⟨u, hu, rfl⟩ := getElem?_entries hb
    exact hfailing.mpr (hbefore j hj u hu)
  · rintro ⟨c, ⟨hc, hbefore⟩, hwrong⟩
    obtain ⟨t, ht, rfl⟩ := getElem?_entries hc
    refine ⟨fun j hj u hu => ?_, t, ht, verdict_caseResult_eq_WA.mp hwrong⟩
    exact hfailing.mp (hbefore j hj _ (getElem?_entries_of_testcase hu))

/-- The result of the loop is as described. -/
theorem judged_pipelineResult :
    Judged testcases run (pipelineResult compileOutput (afterLoop testcases run)) where
  perCase := perCase_afterLoop
  index i c h := by
    obtain ⟨t, -, rfl⟩ := getElem?_perCase h
    rw [(caseResult_figures _ t _).1, Nat.zero_add]
  accepted := by
    show (if _ then Verdict.RE else _) = Verdict.AC ↔ _
    rw [← verdict_afterLoop_eq_AC]
    by_cases h : testcases = []
    · subst h
      simp [afterLoop, entries, upToFirst]
    · rw [if_neg fun hand => h (perCase_afterLoop_eq_nil.mp hand.2)]
      simp [h]
  noTestcase h := by
    subst h
    rfl
  last c h := by
    have hne : (afterLoop testcases run).perCase ≠ [] := by
      intro hnil
      rw [pipelineResult, hnil] at h
      cases h
    show (if _ then Verdict.RE else _) = _
    rw [if_neg fun hand => hne hand.2]
    exact verdict_of_getLast? h
  time := by
    show IsMaximum (afterLoop testcases run).maxTime _
    rw [maxTime_afterLoop]
    exact isMaximum_foldl _
  memory := by
    show IsMaximum (afterLoop testcases run).maxMemory _
    rw [maxMemory_afterLoop]
    exact isMaximum_foldl _
  outputs i c t hc ht := by
    obtain ⟨u, hu, rfl⟩ := getElem?_perCase hc
    cases hu.symm.trans ht
    exact caseResult_outputs _ t _

end Judged

/-! ## The whole run -/

section Run

variable (box : Sandbox) (input : PipelineInput) (s : JudgeState)

/-- What `compileSource` answers in the run that starts in `s`. -/
def Sandbox.compileResult : CompileResult :=
  box.compile (s.calls.length + 2) (compileRequest input (box.workDir s))

/-- What `runBinary` answers in it, testcase by testcase. -/
def Sandbox.runResult : Nat → TestCase → RunResult :=
  runsFrom box input (box.workDir s) (s.calls.length + 3)

/-- The calls before the loop. -/
def preparing : List JudgingCall :=
  [ .makeWorkDir, .createDirectories (box.workDir s),
    .compileSource (compileRequest input (box.workDir s)) ]

/-- The calls of a run whose loop judges so many testcases. -/
def judgingCalls (judged : Nat) : List JudgingCall :=
  preparing box input s ++
    (input.testcases.take judged).map (fun t => .runBinary (runRequest input (box.workDir s) t)) ++
    [.removeAll (box.workDir s)]

variable {box input s}

/-- Without a working directory nothing is compiled, and the verdict is `RE`. -/
theorem run_runPipeline_of_error {error : Bytes}
    (hdir : box.createDirectories (s.calls.length + 1) (box.workDir s) = some error) :
    (runPipeline input : Judging ε _).run box.exec s =
      (.ok { verdict := .RE, timeMs := 0, memoryMb := 0, perCase := []
             compileOutput := utf8 "failed to create work directory: " ++ error },
        { counter := (s.counter + 1) % 2 ^ 64
          calls := s.calls ++ [.makeWorkDir, .createDirectories (box.workDir s)] }) := by
  simp [runPipeline, Program.run_call, Program.run, hdir]

/-- A submission that does not compile is not run. -/
theorem run_runPipeline_of_not_ok
    (hdir : box.createDirectories (s.calls.length + 1) (box.workDir s) = none)
    (hok : (box.compileResult input s).ok = false) :
    (runPipeline input : Judging ε _).run box.exec s =
      (.ok { verdict := .CE, timeMs := 0, memoryMb := 0, perCase := []
             compileOutput := (box.compileResult input s).stderrOutput },
        { counter := (s.counter + 1) % 2 ^ 64
          calls := s.calls ++ judgingCalls box input s 0 }) := by
  rw [Sandbox.compileResult] at hok ⊢
  simp [runPipeline, Program.run_call, Program.run, hdir, hok, judgingCalls, preparing]

/-- A submission that compiles goes through the loop. -/
theorem run_runPipeline_of_ok
    (hdir : box.createDirectories (s.calls.length + 1) (box.workDir s) = none)
    (hok : (box.compileResult input s).ok = true) :
    let l := afterLoop input.testcases (box.runResult input s)
    (runPipeline input : Judging ε _).run box.exec s =
      (.ok (pipelineResult (box.compileResult input s).stderrOutput l),
        { counter := (s.counter + 1) % 2 ^ 64
          calls := s.calls ++ judgingCalls box input s l.perCase.length }) := by
  intro l
  rw [Sandbox.compileResult] at hok ⊢
  simp only [runPipeline, Program.run_call, Sandbox.exec_makeWorkDir,
    Sandbox.exec_createDirectories, List.length_append, List.length_cons, List.length_nil, hdir,
    Sandbox.exec_compileSource, hok, Bool.not_true, Bool.false_eq_true, if_false]
  rw [Program.run_bind, run_judgeTestcases_start (n := s.calls.length + 3) (by simp)]
  simp only [Program.run, Sandbox.exec_removeAll, judgingCalls, preparing, List.append_assoc,
    List.cons_append, List.nil_append]
  rfl

end Run

/-- **The result of `runPipeline`.** A submission that does not compile has no entries and no
figures. -/
theorem runPipeline_result (box : Sandbox) (input : PipelineInput) (s : JudgeState)
    (hdir : box.createDirectories (s.calls.length + 1) (box.workDir s) = none) :
    ∃ result, ((runPipeline input : Judging Exn _).run box.exec s).1 = .ok result ∧
      ((box.compileResult input s).ok = false → result.verdict = .CE ∧ result.perCase = [] ∧
        result.timeMs = 0 ∧ result.memoryMb = 0) ∧
      ((box.compileResult input s).ok = true →
        Judged input.testcases (box.runResult input s) result) := by
  cases hok : (box.compileResult input s).ok with
  | false =>
    rw [run_runPipeline_of_not_ok hdir hok]
    exact ⟨_, rfl, fun _ => ⟨rfl, rfl, rfl, rfl⟩, fun h => nomatch h⟩
  | true =>
    rw [run_runPipeline_of_ok hdir hok]
    exact ⟨_, rfl, fun h => (nomatch h), fun _ => judged_pipelineResult⟩

/-- Everything compiles, and every run prints `3`. -/
def threeBox : Sandbox where
  tempDirectory := utf8 "/tmp"
  pid := 1
  createDirectories := fun _ _ => none
  compile := fun _ _ => ⟨true, .success, 400, []⟩
  run := fun _ _ => { timeMs := 2, memoryMb := 3, stdoutOutput := utf8 "3\n", exitCode := 0 }

/-- The second of three testcases wants another answer. -/
def threeTestcases : PipelineInput where
  sourceCode := utf8 "int main()\x7bputs(\"3\");\x7d"
  testcases := [⟨1, 1, utf8 "1 2", utf8 "3", true⟩, ⟨2, 1, utf8 "2 2", utf8 "4", false⟩,
    ⟨3, 1, utf8 "2 1", utf8 "3", false⟩]
  runTimeoutMs := 500
  memoryLimitBytes := 268435456

theorem runPipeline_result_three :
    ∃ result, ((runPipeline threeTestcases : Judging Exn _).run threeBox.exec {}).1 = .ok result ∧
      ((threeBox.compileResult threeTestcases {}).ok = false →
        result.verdict = .CE ∧ result.perCase = [] ∧ result.timeMs = 0 ∧ result.memoryMb = 0) ∧
      ((threeBox.compileResult threeTestcases {}).ok = true →
        Judged threeTestcases.testcases (threeBox.runResult threeTestcases {}) result) :=
  runPipeline_result threeBox threeTestcases {} rfl

end MiniOj.Judge
