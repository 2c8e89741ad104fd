import MiniOj.Http.Properties.Listing

/-!
# The views of the problems

The list, the page of a problem and the administration ask the database different queries.

* `Yields`, `Gives` — what a program of the server makes of the rows, if none of its calls fails
* `Answered` — the answer of a handler that reads
* `views_agree` — all that is shown is part of one list of problems
-/

namespace MiniOj

open Infra

/-- What the list shows of a problem. -/
def AdminProblemDetail.summary (d : AdminProblemDetail) : ProblemSummary where
  id := d.id
  title := d.title
  difficulty := d.difficulty
  timeLimitMs := d.timeLimitMs
  memoryLimitMb := d.memoryLimitMb
  tags := d.tags.map Tag.name

/-- What the page of a problem shows of it. -/
def AdminProblemDetail.page (d : AdminProblemDetail) : ProblemDetail where
  id := d.id
  title := d.title
  descriptionMd := d.descriptionMd
  difficulty := d.difficulty
  timeLimitMs := d.timeLimitMs
  memoryLimitMb := d.memoryLimitMb
  sampleTestcases := (d.testcases.filter AdminTestCase.isSample).map fun c =>
    ⟨c.id, c.problemId, c.input, c.expectedOutput, true⟩
  tags := d.tags

/-- The problem is one of those asked for. -/
def AdminProblemDetail.matches (weight : Bytes → Bytes) (filters : ProblemFilters)
    (d : AdminProblemDetail) : Bool :=
  filters.tag.all (fun name => d.tags.any fun t => weight t.name == weight name) &&
    filters.difficulty.all (d.difficulty == ·)

end MiniOj

namespace MiniOj.Http

open Infra Db

variable {α β : Type} {env : Env} {b : Backend}

/-! ## Programs that read -/

theorem calls_le_exec (env : Env) (c : Call) (b : Backend) :
    b.db.calls ≤ (env.exec c b).2.db.calls := by
  have hchange : ∀ {α : Type} (effect : Nat → AccountTables → Except Refusal (α × AccountTables)),
      b.db.calls ≤ (env.change c effect b).2.db.calls := fun effect => by
    rcases Env.change_cases env c effect b with ⟨a, accounts, -, h⟩ | ⟨error, h⟩ <;> rw [h] <;>
      exact Nat.le_succ _
  cases c with
  | bank st => exact (exec_calls (m := env.mysql) st b.db) ▸ Nat.le_succ _
  | selectProblems | selectSamples | selectUser | selectSessionUser =>
    unfold Env.exec
    rw [Env.query_snd]
    exact Nat.le_succ _
  | insertUser | insertSession | deleteSession => exact hchange _
  | random | judge => exact Nat.le_succ _
  | now | rateLimit => exact Nat.le_refl _

/-- A run counts its calls. -/
theorem calls_le_handler (env : Env) (p : Handler α) :
    ∀ b : Backend, b.db.calls ≤ (p.run env.exec b).2.db.calls := by
  induction p with
  | ret a => exact fun b => Nat.le_refl _
  | throw e => exact fun b => Nat.le_refl _
  | call c k ih => exact fun b => (calls_le_exec env c b).trans (ih _ _)

/-- A call of the program has failed. -/
def CallFails (env : Env) (b : Backend) (p : Handler α) : Prop :=
  env.mysql.FailsBetween b.db.calls (p.run env.exec b).2.db.calls

/-- The program leaves the rows alone. What it returns is related to them by `post`, and it
throws only when one of its calls fails. -/
def Yields (env : Env) (p : Handler α) (post : Bank → α → Prop) : Prop :=
  ∀ b, (p.run env.exec b).2.db.view = b.db.view ∧
    ((∃ a, (p.run env.exec b).1 = .ok a ∧ post b.db.view a) ∨
      (∃ e, (p.run env.exec b).1 = .error e) ∧ CallFails env b p)

/-- The program returns `f` of the rows, or it throws because one of its calls has failed. -/
def Gives (env : Env) (p : Handler α) (f : Bank → α) : Prop :=
  ∀ b, (p.run env.exec b).1 = .ok (f b.db.view) ∨
    (∃ e, (p.run env.exec b).1 = .error e) ∧ CallFails env b p

/-- A weaker condition on the answer. -/
theorem Yields.mono {p : Handler α} {post post' : Bank → α → Prop} (hp : Yields env p post)
    (h : ∀ b a, post b a → post' b a) : Yields env p post' := by
  intro b
  obtain ⟨hview, ⟨a, ha, hpost⟩ | herror⟩ := hp b
  · exact ⟨hview, .inl ⟨a, ha, h _ a hpost⟩⟩
  · exact ⟨hview, .inr herror⟩

/-- A program that yields one value of the bank gives it. -/
theorem Yields.gives {p : Handler α} {f : Bank → α} (hp : Yields env p fun b a => a = f b) :
    Gives env p f := by
  intro b
  obtain ⟨-, ⟨a, ha, rfl⟩ | herror⟩ := hp b
  · exact .inl ha
  · exact .inr herror

/-- A value asks nothing of the bank. -/
theorem yields_pure {a : α} {post : Bank → α → Prop} (h : ∀ b, post b a) :
    Yields env (pure a) post :=
  fun b => ⟨rfl, .inl ⟨a, rfl, h b.db.view⟩⟩

/-- The second program sees the bank that the first has seen. -/
theorem Yields.bind {p : Handler α} {k : α → Handler β} {post : Bank → α → Prop}
    {post' : α → Bank → β → Prop} (hp : Yields env p post) (hk : ∀ a, Yields env (k a) (post' a)) :
    Yields env (p >>= k) fun b c => ∃ a, post b a ∧ post' a b c := by
  intro b
  unfold CallFails
  rw [Program.run_bind]
  obtain ⟨hview, hout⟩ := hp b
  have hcalls := calls_le_handler env p b
  unfold CallFails at hout
  generalize p.run env.exec b = x at hview hout hcalls
  obtain ⟨x, b'⟩ := x
  rcases hout with ⟨a, rfl, hpost⟩ | ⟨⟨e, rfl⟩, hfail⟩
  · obtain ⟨hview', ⟨c, hc, hpost'⟩ | ⟨herror, hfail⟩⟩ := hk a b'
    · refine ⟨hview'.trans hview, .inl ⟨c, hc, a, hpost, ?_⟩⟩
      rw [← hview]
      exact hpost'
    · exact ⟨hview'.trans hview, .inr ⟨herror, hfail.mono hcalls (Nat.le_refl _)⟩⟩
  · exact ⟨hview, .inr ⟨⟨e, rfl⟩, hfail⟩⟩

/-- When both answer a function of the bank, so does the sequence. -/
theorem Yields.pass {p : Handler α} {k : α → Handler β} {f : Bank → α} {g : α → Bank → β}
    (hp : Yields env p fun b a => a = f b) (hk : ∀ a, Yields env (k a) fun b c => c = g a b) :
    Yields env (p >>= k) fun b c => c = g (f b) b := by
  refine (hp.bind hk).mono ?_
  rintro b c ⟨a, rfl, hc⟩
  exact hc

/-- The first program may answer anything, and its answer is not used. -/
theorem Yields.skip {p : Handler α} {k : α → Handler β} {post : Bank → β → Prop}
    (hp : Yields env p fun _ _ => True) (hk : ∀ a, Yields env (k a) post) :
    Yields env (p >>= k) post := by
  refine (hp.bind hk).mono ?_
  rintro b c ⟨a, -, hc⟩
  exact hc

/-- What a function on the bank reports, the handler yields. -/
theorem yields_ofDao {p : Dao α} {post : Bank → α → Prop} (h : Reports env.mysql p post) :
    Yields env (ofDao p) post := by
  intro b
  unfold CallFails
  rw [run_ofDao]
  exact ⟨(h b.db).1.view, (h b.db).2⟩

/-- A query on problems or testcases, and what is made of its rows. -/
theorem yields_query {c : Call} {k : c.Reply → Handler α} {f : Bank → α} (context : String)
    (h : ∀ b, (Program.call c k).run env.exec b =
      (orThrow context (env.query (fun b => f b.db.view) b).1).run env.exec
        (env.query (fun b => f b.db.view) b).2) :
    Yields env (.call c k) fun b a => a = f b := by
  intro b
  unfold CallFails
  rw [h]
  by_cases hf : env.mysql.fails b.db.calls = none
  · rw [Env.query_of_quiet hf]
    exact ⟨rfl, .inl ⟨_, rfl, rfl⟩⟩
  · obtain ⟨e, he⟩ := Env.query_error env (fun b : Backend => f b.db.view) hf
    rw [he]
    exact ⟨rfl, .inr ⟨⟨_, rfl⟩, failsBetween_first hf (Nat.lt_succ_self _)⟩⟩

/-- A lease changes neither the bank nor the answer. -/
theorem gives_withLease {p : Handler α} {f : Bank → α} (hp : Gives env p f) :
    Gives env (Http.withLease p) f := by
  intro b
  unfold CallFails
  by_cases hacquire : env.mysql.fails b.db.calls = none
  · rw [run_withLease_ok hacquire]
    exact (hp b.acquired).imp_right fun ⟨herror, hfail⟩ =>
      ⟨herror, hfail.mono (Nat.le_succ _) (Nat.le_succ _)⟩
  · obtain ⟨e, he⟩ := run_withLease_error hacquire
    rw [he]
    exact .inr ⟨⟨e, rfl⟩, failsBetween_first hacquire (Nat.lt_succ_self _)⟩

/-! ## What the programs read -/

/-- The query of the lists: the rows of the problems that match. -/
theorem yields_selectProblems (filters : ProblemFilters) (context : String) :
    Yields env (.call (.selectProblems filters.difficulty filters.tag) (orThrow context))
      fun b rows => rows = b.problemsWith env.mysql.weight filters.difficulty filters.tag :=
  yields_query context fun _ => rfl

/-- **The list gives the summaries of the problems that match.** -/
theorem gives_listProblems (filters : ProblemFilters) : Gives env (listProblems filters)
    fun b => b.summaries env.mysql.weight filters := by
  rw [listProblems_eq]
  refine gives_withLease (Yields.gives ?_)
  exact (yields_selectProblems filters _).pass
    (g := fun rows b => rows.map (b.summary env.mysql.weight))
    fun rows => yields_ofDao (reports_summariesOf rows)

/-- All problems in full, by id. -/
def details (weight : Bytes → Bytes) (b : Bank) : List AdminProblemDetail :=
  (b.problemsWith weight none none).map fun p =>
    p.detail (b.tagsOf weight p.id) (b.testcasesOf p.id)

/-- What follows the query of `listFullProblems`. -/
def detailsOf (rows : List ProblemRow) : Dao (List AdminProblemDetail) := do
  let res ← executeQuery .storeResult "admin problem list store"
  let result ← rows.mapM detailOf
  ignoring (.freeResult res)
  return result

/-- **The list of the administration gives all problems in full.** -/
theorem gives_listFullProblems : Gives env listFullProblems (details env.mysql.weight) := by
  have heq : listFullProblems = Http.withLease (do
      let rows : List ProblemRow ← .call (.selectProblems none none) (orThrow "admin problem list")
      ofDao (detailsOf rows)) := by
    unfold listFullProblems detailsOf
    simp only [ofDao_bind, ofDao_mapM]
    rfl
  have hrest : ∀ rows, Reports env.mysql (detailsOf rows) fun b r =>
      r = rows.map fun p => p.detail (b.tagsOf env.mysql.weight p.id) (b.testcasesOf p.id) := by
    intro rows
    refine (reports_storeResult _).skip fun res => ?_
    refine (Reports.mapM reports_detailOf rows).pass (g := fun result _ => result) fun result => ?_
    exact (reports_freeResult res).skip fun _ => Reports.ret fun _ => rfl
  rw [heq]
  refine gives_withLease (Yields.gives ?_)
  exact (yields_selectProblems {} _).pass (g := fun rows b => rows.map fun p =>
    p.detail (b.tagsOf env.mysql.weight p.id) (b.testcasesOf p.id))
    fun rows => yields_ofDao (hrest rows)

/-- Samples are marked as such, although the column is not selected. -/
theorem yields_sampleTestcases (problemId : Nat) :
    Yields env (sampleTestcases problemId) fun b cases =>
      cases = (b.samplesOf problemId).map fun c =>
        ⟨c.id, c.problemId, c.input, c.expectedOutput, true⟩ := by
  have hquery : Yields env (.call (.selectSamples problemId) (orThrow "sample testcase query"))
      fun b rows => rows = b.samplesOf problemId := yields_query _ fun _ => rfl
  refine hquery.pass (g := fun (rows : List TestcaseRow) _ => rows.map fun c =>
    (⟨c.id, c.problemId, c.input, c.expectedOutput, true⟩ : TestCase)) fun rows => ?_
  refine (yields_ofDao (reports_storeResult _)).skip fun res => ?_
  exact (yields_ofDao (reports_freeResult res)).skip fun _ => yields_pure fun _ => rfl

/-- The page of a row, with tags and samples. -/
theorem yields_problemDetailOf (p : ProblemRow) :
    Yields env (problemDetailOf p) fun b d =>
      d = (p.detail (b.tagsOf env.mysql.weight p.id) (b.testcasesOf p.id)).page := by
  have hsamples : ∀ (b : Bank) (tags : List TagRow),
      (p.detail tags (b.testcasesOf p.id)).page.sampleTestcases = (b.samplesOf p.id).map fun c =>
        ⟨c.id, c.problemId, c.input, c.expectedOutput, true⟩ := by
    intro b tags
    unfold AdminProblemDetail.page ProblemRow.detail Bank.samplesOf
    dsimp only
    rw [List.filter_map, List.map_map]
    rfl
  refine ((yields_sampleTestcases p.id).pass (g := fun cases b =>
    { (p.detail (b.tagsOf env.mysql.weight p.id) []).page with sampleTestcases := cases })
    fun cases => ?_).mono ?_
  · refine (yields_ofDao (reports_tagsWithIdForProblem p.id)).pass (g := fun tags _ =>
      { (p.detail [] []).page with tags := tags, sampleTestcases := cases }) fun tags => ?_
    exact yields_pure fun _ => rfl
  · rintro b d rfl
    rw [← hsamples b (b.tagsOf env.mysql.weight p.id)]
    rfl

/-- **The page gives what is disclosed of the problem, if there is one.** -/
theorem gives_getProblemDetail (problemId : Nat) : Gives env (getProblemDetail problemId)
    fun b => (b.detail env.mysql.weight problemId).map AdminProblemDetail.page := by
  have hrow : ∀ row : Option ProblemRow, Yields env (row.mapM problemDetailOf) fun b r =>
      r = row.map fun p =>
        (p.detail (b.tagsOf env.mysql.weight p.id) (b.testcasesOf p.id)).page := by
    rintro (_ | p)
    · exact yields_pure fun _ => rfl
    · exact (yields_problemDetailOf p).pass (g := fun d _ => some d) fun d =>
        yields_pure fun _ => rfl
  have hquery : Reports env.mysql (executeQuery (.selectProblem problemId) "problem detail query")
      fun b r => r = b.problem? problemId :=
    reports_executeQuery rfl
      (fun w => ⟨w.view.problem? problemId, w, rfl, ⟨rfl, rfl, rfl, rfl⟩, rfl⟩) _
  have hmap : ∀ b : Bank, (b.detail env.mysql.weight problemId).map AdminProblemDetail.page =
      (b.problem? problemId).map fun p =>
        (p.detail (b.tagsOf env.mysql.weight p.id) (b.testcasesOf p.id)).page :=
    fun b => Option.map_map ..
  simp only [hmap]
  refine gives_withLease (Yields.gives ?_)
  refine (yields_ofDao hquery).pass (g := fun (row : Option ProblemRow) b => row.map fun p =>
    (p.detail (b.tagsOf env.mysql.weight p.id) (b.testcasesOf p.id)).page) fun row => ?_
  refine (yields_ofDao (reports_storeResult _)).skip fun res => ?_
  refine (hrow row).pass (g := fun result _ => result) fun result => ?_
  exact (yields_ofDao (reports_freeResult res)).skip fun _ => yields_pure fun _ => rfl

/-! ## One list of problems -/

section Details

variable {weight : Bytes → Bytes} {s : Store}

/-- The list of the administration is in the order of the ids. -/
theorem ascending_details (h : Schema weight s) :
    ((details weight s.rows).map AdminProblemDetail.id).Pairwise (· < ·) := by
  unfold details
  rw [List.map_map]
  exact ascending_problemsWith h {}

/-- Rows with different ids are found in any order. -/
theorem find?_problemsWith (h : Schema weight s) (id : Nat) :
    (s.rows.problemsWith weight none none).find? (fun p => p.id == id) = s.rows.problem? id := by
  have hperm : (s.rows.problemsWith weight none none).Perm s.rows.problems := by
    refine (List.perm_insertionSort _ _).trans (List.Perm.of_eq ?_)
    exact List.filter_eq_self.mpr fun _ _ => rfl
  unfold Bank.problem?
  cases hfind : s.rows.problems.find? fun p => p.id == id with
  | none =>
    rw [List.find?_eq_none] at hfind ⊢
    exact fun p hp => hfind p (hperm.mem_iff.mp hp)
  | some p =>
    have hp : p ∈ s.rows.problems := List.mem_of_find?_eq_some hfind
    have hid : (p.id == id) = true := List.find?_some (p := fun p : ProblemRow => p.id == id) hfind
    have hsome : ((s.rows.problemsWith weight none none).find? fun p => p.id == id).isSome :=
      List.find?_isSome.mpr ⟨p, hperm.mem_iff.mpr hp, hid⟩
    obtain ⟨q, hq⟩ := Option.isSome_iff_exists.mp hsome
    have hqid : (q.id == id) = true := List.find?_some (p := fun p : ProblemRow => p.id == id) hq
    have heq : q.id = p.id := (eq_of_beq hqid).trans (eq_of_beq hid).symm
    rw [hq, List.inj_on_of_nodup_map h.problemIds (hperm.mem_iff.mp (List.mem_of_find?_eq_some hq))
      hp heq]

/-- The entry with an id is the problem with it. -/
theorem find?_details (h : Schema weight s) (id : Nat) :
    (details weight s.rows).find? (fun d => d.id == id) = s.rows.detail weight id := by
  unfold details Bank.detail
  rw [List.find?_map, ← find?_problemsWith h id]
  rfl

/-- A choice of problems is a part of all of them, in the same order. -/
theorem problemsWith_eq_filter (h : Schema weight s) (filters : ProblemFilters) :
    s.rows.problemsWith weight filters.difficulty filters.tag =
      (s.rows.problemsWith weight none none).filter fun p =>
        filters.tag.all (s.rows.hasTag weight · p.id) &&
          filters.difficulty.all (p.difficulty == ·) := by
  have hsorted := fun filters => List.pairwise_map.mp (ascending_problemsWith h filters)
  have hall := (perm_problemsWith h {}).filter fun p =>
    filters.tag.all (s.rows.hasTag weight · p.id) && filters.difficulty.all (p.difficulty == ·)
  refine List.Perm.eq_of_pairwise (fun p q _ _ hpq hqp => absurd hpq hqp.le.not_gt)
    (hsorted filters) ((hsorted {}).filter _) ?_
  refine (perm_problemsWith h filters).trans (List.Perm.trans (List.Perm.of_eq ?_) hall.symm)
  simp [List.filter_filter, Bool.and_comm]

/-- The public list is a part of the list of the administration. -/
theorem summaries_eq_details (h : Schema weight s) (filters : ProblemFilters) :
    s.rows.summaries weight filters =
      ((details weight s.rows).filter (·.matches weight filters)).map
        AdminProblemDetail.summary := by
  unfold Bank.summaries details
  rw [problemsWith_eq_filter h filters, List.filter_map, List.map_map]
  have hsummary : ∀ p : ProblemRow, s.rows.summary weight p =
      (p.detail (s.rows.tagsOf weight p.id) (s.rows.testcasesOf p.id)).summary := by
    intro p
    unfold Bank.summary AdminProblemDetail.summary ProblemRow.detail
    simp
  have hmatches : ∀ p : ProblemRow,
      (p.detail (s.rows.tagsOf weight p.id) (s.rows.testcasesOf p.id)).matches weight filters =
        (filters.tag.all (s.rows.hasTag weight · p.id) &&
          filters.difficulty.all (p.difficulty == ·)) := by
    intro p
    unfold AdminProblemDetail.matches Bank.hasTag ProblemRow.detail
    simp only [List.any_map, (perm_tagsOf s.rows p.id).any_eq]
    rfl
  rw [List.map_congr_left fun p _ => hsummary p]
  exact congrArg (List.map _) (List.filter_congr fun p _ => (hmatches p).symm)

end Details

/-! ## The answers -/

/-- The handler gives this answer, or that of a database where one of its calls has failed. -/
def Answered (env : Env) (b : Backend) (p : Handler Response) (res : Response) : Prop :=
  (p.run env.exec b).1 = .ok res ∨
    (∃ e, (p.run env.exec b).1 = .ok (databaseError e)) ∧ CallFails env b p

/-- A handler that responds with what a program gives, or with an error. -/
theorem Gives.answered {p : Handler α} {f : Bank → α} (hp : Gives env p f) (respond : α → Response)
    (b : Backend) :
    Answered env b (Program.tryCatch (p >>= fun a => return respond a) fun e =>
      return databaseError e) (respond (f b.db.view)) := by
  unfold Answered CallFails
  rw [Program.run_tryCatch, Program.run_bind]
  have hout := hp b
  unfold CallFails at hout
  generalize p.run env.exec b = x at hout
  obtain ⟨x, b'⟩ := x
  rcases hout with hok | ⟨⟨e, he⟩, hfail⟩
  · cases hok
    exact .inl rfl
  · cases he
    exact .inr ⟨⟨e, rfl⟩, hfail⟩

/-- What a request for the list asks for. -/
def filtersOf (req : Request) (difficulty : Option Difficulty) : ProblemFilters where
  difficulty
  tag := (req.param? "tag").filter fun tag => !tag.isEmpty

/-- The answer with a problem, if there is one. -/
def respondWith : Option Json → Response
  | none => writeError 404 (utf8 "problem not found")
  | some problem => writeJson 200 problem

/-- The handler of the public list. -/
theorem answered_list {req : Request} {difficulty : Option Difficulty}
    (h : parseDifficultyQuery req = .ok difficulty) (env : Env) (b : Backend) :
    Answered env b (listProblemsHandler req) (writeJson 200
      (.array ((b.db.view.summaries env.mysql.weight (filtersOf req difficulty)).map
        Dto.ofSummary))) := by
  unfold listProblemsHandler
  rw [h]
  exact (gives_listProblems (filtersOf req difficulty)).answered
    (fun summaries => writeJson 200 (.array (summaries.map Dto.ofSummary))) b

/-- The handler of the public page of a problem. -/
theorem answered_page {raw : Bytes} {id : Nat} (h : parseProblemId raw = some id) (env : Env)
    (b : Backend) : Answered env b (getProblemHandler raw)
      (respondWith ((b.db.view.detail env.mysql.weight id).map fun d => Dto.ofDetail d.page)) := by
  have hgives : Gives env (getProblemDetail id) fun b =>
      (b.detail env.mysql.weight id).map AdminProblemDetail.page := gives_getProblemDetail id
  have hanswered := hgives.answered (fun d => respondWith (d.map Dto.ofDetail)) b
  rw [Option.map_map] at hanswered
  unfold getProblemHandler
  rw [h]
  convert hanswered using 4 with d
  · cases d <;> rfl
  · rfl

/-- The handler of the page of the administration. -/
theorem answered_admin {raw : Bytes} {id : Nat} (h : parseProblemId raw = some id) (env : Env)
    (b : Backend) : Answered env b (getAdminProblemHandler raw)
      (respondWith ((b.db.view.detail env.mysql.weight id).map Dto.ofAdminDetail)) := by
  have hgives := (yields_ofDao (reports_getFullProblem (m := env.mysql) id)).gives.answered
    (fun d => respondWith (d.map Dto.ofAdminDetail)) b
  unfold getAdminProblemHandler
  rw [h]
  convert hgives using 4 with d
  cases d <;> rfl

/--
**All the views agree.** There is one list of problems, by id, that the administration lists in
full. The public list has the part of it that was asked for, and the pages of a problem have its
entry with that id, each without what it does not show.
-/
theorem views_agree (env : Env) (b : Backend) (h : Schema env.mysql.weight b.db.store) :
    ∃ problems : List AdminProblemDetail,
      (problems.map AdminProblemDetail.id).Pairwise (· < ·) ∧
      Answered env b listAdminProblemsHandler
        (writeJson 200 (.array (problems.map Dto.ofAdminDetail))) ∧
      (∀ req difficulty, parseDifficultyQuery req = .ok difficulty →
        Answered env b (listProblemsHandler req) (writeJson 200 (.array
          (((problems.filter (·.matches env.mysql.weight (filtersOf req difficulty))).map
            AdminProblemDetail.summary).map Dto.ofSummary)))) ∧
      ∀ raw id, parseProblemId raw = some id →
        let problem := problems.find? fun d => d.id == id
        Answered env b (getAdminProblemHandler raw) (respondWith (problem.map Dto.ofAdminDetail)) ∧
          Answered env b (getProblemHandler raw)
            (respondWith (problem.map fun d => Dto.ofDetail d.page)) := by
  have hview : b.db.view = b.db.store.rows := rfl
  refine ⟨details env.mysql.weight b.db.view, ascending_details h, ?_, ?_, ?_⟩
  · exact gives_listFullProblems.answered
      (fun problems => writeJson 200 (.array (problems.map Dto.ofAdminDetail))) b
  · intro req difficulty hreq
    rw [hview, ← summaries_eq_details h]
    exact answered_list hreq env b
  · intro raw id hraw
    dsimp only
    rw [hview, find?_details h]
    exact ⟨answered_admin hraw env b, answered_page hraw env b⟩

theorem views_agree_shared : ∃ problems : List AdminProblemDetail,
    (problems.map AdminProblemDetail.id).Pairwise (· < ·) ∧
    Answered calmEnv sharedTag listAdminProblemsHandler
      (writeJson 200 (.array (problems.map Dto.ofAdminDetail))) ∧
    (∀ req difficulty, parseDifficultyQuery req = .ok difficulty →
      Answered calmEnv sharedTag (listProblemsHandler req) (writeJson 200 (.array
        (((problems.filter (·.matches calmEnv.mysql.weight (filtersOf req difficulty))).map
          AdminProblemDetail.summary).map Dto.ofSummary)))) ∧
    ∀ raw id, parseProblemId raw = some id →
      let problem := problems.find? fun d => d.id == id
      Answered calmEnv sharedTag (getAdminProblemHandler raw)
          (respondWith (problem.map Dto.ofAdminDetail)) ∧
        Answered calmEnv sharedTag (getProblemHandler raw)
          (respondWith (problem.map fun d => Dto.ofDetail d.page)) :=
  views_agree calmEnv sharedTag
    ⟨by decide, by decide, by decide, by decide, by decide, by decide, by decide, by decide,
      by decide, by decide, by decide⟩

end MiniOj.Http
