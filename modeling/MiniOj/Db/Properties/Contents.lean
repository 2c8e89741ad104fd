import MiniOj.Db.Properties.Updating

/-!
# What a reader alone with the database sees

* `calls_le_run` — a program is counted by its calls
* `Reports` — a program answers from the rows and leaves them alone, or it throws because one of
  its calls has failed
* `reports_getFullProblem` — the complete content of a problem
-/

namespace MiniOj.Db

open Infra Admin

variable {m : Mysql} {α β : Type} {w : World}

/-- What is seen is the same. -/
theorem World.Same.view {w' : World} (h : w.Same w') : w'.view = w.view := by
  rw [World.view, World.view, h.bank, h.work]

/-- One call after another. -/
theorem World.Same.trans {w₁ w₂ w₃ : World} (h : w₁.Same w₂) (h' : w₂.Same w₃) : w₁.Same w₃ :=
  ⟨h'.bank.trans h.bank, h'.work.trans h.work, h'.held.trans h.held, h'.next.trans h.next⟩

/-! ## Calls -/

/-- Changing rows is no call. -/
theorem World.setRows_calls (w : World) (b : Bank) : (w.setRows b).calls = w.calls := by
  unfold World.setRows
  split <;> rfl

/-- No statement touches the count of the calls. -/
theorem perform_calls {st : Statement} {r : st.Result} {w' : World}
    (h : m.perform w st = some (r, w')) : w'.calls = w.calls := by
  cases st with
  | insertProblem | upsertTag | linkTag | insertTestcase | updateProblem =>
    obtain ⟨x, -, hx⟩ := Option.map_eq_some_iff.mp h
    cases hx
    exact w.setRows_calls _
  | deleteProblem | deleteTestcases | deleteProblemTags | deleteAll =>
    cases h
    exact w.setRows_calls _
  | _ =>
    cases h
    rfl

/-- Every call is counted. -/
theorem exec_calls (st : Statement) (w : World) : (m.exec st w).2.calls = w.calls + 1 := by
  unfold Mysql.exec
  split
  · rfl
  · dsimp only
    split
    · next r w' hp => exact congrArg (· + 1) (perform_calls hp)
    · rfl

/-- The count does not go back. -/
theorem calls_le_run (p : Dao α) : ∀ w : World, w.calls ≤ (p.run m.exec w).2.calls := by
  induction p with
  | ret a => exact fun w => Nat.le_refl _
  | throw e => exact fun w => Nat.le_refl _
  | call st k ih =>
    intro w
    have hexec := exec_calls (m := m) st w
    exact (Nat.le_of_lt (hexec ▸ Nat.lt_succ_self w.calls)).trans (ih _ _)

/-- A wider span has the same failures. -/
theorem Mysql.FailsBetween.mono {n n' k k' : Nat} (h : m.FailsBetween n n') (hk : k ≤ n)
    (hk' : n' ≤ k') : m.FailsBetween k k' :=
  let ⟨i, hi, hi', hf⟩ := h
  ⟨i, hk.trans hi, hi'.trans_le hk', hf⟩

/-- The first call of a run fails. -/
theorem failsBetween_first {n n' : Nat} (hf : m.fails n ≠ none) (hn : n < n') :
    m.FailsBetween n n' := ⟨n, Nat.le_refl n, hn, hf⟩

/-! ## Programs that read -/

/-- The program leaves the rows alone. What it returns is related to them by `post`, and it
throws only when one of its calls fails. -/
def Reports (m : Mysql) (p : Dao α) (post : Bank → α → Prop) : Prop :=
  ∀ w, w.Same (p.run m.exec w).2 ∧
    ((∃ a, (p.run m.exec w).1 = .ok a ∧ post w.view a) ∨
      (∃ e, (p.run m.exec w).1 = .error e) ∧
        m.FailsBetween w.calls (p.run m.exec w).2.calls)

/-- A weaker condition on the answer. -/
theorem Reports.mono {p : Dao α} {post post' : Bank → α → Prop} (hp : Reports m p post)
    (h : ∀ b a, post b a → post' b a) : Reports m p post' := by
  intro w
  obtain ⟨hw, ⟨a, ha, hpost⟩ | herror⟩ := hp w
  · exact ⟨hw, .inl ⟨a, ha, h _ a hpost⟩⟩
  · exact ⟨hw, .inr herror⟩

/-- A value asks nothing. -/
theorem Reports.ret {a : α} {post : Bank → α → Prop} (h : ∀ b, post b a) :
    Reports m (.ret a) post :=
  fun w => ⟨⟨rfl, rfl, rfl, rfl⟩, .inl ⟨a, rfl, h w.view⟩⟩

/-- The second program sees the bank that the first has seen. -/
theorem Reports.bind {p : Dao α} {f : α → Dao β} {post : Bank → α → Prop}
    {post' : α → Bank → β → Prop} (hp : Reports m p post) (hf : ∀ a, Reports m (f a) (post' a)) :
    Reports m (p >>= f) fun b c => ∃ a, post b a ∧ post' a b c := by
  intro w
  rw [Program.run_bind]
  obtain ⟨hw, hout⟩ := hp w
  have hcalls := calls_le_run (m := m) p w
  generalize p.run m.exec w = x at hw hout hcalls
  obtain ⟨x, w₁⟩ := x
  rcases hout with ⟨a, rfl, hpost⟩ | ⟨⟨e, rfl⟩, hfail⟩
  · obtain ⟨hw', ⟨c, hc, hpost'⟩ | ⟨herror, hfail⟩⟩ := hf a w₁
    · refine ⟨hw.trans hw', .inl ⟨c, hc, a, hpost, ?_⟩⟩
      rw [← hw.view]
      exact hpost'
    · exact ⟨hw.trans hw', .inr ⟨herror, hfail.mono hcalls (Nat.le_refl _)⟩⟩
  · exact ⟨hw, .inr ⟨⟨e, rfl⟩, hfail⟩⟩

/-- What a program returns is passed on to the next. -/
theorem Reports.pass {p : Dao α} {k : α → Dao β} {f : Bank → α} {g : α → Bank → β}
    (hp : Reports m p fun b a => a = f b) (hk : ∀ a, Reports m (k a) fun b c => c = g a b) :
    Reports m (p >>= k) fun b c => c = g (f b) b := by
  refine (hp.bind hk).mono ?_
  rintro b c ⟨a, rfl, hc⟩
  exact hc

/-- What a program returns is not looked at. -/
theorem Reports.skip {p : Dao α} {k : α → Dao β} {post : Bank → β → Prop}
    (hp : Reports m p fun _ _ => True) (hk : ∀ a, Reports m (k a) post) :
    Reports m (p >>= k) post := by
  refine (hp.bind hk).mono ?_
  rintro b c ⟨a, -, hc⟩
  exact hc

/-! ## Queries -/

/-- A statement that leaves the rows reports what it finds. -/
theorem reports_executeQuery {st : Statement} {post : Bank → st.Result → Prop}
    (hst : st.Infallible = false)
    (h : ∀ w, ∃ r w', m.perform w st = some (r, w') ∧ w.Same w' ∧ post w.view r)
    (context : String) : Reports m (executeQuery st context) post := by
  intro w
  obtain ⟨r, w', hp, hw, hpost⟩ := h w
  by_cases hf : m.fails w.calls = none
  · rw [run_executeQuery_ok hf hp]
    exact ⟨⟨hw.bank, hw.work, hw.held, hw.next⟩, .inl ⟨r, rfl, hpost⟩⟩
  · obtain ⟨e, he⟩ := run_executeQuery_error (m := m) (w := w) st context hst fun h => absurd h hf
    rw [he]
    exact ⟨⟨rfl, rfl, rfl, rfl⟩, .inr ⟨⟨e, rfl⟩, failsBetween_first hf (Nat.lt_succ_self _)⟩⟩

/-- Storing a result reports nothing. -/
theorem reports_storeResult (context : String) :
    Reports m (executeQuery .storeResult context) fun _ _ => True :=
  reports_executeQuery rfl (fun w => ⟨w.calls, { w with results := w.calls :: w.results }, rfl,
    ⟨rfl, rfl, rfl, rfl⟩, trivial⟩) context

/-- Nor does freeing one. -/
theorem reports_freeResult (res : Nat) : Reports m (ignoring (.freeResult res)) fun _ _ => True :=
  fun _ => ⟨⟨rfl, rfl, rfl, rfl⟩, .inl ⟨(), rfl, trivial⟩⟩

/-- **A query reports what it finds.** -/
theorem reports_rowsOf (st : Statement) (f : Bank → st.Result) (hst : st.Infallible = false)
    (h : ∀ w, m.perform w st = some (f w.view, w)) (context store : String) :
    Reports m (rowsOf st context store) fun b r => r = f b := by
  have hquery : Reports m (executeQuery st context) fun b r => r = f b :=
    reports_executeQuery hst (fun w => ⟨f w.view, w, h w, ⟨rfl, rfl, rfl, rfl⟩, rfl⟩) context
  refine hquery.pass (g := fun rows _ => rows) fun rows => ?_
  refine (reports_storeResult store).skip fun res => (reports_freeResult res).skip fun _ => ?_
  exact Reports.ret fun _ => rfl

/-- A lease changes neither the rows nor the answer. -/
theorem reports_withLease {p : Dao α} {post : Bank → α → Prop} (hp : Reports m p post) :
    Reports m (withLease p) post := by
  intro w
  by_cases hf : m.fails w.calls = none
  · rw [run_withLease hf]
    obtain ⟨hw, hout⟩ := hp w.acquired
    refine ⟨⟨hw.bank, hw.work, ?_, hw.next⟩, hout.imp_right fun ⟨he, hfail⟩ =>
      ⟨he, hfail.mono (Nat.le_succ _) (Nat.le_succ _)⟩⟩
    show (p.run m.exec w.acquired).2.held - 1 = w.held
    rw [hw.held]
    rfl
  · obtain ⟨e, he⟩ := run_withLease_error (m := m) (p := p) hf
    rw [he]
    exact ⟨⟨rfl, rfl, rfl, rfl⟩, .inr ⟨⟨e, rfl⟩, failsBetween_first hf (Nat.lt_succ_self _)⟩⟩

/-! ## A whole problem -/

/-- The tags of a problem. -/
theorem reports_tagsWithIdForProblem (problemId : Nat) :
    Reports m (tagsWithIdForProblem problemId) fun b tags =>
      tags = (b.tagsOf m.weight problemId).map fun t => ⟨t.id, t.name⟩ := by
  have hrows := reports_rowsOf (m := m) (.selectTags problemId)
    (fun b => b.tagsOf m.weight problemId) rfl (fun _ => rfl) "tag query" "tag query store"
  exact hrows.pass (g := fun (rows : List TagRow) _ => rows.map fun t => (⟨t.id, t.name⟩ : Tag))
    fun rows => Reports.ret fun _ => rfl

/-- The testcases of a problem. -/
theorem reports_allTestcases (problemId : Nat) :
    Reports m (allTestcases problemId) fun b cases =>
      cases = (b.testcasesOf problemId).map fun c =>
        ⟨c.id, c.problemId, c.input, c.expectedOutput, c.isSample, c.score⟩ := by
  have hrows := reports_rowsOf (m := m) (.selectTestcases problemId)
    (fun b => b.testcasesOf problemId) rfl (fun _ => rfl) "testcase query" "testcase store"
  exact hrows.pass (g := fun (rows : List TestcaseRow) _ => rows.map fun c =>
    (⟨c.id, c.problemId, c.input, c.expectedOutput, c.isSample, c.score⟩ : AdminTestCase))
    fun rows => Reports.ret fun _ => rfl

/-- The rest of a problem whose row is given. -/
theorem reports_detailOf (p : ProblemRow) : Reports m (detailOf p) fun b d =>
    d = p.detail (b.tagsOf m.weight p.id) (b.testcasesOf p.id) := by
  refine (reports_tagsWithIdForProblem p.id).pass (g := fun tags b =>
    { p.detail [] (b.testcasesOf p.id) with tags }) fun tags => ?_
  refine (reports_allTestcases p.id).pass (g := fun testcases _ =>
    { p.detail [] [] with tags, testcases }) fun testcases => ?_
  exact Reports.ret fun _ => rfl

/-- **`getFullProblem` returns the complete content of the problem.** -/
theorem reports_getFullProblem (problemId : Nat) :
    Reports m (getFullProblem problemId) fun b r => r = b.detail m.weight problemId := by
  have hrow : ∀ row : Option ProblemRow, Reports m (row.mapM detailOf) fun b r =>
      r = row.map fun p => p.detail (b.tagsOf m.weight p.id) (b.testcasesOf p.id) := by
    rintro (_ | p)
    · exact Reports.ret fun _ => rfl
    · exact (reports_detailOf p).pass (g := fun d _ => some d) fun d => Reports.ret fun _ => rfl
  have hquery : Reports m (executeQuery (.selectProblem problemId) "admin problem detail")
      fun b r => r = b.problem? problemId :=
    reports_executeQuery rfl
      (fun w => ⟨w.view.problem? problemId, w, rfl, ⟨rfl, rfl, rfl, rfl⟩, rfl⟩) _
  refine reports_withLease (hquery.pass (g := fun (row : Option ProblemRow) b =>
    row.map fun p => p.detail (b.tagsOf m.weight p.id) (b.testcasesOf p.id)) fun row => ?_)
  refine (reports_storeResult _).skip fun res => ?_
  refine (hrow row).pass (g := fun result _ => result) fun result => ?_
  exact (reports_freeResult res).skip fun _ => Reports.ret fun _ => rfl

end MiniOj.Db
