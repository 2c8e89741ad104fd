import MiniOj.Db.Spec.Seeding

/-!
# Storing a problem is all or nothing

Calls may fail, and answers may be lost: a `COMMIT` whose answer is lost has been carried out.

* `Implements` — inside a transaction a program does what a function on rows and counters
  does, or it throws and no committed row has changed
* `createProblem_through`, `createProblem_unheard`, `createProblem_stopped` — `createProblem`
  stores the whole problem and returns, or stores it and throws, or throws and leaves the
  committed rows as they were
* `createProblem_ok`, `createProblem_error` — where no answer is lost, the first and the last
-/

namespace MiniOj.Db

open Infra Admin

variable {m : Mysql} {lost : Nat → Option Bytes} {α β : Type} {w w' : World}

/-- So many calls from the `n`th on, one after another. -/
theorem forall_span_add {P : Nat → Prop} {n k l : Nat} :
    (∀ i < k + l, P (n + i)) ↔ (∀ i < k, P (n + i)) ∧ ∀ i < l, P (n + k + i) := by
  constructor
  · intro h
    refine ⟨fun i hi => h i (by omega), fun i hi => ?_⟩
    rw [Nat.add_assoc]
    exact h (k + i) (by omega)
  · rintro ⟨h, h'⟩ i hi
    by_cases hik : i < k
    · exact h i hik
    · have := h' (i - k) (by omega)
      rwa [show n + k + (i - k) = n + i by omega] at this

theorem forall_span_one {P : Nat → Prop} {n : Nat} : (∀ i < 1, P (n + i)) ↔ P n := by
  constructor
  · exact fun h => h 0 Nat.one_pos
  · intro h i hi
    rw [Nat.lt_one_iff.mp hi]
    exact h

/-- Outside of a transaction a connection sees what is committed. -/
theorem view_of_none (hw : w.work = none) : w.view = w.bank := by
  rw [World.view, hw, Option.getD_none]

namespace Mysql

/-- No call fails in one span and then in the next. -/
theorem quiet_add {n k l : Nat} : m.Quiet n (k + l) ↔ m.Quiet n k ∧ m.Quiet (n + k) l :=
  forall_span_add (P := fun n => m.fails n = none)

theorem quiet_one {n : Nat} : m.Quiet n 1 ↔ m.fails n = none :=
  forall_span_one (P := fun n => m.fails n = none)

/-- Calls get through one span and then the next. -/
theorem through_add {n k l : Nat} :
    m.Through lost n (k + l) ↔ m.Through lost n k ∧ m.Through lost (n + k) l :=
  forall_span_add (P := fun n => m.fails n = none ∧ lost n = none)

theorem through_one {n : Nat} : m.Through lost n 1 ↔ m.fails n = none ∧ lost n = none :=
  forall_span_one (P := fun n => m.fails n = none ∧ lost n = none)

theorem through_zero {n : Nat} : m.Through lost n 0 := fun _ hi => absurd hi (Nat.not_lt_zero _)

/-- Without lost answers, to get through is not to fail. -/
theorem through_never {n k : Nat} : m.Through (fun _ => none) n k ↔ m.Quiet n k :=
  forall₂_congr fun _ _ => and_iff_left rfl

/-- What a fallible statement replies when the server lets it through. -/
theorem exec_of_quiet {st : Statement} {r : st.Result} (hf : m.fails w.calls = none)
    (hp : m.perform w st = some (r, w')) :
    m.exec st w = (.ok r, { w' with calls := w'.calls + 1 }) := by
  unfold exec
  rw [hf, ite_self, hp]

/-- A call that fails, or whose statement is refused. -/
theorem exec_error (st : Statement) (hst : st.Infallible = false)
    (h : m.fails w.calls = none → m.perform w st = none) :
    ∃ e, m.exec st w = (.error e, { w with calls := w.calls + 1 }) := by
  unfold exec
  rw [hst]
  cases hf : m.fails w.calls with
  | some e => exact ⟨e, rfl⟩
  | none => exact ⟨m.refusal st, by rw [h hf]; rfl⟩

/-- A statement whose answer the code waits for is one whose outcome it looks at. -/
theorem not_infallible {st : Statement} (h : st.Answered = true) : st.Infallible = false := by
  cases st <;> first | rfl | cases h

/-- What does not change when a statement is carried out does not change when it is not. -/
theorem exec_frame {γ : Type} {f : World → γ} (hcalls : ∀ v : World,
      f { v with calls := v.calls + 1 } = f v) {st : Statement}
    (h : ∀ r w', m.perform w st = some (r, w') → f w' = f w) : f (m.exec st w).2 = f w := by
  unfold exec
  split
  · exact hcalls w
  · cases hp : m.perform w st with
    | none => exact hcalls w
    | some r => exact (hcalls r.2).trans (h r.1 r.2 hp)

end Mysql

/-- A statement that is carried out and answered. -/
theorem run_executeQuery_through {st : Statement} {context : String} {r : st.Result}
    (hf : m.fails w.calls = none) (hl : lost w.calls = none)
    (hp : m.perform w st = some (r, w')) : (executeQuery st context).run (m.execLosing lost) w =
      (.ok r, { w' with calls := w'.calls + 1 }) := by
  refine (Program.run_call (m.execLosing lost) st _ w).trans ?_
  rw [Mysql.execLosing_of_none hl, Mysql.exec_of_quiet hf hp]
  rfl

/-- The server does not carry the statement out, and says so. -/
theorem run_executeQuery_refused (st : Statement) (context : String)
    (hst : st.Infallible = false) (hl : lost w.calls = none)
    (h : m.fails w.calls = none → m.perform w st = none) :
    ∃ e, (executeQuery st context).run (m.execLosing lost) w =
      (.error e, { w with calls := w.calls + 1 }) := by
  obtain ⟨e, he⟩ := Mysql.exec_error st hst h
  refine ⟨runtimeError (utf8 (context ++ " failed: ") ++ e), ?_⟩
  refine (Program.run_call (m.execLosing lost) st _ w).trans ?_
  rw [Mysql.execLosing_of_none hl, he]
  rfl

/-- The server may have carried the statement out, and the program does not learn it. -/
theorem run_executeQuery_lost (st : Statement) (context : String) (hst : st.Answered = true)
    (hl : lost w.calls ≠ none) : ∃ e, (executeQuery st context).run (m.execLosing lost) w =
      (.error e, { (m.exec st w).2 with work := none }) := by
  obtain ⟨e, he⟩ := Option.ne_none_iff_exists'.mp hl
  refine ⟨runtimeError (utf8 (context ++ " failed: ") ++ e), ?_⟩
  refine (Program.run_call (m.execLosing lost) st _ w).trans ?_
  rw [Mysql.execLosing_of_some hst he]
  rfl

/-- A statement on its own that does not get through: its effect is there when only the answer is
missing. -/
theorem run_executeQuery_stopped {st : Statement} {r : st.Result} (context : String)
    (hst : st.Answered = true) (hw : w.work = none) (hp : m.perform w st = some (r, w'))
    (hno : ¬ (m.fails w.calls = none ∧ lost w.calls = none)) :
    ∃ e w'', (executeQuery st context).run (m.execLosing lost) w = (.error e, w'') ∧
      w''.bank = (if m.fails w.calls = none then w'.bank else w.bank) ∧ w''.work = none := by
  by_cases hf : m.fails w.calls = none
  · obtain ⟨e, he⟩ := run_executeQuery_lost (m := m) st context hst fun hl => hno ⟨hf, hl⟩
    rw [he, Mysql.exec_of_quiet hf hp, if_pos hf]
    exact ⟨e, _, rfl, rfl, rfl⟩
  · rw [if_neg hf]
    by_cases hl : lost w.calls = none
    · obtain ⟨e, he⟩ := run_executeQuery_refused st context (Mysql.not_infallible hst) hl
        fun h => absurd h hf
      exact ⟨e, _, he, rfl, hw⟩
    · obtain ⟨e, he⟩ := run_executeQuery_lost (m := m) st context hst hl
      obtain ⟨error, herror⟩ := Mysql.exec_error (m := m) st (Mysql.not_infallible hst)
        fun h => absurd h hf
      rw [he, herror]
      exact ⟨e, _, rfl, rfl, rfl⟩

/-- The same without lost answers. -/
theorem run_executeQuery_ok {st : Statement} {context : String} {r : st.Result}
    (hf : m.fails w.calls = none) (hp : m.perform w st = some (r, w')) :
    (executeQuery st context).run m.exec w = (.ok r, { w' with calls := w'.calls + 1 }) := by
  rw [← m.execLosing_never]
  exact run_executeQuery_through hf rfl hp

/-- A statement that is not carried out leaves everything as it was. -/
theorem run_executeQuery_error (st : Statement) (context : String) (hst : st.Infallible = false)
    (h : m.fails w.calls = none → m.perform w st = none) :
    ∃ e, (executeQuery st context).run m.exec w = (.error e, { w with calls := w.calls + 1 }) := by
  rw [← m.execLosing_never]
  exact run_executeQuery_refused st context hst rfl h

/-! ## Programs inside a transaction -/

/-- The calls that a program makes inside a transaction compute `f`, given the number of the
first of `k` calls: it returns when all get through and `f` has a value, otherwise it throws. -/
structure Implements (m : Mysql) (lost : Nat → Option Bytes) (p : Dao α) (k : Nat)
    (f : Nat → Store → Option (α × Store)) : Prop where
  ok : ∀ w b a s, w.work = some b → m.Through lost w.calls k →
    f w.calls w.store = some (a, s) → p.run (m.execLosing lost) w =
      (.ok a, { w with work := some s.rows, next := s.next, calls := w.calls + k })
  error : ∀ w b, w.work = some b → ¬ (m.Through lost w.calls k ∧ (f w.calls w.store).isSome) →
    ∃ e w', p.run (m.execLosing lost) w = (.error e, w') ∧ w'.bank = w.bank ∧ w'.held = w.held

/-- No statement at all. -/
theorem Implements.pure {m : Mysql} {a : α} :
    Implements m lost (pure a) 0 fun _ s => some (a, s) where
  ok w b a' s hw _ h := by
    obtain ⟨bank, work, next, calls, held, results, freed⟩ := w
    cases hw
    cases h
    rfl
  error w b _ h := absurd ⟨Mysql.through_zero, rfl⟩ h

/-- A single statement. -/
theorem Implements.executeQuery {st : Statement} {context : String}
    {f : Nat → Store → Option (st.Result × Store)} (hst : st.Answered = true)
    (h : ∀ w b, w.work = some b → m.perform w st =
      (f w.calls w.store).map fun (r, s) => (r, { w with work := some s.rows, next := s.next })) :
    Implements m lost (executeQuery st context) 1 f where
  ok w b r s hw hq hf := by
    have hp := h w b hw
    rw [hf] at hp
    obtain ⟨hfails, hlost⟩ := Mysql.through_one.mp hq
    exact run_executeQuery_through hfails hlost hp
  error w b hw hno := by
    by_cases hlost : lost w.calls = none
    · have hnone : m.fails w.calls = none → m.perform w st = none := by
        intro hf
        rw [h w b hw]
        cases hr : f w.calls w.store with
        | none => rfl
        | some r => exact absurd ⟨Mysql.through_one.mpr ⟨hf, hlost⟩, by rw [hr]; rfl⟩ hno
      obtain ⟨e, he⟩ :=
        run_executeQuery_refused st context (Mysql.not_infallible hst) hlost hnone
      exact ⟨e, _, he, rfl, rfl⟩
    · -- carried out or not, the statement has touched its own copy of the rows only
      obtain ⟨e, he⟩ := run_executeQuery_lost (m := m) st context hst hlost
      have hperform : ∀ r w', m.perform w st = some (r, w') →
          w'.bank = w.bank ∧ w'.held = w.held := by
        intro r w' hp
        rw [h w b hw] at hp
        obtain ⟨x, -, hx⟩ := Option.map_eq_some_iff.mp hp
        rw [← (Prod.mk.inj hx).2]
        exact ⟨rfl, rfl⟩
      exact ⟨e, _, he, Mysql.exec_frame (f := World.bank) (fun _ => rfl)
        fun r w' hp => (hperform r w' hp).1, Mysql.exec_frame (f := World.held) (fun _ => rfl)
        fun r w' hp => (hperform r w' hp).2⟩

/-- One program after another. -/
theorem Implements.bind {p : Dao α} {k l : Nat} {f : Nat → Store → Option (α × Store)}
    {q : α → Dao β} {g : α → Nat → Store → Option (β × Store)} (hp : Implements m lost p k f)
    (hq : ∀ a, Implements m lost (q a) l (g a)) :
    Implements m lost (p >>= q) (k + l) fun n s =>
      (f n s).bind fun (a, s) => g a (n + k) s where
  ok w b r s hw hquiet h := by
    obtain ⟨hk, hl⟩ := Mysql.through_add.mp hquiet
    obtain ⟨⟨a, s₁⟩, hf, hg⟩ := Option.bind_eq_some_iff.mp h
    have hrun := (hq a).ok { w with work := some s₁.rows, next := s₁.next, calls := w.calls + k }
      s₁.rows r s rfl hl hg
    rw [Program.run_bind, hp.ok w b a s₁ hw hk hf]
    dsimp only at hrun ⊢
    rw [hrun, Nat.add_assoc]
  error w b hw hno := by
    rw [Program.run_bind]
    by_cases hok : m.Through lost w.calls k ∧ (f w.calls w.store).isSome
    · -- the first program gets through, so the second one does not
      obtain ⟨hk, hsome⟩ := hok
      obtain ⟨⟨a, s₁⟩, hf⟩ := Option.isSome_iff_exists.mp hsome
      rw [hp.ok w b a s₁ hw hk hf]
      refine (hq a).error { w with work := some s₁.rows, next := s₁.next, calls := w.calls + k }
        s₁.rows rfl fun ⟨hl, hg⟩ => hno ⟨Mysql.through_add.mpr ⟨hk, hl⟩, ?_⟩
      rw [hf]
      exact hg
    · obtain ⟨e, w', hrun, hkeep⟩ := hp.error w b hw hok
      rw [hrun]
      exact ⟨e, w', rfl, hkeep⟩

/-- Only what the function says matters. -/
theorem Implements.congr {p : Dao α} {k : Nat} {f g : Nat → Store → Option (α × Store)}
    (h : Implements m lost p k f) (hfg : ∀ n s, f n s = g n s) : Implements m lost p k g := by
  have : f = g := funext fun n => funext fun s => hfg n s
  exact this ▸ h

/-! ## The body of `createProblem` -/

/-- Inside of a transaction its own rows change. -/
theorem World.setStore_of_work {b : Bank} (hw : w.work = some b) (s : Store) :
    w.setStore s = { w with work := some s.rows, next := s.next } := by
  rw [setStore, setRows, hw]

/-- A statement whose reply says nothing. -/
theorem Implements.executeUnit {st : Statement} {context : String} (hr : st.Result = Unit)
    {f : Nat → Store → Option Store} (hst : st.Answered = true)
    (h : ∀ w, m.perform w st = (f w.calls w.store).map fun s => (hr ▸ (), w.setStore s)) :
    Implements m lost (Db.executeQuery st context) 1 fun n s => (f n s).map fun s => (hr ▸ (), s) := by
  refine .executeQuery hst fun w b hw => ?_
  simp only [h w, World.setStore_of_work hw, Option.map_map]
  rfl

/-- Two statements for each tag. -/
theorem implements_insertProblemTags (m : Mysql) (lost : Nat → Option Bytes) (problemId : Nat)
    (tags : List Bytes) : Implements m lost (insertProblemTags problemId tags) (2 * tags.length)
      fun _ s => (s.addTags m.weight problemId tags).map fun s => ((), s) := by
  induction tags with
  | nil => exact Implements.pure
  | cons name names ih =>
    have hupsert : Implements m lost (executeQuery (.upsertTag name) "tag upsert") 1
        fun _ s => s.upsertTag m.weight name := by
      refine .executeQuery rfl fun w b hw => ?_
      simp only [Mysql.perform, World.setStore_of_work hw]
    have hlink : ∀ tagId : Nat, Implements m lost
        (executeQuery (.linkTag problemId tagId) "problem_tag link") 1
        fun _ s => (s.linkTag problemId tagId).map fun s => ((), s) := fun tagId =>
      .executeUnit rfl rfl fun w => rfl
    have hone := (hupsert.bind fun tagId => hlink tagId).bind fun _ => ih
    rw [show 2 * (name :: names).length = 1 + 1 + 2 * names.length by simp; omega]
    refine hone.congr fun n s => ?_
    rw [Store.addTags]
    cases s.upsertTag m.weight name with
    | none => rfl
    | some r =>
      obtain ⟨tagId, s₁⟩ := r
      change Option.bind (Option.map _ (s₁.linkTag problemId tagId)) _ =
        Option.map _ (Option.bind (s₁.linkTag problemId tagId) _)
      cases s₁.linkTag problemId tagId with
      | none => rfl
      | some s₂ => rfl

/-- One statement for each testcase. -/
theorem implements_insertTestcases (m : Mysql) (lost : Nat → Option Bytes) (problemId : Nat)
    (cases : List TestCaseInput) :
    Implements m lost (insertTestcases problemId cases) cases.length
      fun n s => (s.addTestcases m.clock problemId cases n).map fun s => ((), s) := by
  induction cases with
  | nil => exact Implements.pure
  | cons c cases ih =>
    have hinsert : Implements m lost (executeQuery (.insertTestcase problemId c.input c.expectedOutput
        c.isSample c.score) "testcase insert") 1
        fun n s => (s.insertTestcase (m.clock n) problemId c.input c.expectedOutput c.isSample
          c.score).map fun s => ((), s) :=
      .executeUnit rfl rfl fun w => rfl
    have hone := hinsert.bind fun _ => ih
    rw [List.length_cons, Nat.add_comm cases.length]
    refine hone.congr fun n s => ?_
    rw [Store.addTestcases]
    cases s.insertTestcase (m.clock n) problemId c.input c.expectedOutput c.isSample c.score with
    | none => rfl
    | some s₁ => rfl

/-- The body of the transaction of `createProblem`. -/
def createBody (input : ProblemInput) : Dao Nat := do
  let problemId ← executeQuery (.insertProblem input.title input.descriptionMd input.difficulty
    input.timeLimitMs input.memoryLimitMb) "problem insert"
  insertProblemTags problemId input.tags
  insertTestcases problemId input.testcases
  return problemId

/-- A lease, a transaction and its body. -/
theorem createProblem_eq (input : ProblemInput) :
    createProblem input = withLease (transaction (createBody input)) := rfl

/-- **The body of `createProblem` adds the problem.** -/
theorem implements_createBody (input : ProblemInput) :
    Implements m lost (createBody input) (Mysql.bodyCalls input)
      fun n s => s.addProblem m.weight m.clock input n := by
  have hinsert : Implements m lost (executeQuery (.insertProblem input.title input.descriptionMd
      input.difficulty input.timeLimitMs input.memoryLimitMb) "problem insert") 1
      fun n s => s.insertProblem (m.clock n) input.title input.descriptionMd input.difficulty
        input.timeLimitMs input.memoryLimitMb := by
    refine .executeQuery rfl fun w b hw => ?_
    simp only [Mysql.perform, World.setStore_of_work hw]
  have hbody := hinsert.bind fun id => (implements_insertProblemTags m lost id input.tags).bind
    fun _ => (implements_insertTestcases m lost id input.testcases).bind
      fun _ => Implements.pure (a := id)
  rw [show Mysql.bodyCalls input = 1 + (2 * input.tags.length + (input.testcases.length + 0)) by
    rw [Mysql.bodyCalls]; omega]
  refine hbody.congr fun n s => ?_
  rw [Store.addProblem]
  cases s.insertProblem (m.clock n) input.title input.descriptionMd input.difficulty
    input.timeLimitMs input.memoryLimitMb with
  | none => rfl
  | some r =>
    obtain ⟨id, s₁⟩ := r
    change Option.bind (Option.map _ (s₁.addTags m.weight id input.tags)) _ =
      Option.bind (s₁.addTags m.weight id input.tags) _
    cases s₁.addTags m.weight id input.tags with
    | none => rfl
    | some s₂ =>
      change Option.bind (Option.map _ (s₂.addTestcases m.clock id input.testcases _)) _ =
        Option.bind (s₂.addTestcases m.clock id input.testcases _) _
      cases s₂.addTestcases m.clock id input.testcases (n + 1 + 2 * input.tags.length) with
      | none => rfl
      | some s₃ => rfl

/-! ## Transactions and leases -/

/-- The state after `ROLLBACK`, and after the lease is given back. -/
def World.rolledBack (w : World) : World := { w with work := none, calls := w.calls + 1 }

/-- A connection more is held. -/
def World.acquired (w : World) : World := { w with held := w.held + 1, calls := w.calls + 1 }

/-- The connection is given back. -/
def World.released (w : World) : World := { w with held := w.held - 1, calls := w.calls + 1 }

/-- Whether the `ROLLBACK` gets through does not matter. -/
theorem always_rollback :
    Program.Always (m.execLosing lost) (ignoring .rollback) World.rolledBack := fun _ => rfl

/-- The destructor of a lease always runs. -/
theorem always_release :
    Program.Always (m.execLosing lost) (ignoring .release) World.released := fun _ => rfl

/-- The state after `START TRANSACTION`. -/
def World.started (w : World) : World := { w with work := some w.bank, calls := w.calls + 1 }

/-- A transaction begins with what is committed. -/
theorem perform_startTransaction (m : Mysql) (hw : w.work = none) :
    m.perform w .startTransaction = some ((), { w with work := some w.bank }) := by
  rw [Mysql.perform, World.view, hw]
  rfl

/-- **A transaction that begins** ends with its `COMMIT`, or is rolled back. -/
theorem run_transaction (p : Dao α) (hw : w.work = none) (hf : m.fails w.calls = none)
    (hl : lost w.calls = none) : (transaction p).run (m.execLosing lost) w =
      match p.run (m.execLosing lost) w.started with
      | (.error e, w') => (.error e, w'.rolledBack)
      | (.ok a, w') =>
        match (executeQuery .commit "commit").run (m.execLosing lost) w' with
        | (.error e, w'') => (.error e, w''.rolledBack)
        | (.ok _, w'') => (.ok a, w'') := by
  have hstart : (executeQuery .startTransaction "transaction start").run (m.execLosing lost) w =
      (.ok (), w.started) := run_executeQuery_through hf hl (perform_startTransaction m hw)
  rw [transaction, Program.run_bind, hstart]
  dsimp only
  rw [Program.run_onThrow always_rollback, Program.run_bind]
  rcases p.run (m.execLosing lost) w.started with ⟨e | a, w'⟩
  · rfl
  · dsimp only
    rw [Program.run_bind]
    rcases (executeQuery .commit "commit").run (m.execLosing lost) w' with ⟨e | _, w''⟩
    · rfl
    · rfl

section Transactions

variable {p : Dao α} {k : Nat} {f : Nat → Store → Option (α × Store)} {a : α} {s : Store}

/-- **A transaction that gets through** commits what its body computes. -/
theorem run_transaction_through (h : Implements m lost p k f) (hw : w.work = none)
    (ht : m.Through lost w.calls (k + 2))
    (hf : f (w.calls + 1) ⟨w.bank, w.next⟩ = some (a, s)) :
    (transaction p).run (m.execLosing lost) w =
      (.ok a, { w with bank := s.rows, next := s.next, calls := w.calls + k + 2 }) := by
  rw [show k + 2 = 1 + (k + 1) by omega, Mysql.through_add, Mysql.through_add,
    Mysql.through_one, Mysql.through_one] at ht
  obtain ⟨⟨hstart, hheard⟩, hbody, hcommit, hanswer⟩ := ht
  rw [run_transaction p hw hstart hheard, h.ok w.started w.bank a s rfl hbody hf]
  dsimp only
  rw [run_executeQuery_through hcommit hanswer rfl]
  dsimp only [World.started, World.view]
  rw [hw, Option.getD_some, Nat.add_right_comm w.calls 1 k]

/-- **One whose `COMMIT` is carried out and not answered** throws, and the rows are committed. -/
theorem run_transaction_unheard (h : Implements m lost p k f) (hw : w.work = none)
    (ht : m.Through lost w.calls (k + 1)) (hcommit : m.fails (w.calls + k + 1) = none)
    (hl : lost (w.calls + k + 1) ≠ none)
    (hf : f (w.calls + 1) ⟨w.bank, w.next⟩ = some (a, s)) :
    ∃ e w', (transaction p).run (m.execLosing lost) w = (.error e, w') ∧ w'.bank = s.rows ∧
      w'.work = none ∧ w'.held = w.held := by
  rw [Nat.add_comm k, Mysql.through_add, Mysql.through_one] at ht
  obtain ⟨⟨hstart, hheard⟩, hbody⟩ := ht
  rw [run_transaction p hw hstart hheard, h.ok w.started w.bank a s rfl hbody hf]
  dsimp only
  rw [show w.calls + k + 1 = w.started.calls + k from Nat.add_right_comm w.calls k 1]
    at hcommit hl
  obtain ⟨e, he⟩ := run_executeQuery_lost (m := m) .commit "commit"
    (w := { w.started with work := some s.rows, next := s.next, calls := w.started.calls + k })
    rfl hl
  rw [he, Mysql.exec_of_quiet hcommit rfl]
  exact ⟨e, _, rfl, rfl, rfl, rfl⟩

/-- **Any other** throws and leaves the committed rows alone. -/
theorem run_transaction_stopped (h : Implements m lost p k f) (hw : w.work = none)
    (hno : ¬ (m.Through lost w.calls (k + 1) ∧ m.fails (w.calls + k + 1) = none ∧
      (f (w.calls + 1) ⟨w.bank, w.next⟩).isSome)) :
    ∃ e w', (transaction p).run (m.execLosing lost) w = (.error e, w') ∧ w'.bank = w.bank ∧
      w'.work = none ∧ w'.held = w.held := by
  rw [Nat.add_comm k, Mysql.through_add, Mysql.through_one] at hno
  by_cases hheard : lost w.calls = none
  · by_cases hstart : m.fails w.calls = none
    · rw [run_transaction p hw hstart hheard]
      by_cases hbody : m.Through lost (w.calls + 1) k ∧
          (f (w.calls + 1) ⟨w.bank, w.next⟩).isSome
      · -- only the commit is left to fail
        obtain ⟨hthrough, hsome⟩ := hbody
        obtain ⟨⟨a, s⟩, hf⟩ := Option.isSome_iff_exists.mp hsome
        have hcommit : m.fails (w.started.calls + k) ≠ none := fun hc =>
          hno ⟨⟨⟨hstart, hheard⟩, hthrough⟩, Nat.add_right_comm w.calls k 1 ▸ hc, hsome⟩
        rw [h.ok w.started w.bank a s rfl hthrough hf]
        dsimp only
        by_cases hanswer : lost (w.started.calls + k) = none
        · obtain ⟨e, he⟩ := run_executeQuery_refused (m := m) .commit "commit"
            (w := { w.started with
              work := some s.rows, next := s.next, calls := w.started.calls + k }) rfl hanswer
            fun hc => absurd hc hcommit
          rw [he]
          exact ⟨e, _, rfl, rfl, rfl, rfl⟩
        · obtain ⟨e, he⟩ := run_executeQuery_lost (m := m) .commit "commit"
            (w := { w.started with
              work := some s.rows, next := s.next, calls := w.started.calls + k }) rfl hanswer
          obtain ⟨error, herror⟩ := Mysql.exec_error (m := m) .commit rfl
            (w := { w.started with
              work := some s.rows, next := s.next, calls := w.started.calls + k })
            fun hc => absurd hc hcommit
          rw [he, herror]
          exact ⟨e, _, rfl, rfl, rfl, rfl⟩
      · obtain ⟨e, w', hrun, hbank, hheld⟩ := h.error w.started w.bank rfl hbody
        rw [hrun]
        exact ⟨e, _, rfl, hbank, rfl, hheld⟩
    · obtain ⟨e, he⟩ := run_executeQuery_refused (m := m) .startTransaction
        "transaction start" rfl hheard fun hf => absurd hf hstart
      rw [transaction, Program.run_bind, he]
      exact ⟨e, _, rfl, rfl, hw, rfl⟩
  · obtain ⟨e, he⟩ := run_executeQuery_lost (m := m) .startTransaction
      "transaction start" rfl hheard
    have hperform : ∀ {γ : Type} {f : World → γ}, (∀ v : World, f { v with work := some w.bank } =
        f v) → ∀ r w', m.perform w .startTransaction = some (r, w') → f w' = f w := by
      intro γ f hf r w' hp
      rw [perform_startTransaction m hw] at hp
      cases hp
      exact hf w
    rw [transaction, Program.run_bind, he]
    exact ⟨e, _, rfl, Mysql.exec_frame (f := World.bank) (fun _ => rfl) (hperform fun _ => rfl),
      rfl, Mysql.exec_frame (f := World.held) (fun _ => rfl) (hperform fun _ => rfl)⟩

/-- It commits when no call fails and the body does what it says. -/
theorem run_transaction_ok (h : Implements m (fun _ => none) p k f) (hw : w.work = none)
    (hq : m.Quiet w.calls (k + 2)) (hf : f (w.calls + 1) ⟨w.bank, w.next⟩ = some (a, s)) :
    (transaction p).run m.exec w =
      (.ok a, { w with bank := s.rows, next := s.next, calls := w.calls + k + 2 }) := by
  rw [← m.execLosing_never]
  exact run_transaction_through h hw (Mysql.through_never.mpr hq) hf

/-- Otherwise nothing of it stays. -/
theorem run_transaction_error (h : Implements m (fun _ => none) p k f) (hw : w.work = none)
    (hno : ¬ (m.Quiet w.calls (k + 2) ∧ (f (w.calls + 1) ⟨w.bank, w.next⟩).isSome)) :
    ∃ e w', (transaction p).run m.exec w = (.error e, w') ∧ w'.bank = w.bank ∧ w'.work = none ∧
      w'.held = w.held := by
  rw [← m.execLosing_never]
  refine run_transaction_stopped h hw fun ⟨ht, hcommit, hsome⟩ => hno ⟨?_, hsome⟩
  rw [show k + 2 = k + 1 + 1 from rfl, Mysql.quiet_add, Mysql.quiet_one, ← Nat.add_assoc]
  exact ⟨Mysql.through_never.mp ht, hcommit⟩

end Transactions

/-- A body with its lease. -/
theorem run_withLease_held {p : Dao α} (hf : m.fails w.calls = none) :
    (withLease p).run (m.execLosing lost) w =
      ((p.run (m.execLosing lost) w.acquired).1,
        (p.run (m.execLosing lost) w.acquired).2.released) := by
  refine (Program.run_call (m.execLosing lost) .acquire _ w).trans ?_
  rw [Mysql.execLosing_of_not_answered rfl, Mysql.exec_of_quiet hf rfl]
  exact Program.run_andFinally always_release _

/-- There is no connection to be had. -/
theorem run_withLease_refused {p : Dao α} (hf : m.fails w.calls ≠ none) :
    ∃ e, (withLease p).run (m.execLosing lost) w = (.error e, { w with calls := w.calls + 1 }) := by
  obtain ⟨e, he⟩ := Mysql.exec_error (m := m) (w := w) .acquire rfl fun h => absurd h hf
  refine ⟨runtimeError e, ?_⟩
  refine (Program.run_call (m.execLosing lost) .acquire _ w).trans ?_
  rw [Mysql.execLosing_of_not_answered rfl, he]
  rfl

/-- A lease around a function on the bank. -/
theorem run_withLease {p : Dao α} (hf : m.fails w.calls = none) :
    (withLease p).run m.exec w =
      ((p.run m.exec w.acquired).1, (p.run m.exec w.acquired).2.released) := by
  rw [← m.execLosing_never]
  exact run_withLease_held hf

/-- There is no connection to be had. -/
theorem run_withLease_error {p : Dao α} (hf : m.fails w.calls ≠ none) :
    ∃ e, (withLease p).run m.exec w = (.error e, { w with calls := w.calls + 1 }) := by
  rw [← m.execLosing_never]
  exact run_withLease_refused hf

/-! ## `createProblem` -/

section CreateProblem

variable {input : ProblemInput} {id : Nat} {s : Store}

/-- Which call the `COMMIT` is. -/
theorem commitCall_acquired (w : World) (input : ProblemInput) :
    w.acquired.calls + Mysql.bodyCalls input + 1 = Mysql.commitCall w.calls input := by
  show w.calls + 1 + Mysql.bodyCalls input + 1 = w.calls + Mysql.bodyCalls input + 2
  omega

/-- **`createProblem` stores the whole problem** when every call gets through and no constraint
is violated. -/
theorem createProblem_through (hw : w.work = none) (hc : m.Commits lost w.calls input)
    (hl : lost (Mysql.commitCall w.calls input) = none)
    (hadd : Store.addProblem m.weight m.clock input (w.calls + 2) ⟨w.bank, w.next⟩ =
      some (id, s)) :
    (createProblem input).run (m.execLosing lost) w = (.ok id, { w with
      bank := s.rows, next := s.next, calls := w.calls + Mysql.bodyCalls input + 4 }) := by
  have hbody : m.Through lost w.acquired.calls (Mysql.bodyCalls input + 1 + 1) := by
    refine Mysql.through_add.mpr ⟨hc.body, Mysql.through_one.mpr ?_⟩
    rw [← Nat.add_assoc, commitCall_acquired]
    exact ⟨hc.commit, hl⟩
  have hrun := run_transaction_through (implements_createBody input) (w := w.acquired) hw hbody
    hadd
  rw [createProblem_eq, run_withLease_held hc.acquire, hrun]
  dsimp only [World.acquired, World.released]
  rw [Nat.add_sub_cancel, show w.calls + 1 + Mysql.bodyCalls input + 2 + 1 =
    w.calls + Mysql.bodyCalls input + 4 by omega]

/-- **It stores the problem and throws** when the answer to the `COMMIT` is lost. -/
theorem createProblem_unheard (hw : w.work = none) (hc : m.Commits lost w.calls input)
    (hl : lost (Mysql.commitCall w.calls input) ≠ none)
    (hadd : Store.addProblem m.weight m.clock input (w.calls + 2) ⟨w.bank, w.next⟩ =
      some (id, s)) :
    ∃ e w', (createProblem input).run (m.execLosing lost) w = (.error e, w') ∧
      w'.bank = s.rows ∧ w'.work = none ∧ w'.held = w.held := by
  have hcall := commitCall_acquired w input
  obtain ⟨e, w', hrun, hbank, hwork, hheld⟩ := run_transaction_unheard
    (implements_createBody input) (w := w.acquired) hw hc.body (hcall ▸ hc.commit) (hcall ▸ hl)
    hadd
  rw [createProblem_eq, run_withLease_held hc.acquire, hrun]
  refine ⟨e, w'.released, rfl, hbank, hwork, ?_⟩
  rw [World.released, hheld]
  rfl

/-- **Otherwise it throws**, and no committed row has changed. -/
theorem createProblem_stopped (hw : w.work = none)
    (hno : ¬ (m.Commits lost w.calls input ∧
      (Store.addProblem m.weight m.clock input (w.calls + 2) ⟨w.bank, w.next⟩).isSome)) :
    ∃ e w', (createProblem input).run (m.execLosing lost) w = (.error e, w') ∧
      w'.bank = w.bank ∧ w'.work = none ∧ w'.held = w.held := by
  rw [createProblem_eq]
  by_cases hf : m.fails w.calls = none
  · have hcall := commitCall_acquired w input
    obtain ⟨e, w', hrun, hbank, hwork, hheld⟩ :=
      run_transaction_stopped (implements_createBody input) (w := w.acquired) hw
        fun ⟨hbody, hcommit, hsome⟩ => hno ⟨⟨hf, hbody, hcall ▸ hcommit⟩, hsome⟩
    rw [run_withLease_held hf, hrun]
    refine ⟨e, w'.released, rfl, hbank, hwork, ?_⟩
    rw [World.released, hheld]
    rfl
  · obtain ⟨e, he⟩ := run_withLease_refused (m := m) (p := transaction (createBody input)) hf
    rw [he]
    exact ⟨e, _, rfl, rfl, hw, rfl⟩

/-- Where no answer is lost. -/
theorem quiet_iff_commits {n : Nat} :
    m.Quiet n (Mysql.bodyCalls input + 3) ↔ m.Commits (fun _ => none) n input := by
  rw [show Mysql.bodyCalls input + 3 = 1 + (Mysql.bodyCalls input + 1) + 1 by omega,
    Mysql.quiet_add, Mysql.quiet_add, Mysql.quiet_one, Mysql.quiet_one, ← Mysql.through_never,
    show n + (1 + (Mysql.bodyCalls input + 1)) = Mysql.commitCall n input by
      rw [Mysql.commitCall]; omega]
  exact ⟨fun ⟨⟨hacquire, hbody⟩, hcommit⟩ => ⟨hacquire, hbody, hcommit⟩,
    fun h => ⟨⟨h.acquire, h.body⟩, h.commit⟩⟩

/-- **A problem that fits is stored.** -/
theorem createProblem_ok (hw : w.work = none)
    (hs : m.stored w.calls ⟨w.bank, w.next⟩ input = some (id, s)) :
    (createProblem input).run m.exec w = (.ok id, { w with
      bank := s.rows, next := s.next, calls := w.calls + Mysql.bodyCalls input + 4 }) := by
  obtain ⟨hq, hadd⟩ := Option.ite_none_right_eq_some.mp hs
  rw [← m.execLosing_never]
  exact createProblem_through hw (quiet_iff_commits.mp hq) rfl hadd

/-- **One that does not fit, or whose calls fail, leaves the bank alone.** -/
theorem createProblem_error (hw : w.work = none)
    (hs : m.stored w.calls ⟨w.bank, w.next⟩ input = none) :
    ∃ e w', (createProblem input).run m.exec w = (.error e, w') ∧ w'.bank = w.bank ∧
      w'.work = none ∧ w'.held = w.held := by
  rw [← m.execLosing_never]
  refine createProblem_stopped hw fun ⟨hc, hsome⟩ => ?_
  rw [Mysql.stored, if_pos (quiet_iff_commits.mpr hc)] at hs
  rw [hs] at hsome
  cases hsome

end CreateProblem

/-- What has been stored when `createProblem` returns an id. -/
theorem addProblem_of_createProblem {input : ProblemInput} {problemId : Nat} {w' : World}
    (hw : w.work = none) (hrun : (createProblem input).run m.exec w = (.ok problemId, w')) :
    ∃ n s, Store.addProblem m.weight m.clock input n ⟨w.bank, w.next⟩ = some (problemId, s) ∧
      s.rows = w'.bank ∧ w'.work = none := by
  cases hs : m.stored w.calls ⟨w.bank, w.next⟩ input with
  | none =>
    obtain ⟨e, w₁, herror, -⟩ := createProblem_error hw hs
    rw [hrun] at herror
    cases herror
  | some r =>
    obtain ⟨id, s⟩ := r
    rw [createProblem_ok hw hs] at hrun
    cases hrun
    exact ⟨_, s, (Option.ite_none_right_eq_some.mp hs).2, rfl, hw⟩

end MiniOj.Db
