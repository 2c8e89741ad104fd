import MiniOj.Db.Spec.Stored
import MiniOj.Db.Properties.Reading
import MiniOj.Db.Properties.Storing

/-!
# Changing a problem is all or nothing

* `updateProblem_outcome` — `updateProblem` changes the whole problem, finds that there is none,
  or throws
* `problem_all_or_nothing` — when a call of `createProblem` or `updateProblem` does not return
  normally the committed rows are as before, whichever statement has failed; the connection is
  given back without a transaction
-/

namespace MiniOj.Db

open Infra Admin

variable {m : Mysql} {lost : Nat → Option Bytes} {w w' : World} {problemId : Nat} {input : ProblemInput}

/-! ## The existence check -/

/-- Nothing but the calls counted and the results held has changed. -/
structure World.Same (w w' : World) : Prop where
  bank : w'.bank = w.bank
  work : w'.work = w.work
  held : w'.held = w.held
  next : w'.next = w.next

theorem run_problemExists (m : Mysql) (w : World) (problemId : Nat) : ∃ w', w.Same w' ∧
    ((problemExists problemId).run m.exec w = (.ok (w.view.problem? problemId).isSome, w') ∨
      ∃ e, (problemExists problemId).run m.exec w = (.error e, w')) := by
  unfold problemExists rowsOf
  rw [Program.run_bind]
  by_cases hquery : m.fails w.calls = none
  · rw [run_executeQuery_ok hquery rfl]
    dsimp only
    rw [Program.run_bind]
    by_cases hstore : m.fails (w.calls + 1) = none
    · rw [run_executeQuery_ok (w := { w with calls := w.calls + 1 }) hstore rfl]
      exact ⟨{ w with
        calls := w.calls + 3
        results := (w.calls + 1) :: w.results
        freed := (w.calls + 1) :: w.freed }, ⟨rfl, rfl, rfl, rfl⟩, .inl rfl⟩
    · obtain ⟨e, he⟩ := run_executeQuery_error (m := m) (w := { w with calls := w.calls + 1 })
        .storeResult "existence store" rfl fun h => absurd h hstore
      rw [he]
      exact ⟨{ w with calls := w.calls + 2 }, ⟨rfl, rfl, rfl, rfl⟩, .inr ⟨e, rfl⟩⟩
  · obtain ⟨e, he⟩ := run_executeQuery_error (m := m) (w := w) (.selectExists problemId)
      "existence check" rfl fun h => absurd h hquery
    rw [he]
    exact ⟨{ w with calls := w.calls + 1 }, ⟨rfl, rfl, rfl, rfl⟩, .inr ⟨e, rfl⟩⟩

/-! ## The body of `updateProblem` -/

/-- The body of the transaction of `updateProblem`. -/
def updateBody (problemId : Nat) (input : ProblemInput) : Dao Unit := do
  executeQuery (.updateProblem problemId input.title input.descriptionMd input.difficulty
    input.timeLimitMs input.memoryLimitMb) "problem update"
  replaceTagsAndTestcases problemId input

theorem updateProblem_eq : updateProblem problemId input = withLease (do
    if ← problemExists problemId then
      transaction (updateBody problemId input)
      return true
    else return false) := rfl

/-- A statement that changes rows and no counter. -/
theorem Implements.executeRows {st : Statement} {context : String} (hr : st.Result = Unit)
    {f : Nat → Bank → Option Bank} (hst : st.Answered = true)
    (h : ∀ w, m.perform w st = (f w.calls w.view).map fun b => (hr ▸ (), w.setRows b)) :
    Implements m lost (Db.executeQuery st context) 1
      fun n s => (f n s.rows).map fun b => (hr ▸ (), { s with rows := b }) := by
  refine .executeQuery hst fun w b hw => ?_
  rw [h w, show w.store.rows = w.view from rfl]
  cases f w.calls w.view with
  | none => rfl
  | some b' =>
    simp only [Option.map_some, World.setRows, hw]
    rfl

theorem implements_updateBody : Implements m lost (updateBody problemId input)
    (3 + 2 * input.tags.length + input.testcases.length)
    fun n s => (s.replaceProblem m.weight m.clock problemId input n).map fun s => ((), s) := by
  have hupdate : Implements m lost (executeQuery (.updateProblem problemId input.title
      input.descriptionMd input.difficulty input.timeLimitMs input.memoryLimitMb)
      "problem update") 1 fun n s => (s.rows.updateProblem (m.clock n) problemId input.title
        input.descriptionMd input.difficulty input.timeLimitMs input.memoryLimitMb).map
          fun b => ((), { s with rows := b }) :=
    .executeRows (f := fun n b => b.updateProblem (m.clock n) problemId input.title
      input.descriptionMd input.difficulty input.timeLimitMs input.memoryLimitMb) rfl rfl
      fun w => rfl
  have htags : Implements m lost
      (executeQuery (.deleteProblemTags problemId) "problem_tag delete") 1
      fun _ s => some ((), { s with rows := s.rows.deleteProblemTags problemId }) :=
    .executeRows (f := fun _ b => some (b.deleteProblemTags problemId)) rfl rfl fun w => rfl
  have hcases : Implements m lost (executeQuery (.deleteTestcases problemId) "testcase delete") 1
      fun _ s => some ((), { s with rows := s.rows.deleteTestcases problemId }) :=
    .executeRows (f := fun _ b => some (b.deleteTestcases problemId)) rfl rfl fun w => rfl
  have hbody := hupdate.bind fun _ => htags.bind fun _ =>
    (implements_insertProblemTags m lost problemId input.tags).bind fun _ => hcases.bind
      fun _ => implements_insertTestcases m lost problemId input.testcases
  rw [show 3 + 2 * input.tags.length + input.testcases.length =
    1 + (1 + (2 * input.tags.length + (1 + input.testcases.length))) by omega]
  refine hbody.congr fun n s => ?_
  rw [Store.replaceProblem]
  cases s.rows.updateProblem (m.clock n) problemId input.title input.descriptionMd
    input.difficulty input.timeLimitMs input.memoryLimitMb with
  | none => rfl
  | some b =>
    let s₁ : Store := { s with rows := b.deleteProblemTags problemId }
    change Option.bind (Option.map _ (s₁.addTags m.weight problemId input.tags)) _ =
      Option.map _ (Option.bind (s₁.addTags m.weight problemId input.tags) _)
    cases s₁.addTags m.weight problemId input.tags with
    | none => rfl
    | some s₂ =>
      -- the first testcase is inserted three statements and the tags after the update
      change Option.map _ (Store.addTestcases _ _ _ (n + 1 + 1 + 2 * input.tags.length + 1) _) =
        Option.map _ (Store.addTestcases _ _ _ (n + 3 + 2 * input.tags.length) _)
      rw [show n + 1 + 1 + 2 * input.tags.length + 1 = n + 3 + 2 * input.tags.length by omega]

/-! ## Outcomes -/

/-- Given back without a transaction, and no other connection is held or missing. -/
structure World.Settled (w w' : World) : Prop where
  work : w'.work = none
  held : w'.held = w.held

/-- What an attempt to change the bank comes to: it throws and the rows stay, or it returns and
`done` holds. -/
def Attempt {α : Type} (done : α → Bank → Prop) (w : World) (out : Except Exn α × World) : Prop :=
  w.Settled out.2 ∧
    ((∃ a, out.1 = .ok a ∧ done a out.2.bank) ∨ ((∃ e, out.1 = .error e) ∧ out.2.bank = w.bank))

/-- What `updateProblem` says by `true` and by `false`. -/
def Changed (weight : Bytes → Bytes) (b : Bank) (problemId : Nat) (input : ProblemInput) :
    Bool → Bank → Prop
  | true, b' => Updated weight b b' problemId input
  | false, b' => b' = b

theorem createProblem_outcome (hw : w.work = none) :
    Attempt (fun id b => Created m.weight w.bank b id input) w
      ((createProblem input).run m.exec w) := by
  cases hs : m.stored w.calls ⟨w.bank, w.next⟩ input with
  | none =>
    obtain ⟨e, w', hrun, hbank, hwork, hheld⟩ := createProblem_error hw hs
    rw [hrun]
    exact ⟨⟨hwork, hheld⟩, .inr ⟨⟨e, rfl⟩, hbank⟩⟩
  | some r =>
    obtain ⟨id, s⟩ := r
    rw [createProblem_ok hw hs]
    refine ⟨⟨hw, rfl⟩, .inl ⟨id, rfl, ?_⟩⟩
    exact Store.addProblem_spec (Option.ite_none_right_eq_some.mp hs).2

theorem Attempt.mono {α : Type} {done done' : α → Bank → Prop} {out : Except Exn α × World}
    (h : Attempt done w out) (hdone : ∀ a b, done a b → done' a b) : Attempt done' w out :=
  ⟨h.1, h.2.imp_left fun ⟨a, ha, hb⟩ => ⟨a, ha, hdone a _ hb⟩⟩

/-- The rows that `updateProblem` leaves when it returns: those of the transaction if there is
such a problem. -/
def Replaced (m : Mysql) (s : Store) (problemId : Nat) (input : ProblemInput) : Bool → Bank → Prop
  | true, b' => (s.rows.problems.any fun p => p.id == problemId) = true ∧
      ∃ n s', s.replaceProblem m.weight m.clock problemId input n = some s' ∧ s'.rows = b'
  | false, b' => b' = s.rows

theorem Replaced.changed {s : Store} : ∀ (changed : Bool) (b : Bank),
    Replaced m s problemId input changed b → Changed m.weight s.rows problemId input changed b
  | true, _, ⟨hin, _, _, hs, hb⟩ => hb ▸ Store.replaceProblem_spec hin hs
  | false, _, h => h

/-- The body of the lease of `updateProblem`. -/
theorem updateLeased_outcome (problemId : Nat) (input : ProblemInput) (hw : w.work = none) :
    Attempt (Replaced m ⟨w.bank, w.next⟩ problemId input) w
      (Program.run m.exec (do
        if ← problemExists problemId then
          transaction (updateBody problemId input)
          return true
        else return false) w) := by
  rw [Program.run_bind]
  obtain ⟨w₁, hsame, hok | ⟨e, herror⟩⟩ := run_problemExists m w problemId
  · rw [hok]
    have hw₁ : w₁.work = none := hsame.work.trans hw
    have hview : w.view = w.bank := view_of_none hw
    by_cases hin : (w.view.problem? problemId).isSome = true
    · rw [hin]
      show Attempt _ w (Program.run m.exec
        (transaction (updateBody problemId input) >>= fun _ => pure true) w₁)
      rw [Program.run_bind]
      have hany : (w.bank.problems.any fun p => p.id == problemId) = true := by
        rw [← hview]
        obtain ⟨p, hmem, hp⟩ := List.find?_isSome.mp hin
        exact List.any_eq_true.mpr ⟨p, hmem, hp⟩
      by_cases hall : m.Quiet w₁.calls (3 + 2 * input.tags.length + input.testcases.length + 2) ∧
          (Store.replaceProblem m.weight m.clock problemId input (w₁.calls + 1)
            ⟨w₁.bank, w₁.next⟩).isSome
      · obtain ⟨hquiet, hsome⟩ := hall
        obtain ⟨s, hs⟩ := Option.isSome_iff_exists.mp hsome
        rw [run_transaction_ok implements_updateBody hw₁ hquiet (a := ()) (s := s)
          (by rw [hs]; rfl)]
        refine ⟨⟨hw₁, hsame.held⟩, .inl ⟨true, rfl, hany, w₁.calls + 1, s, ?_, rfl⟩⟩
        rw [← hsame.bank, ← hsame.next]
        exact hs
      · rw [← Option.isSome_map (f := fun s => ((), s))] at hall
        obtain ⟨e, w', hrun, hbank, hwork, hheld⟩ :=
          run_transaction_error implements_updateBody hw₁ hall
        rw [hrun]
        exact ⟨⟨hwork, hheld.trans hsame.held⟩, .inr ⟨⟨e, rfl⟩, hbank.trans hsame.bank⟩⟩
    · rw [Bool.not_eq_true] at hin
      rw [hin]
      exact ⟨⟨hw₁, hsame.held⟩, .inl ⟨false, rfl, hsame.bank⟩⟩
  · rw [herror]
    exact ⟨⟨hsame.work.trans hw, hsame.held⟩, .inr ⟨⟨e, rfl⟩, hsame.bank⟩⟩

/-- **`updateProblem` runs one transaction**, finds that there is no such problem, or throws. -/
theorem updateProblem_replaced (hw : w.work = none) :
    Attempt (Replaced m ⟨w.bank, w.next⟩ problemId input) w
      ((updateProblem problemId input).run m.exec w) := by
  rw [updateProblem_eq]
  by_cases hf : m.fails w.calls = none
  · rw [run_withLease hf]
    obtain ⟨⟨hwork, hheld⟩, hout⟩ :=
      updateLeased_outcome (m := m) (w := w.acquired) problemId input hw
    refine ⟨⟨hwork, ?_⟩, hout⟩
    rw [World.released, hheld]
    rfl
  · obtain ⟨e, he⟩ := run_withLease_error (m := m) (w := w) hf
    rw [he]
    exact ⟨⟨hw, rfl⟩, .inr ⟨⟨e, rfl⟩, rfl⟩⟩

/-- What has been stored when `updateProblem` returns. -/
theorem replaced_of_updateProblem {changed : Bool} (hw : w.work = none)
    (hrun : (updateProblem problemId input).run m.exec w = (.ok changed, w')) :
    Replaced m ⟨w.bank, w.next⟩ problemId input changed w'.bank ∧ w'.work = none := by
  have houtcome : Attempt (Replaced m ⟨w.bank, w.next⟩ problemId input) w
    ((updateProblem problemId input).run m.exec w) := updateProblem_replaced hw
  rw [hrun] at houtcome
  obtain ⟨hsettled, ⟨changed', hchanged, hdone⟩ | ⟨⟨e, he⟩, -⟩⟩ := houtcome
  · cases hchanged
    exact ⟨hdone, hsettled.work⟩
  · cases he

/-- **`updateProblem` changes the whole problem**, finds that there is none, or throws. -/
theorem updateProblem_outcome (hw : w.work = none) :
    Attempt (Changed m.weight w.bank problemId input) w
      ((updateProblem problemId input).run m.exec w) :=
  (updateProblem_replaced hw).mono Replaced.changed

/-- **All or nothing.** Whichever calls fail, when `createProblem` or `updateProblem` returns
normally the bank contains the full new problem, when it throws or returns `false` the bank is as
before, and in each case no transaction is open and the connection is back in the pool. -/
theorem problem_all_or_nothing (m : Mysql) (w : World) (problemId : Nat) (input : ProblemInput)
    (hw : w.work = none) :
    Attempt (fun id b => Created m.weight w.bank b id input) w
        ((createProblem input).run m.exec w) ∧
      Attempt (Changed m.weight w.bank problemId input) w
        ((updateProblem problemId input).run m.exec w) :=
  ⟨createProblem_outcome hw, updateProblem_outcome hw⟩

/-- A server on which the sixth call fails. -/
def sixthFails : Mysql := { Mysql.healthy with fails := fun n => if n = 5 then some [] else none }

/-- A problem with a tag and a testcase. -/
def taggedProblem : ProblemInput where
  title := [97]
  descriptionMd := []
  tags := [[100]]
  testcases := [{ input := [49], expectedOutput := [50] }]

/-- For `createProblem` the insert of the testcase fails. -/
theorem problem_all_or_nothing_sixth :
    Attempt (fun id b => Created sixthFails.weight .empty b id taggedProblem)
        (.resting .empty ⟨1, 1, 1⟩)
        ((createProblem taggedProblem).run sixthFails.exec (.resting .empty ⟨1, 1, 1⟩)) ∧
      Attempt (Changed sixthFails.weight .empty 1 taggedProblem) (.resting .empty ⟨1, 1, 1⟩)
        ((updateProblem 1 taggedProblem).run sixthFails.exec (.resting .empty ⟨1, 1, 1⟩)) :=
  problem_all_or_nothing sixthFails (.resting .empty ⟨1, 1, 1⟩) 1 taggedProblem rfl

end MiniOj.Db
