import MiniOj.Db.Properties.Contents
import MiniOj.Infra.Relational
import MiniOj.Infra.Sorting

/-!
# Hidden testcases

What the DAO answers from two banks that differ in testcases that are not samples.

* `Bank.SameVisible` — everything but hidden testcases is the same
* `Bank.SameButAnswers` — even these differ in the expected output only
* `agree_getFullProblem` — the contents then differ in the expected outputs only
-/

namespace MiniOj.Db

open Infra

/-- The same row, except that a hidden testcase may expect another output. -/
structure TestcaseRow.Alike (c c' : TestcaseRow) : Prop where
  same : c' = { c with expectedOutput := c'.expectedOutput }
  sample : c.isSample = true → c' = c

/-- Two banks that differ in expected outputs of hidden testcases only. -/
structure Bank.SameButAnswers (b b' : Bank) : Prop where
  problems : b'.problems = b.problems
  tags : b'.tags = b.tags
  problemTags : b'.problemTags = b.problemTags
  testcases : List.Forall₂ TestcaseRow.Alike b.testcases b'.testcases

/-- Two banks that differ in hidden testcases only. -/
structure Bank.SameVisible (b b' : Bank) : Prop where
  problems : b'.problems = b.problems
  tags : b'.tags = b.tags
  problemTags : b'.problemTags = b.problemTags
  samples : (b'.testcases.filter fun c => c.isSample) = b.testcases.filter fun c => c.isSample

namespace Bank

variable {b b' : Bank} {weight : Bytes → Bytes}

/-- The samples are the same. -/
theorem SameVisible.samplesOf (h : b.SameVisible b') (problemId : Nat) :
    b'.samplesOf problemId = b.samplesOf problemId := by
  have hsort : ∀ cs : List TestcaseRow,
      ((cs.filter fun c => c.problemId == problemId).insertionSort fun c d => c.id ≤ d.id).filter
        (fun c => c.isSample) = ((cs.filter fun c => c.isSample).filter
          fun c => c.problemId == problemId).insertionSort fun c d => c.id ≤ d.id := by
    intro cs
    have htrans : IsTrans TestcaseRow fun c d => c.id ≤ d.id := ⟨fun _ _ _ => Nat.le_trans⟩
    have htotal : Std.Total fun c d : TestcaseRow => c.id ≤ d.id :=
      ⟨fun c d => Nat.le_total c.id d.id⟩
    rw [filter_insertionSort, List.filter_comm]
  unfold Bank.samplesOf testcasesOf
  rw [hsort, hsort, h.samples]

/-- And so are the tags. -/
theorem SameVisible.tagsOf (h : b.SameVisible b') (problemId : Nat) :
    b'.tagsOf weight problemId = b.tagsOf weight problemId := by
  unfold Bank.tagsOf
  rw [h.tags, h.problemTags]

/-- And the problems that match. -/
theorem SameVisible.problemsWith (h : b.SameVisible b') (difficulty : Option Difficulty)
    (tag : Option Bytes) :
    b'.problemsWith weight difficulty tag = b.problemsWith weight difficulty tag := by
  unfold Bank.problemsWith
  rw [h.problems, h.tags, h.problemTags]

/-- And each problem. -/
theorem SameVisible.problem? (h : b.SameVisible b') (id : Nat) :
    b'.problem? id = b.problem? id := by
  unfold Bank.problem?
  rw [h.problems]

/-- What differs less differs in hidden testcases only. -/
theorem SameButAnswers.sameVisible (h : b.SameButAnswers b') : b.SameVisible b' where
  problems := h.problems
  tags := h.tags
  problemTags := h.problemTags
  samples := by
    have htestcases := h.testcases
    generalize b.testcases = cs at htestcases
    generalize b'.testcases = cs' at htestcases
    induction htestcases with
    | nil => rfl
    | @cons c c' cs cs' hc _ ih =>
      have hsample : c'.isSample = c.isSample := by rw [hc.same]
      cases hs : c.isSample with
      | false =>
        rw [List.filter_cons_of_neg (by rw [hsample, hs]; decide),
          List.filter_cons_of_neg (by rw [hs]; decide), ih]
      | true =>
        rw [hc.sample hs, List.filter_cons_of_pos hs, List.filter_cons_of_pos hs, ih]

/-- Testcase by testcase the rows are alike. -/
theorem SameButAnswers.testcasesOf (h : b.SameButAnswers b') (problemId : Nat) :
    List.Forall₂ TestcaseRow.Alike (b.testcasesOf problemId) (b'.testcasesOf problemId) := by
  have hid : ∀ {c c' : TestcaseRow}, c.Alike c' → c'.id = c.id ∧ c'.problemId = c.problemId := by
    intro c c' hc
    rw [hc.same]
    exact ⟨rfl, rfl⟩
  refine forall₂_insertionSort (fun c c' d d' hc hd => ?_) (List.rel_filter ?_ h.testcases)
  · rw [(hid hc).1, (hid hd).1]
  · intro c c' hc
    show (c.problemId == problemId) = true ↔ (c'.problemId == problemId) = true
    rw [(hid hc).2]

end Bank

/-! ## Two runs -/

variable {m : Mysql} {R : Bank → Bank → Prop}

/-- Two databases with rows related by `R`, the same calls behind them and no transaction. -/
structure World.Beside (R : Bank → Bank → Prop) (w w' : World) : Prop where
  same : w' = { w with bank := w'.bank }
  work : w.work = none
  rows : R w.bank w'.bank

/-- A reply of the database: related rows, or the same error. -/
abbrev SameReply {α : Type} (P : α → α → Prop) : Except Bytes α → Except Bytes α → Prop :=
  Program.SameOutcome P

/-- Neither connection has a transaction open. -/
theorem World.Beside.view {w w' : World} (h : w.Beside R w') :
    w.view = w.bank ∧ w'.view = w'.bank := by
  have hw : w'.work = w.work := by rw [h.same]
  rw [World.view, World.view, hw, h.work]
  exact ⟨rfl, rfl⟩

/-- A statement that answers both databases with related rows and does the same to the rest. -/
theorem parallel_query {st : Statement} {P : st.Result → st.Result → Prop}
    {f : Bank → World → st.Result} {g : World → World}
    (hp : ∀ w, m.perform w st = some (f w.view w, g w))
    (hP : ∀ w w' : World, w.Beside R w' → P (f w.bank w) (f w'.bank w'))
    (hg : ∀ w w' : World, w.Beside R w' → (g w).Beside R (g w')) :
    Program.Parallel m.exec m.exec (World.Beside R) st (SameReply P) := by
  intro w w' h
  obtain ⟨hv, hv'⟩ := h.view
  have hcalls : w'.calls = w.calls := by rw [h.same]
  have htick : ∀ {w w' : World}, w.Beside R w' →
      { w with calls := w.calls + 1 }.Beside R { w' with calls := w'.calls + 1 } := by
    intro w w' h
    exact ⟨by rw [h.same], h.work, h.rows⟩
  unfold Mysql.exec
  rw [hp, hp, hcalls, hv, hv']
  split
  · exact ⟨rfl, htick h⟩
  · exact ⟨hP w w' h, htick (hg w w' h)⟩

/-- Statements that see no testcase and change nothing. -/
def Statement.Visible : Statement → Prop
  | acquire | release | selectProblem _ | selectTags _ | storeResult | freeResult _ => True
  | _ => False

/-- A part of the effect of a statement that has nothing to do with the rows. -/
structure World.Aside (next : World → World) : Prop where
  commutes : ∀ (w : World) (b : Bank), next { w with bank := b } = { next w with bank := b }
  bank : ∀ w, (next w).bank = w.bank
  work : ∀ w, (next w).work = w.work

/-- Steps that leave the rows. -/
theorem World.Beside.aside {w w' : World} {next : World → World} (hnext : World.Aside next)
    (h : w.Beside R w') : (next w).Beside R (next w') where
  same := by
    rw [hnext.bank]
    conv_lhs => rw [h.same]
    exact hnext.commutes w w'.bank
  work := (hnext.work w).trans h.work
  rows := by
    rw [hnext.bank, hnext.bank]
    exact h.rows

/-- **Statements that see no hidden testcase answer the same.** -/
theorem parallel_visible (hR : ∀ b b', R b b' → b.SameVisible b') (st : Statement)
    (hst : st.Visible) : Program.Parallel m.exec m.exec (World.Beside R) st (· = ·) := by
  have hsame : ∀ {f : Bank → World → st.Result} {next : World → World},
      (∀ w, m.perform w st = some (f w.view w, next w)) →
      (∀ w w' : World, w.Beside R w' → f w.bank w = f w'.bank w') → World.Aside next →
      Program.Parallel m.exec m.exec (World.Beside R) st (· = ·) := by
    intro f next hp hP hnext w w' h
    obtain ⟨hreply, hafter⟩ :=
      parallel_query (P := (· = ·)) hp hP (fun _ _ h => h.aside hnext) w w' h
    exact ⟨Program.sameOutcome_eq.mp hreply, hafter⟩
  cases st with
  | acquire =>
    exact hsame (f := fun _ _ => ()) (fun _ => rfl) (fun _ _ _ => rfl)
      ⟨fun _ _ => rfl, fun _ => rfl, fun _ => rfl⟩
  | release =>
    exact hsame (f := fun _ _ => ()) (fun _ => rfl) (fun _ _ _ => rfl)
      ⟨fun _ _ => rfl, fun _ => rfl, fun _ => rfl⟩
  | selectProblem id =>
    exact hsame (f := fun b _ => b.problem? id) (fun _ => rfl)
      (fun _ _ h => ((hR _ _ h.rows).problem? id).symm)
      ⟨fun _ _ => rfl, fun _ => rfl, fun _ => rfl⟩
  | selectTags problemId =>
    exact hsame (f := fun b _ => b.tagsOf m.weight problemId) (fun _ => rfl)
      (fun _ _ h => ((hR _ _ h.rows).tagsOf problemId).symm)
      ⟨fun _ _ => rfl, fun _ => rfl, fun _ => rfl⟩
  | storeResult =>
    exact hsame (f := fun _ w => w.calls) (fun _ => rfl) (fun _ _ h => by rw [h.same])
      ⟨fun _ _ => rfl, fun _ => rfl, fun _ => rfl⟩
  | freeResult result =>
    exact hsame (f := fun _ _ => ()) (fun _ => rfl) (fun _ _ _ => rfl)
      ⟨fun _ _ => rfl, fun _ => rfl, fun _ => rfl⟩
  | _ => exact hst.elim

/-! ## The content of a problem -/

/-- The same testcase, except that a hidden one may expect another output. -/
structure CaseAlike (c c' : AdminTestCase) : Prop where
  same : c' = { c with expectedOutput := c'.expectedOutput }
  sample : c.isSample = true → c' = c

/-- Two problems that differ in expected outputs of hidden testcases only. -/
structure DetailAlike (d d' : AdminProblemDetail) : Prop where
  same : d' = { d with testcases := d'.testcases }
  testcases : List.Forall₂ CaseAlike d.testcases d'.testcases

/-- Rows that are alike are read as testcases that are alike. -/
theorem TestcaseRow.Alike.toCase {c c' : TestcaseRow} (h : c.Alike c') :
    CaseAlike ⟨c.id, c.problemId, c.input, c.expectedOutput, c.isSample, c.score⟩
      ⟨c'.id, c'.problemId, c'.input, c'.expectedOutput, c'.isSample, c'.score⟩ where
  same := by rw [h.same]
  sample hs := by rw [h.sample hs]

/-- A statement with answers that are alike. -/
theorem agree_executeQuery {st : Statement} {P : st.Result → st.Result → Prop}
    (h : Program.Parallel m.exec m.exec (World.Beside R) st (SameReply P)) (context : String) :
    Program.Agree m.exec m.exec (World.Beside R) P (executeQuery st context)
      (executeQuery st context) := by
  refine .call h fun r r' hr => ?_
  cases r <;> cases r'
  · cases hr
    exact .throw _
  · exact hr.elim
  · exact hr.elim
  · exact .ret hr

/-- **Statements that see no hidden testcase give the same answers.** -/
theorem agree_of_visible (hR : ∀ b b', R b b' → b.SameVisible b') {α : Type} {p : Dao α}
    (hp : p.Only Statement.Visible) :
    Program.Agree m.exec m.exec (World.Beside R) (· = ·) p p :=
  hp.agree fun st hst => parallel_visible hR st hst

/-- One such statement. -/
theorem visible_executeQuery (st : Statement) (h : st.Visible) (context : String) :
    (executeQuery st context).Only Statement.Visible := by
  refine ⟨h, fun r => ?_⟩
  cases r <;> trivial

/-- The tags of a problem. -/
theorem visible_tagsWithIdForProblem (problemId : Nat) :
    (tagsWithIdForProblem problemId).Only Statement.Visible := by
  refine Program.Only.bind (Program.Only.bind ?_ fun rows => ?_) fun _ => trivial
  · exact visible_executeQuery (.selectTags problemId) trivial _
  · exact Program.Only.bind (visible_executeQuery .storeResult trivial _) fun res =>
      ⟨trivial, fun _ => trivial⟩

/-- The testcases that are read are alike. -/
theorem agree_allTestcases (problemId : Nat) :
    Program.Agree m.exec m.exec (World.Beside Bank.SameButAnswers) (List.Forall₂ CaseAlike)
      (allTestcases problemId) (allTestcases problemId) := by
  have hquery : Program.Parallel m.exec m.exec (World.Beside Bank.SameButAnswers)
      (.selectTestcases problemId) (SameReply (List.Forall₂ TestcaseRow.Alike)) :=
    parallel_query (f := fun b _ => b.testcasesOf problemId) (g := fun w => w) (fun _ => rfl)
      (fun _ _ h => h.rows.testcasesOf problemId) fun _ _ h => h
  have hstore : (executeQuery .storeResult "testcase store").Only Statement.Visible :=
    visible_executeQuery .storeResult trivial _
  refine Program.Agree.bind (Q := List.Forall₂ TestcaseRow.Alike) ?_ fun rows rows' hrows => ?_
  · refine (agree_executeQuery hquery _).bind fun rows rows' hrows => ?_
    refine (agree_of_visible (fun _ _ => Bank.SameButAnswers.sameVisible) hstore).bind
      fun res res' hres => ?_
    subst hres
    refine (agree_of_visible (fun _ _ => Bank.SameButAnswers.sameVisible)
      (p := ignoring (.freeResult res)) ⟨trivial, fun _ => trivial⟩).bind fun _ _ _ => ?_
    exact .ret hrows
  · refine .ret (List.forall₂_map_left_iff.mpr (List.forall₂_map_right_iff.mpr ?_))
    exact hrows.imp fun _ _ h => h.toCase

/-- **The problems that are read are alike.** -/
theorem agree_detailOf (p : ProblemRow) :
    Program.Agree m.exec m.exec (World.Beside Bank.SameButAnswers) DetailAlike (detailOf p)
      (detailOf p) := by
  refine (agree_of_visible (fun _ _ => Bank.SameButAnswers.sameVisible)
    (visible_tagsWithIdForProblem p.id)).bind fun tags tags' htags => ?_
  subst htags
  exact (agree_allTestcases p.id).bind fun cases cases' hcases => .ret ⟨rfl, hcases⟩

/-- **The contents of a problem** in two banks that differ in hidden expected outputs. -/
theorem agree_getFullProblem (problemId : Nat) :
    Program.Agree m.exec m.exec (World.Beside Bank.SameButAnswers) (Option.Rel DetailAlike)
      (getFullProblem problemId) (getFullProblem problemId) := by
  have hvisible : ∀ {α : Type} {p : Dao α}, p.Only Statement.Visible →
      Program.Agree m.exec m.exec (World.Beside Bank.SameButAnswers) (· = ·) p p :=
    agree_of_visible fun _ _ => Bank.SameButAnswers.sameVisible
  have hbody : Program.Agree m.exec m.exec (World.Beside Bank.SameButAnswers)
      (Option.Rel DetailAlike) (do
        let row : Option ProblemRow ← executeQuery (.selectProblem problemId) "admin problem detail"
        let res ← executeQuery .storeResult "admin problem detail store"
        let result ← row.mapM detailOf
        ignoring (.freeResult res)
        return result) (do
        let row : Option ProblemRow ← executeQuery (.selectProblem problemId) "admin problem detail"
        let res ← executeQuery .storeResult "admin problem detail store"
        let result ← row.mapM detailOf
        ignoring (.freeResult res)
        return result) := by
    refine (hvisible (visible_executeQuery (.selectProblem problemId) trivial _)).bind
      fun row row' hrow => ?_
    refine (hvisible (visible_executeQuery .storeResult trivial _)).bind fun res res' hres => ?_
    subst hrow hres
    refine Program.Agree.bind (Q := Option.Rel DetailAlike) ?_ fun result result' hresult => ?_
    · cases row with
      | none => exact .ret .none
      | some p => exact (agree_detailOf p).bind fun d d' hd => .ret (.some hd)
    · exact (hvisible (p := ignoring (.freeResult res)) ⟨trivial, fun _ => trivial⟩).bind
        fun _ _ _ => .ret hresult
  refine .call (parallel_visible (fun _ _ => Bank.SameButAnswers.sameVisible)
    .acquire trivial) fun r r' hr => ?_
  subst hr
  cases r with
  | error e => exact .throw _
  | ok _ => exact hbody.andFinally (hvisible ⟨trivial, fun _ => trivial⟩)

end MiniOj.Db
