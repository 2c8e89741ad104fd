import MiniOj.Db.Properties.Contents
import MiniOj.Db.ProblemList
import MiniOj.Db.Spec.Schema
import MiniOj.Http.Properties.CrossOrigin
import MiniOj.Http.Properties.Sessions
import MiniOj.Infra.Keyed

/-!
# What the list of problems contains

The query joins `problem_tags` and `tags` only when it filters by a tag. The primary key of the
links and the unique key of the names let a problem meet one row of that join at most.

* `Listed` — the list is right for the rows and the filters
* `listed_summaries` — what the queries answer is
* `listProblems_exact` — `listProblems` returns the right list
-/

namespace MiniOj.Db

open Infra Http

variable {weight : Bytes → Bytes} {s : Store} {problemId : Nat} {filters : ProblemFilters}

/-! ## The right list -/

/-- The tag is one of the problem's. -/
def Tagged (b : Bank) (problemId : Nat) (t : TagRow) : Prop :=
  t ∈ b.tags ∧ ⟨problemId, t.id⟩ ∈ b.problemTags

/-- The problem has the difficulty and a tag of the name asked for. -/
structure Selected (weight : Bytes → Bytes) (b : Bank) (filters : ProblemFilters)
    (p : ProblemRow) : Prop where
  difficulty : ∀ d, filters.difficulty = some d → p.difficulty = d
  tag : ∀ name, filters.tag = some name → ∃ t, Tagged b p.id t ∧ weight t.name = weight name

/-- The row with the names of all its tags. -/
structure IsSummary (weight : Bytes → Bytes) (b : Bank) (p : ProblemRow)
    (summary : ProblemSummary) : Prop where
  id : summary.id = p.id
  title : summary.title = p.title
  difficulty : summary.difficulty = p.difficulty
  timeLimitMs : summary.timeLimitMs = p.timeLimitMs
  memoryLimitMb : summary.memoryLimitMb = p.memoryLimitMb
  tags : ∀ name, name ∈ summary.tags ↔ ∃ t, Tagged b p.id t ∧ t.name = name
  /-- even to the collation -/
  distinct : (summary.tags.map weight).Nodup

/-- The list that the filters ask for. -/
structure Listed (weight : Bytes → Bytes) (b : Bank) (filters : ProblemFilters)
    (summaries : List ProblemSummary) : Prop where
  ascending : (summaries.map ProblemSummary.id).Pairwise (· < ·)
  sound : ∀ summary ∈ summaries, ∃ p ∈ b.problems, Selected weight b filters p ∧
    IsSummary weight b p summary
  complete : ∀ p ∈ b.problems, Selected weight b filters p →
    ∃ summary ∈ summaries, IsSummary weight b p summary

/-! ## The tags of a problem -/

/-- The tags of a problem as the join finds them. -/
def Bank.linkedTags (b : Bank) (problemId : Nat) : List TagRow :=
  join TagRow.id ProblemTagRow.tagId b.tags
    (b.problemTags.filter fun l => l.problemId == problemId)

/-- The rows that the join finds. -/
theorem mem_linkedTags {b : Bank} {t : TagRow} :
    t ∈ b.linkedTags problemId ↔ Tagged b problemId t := by
  unfold Bank.linkedTags Tagged
  rw [mem_join]
  refine and_congr_right fun _ => ⟨?_, fun hl => ⟨_, List.mem_filter.mpr ⟨hl, by simp⟩, rfl⟩⟩
  rintro ⟨l, hl, htag⟩
  obtain ⟨hl, hproblem⟩ := List.mem_filter.mp hl
  rw [← htag, ← eq_of_beq hproblem]
  exact hl

/-- Sorting leaves the tags as they are. -/
theorem perm_tagsOf (b : Bank) (problemId : Nat) :
    (b.tagsOf weight problemId).Perm (b.linkedTags problemId) :=
  List.perm_insertionSort _ _

namespace Schema

/-- A tag is linked once. -/
theorem nodup_linkedTags (h : Schema weight s) (problemId : Nat) :
    ((s.rows.linkedTags problemId).map TagRow.id).Nodup := by
  unfold Bank.linkedTags
  rw [map_join h.tagIds fun l hl => h.linkedTag l (List.mem_filter.mp hl).1]
  refine (h.problemTags.filter _).map_on fun l hl l' hl' htag => ?_
  have hproblem := eq_of_beq (List.mem_filter.mp hl).2
  have hproblem' := eq_of_beq (List.mem_filter.mp hl').2
  cases l
  cases l'
  cases htag
  cases hproblem.trans hproblem'.symm
  rfl

/-- No two tags of a problem have a name in common. -/
theorem nodup_linkedNames (h : Schema weight s) (problemId : Nat) :
    ((s.rows.linkedTags problemId).map fun t => weight t.name).Nodup := by
  refine (h.nodup_linkedTags problemId).of_map _ |>.map_on fun t ht u hu heq => ?_
  exact h.eq_of_tagName (mem_linkedTags.mp ht).1 (mem_linkedTags.mp hu).1 heq

end Schema

/-! ## What the queries answer -/

namespace Bank

variable (weight : Bytes → Bytes) (b : Bank)

/-- The entry of a problem. -/
def summary (p : ProblemRow) : ProblemSummary where
  id := p.id
  title := p.title
  difficulty := p.difficulty
  timeLimitMs := p.timeLimitMs
  memoryLimitMb := p.memoryLimitMb
  tags := (b.tagsOf weight p.id).map TagRow.name

/-- The entries of the problems that match. -/
def summaries (filters : ProblemFilters) : List ProblemSummary :=
  (b.problemsWith weight filters.difficulty filters.tag).map (b.summary weight)

/-- The problem has a tag of the name. -/
def hasTag (name : Bytes) (problemId : Nat) : Bool :=
  (b.linkedTags problemId).any fun t => weight t.name == weight name

end Bank

/-- It is the entry of this problem. -/
theorem isSummary_summary (h : Schema weight s) (p : ProblemRow) :
    IsSummary weight s.rows p (s.rows.summary weight p) := by
  refine ⟨rfl, rfl, rfl, rfl, rfl, fun name => ?_, ?_⟩
  · unfold Bank.summary
    rw [List.mem_map]
    refine exists_congr fun t => and_congr_left fun _ => ?_
    rw [(perm_tagsOf s.rows p.id).mem_iff, mem_linkedTags]
  · unfold Bank.summary
    rw [List.map_map, ((perm_tagsOf s.rows p.id).map _).nodup_iff]
    exact h.nodup_linkedNames p.id

/-- The joins select the problems with the tag. -/
theorem joined_eq_filter (h : Schema weight s) (name : Bytes) :
    (s.rows.problems.flatMap fun p =>
      (s.rows.problemTags.filter fun l => l.problemId == p.id).flatMap fun l =>
        (s.rows.tags.filter fun t => t.id == l.tagId && weight t.name == weight name).map
          fun _ => p) = s.rows.problems.filter fun p => s.rows.hasTag weight name p.id := by
  rw [← select_join fun p => (s.rows.linkedTags p.id).filter
    fun t => weight t.name == weight name]
  · refine List.flatMap_congr fun p _ => ?_
    unfold Bank.linkedTags
    rw [filter_join, List.map_flatMap]
  · intro p _
    exact length_filter_key (h.nodup_linkedNames p.id) (weight name)

/-- The subquery finds a tag with the name. -/
theorem hasTag_iff {b : Bank} {name : Bytes} : b.hasTag weight name problemId = true ↔
    ∃ t, Tagged b problemId t ∧ weight t.name = weight name := by
  unfold Bank.hasTag
  simp only [List.any_eq_true, mem_linkedTags, beq_iff_eq]

/-- The problems that the query answers are those asked for, each as often as it is stored. -/
theorem perm_problemsWith (h : Schema weight s) (filters : ProblemFilters) :
    (s.rows.problemsWith weight filters.difficulty filters.tag).Perm
      ((s.rows.problems.filter fun p => filters.tag.all (s.rows.hasTag weight · p.id)).filter
        fun p => filters.difficulty.all (p.difficulty == ·)) := by
  unfold Bank.problemsWith
  refine (List.perm_insertionSort _ _).trans ?_
  cases htag : filters.tag with
  | none =>
    have hall : (s.rows.problems.filter fun _ => true) = s.rows.problems :=
      List.filter_eq_self.mpr fun _ _ => rfl
    simp only [Option.all_none, hall]
    rfl
  | some name =>
    dsimp only
    rw [joined_eq_filter h name]
    rfl

/-- **The `WHERE` clause selects what the filters ask for.** -/
theorem mem_problemsWith (h : Schema weight s) {p : ProblemRow} :
    p ∈ s.rows.problemsWith weight filters.difficulty filters.tag ↔
      p ∈ s.rows.problems ∧ Selected weight s.rows filters p := by
  rw [(perm_problemsWith h filters).mem_iff, List.mem_filter, List.mem_filter, and_assoc]
  refine and_congr_right fun _ => ?_
  constructor
  · rintro ⟨htag, hdifficulty⟩
    refine ⟨fun d hd => ?_, fun name hname => ?_⟩
    · rw [hd] at hdifficulty
      exact eq_of_beq hdifficulty
    · rw [hname] at htag
      exact hasTag_iff.mp htag
  · rintro ⟨hdifficulty, htag⟩
    constructor
    · cases hname : filters.tag with
      | none => rfl
      | some name => exact hasTag_iff.mpr (htag name hname)
    · cases hd : filters.difficulty with
      | none => rfl
      | some d => exact beq_iff_eq.mpr (hdifficulty d hd)

/-- Ids in order and all different count up. -/
theorem ascending_problemsWith (h : Schema weight s) (filters : ProblemFilters) :
    ((s.rows.problemsWith weight filters.difficulty filters.tag).map ProblemRow.id).Pairwise
      (· < ·) := by
  have hnodup : ((s.rows.problemsWith weight filters.difficulty filters.tag).map
      ProblemRow.id).Nodup := by
    rw [((perm_problemsWith h filters).map _).nodup_iff]
    exact h.problemIds.sublist ((List.filter_sublist.trans List.filter_sublist).map _)
  have hsorted : ((s.rows.problemsWith weight filters.difficulty filters.tag).map
      ProblemRow.id).Pairwise (· ≤ ·) :=
    List.pairwise_map.mpr (List.pairwise_insertionSort (fun p q : ProblemRow => p.id ≤ q.id) _)
  exact hsorted.imp₂ (fun _ _ hle hne => Nat.lt_of_le_of_ne hle hne) hnodup

/-- **The list is complete, has nothing else, and is in order.** -/
theorem listed_summaries (h : Schema weight s) (filters : ProblemFilters) :
    Listed weight s.rows filters (s.rows.summaries weight filters) := by
  refine ⟨?_, fun summary hin => ?_, fun p hp hsel => ?_⟩
  · unfold Bank.summaries
    rw [List.map_map]
    exact ascending_problemsWith h filters
  · obtain ⟨p, hp, rfl⟩ := List.mem_map.mp hin
    obtain ⟨hp, hsel⟩ := (mem_problemsWith h).mp hp
    exact ⟨p, hp, hsel, isSummary_summary h p⟩
  · exact ⟨_, List.mem_map.mpr ⟨p, (mem_problemsWith h).mpr ⟨hp, hsel⟩, rfl⟩,
      isSummary_summary h p⟩

/-! ## The run -/

/-- One statement after another. -/
theorem ofDao_bind {α β : Type} (p : Dao α) (f : α → Dao β) :
    ofDao (p >>= f) = ofDao p >>= fun a => ofDao (f a) := by
  induction p with
  | ret a => rfl
  | throw e => rfl
  | call c k ih => exact congrArg (Program.call (Call.bank c)) (funext ih)

/-- The statements of a loop. -/
theorem ofDao_mapM {α β : Type} (f : α → Dao β) (as : List α) :
    ofDao (as.mapM f) = as.mapM fun a => ofDao (f a) := by
  induction as with
  | nil => rfl
  | cons a as ih =>
    rw [List.mapM_cons, List.mapM_cons, ofDao_bind]
    refine congrArg _ (funext fun b => ?_)
    rw [ofDao_bind, ih]
    rfl

variable {m : Mysql} {env : Env}

/-- A loop that reports something for each element. -/
theorem Reports.mapM {α β : Type} {f : α → Dao β} {g : α → Bank → β}
    (hf : ∀ a, Reports m (f a) fun b c => c = g a b) :
    ∀ as : List α, Reports m (as.mapM f) fun b cs => cs = as.map fun a => g a b
  | [] => Reports.ret fun _ => rfl
  | a :: as => by
    rw [List.mapM_cons]
    refine (hf a).pass (g := fun c b => c :: as.map fun a => g a b) fun c => ?_
    exact (Reports.mapM hf as).pass (g := fun cs _ => c :: cs) fun cs => Reports.ret fun _ => rfl

/-- The entry is made of the row and its tags. -/
theorem reports_summaryOf (p : ProblemRow) :
    Reports m (summaryOf p) fun b r => r = b.summary m.weight p := by
  have hrows := reports_rowsOf (m := m) (.selectTags p.id) (fun b => b.tagsOf m.weight p.id) rfl
    (fun _ => rfl) "tag query" "tag query store"
  have hnames : Reports m (tagNamesForProblem p.id) fun b names =>
      names = (b.tagsOf m.weight p.id).map TagRow.name :=
    hrows.pass (g := fun (rows : List TagRow) _ => rows.map TagRow.name)
      fun rows => Reports.ret fun _ => rfl
  exact hnames.pass (g := fun tags _ => { Bank.empty.summary m.weight p with tags })
    fun tags => Reports.ret fun _ => rfl

/-- What follows the first query. -/
def summariesOf (rows : List ProblemRow) : Dao (List ProblemSummary) := do
  let res ← executeQuery .storeResult "problem list store"
  let summaries ← rows.mapM summaryOf
  ignoring (.freeResult res)
  return summaries

/-- All entries. -/
theorem reports_summariesOf (rows : List ProblemRow) :
    Reports m (summariesOf rows) fun b r => r = rows.map (b.summary m.weight) := by
  refine (reports_storeResult _).skip fun res => ?_
  refine (Reports.mapM reports_summaryOf rows).pass (g := fun summaries _ => summaries)
    fun summaries => ?_
  exact (reports_freeResult res).skip fun _ => Reports.ret fun _ => rfl

/-- A lease, a query and a loop. -/
theorem listProblems_eq (filters : ProblemFilters) : listProblems filters = Http.withLease (do
    let rows : List ProblemRow ←
      .call (.selectProblems filters.difficulty filters.tag) (orThrow "problem list query")
    ofDao (summariesOf rows)) := by
  unfold listProblems summariesOf
  simp only [ofDao_bind, ofDao_mapM]
  rfl

theorem exec_selectProblems (env : Env) (b : Backend) (filters : ProblemFilters) :
    env.exec (.selectProblems filters.difficulty filters.tag) b = env.query (fun b =>
      b.db.view.problemsWith env.mysql.weight filters.difficulty filters.tag) b := rfl

/-- The body of `listProblems`. -/
theorem run_listing (env : Env) (b : Backend) (filters : ProblemFilters) :
    let p : Handler (List ProblemSummary) := do
      let rows : List ProblemRow ←
        .call (.selectProblems filters.difficulty filters.tag) (orThrow "problem list query")
      ofDao (summariesOf rows)
    (p.run env.exec b).1 = .ok (b.db.view.summaries env.mysql.weight filters) ∨
      (∃ e, (p.run env.exec b).1 = .error e) ∧
        env.mysql.FailsBetween b.db.calls (p.run env.exec b).2.db.calls := by
  dsimp only
  rw [Program.run_bind, Program.run_call, exec_selectProblems]
  by_cases hf : env.mysql.fails b.db.calls = none
  · rw [Env.query_of_quiet hf]
    dsimp only [orThrow, Program.run]
    rw [run_ofDao]
    obtain ⟨-, ⟨a, ha, rfl⟩ | herror⟩ := reports_summariesOf (m := env.mysql)
      (b.db.view.problemsWith env.mysql.weight filters.difficulty filters.tag)
      { b.db with calls := b.db.calls + 1 }
    · exact .inl ha
    · exact .inr ⟨herror.1, herror.2.mono (Nat.le_succ _) (Nat.le_refl _)⟩
  · obtain ⟨e, he⟩ := Env.query_error env (fun b : Backend =>
      b.db.view.problemsWith env.mysql.weight filters.difficulty filters.tag) hf
    rw [he]
    exact .inr ⟨⟨_, rfl⟩, failsBetween_first hf (Nat.lt_succ_self _)⟩

/--
**`listProblems` returns the right list**: the problems of the difficulty and with the tag asked
for, once each and by id, each with the names of all its tags. It throws only when one of its
calls has failed.
-/
theorem listProblems_exact (env : Env) (b : Backend) (filters : ProblemFilters)
    (h : Schema env.mysql.weight b.db.store) :
    (∃ summaries, ((listProblems filters).run env.exec b).1 = .ok summaries ∧
      Listed env.mysql.weight b.db.view filters summaries) ∨
    (∃ e, ((listProblems filters).run env.exec b).1 = .error e) ∧
      env.mysql.FailsBetween b.db.calls ((listProblems filters).run env.exec b).2.db.calls := by
  rw [listProblems_eq]
  by_cases hacquire : env.mysql.fails b.db.calls = none
  · rw [Http.run_withLease_ok hacquire]
    rcases run_listing env b.acquired filters with hrun | ⟨herror, hfail⟩
    · exact .inl ⟨_, hrun, listed_summaries h filters⟩
    · exact .inr ⟨herror, hfail.mono (Nat.le_succ _) (Nat.le_succ _)⟩
  · obtain ⟨e, he⟩ := Http.run_withLease_error hacquire
    rw [he]
    exact .inr ⟨⟨e, rfl⟩, failsBetween_first hacquire (Nat.lt_succ_self _)⟩

/-- Two problems that share a tag; one has another tag as well. -/
def sharedTag : Backend :=
  { oneProblem with db := .resting {
      problems := [⟨2, utf8 "LIS", [], .easy, 500, 256, 0, 0⟩,
        ⟨1, utf8 "A+B", [], .easy, 500, 256, 0, 0⟩]
      testcases := []
      tags := [⟨1, utf8 "math"⟩, ⟨2, utf8 "dp"⟩]
      problemTags := [⟨1, 1⟩, ⟨2, 1⟩, ⟨2, 2⟩] } ⟨3, 1, 3⟩ }

theorem listProblems_exact_shared :
    let filters : ProblemFilters := ⟨some .easy, some (utf8 "math")⟩
    (∃ summaries, ((listProblems filters).run calmEnv.exec sharedTag).1 = .ok summaries ∧
      Listed calmEnv.mysql.weight sharedTag.db.view filters summaries) ∨
    (∃ e, ((listProblems filters).run calmEnv.exec sharedTag).1 = .error e) ∧
      calmEnv.mysql.FailsBetween sharedTag.db.calls
        ((listProblems filters).run calmEnv.exec sharedTag).2.db.calls :=
  listProblems_exact calmEnv sharedTag ⟨some .easy, some (utf8 "math")⟩
    ⟨by decide, by decide, by decide, by decide, by decide, by decide, by decide, by decide,
      by decide, by decide, by decide⟩

end MiniOj.Db
