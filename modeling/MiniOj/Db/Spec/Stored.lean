import Mathlib.Data.List.Forall2
import Mathlib.Data.Option.Basic
import MiniOj.Db.Spec.Seeding

/-!
# A bank that contains a problem

When rows are those of a problem as it was given: text as the columns keep it, tags by a name
that the collation does not tell from the given one, testcases and tags in the given order.
Creating and changing a problem, as functions on rows and counters, lead to such rows and touch
no others.

* `IsRow`, `IsCase`, `IsLink` — a row of `problems`, `testcases`, `problem_tags`
* `Attached` — the testcases and tags of a problem come on top of the other rows
* `addProblem_spec`, `replaceProblem_spec`
-/

namespace MiniOj.Db

open Infra Admin

/-! ## Rows -/

/-- The row has what the input says, as far as the columns hold it. -/
structure IsRow (input : ProblemInput) (p : ProblemRow) : Prop where
  title : fitVarchar 255 input.title = some p.title
  descriptionMd : fitText input.descriptionMd = some p.descriptionMd
  difficulty : p.difficulty = input.difficulty
  timeLimitMs : p.timeLimitMs = input.timeLimitMs
  memoryLimitMb : p.memoryLimitMb = input.memoryLimitMb

/-- The row is that of a testcase of the input. -/
structure IsCase (problemId : Nat) (c : TestCaseInput) (row : TestcaseRow) : Prop where
  problemId : row.problemId = problemId
  input : fitText c.input = some row.input
  expectedOutput : fitText c.expectedOutput = some row.expectedOutput
  isSample : row.isSample = c.isSample
  score : row.score = c.score

/-- The row links the problem to a tag with this name. -/
structure IsLink (weight : Bytes → Bytes) (tags : List TagRow) (problemId : Nat) (name : Bytes)
    (l : ProblemTagRow) : Prop where
  problemId : l.problemId = problemId
  tag : ∃ t ∈ tags, t.id = l.tagId ∧
    ∃ kept, fitVarchar 64 name = some kept ∧ weight t.name = weight kept

theorem IsLink.mono {weight : Bytes → Bytes} {problemId : Nat} {tags tags' : List TagRow}
    {name : Bytes} {l : ProblemTagRow} (h : IsLink weight tags problemId name l)
    (hp : tags <+: tags') :
    IsLink weight tags' problemId name l := by
  obtain ⟨t, ht, hrest⟩ := h.tag
  exact ⟨h.problemId, t, hp.subset ht, hrest⟩

/-- The testcases and tags of the problem come on top of the rows `kept`. -/
structure Attached (weight : Bytes → Bytes) (kept b : Bank) (problemId : Nat)
    (input : ProblemInput) : Prop where
  tags : kept.tags <+: b.tags
  testcases : ∃ rows, b.testcases = kept.testcases ++ rows ∧
    List.Forall₂ (IsCase problemId) input.testcases rows
  problemTags : ∃ links, b.problemTags = kept.problemTags ++ links ∧
    List.Forall₂ (IsLink weight b.tags problemId) input.tags links

/-- The bank `b` with a new problem. -/
structure Created (weight : Bytes → Bytes) (b b' : Bank) (problemId : Nat)
    (input : ProblemInput) : Prop where
  problems : ∃ p, p.id = problemId ∧ IsRow input p ∧ b'.problems = b.problems ++ [p]
  attached : Attached weight b b' problemId input

/-- The bank `b` with other rows for a problem that it has. -/
structure Updated (weight : Bytes → Bytes) (b b' : Bank) (problemId : Nat)
    (input : ProblemInput) : Prop where
  existed : ∃ p ∈ b.problems, p.id = problemId
  problems : List.Forall₂
    (fun p p' => if p.id = problemId then p'.id = problemId ∧ IsRow input p' else p' = p)
    b.problems b'.problems
  attached :
    Attached weight ((b.deleteProblemTags problemId).deleteTestcases problemId) b' problemId input

/-! ## What a statement that succeeds has done -/

namespace Store

variable {weight : Bytes → Bytes} {clock : Nat → Nat} {s s' : Store} {problemId tagId now : Nat}

theorem insertProblem_eq_some_iff {id : Nat} {title descriptionMd : Bytes}
    {difficulty : Difficulty} {timeLimitMs memoryLimitMb : UInt32} :
    s.insertProblem now title descriptionMd difficulty timeLimitMs memoryLimitMb = some (id, s') ↔
      ∃ title', fitVarchar 255 title = some title' ∧
        ∃ descriptionMd', fitText descriptionMd = some descriptionMd' ∧
          (s.next.problems ≤ maxUnsigned ∧ 0 < timeLimitMs ∧ 0 < memoryLimitMb) ∧
            s.next.problems = id ∧ {
              rows := { s.rows with problems := s.rows.problems ++ [{
                id := s.next.problems, title := title', descriptionMd := descriptionMd', difficulty
                timeLimitMs, memoryLimitMb, createdAt := now, updatedAt := now }] }
              next := { s.next with problems := s.next.problems + 1 } } = s' := by
  simp only [insertProblem, Option.bind_eq_bind, Option.bind_eq_some_iff, Option.guard_eq_some',
    Option.pure_def, Option.some.injEq, Prod.mk.injEq, exists_const]

theorem upsertTag_eq_some_iff {name : Bytes} :
    s.upsertTag weight name = some (tagId, s') ↔
      ∃ kept, fitVarchar 64 name = some kept ∧ s.next.tags ≤ maxUnsigned ∧
        ((∃ t, (s.rows.tags.find? fun t => weight t.name == weight kept) = some t ∧
            t.id = tagId ∧ { s with next := { s.next with tags := s.next.tags + 1 } } = s') ∨
          ((s.rows.tags.find? fun t => weight t.name == weight kept) = none ∧
            s.next.tags = tagId ∧ {
              rows := { s.rows with tags := s.rows.tags ++ [⟨s.next.tags, kept⟩] }
              next := { s.next with tags := s.next.tags + 1 } } = s')) := by
  simp only [upsertTag, Option.bind_eq_bind, Option.bind_eq_some_iff, Option.guard_eq_some',
    Option.pure_def, exists_const]
  refine exists_congr fun kept => and_congr_right fun _ => and_congr_right fun _ => ?_
  cases s.rows.tags.find? fun t => weight t.name == weight kept <;> simp

theorem linkTag_eq_some_iff : s.linkTag problemId tagId = some s' ↔
    (s.rows.problems.any fun p => p.id == problemId) = true ∧
      (s.rows.tags.any fun t => t.id == tagId) = true ∧ ⟨problemId, tagId⟩ ∉ s.rows.problemTags ∧
        { s with rows :=
          { s.rows with problemTags := s.rows.problemTags ++ [⟨problemId, tagId⟩] } } = s' := by
  simp only [linkTag, Option.bind_eq_bind, Option.bind_eq_some_iff, Option.guard_eq_some',
    Option.pure_def, Option.some.injEq, exists_const]

theorem insertTestcase_eq_some_iff {input expectedOutput : Bytes} {isSample : Bool}
    {score : UInt32} :
    s.insertTestcase now problemId input expectedOutput isSample score = some s' ↔
      ∃ input', fitText input = some input' ∧
        ∃ expectedOutput', fitText expectedOutput = some expectedOutput' ∧
          (s.rows.problems.any fun p => p.id == problemId) = true ∧
            s.next.testcases ≤ maxUnsigned ∧ {
              rows := { s.rows with testcases := s.rows.testcases ++ [{
                id := s.next.testcases, problemId, input := input'
                expectedOutput := expectedOutput', isSample, score, createdAt := now }] }
              next := { s.next with testcases := s.next.testcases + 1 } } = s' := by
  simp only [insertTestcase, Option.bind_eq_bind, Option.bind_eq_some_iff, Option.guard_eq_some',
    Option.pure_def, Option.some.injEq, exists_const]

/-! ## Tags and testcases -/

/-- The tag that an upsert answers with is there afterwards. -/
theorem upsertTag_spec (problemId : Nat) {name : Bytes}
    (h : s.upsertTag weight name = some (tagId, s')) :
    s'.rows.problems = s.rows.problems ∧ s'.rows.testcases = s.rows.testcases ∧
      s'.rows.problemTags = s.rows.problemTags ∧ s.rows.tags <+: s'.rows.tags ∧
      IsLink weight s'.rows.tags problemId name ⟨problemId, tagId⟩ := by
  obtain ⟨kept, hkept, -, ⟨t, hfind, rfl, rfl⟩ | ⟨-, rfl, rfl⟩⟩ := upsertTag_eq_some_iff.mp h
  · refine ⟨rfl, rfl, rfl, List.prefix_refl _, rfl, t, List.mem_of_find?_eq_some hfind, rfl,
      kept, hkept, ?_⟩
    have hequal := List.find?_some hfind
    exact eq_of_beq hequal
  · exact ⟨rfl, rfl, rfl, List.prefix_append _ _, rfl, _, List.mem_append_right _
      (List.mem_singleton_self _), rfl, kept, hkept, rfl⟩

theorem addTags_spec {names : List Bytes} : ∀ {s s' : Store},
    s.addTags weight problemId names = some s' →
      s'.rows.problems = s.rows.problems ∧ s'.rows.testcases = s.rows.testcases ∧
        s.rows.tags <+: s'.rows.tags ∧ ∃ links, s'.rows.problemTags = s.rows.problemTags ++ links ∧
          List.Forall₂ (IsLink weight s'.rows.tags problemId) names links := by
  induction names with
  | nil =>
    intro s s' h
    cases h
    exact ⟨rfl, rfl, List.prefix_refl _, [], (List.append_nil _).symm, .nil⟩
  | cons name names ih =>
    intro s s' h
    obtain ⟨⟨tagId, t⟩, hup, h⟩ := Option.bind_eq_some_iff.mp h
    obtain ⟨u, hlink, h⟩ := Option.bind_eq_some_iff.mp h
    obtain ⟨hp, hc, hl, htags, hnew⟩ := upsertTag_spec problemId hup
    obtain ⟨-, -, -, rfl⟩ := linkTag_eq_some_iff.mp hlink
    obtain ⟨hp', hc', htags', links, hlinks, hall⟩ := ih h
    refine ⟨hp'.trans hp, hc'.trans hc, htags.trans htags', ⟨problemId, tagId⟩ :: links, ?_,
      .cons (hnew.mono htags') hall⟩
    rw [hlinks, List.append_assoc, ← hl]
    rfl

theorem addTestcases_spec {cases : List TestCaseInput} : ∀ {n : Nat} {s s' : Store},
    s.addTestcases clock problemId cases n = some s' →
      s'.rows.problems = s.rows.problems ∧ s'.rows.tags = s.rows.tags ∧
        s'.rows.problemTags = s.rows.problemTags ∧
        ∃ rows, s'.rows.testcases = s.rows.testcases ++ rows ∧
          List.Forall₂ (IsCase problemId) cases rows := by
  induction cases with
  | nil =>
    intro n s s' h
    cases h
    exact ⟨rfl, rfl, rfl, [], (List.append_nil _).symm, .nil⟩
  | cons c cases ih =>
    intro n s s' h
    obtain ⟨t, hinsert, h⟩ := Option.bind_eq_some_iff.mp h
    obtain ⟨input, hinput, output, houtput, -, -, rfl⟩ := insertTestcase_eq_some_iff.mp hinsert
    obtain ⟨hp, ht, hl, rows, hrows, hall⟩ := ih h
    dsimp only at hrows
    rw [List.append_assoc] at hrows
    exact ⟨hp, ht, hl, _, hrows, .cons ⟨rfl, hinput, houtput, rfl, rfl⟩ hall⟩

/-- **What `addProblem` leaves behind.** -/
theorem addProblem_spec {input : ProblemInput} {n id : Nat}
    (h : s.addProblem weight clock input n = some (id, s')) :
    Created weight s.rows s'.rows id input := by
  obtain ⟨⟨id', t⟩, hinsert, h⟩ := Option.bind_eq_some_iff.mp h
  obtain ⟨u, htags, h⟩ := Option.bind_eq_some_iff.mp h
  obtain ⟨v, hcases, h⟩ := Option.bind_eq_some_iff.mp h
  cases h
  obtain ⟨title, htitle, text, htext, -, hid, rfl⟩ := insertProblem_eq_some_iff.mp hinsert
  obtain ⟨hp, hc, hprefix, links, hlinks, hall⟩ := addTags_spec htags
  obtain ⟨hp', ht', hl', rows, hrows, hall'⟩ := addTestcases_spec hcases
  refine ⟨⟨_, hid, ⟨htitle, htext, rfl, rfl, rfl⟩, hp'.trans hp⟩, ?_, ⟨rows, ?_, hall'⟩,
    ⟨links, hl'.trans hlinks, ?_⟩⟩
  · rw [ht']
    exact hprefix
  · rw [hrows, hc]
  · rw [ht']
    exact hall

/-! ## Changing -/

/-- The rows and counters after the transaction of `updateProblem`, whose first statement is
call number `n`. -/
def replaceProblem (weight : Bytes → Bytes) (clock : Nat → Nat) (problemId : Nat)
    (input : ProblemInput) (n : Nat) (s : Store) : Option Store := do
  let rows ← s.rows.updateProblem (clock n) problemId input.title input.descriptionMd
    input.difficulty input.timeLimitMs input.memoryLimitMb
  let s ← { s with rows := rows.deleteProblemTags problemId }.addTags weight problemId input.tags
  { s with rows := s.rows.deleteTestcases problemId }.addTestcases clock problemId input.testcases
    (n + 3 + 2 * input.tags.length)

/-- What `UPDATE problems … WHERE id = …` does to a problem that exists. -/
theorem updateProblem_spec {b b' : Bank} {input : ProblemInput}
    (hin : (b.problems.any fun p => p.id == problemId) = true)
    (h : b.updateProblem now problemId input.title input.descriptionMd input.difficulty
      input.timeLimitMs input.memoryLimitMb = some b') :
    b'.testcases = b.testcases ∧ b'.tags = b.tags ∧ b'.problemTags = b.problemTags ∧
      List.Forall₂ (fun p p' =>
        if p.id = problemId then p'.id = problemId ∧ IsRow input p' else p' = p)
        b.problems b'.problems := by
  unfold Bank.updateProblem at h
  rw [if_pos hin] at h
  obtain ⟨title, htitle, h⟩ := Option.bind_eq_some_iff.mp h
  obtain ⟨text, htext, h⟩ := Option.bind_eq_some_iff.mp h
  obtain ⟨-, -, h⟩ := Option.bind_eq_some_iff.mp h
  cases h
  refine ⟨rfl, rfl, rfl, ?_⟩
  refine List.forall₂_map_right_iff.mpr (List.forall₂_same.mpr fun p _ => ?_)
  by_cases hp : p.id = problemId
  · rw [if_pos hp, if_neg (not_not_intro hp)]
    -- when no column changes the row is as it was
    split
    · next hsame =>
      rw [← hsame]
      exact ⟨hp, htitle, htext, rfl, rfl, rfl⟩
    · exact ⟨hp, htitle, htext, rfl, rfl, rfl⟩
  · rw [if_neg hp, if_pos hp]

/-- **What `replaceProblem` leaves behind** of a problem that exists. -/
theorem replaceProblem_spec {input : ProblemInput} {n : Nat}
    (hin : (s.rows.problems.any fun p => p.id == problemId) = true)
    (h : s.replaceProblem weight clock problemId input n = some s') :
    Updated weight s.rows s'.rows problemId input := by
  obtain ⟨b, hupdate, h⟩ := Option.bind_eq_some_iff.mp h
  obtain ⟨t, htags, hcases⟩ := Option.bind_eq_some_iff.mp h
  obtain ⟨hcb, htb, hlb, hproblems⟩ := updateProblem_spec hin hupdate
  obtain ⟨hp, hc, hprefix, links, hlinks, hall⟩ := addTags_spec htags
  obtain ⟨hp', ht', hl', rows, hrows, hall'⟩ := addTestcases_spec hcases
  obtain ⟨p, hmem, hid⟩ := List.any_eq_true.mp hin
  refine ⟨⟨p, hmem, eq_of_beq hid⟩, ?_, ?_, ⟨rows, ?_, hall'⟩, ⟨links, ?_, ?_⟩⟩
  · rw [hp', show (Bank.deleteTestcases t.rows problemId).problems = t.rows.problems from rfl, hp]
    exact hproblems
  · rw [ht']
    exact htb ▸ hprefix
  · rw [hrows]
    show (t.rows.testcases.filter _) ++ rows = (s.rows.testcases.filter _) ++ rows
    rw [hc]
    show (b.testcases.filter _) ++ rows = _
    rw [hcb]
  · rw [hl']
    show t.rows.problemTags = (s.rows.problemTags.filter _) ++ links
    rw [hlinks]
    show (b.problemTags.filter _) ++ links = _
    rw [hlb]
  · rw [ht']
    exact hall

end Store

end MiniOj.Db
