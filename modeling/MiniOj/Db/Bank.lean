import Mathlib.Data.List.Sort
import MiniOj.Types

/-!
# The problem bank

The tables `problems`, `testcases`, `tags` and `problem_tags` of `schema.sql`, and what each
statement of the DAOs does to them in InnoDB under strict SQL mode. A statement that violates
a constraint is `none` and has no effect.

Rows are kept in the order of insertion. `weight` is the sort key of `utf8mb4_0900_ai_ci`, the
collation of every text column; two names are equal when their weights are.
-/

namespace MiniOj.Db

open Infra

/-- A row of `problems`. -/
structure ProblemRow where
  id : Nat
  title : Bytes
  descriptionMd : Bytes
  difficulty : Difficulty
  timeLimitMs : UInt32
  memoryLimitMb : UInt32
  createdAt : Nat
  updatedAt : Nat
  deriving DecidableEq, Repr

/-- A row of `testcases`. -/
structure TestcaseRow where
  id : Nat
  problemId : Nat
  input : Bytes
  expectedOutput : Bytes
  isSample : Bool
  score : UInt32
  createdAt : Nat
  deriving DecidableEq, Repr

/-- A row of `tags`, whose names are unique. -/
structure TagRow where
  id : Nat
  name : Bytes
  deriving DecidableEq, Repr

/-- A row of `problem_tags`, which is unique as a whole. -/
structure ProblemTagRow where
  problemId : Nat
  tagId : Nat
  deriving DecidableEq, Repr

/-- The tables of the bank, apart from those of the accounts. -/
inductive Table where
  | problems
  | testcases
  | tags
  | problemTags
  deriving DecidableEq, Repr

/-- The rows of the four tables. -/
structure Bank where
  problems : List ProblemRow
  testcases : List TestcaseRow
  tags : List TagRow
  problemTags : List ProblemTagRow
  deriving DecidableEq, Repr

/-- No rows at all. -/
def Bank.empty : Bank := ⟨[], [], [], []⟩

/-- The next `AUTO_INCREMENT` values. No rollback takes them back. -/
structure Counters where
  problems : Nat
  testcases : Nat
  tags : Nat
  deriving DecidableEq, Repr

/-- The rows that a statement sees, and the counters. -/
structure Store where
  rows : Bank
  next : Counters
  deriving DecidableEq, Repr

/-! ## Columns -/

/-- The largest `INT UNSIGNED`. -/
def maxUnsigned : Nat := 4294967295

/-- What `VARCHAR(limit)` makes of a value: text of at most `limit` characters. Spaces beyond
are cut off, anything else is an error. -/
def fitVarchar (limit : Nat) (value : Bytes) : Option Bytes :=
  (utf8Length value).bind fun n =>
    let kept := value.length - (n - limit)
    if (value.drop kept).all (· == 32) then some (value.take kept) else none

/-- What `TEXT` makes of a value: at most 65535 bytes. -/
def fitText (value : Bytes) : Option Bytes :=
  (utf8Length value).bind fun _ =>
    if (value.drop 65535).all (· == 32) then some (value.take 65535) else none

/-! ## Inserts -/

namespace Store

variable (weight : Bytes → Bytes) (now : Nat) (s : Store)

/-- The row inserted is the one with the id returned. -/
def insertProblem (title descriptionMd : Bytes) (difficulty : Difficulty)
    (timeLimitMs memoryLimitMb : UInt32) : Option (Nat × Store) := do
  let title ← fitVarchar 255 title
  let descriptionMd ← fitText descriptionMd
  guard (s.next.problems ≤ maxUnsigned ∧ 0 < timeLimitMs ∧ 0 < memoryLimitMb)
  let row : ProblemRow := {
    id := s.next.problems, title, descriptionMd, difficulty, timeLimitMs, memoryLimitMb
    createdAt := now, updatedAt := now }
  return (row.id, {
    rows := { s.rows with problems := s.rows.problems ++ [row] }
    next := { s.next with problems := s.next.problems + 1 } })

/-- `INSERT … ON DUPLICATE KEY UPDATE id = LAST_INSERT_ID(id)`: the id of the tag with this
name, which is inserted if there is none. An id is used up in either case. -/
def upsertTag (name : Bytes) : Option (Nat × Store) := do
  let name ← fitVarchar 64 name
  guard (s.next.tags ≤ maxUnsigned)
  let next := { s.next with tags := s.next.tags + 1 }
  match s.rows.tags.find? fun t => weight t.name == weight name with
  | some t => return (t.id, { s with next })
  | none =>
    return (s.next.tags, { rows := { s.rows with tags := s.rows.tags ++ [⟨s.next.tags, name⟩] }, next })

/-- Both rows have to exist, and the link must not. -/
def linkTag (problemId tagId : Nat) : Option Store := do
  guard (s.rows.problems.any fun p => p.id == problemId)
  guard (s.rows.tags.any fun t => t.id == tagId)
  guard (⟨problemId, tagId⟩ ∉ s.rows.problemTags)
  return { s with rows := { s.rows with problemTags := s.rows.problemTags ++ [⟨problemId, tagId⟩] } }

/-- The problem has to exist. -/
def insertTestcase (problemId : Nat) (input expectedOutput : Bytes) (isSample : Bool)
    (score : UInt32) : Option Store := do
  let input ← fitText input
  let expectedOutput ← fitText expectedOutput
  guard (s.rows.problems.any fun p => p.id == problemId)
  guard (s.next.testcases ≤ maxUnsigned)
  let row : TestcaseRow := {
    id := s.next.testcases, problemId, input, expectedOutput, isSample, score, createdAt := now }
  return {
    rows := { s.rows with testcases := s.rows.testcases ++ [row] }
    next := { s.next with testcases := s.next.testcases + 1 } }

end Store

/-! ## Updates and deletes -/

namespace Bank

variable (weight : Bytes → Bytes) (now : Nat) (b : Bank)

/-- `updated_at` moves only when a column changes. -/
def updateProblem (id : Nat) (title descriptionMd : Bytes) (difficulty : Difficulty)
    (timeLimitMs memoryLimitMb : UInt32) : Option Bank :=
  if b.problems.any fun p => p.id == id then do
    let title ← fitVarchar 255 title
    let descriptionMd ← fitText descriptionMd
    guard (0 < timeLimitMs ∧ 0 < memoryLimitMb)
    let change (p : ProblemRow) : ProblemRow :=
      { p with title, descriptionMd, difficulty, timeLimitMs, memoryLimitMb }
    return { b with problems := b.problems.map fun p =>
      if p.id ≠ id then p
      else if change p = p then p
      else { change p with updatedAt := now } }
  else some b

/-- The rows that refer to the problems deleted go with them. -/
def deleteProblems (gone : ProblemRow → Bool) : Bank :=
  let cascades (id : Nat) : Bool := b.problems.any fun p => gone p && p.id == id
  { b with
    problems := b.problems.filter fun p => !gone p
    testcases := b.testcases.filter fun c => !cascades c.problemId
    problemTags := b.problemTags.filter fun l => !cascades l.problemId }

/-- `DELETE FROM testcases WHERE problem_id = …`. -/
def deleteTestcases (problemId : Nat) : Bank :=
  { b with testcases := b.testcases.filter fun c => c.problemId != problemId }

/-- `DELETE FROM problem_tags WHERE problem_id = …`. -/
def deleteProblemTags (problemId : Nat) : Bank :=
  { b with problemTags := b.problemTags.filter fun l => l.problemId != problemId }

/-- `DELETE FROM t`. -/
def deleteAll : Table → Bank
  | .problems => b.deleteProblems fun _ => true
  | .testcases => { b with testcases := [] }
  | .tags =>
    { b with
      tags := []
      problemTags := b.problemTags.filter fun l => !b.tags.any fun t => t.id == l.tagId }
  | .problemTags => { b with problemTags := [] }

/-! ## Queries -/

/-- The row of a problem. -/
def problem? (id : Nat) : Option ProblemRow := b.problems.find? fun p => p.id == id

/-- The tags of a problem by name. -/
def tagsOf (problemId : Nat) : List TagRow :=
  ((b.problemTags.filter fun l => l.problemId == problemId).flatMap fun l =>
    b.tags.filter fun t => t.id == l.tagId).insertionSort
      fun s t => (weight s.name).le (weight t.name)

/-- The testcases of a problem by id. -/
def testcasesOf (problemId : Nat) : List TestcaseRow :=
  (b.testcases.filter fun c => c.problemId == problemId).insertionSort fun c d => c.id ≤ d.id

/-- The sample testcases of a problem by id. -/
def samplesOf (problemId : Nat) : List TestcaseRow :=
  (b.testcasesOf problemId).filter fun c => c.isSample

/-- The problems of a difficulty and with a tag of a name, by id. -/
def problemsWith (difficulty : Option Difficulty) (tag : Option Bytes) : List ProblemRow :=
  let joined : List ProblemRow := match tag with
    | none => b.problems
    | some name => b.problems.flatMap fun p =>
      (b.problemTags.filter fun l => l.problemId == p.id).flatMap fun l =>
        (b.tags.filter fun t => t.id == l.tagId && weight t.name == weight name).map fun _ => p
  (joined.filter fun p => difficulty.all (p.difficulty == ·)).insertionSort fun p q => p.id ≤ q.id

end Bank

/-- `ALTER TABLE t AUTO_INCREMENT = 1`: the smallest value above every id in use. -/
def Store.resetAutoIncrement (s : Store) : Table → Counters
  | .problems => { s.next with problems := s.rows.problems.foldr (fun p n => max (p.id + 1) n) 1 }
  | .testcases => { s.next with testcases := s.rows.testcases.foldr (fun c n => max (c.id + 1) n) 1 }
  | .tags => { s.next with tags := s.rows.tags.foldr (fun t n => max (t.id + 1) n) 1 }
  | .problemTags => s.next

end MiniOj.Db
