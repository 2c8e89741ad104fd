import MiniOj.Db.SeedLoader

/-!
# What seeding does to the rows

Storing a problem is a function on rows and counters, without connection, transaction or
failure, and so is filling an empty bank from a list of entries. What may fail is known
beforehand: `Quiet n k` says that the calls `n`, …, `n + k - 1` do not fail, and `Through lost n k`
that they are answered as well.
-/

namespace MiniOj.Db

open Infra Admin

/-! ## Storing a problem -/

namespace Store

variable (weight : Bytes → Bytes) (clock : Nat → Nat)

/-- The tags of a problem, each inserted if it is new and then linked. -/
def addTags (problemId : Nat) : List Bytes → Store → Option Store
  | [], s => some s
  | name :: names, s => do
    let (tagId, s) ← s.upsertTag weight name
    let s ← s.linkTag problemId tagId
    addTags problemId names s

/-- `n` is the number of the first call. -/
def addTestcases (problemId : Nat) : List TestCaseInput → Nat → Store → Option Store
  | [], _, s => some s
  | c :: cases, n, s => do
    let s ← s.insertTestcase (clock n) problemId c.input c.expectedOutput c.isSample c.score
    addTestcases problemId cases (n + 1) s

/-- The problem with its tags and testcases, and its id. -/
def addProblem (input : ProblemInput) (n : Nat) (s : Store) : Option (Nat × Store) := do
  let (id, s) ← s.insertProblem (clock n) input.title input.descriptionMd input.difficulty
    input.timeLimitMs input.memoryLimitMb
  let s ← s.addTags weight id input.tags
  let s ← s.addTestcases clock id input.testcases (n + 1 + 2 * input.tags.length)
  return (id, s)

end Store

/-! ## Filling the bank -/

namespace Mysql

variable (m : Mysql)

/-- The calls `n`, …, `n + k - 1` do not fail. -/
def Quiet (n k : Nat) : Prop := ∀ i < k, m.fails (n + i) = none

instance (n k : Nat) : Decidable (m.Quiet n k) := inferInstanceAs (Decidable (∀ i < k, _))

/-- One of the calls from the `n`th up to the one before the `n'`th fails. -/
def FailsBetween (n n' : Nat) : Prop := ∃ i, n ≤ i ∧ i < n' ∧ m.fails i ≠ none

/-- The calls `n`, …, `n + k - 1` do not fail and none of their answers is lost. -/
def Through (lost : Nat → Option Bytes) (n k : Nat) : Prop :=
  ∀ i < k, m.fails (n + i) = none ∧ lost (n + i) = none

/-- The calls that store a problem, from the insert to the last testcase. -/
def bodyCalls (input : ProblemInput) : Nat := 1 + 2 * input.tags.length + input.testcases.length

/-- The `COMMIT` of `createProblem`, whose first call is number `n`. -/
def commitCall (n : Nat) (input : ProblemInput) : Nat := n + bodyCalls input + 2

/-- `createProblem` gets as far as the `COMMIT`, and the `COMMIT` is carried out, whether its
answer arrives or not. -/
structure Commits (lost : Nat → Option Bytes) (n : Nat) (input : ProblemInput) : Prop where
  acquire : m.fails n = none
  body : m.Through lost (n + 1) (bodyCalls input + 1)
  commit : m.fails (commitCall n input) = none

/-- The rows and counters after `createProblem`, whose first call is number `n`: the lease, the
start, the body and the commit get through and no constraint is violated. -/
def stored (n : Nat) (s : Store) (input : ProblemInput) : Option (Nat × Store) :=
  if m.Quiet n (bodyCalls input + 3) then s.addProblem m.weight m.clock input (n + 2) else none

/-- The rows after as many entries as can be stored, and whether these are all. -/
def fill : Nat → Store → List Json → Bank × Bool
  | _, s, [] => (s.rows, true)
  | n, s, entry :: entries =>
    match parseProblemInput entry with
    | .error _ => (s.rows, false)
    | .ok input =>
      match m.stored n s input with
      | none => (s.rows, false)
      -- one more call gives the lease back
      | some (_, s') => fill (n + bodyCalls input + 4) s' entries

/-- The entries of a seed file that can be read. -/
def seedEntries (read : JsonReader) (file : SeedFile) : Option (List Json) :=
  match file.content.map read with
  | some (.ok (.array entries)) => some entries
  | _ => none

/-- The rows that a reset leaves which has emptied the tables, when its first call is number
`n`, and whether it completes. -/
def refilled (read : JsonReader) (file : SeedFile) (n : Nat) : Bank × Bool :=
  if m.Quiet (n + 5) 3 then
    match seedEntries read file with
    | some entries => m.fill (n + 9) ⟨.empty, ⟨1, 1, 1⟩⟩ entries
    | none => (.empty, false)
  else (.empty, false)

end Mysql

/-! ## Comparing banks -/

/-- The same rows in every table. -/
structure Bank.SameRows (a b : Bank) : Prop where
  problems : ∀ r, r ∈ a.problems ↔ r ∈ b.problems
  testcases : ∀ r, r ∈ a.testcases ↔ r ∈ b.testcases
  tags : ∀ r, r ∈ a.tags ↔ r ∈ b.tags
  problemTags : ∀ r, r ∈ a.problemTags ↔ r ∈ b.problemTags

/-- The table has no rows. -/
def Bank.IsEmpty (b : Bank) : Table → Prop
  | .problems => b.problems = []
  | .testcases => b.testcases = []
  | .tags => b.tags = []
  | .problemTags => b.problemTags = []

end MiniOj.Db
