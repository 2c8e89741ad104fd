import MiniOj.Db.Spec.Schema

/-!
# A bank filled from a seed file

The rows of problems that are stored one after another in an empty bank. Nothing is said about
how they get there: each row is told by its place, which is its id, and by the call that inserts
it, which is its timestamp.

* `Bank.Holds` — the bank has the rows of these problems and no others
* `Stops`, `StopsLoading` — how loading a seed file comes to an end before the end of the file
* `KeepsRows` — what it takes for a reset that throws to leave the rows as they are
-/

namespace MiniOj.Db

open Infra Admin

/-! ## Places -/

/-- The rows are those of the places, where `P` says what the row of a place is, given the places
before it. -/
def Filled {α ρ : Type} (P : List α → α → ρ → Prop) (places : List α) (rows : List ρ) : Prop :=
  ∀ r, r ∈ rows ↔ ∃ before a after, places = before ++ a :: after ∧ P before a r

/-- A problem of a seed file, and the first of the calls that store it. -/
structure SeedProblem where
  input : ProblemInput
  call : Nat

/-- A testcase of a seed file, and the call that inserts it. -/
structure CasePlace where
  problemId : Nat
  input : TestCaseInput
  call : Nat

/-- A tag of a problem of a seed file. -/
structure TagPlace where
  problemId : Nat
  name : Bytes

/-- What the collation compares. -/
def TagPlace.key (weight : Bytes → Bytes) (t : TagPlace) : Option Bytes :=
  (fitVarchar 64 t.name).map weight

/-- The testcases of one problem, when `call` inserts the first. -/
def casePlacesOf (problemId : Nat) (cases : List TestCaseInput) (call : Nat) : List CasePlace :=
  (cases.zipIdx call).map fun (c, call) => ⟨problemId, c, call⟩

/-- The tags of one problem. -/
def tagPlacesOf (problemId : Nat) (names : List Bytes) : List TagPlace :=
  names.map fun name => ⟨problemId, name⟩

/-- The first testcase of a problem comes after the lease, the start, the problem and the tags. -/
def casePlaces (ps : List SeedProblem) : List CasePlace :=
  (ps.zipIdx 1).flatMap fun (p, id) =>
    casePlacesOf id p.input.testcases (p.call + 3 + 2 * p.input.tags.length)

/-- The tags of all problems, one problem after another. -/
def tagPlaces (ps : List SeedProblem) : List TagPlace :=
  (ps.zipIdx 1).flatMap fun (p, id) => tagPlacesOf id p.input.tags

/-- The counters when these problems have been stored. Every tag of a problem uses up an id, also
one that is there already. -/
def nextAfter (ps : List SeedProblem) : Counters :=
  ⟨ps.length + 1, (casePlaces ps).length + 1, (tagPlaces ps).length + 1⟩

/-- The row of a problem that has these before it. -/
structure ProblemRow.At (clock : Nat → Nat) (before : List SeedProblem) (p : SeedProblem)
    (r : ProblemRow) : Prop where
  id : r.id = before.length + 1
  row : IsRow p.input r
  createdAt : r.createdAt = clock (p.call + 2)
  updatedAt : r.updatedAt = clock (p.call + 2)

/-- The row of a testcase that has these before it. -/
structure TestcaseRow.At (clock : Nat → Nat) (before : List CasePlace) (c : CasePlace)
    (r : TestcaseRow) : Prop where
  id : r.id = before.length + 1
  row : IsCase c.problemId c.input r
  createdAt : r.createdAt = clock c.call

/-- Only the first use of a name has a row. -/
structure TagRow.At (weight : Bytes → Bytes) (before : List TagPlace) (t : TagPlace)
    (r : TagRow) : Prop where
  id : r.id = before.length + 1
  name : fitVarchar 64 t.name = some r.name
  first : t.key weight ∉ before.map (TagPlace.key weight)

/-- The link is to the first use of the name. -/
structure ProblemTagRow.At (weight : Bytes → Bytes) (before : List TagPlace) (t : TagPlace)
    (l : ProblemTagRow) : Prop where
  problemId : l.problemId = t.problemId
  tagId : l.tagId = ((before ++ [t]).map (TagPlace.key weight)).idxOf (t.key weight) + 1

/-- The bank has the rows of these problems, stored one after another, and no others. -/
structure Bank.Holds (m : Mysql) (ps : List SeedProblem) (b : Bank) : Prop where
  problems : Filled (ProblemRow.At m.clock) ps b.problems
  testcases : Filled (TestcaseRow.At m.clock) (casePlaces ps) b.testcases
  tags : Filled (TagRow.At m.weight) (tagPlaces ps) b.tags
  problemTags : Filled (ProblemTagRow.At m.weight) (tagPlaces ps) b.problemTags

/-! ## Where a reset stops -/

/-- The entry is stored on top of these problems: it can be parsed, the calls get as far as the
`COMMIT`, the texts fit their columns, and there are ids left. -/
structure Mysql.Stores (m : Mysql) (lost : Nat → Option Bytes) (n : Nat) (ps : List SeedProblem)
    (entry : Json) (input : ProblemInput) : Prop where
  parsed : parseProblemInput entry = .ok input
  commits : m.Commits lost n input
  fits : Store.Fits m.weight input
  room : Store.Room (nextAfter ps) input

/-- With the problems `ps` stored and the next call being number `n`, one of the entries stops
the loading, and then the problems `stored` are in the bank. -/
inductive Stops (m : Mysql) (lost : Nat → Option Bytes) :
    Nat → List SeedProblem → List Json → List SeedProblem → Prop where
  | refused {n : Nat} {ps : List SeedProblem} {entry : Json} {entries : List Json}
      (h : ∀ input, ¬ m.Stores lost n ps entry input) : Stops m lost n ps (entry :: entries) ps
  /-- the entry is stored, and the answer to its `COMMIT` lost -/
  | unheard {n : Nat} {ps : List SeedProblem} {entry : Json} {entries : List Json}
      {input : ProblemInput} (h : m.Stores lost n ps entry input)
      (hl : lost (Mysql.commitCall n input) ≠ none) :
      Stops m lost n ps (entry :: entries) (ps ++ [⟨input, n⟩])
  | next {n : Nat} {ps stored : List SeedProblem} {entry : Json} {entries : List Json}
      {input : ProblemInput} (h : m.Stores lost n ps entry input)
      (hl : lost (Mysql.commitCall n input) = none)
      (hs : Stops m lost (n + Mysql.bodyCalls input + 4) (ps ++ [⟨input, n⟩]) entries stored) :
      Stops m lost n ps (entry :: entries) stored

/-- A reset whose tables are empty stops in the `ALTER`s (the calls 5 to 7), at the file, or at an
entry (whose calls begin with the 9th), and the problems `stored` are in the bank. -/
inductive StopsLoading (m : Mysql) (lost : Nat → Option Bytes) (read : JsonReader)
    (file : SeedFile) : List SeedProblem → Prop where
  | counters (h : ¬ m.Through lost 5 3) : StopsLoading m lost read file []
  | file (h : m.Through lost 5 3) (hf : Mysql.seedEntries read file = none) :
      StopsLoading m lost read file []
  | entry {entries : List Json} {stored : List SeedProblem} (h : m.Through lost 5 3)
      (hf : Mysql.seedEntries read file = some entries) (hs : Stops m lost 9 [] entries stored) :
      StopsLoading m lost read file stored

/-- What it takes for a reset that throws to leave the rows `b` as they are. The `DELETE`s are
the calls 1 to 4. -/
inductive KeepsRows (m : Mysql) (lost : Nat → Option Bytes) (read : JsonReader) (file : SeedFile)
    (b : Bank) : Prop where
  /-- there is no connection to be had -/
  | refused (h : m.fails 0 ≠ none)
  /-- not every `DELETE` gets through, and those that are carried out have nothing to delete -/
  | clearing (h : ¬ m.Through lost 1 4)
      (hb : ∀ i t, clearOrder[i]? = some t → m.Through lost 1 i → m.fails (1 + i) = none →
        b.IsEmpty t)
  /-- the loading stops nowhere but where the file has just the problems that were there -/
  | loading (h : m.Through lost 1 4)
      (hb : ∀ stored, StopsLoading m lost read file stored → b.Holds m stored)

end MiniOj.Db
