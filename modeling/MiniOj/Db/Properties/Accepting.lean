import MiniOj.Db.Spec.Schema
import MiniOj.Db.Properties.Storing

/-!
# What is accepted and what can be stored

* `accepted_stored_iff` — on a healthy database a problem that `parseProblemInput` accepts is
  stored exactly when its texts fit their columns and no two of its tags are equal under the
  collation
* `refuses_accepted` — a tag given twice passes the parser and not the primary key of
  `problem_tags`
-/

namespace MiniOj.Db

open Infra Admin

variable {m : Mysql} {w : World} {input : ProblemInput}

/-- No call fails, and the rows satisfy the schema with ids left for another problem. -/
structure Ready (m : Mysql) (w : World) (input : ProblemInput) : Prop where
  fails : ∀ n, m.fails n = none
  work : w.work = none
  schema : Schema m.weight ⟨w.bank, w.next⟩
  room : Store.Room w.next input

/-- On such a database only a constraint can keep a problem from being stored. -/
theorem Ready.createProblem_ok_iff (h : Ready m w input) :
    (∃ id w', (createProblem input).run m.exec w = (.ok id, w')) ↔
      (Store.addProblem m.weight m.clock input (w.calls + 2) ⟨w.bank, w.next⟩).isSome := by
  have hquiet : ∀ k, m.Quiet w.calls k := fun k i _ => h.fails _
  have hstored : m.stored w.calls ⟨w.bank, w.next⟩ input =
      Store.addProblem m.weight m.clock input (w.calls + 2) ⟨w.bank, w.next⟩ := if_pos (hquiet _)
  rw [← hstored]
  cases hs : m.stored w.calls ⟨w.bank, w.next⟩ input with
  | none =>
    obtain ⟨e, w', hrun, -⟩ := createProblem_error h.work hs
    rw [hrun]
    exact ⟨fun ⟨_, _, h⟩ => (nomatch h), fun h => (nomatch h)⟩
  | some r => exact ⟨fun _ => rfl, fun _ => ⟨_, _, createProblem_ok h.work hs⟩⟩

/-- **What can be stored of what is accepted.** -/
theorem accepted_stored_iff (m : Mysql) (w : World) (body : Json) (input : ProblemInput)
    (hparse : parseProblemInput body = .ok input) (h : Ready m w input) :
    (∃ id w', (createProblem input).run m.exec w = (.ok id, w')) ↔ Store.Fits m.weight input :=
  h.createProblem_ok_iff.trans
    (Store.addProblem_isSome_iff h.schema h.room (checked_of_parseProblemInput hparse))

/-! ## A tag given twice -/

/-- A request body with these tags. -/
def taggedBody (tags : List Bytes) : Json :=
  .object [
    (utf8 "title", .string (utf8 "A+B")), (utf8 "description_md", .string []),
    (utf8 "difficulty", .string (utf8 "easy")), (utf8 "time_limit_ms", .int 500),
    (utf8 "memory_limit_mb", .int 256), (utf8 "tags", .array (tags.map .string)),
    (utf8 "testcases", .array [.object [
      (utf8 "input", .string (utf8 "1 2")), (utf8 "expected_output", .string (utf8 "3"))]])]

/-- What is read from it. -/
def taggedInput (tags : List Bytes) : ProblemInput where
  title := utf8 "A+B"
  descriptionMd := []
  tags
  testcases := [{ input := utf8 "1 2", expectedOutput := utf8 "3" }]

theorem ready_resting_empty (h : Store.Room ⟨1, 1, 1⟩ input) :
    Ready .healthy (.resting .empty ⟨1, 1, 1⟩) input where
  fails _ := rfl
  work := rfl
  schema := by constructor <;> first | exact List.nodup_nil | exact fun _ h => nomatch h
  room := h

/-- Two different tags are stored. -/
theorem accepted_stored_iff_two :
    (∃ id w', (createProblem (taggedInput [utf8 "dp", utf8 "graph"])).run Mysql.healthy.exec
      (.resting .empty ⟨1, 1, 1⟩) = (.ok id, w')) ↔
      Store.Fits id (taggedInput [utf8 "dp", utf8 "graph"]) :=
  accepted_stored_iff .healthy _ (taggedBody [utf8 "dp", utf8 "graph"]) _ rfl
    (ready_resting_empty ⟨by decide, by decide, by decide⟩)

/-- The same tag twice is accepted, and the second link violates the primary key. -/
theorem refuses_accepted : ¬ ∀ (m : Mysql) (w : World) (body : Json) (input : ProblemInput),
    parseProblemInput body = .ok input → Ready m w input →
    ∃ id w', (createProblem input).run m.exec w = (.ok id, w') := by
  intro h
  have hready : Ready .healthy (.resting .empty ⟨1, 1, 1⟩) (taggedInput [utf8 "dp", utf8 "dp"]) :=
    ready_resting_empty ⟨by decide, by decide, by decide⟩
  have hsome := hready.createProblem_ok_iff.mp
    (h _ _ (taggedBody [utf8 "dp", utf8 "dp"]) _ rfl hready)
  revert hsome
  decide

end MiniOj.Db
