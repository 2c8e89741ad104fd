import MiniOj.Db.Properties.Reset
import MiniOj.Db.Spec.Schema

/-!
# What a reset depends on

Apart from the clock, storing a problem depends on the rows and counters alone: with the
timestamps erased, it is storing on a server whose clock stands still (`frozen`). A reset empties
the tables and sets the counters back, so that what it leaves depends on the seed file alone.

* `fill_timeless` — filling a bank, with the timestamps erased
* `fill_problems` — the problems that are filled in: in the order of the file, counted up
* `run_reset_ok`, `run_reset_error` — a reset of a healthy database
-/

namespace MiniOj.Db

open Infra Admin

/-! ## Without timestamps -/

/-- A row without its two times. -/
def ProblemRow.timeless (p : ProblemRow) : ProblemRow := { p with createdAt := 0, updatedAt := 0 }

/-- A row without its time. -/
def TestcaseRow.timeless (c : TestcaseRow) : TestcaseRow := { c with createdAt := 0 }

/-- All rows without their times. -/
def Bank.timeless (b : Bank) : Bank :=
  { b with
    problems := b.problems.map ProblemRow.timeless
    testcases := b.testcases.map TestcaseRow.timeless }

namespace Store

variable {weight : Bytes → Bytes} {clock : Nat → Nat}

/-- A store without the times of its rows. -/
def timeless (s : Store) : Store := { s with rows := s.rows.timeless }

theorem any_id_timeless (ps : List ProblemRow) (id : Nat) :
    ((ps.map ProblemRow.timeless).any fun p => p.id == id) = ps.any fun p => p.id == id := by
  rw [List.any_map]
  rfl

/-- An insert does not look at times. -/
theorem insertProblem_timeless (s : Store) (now : Nat) (title descriptionMd : Bytes)
    (difficulty : Difficulty) (timeLimitMs memoryLimitMb : UInt32) :
    (s.insertProblem now title descriptionMd difficulty timeLimitMs memoryLimitMb).map
        (Prod.map id timeless) =
      s.timeless.insertProblem 0 title descriptionMd difficulty timeLimitMs memoryLimitMb := by
  unfold insertProblem
  cases fitVarchar 255 title with
  | none => rfl
  | some title =>
  cases fitText descriptionMd with
  | none => rfl
  | some descriptionMd =>
  by_cases h : s.next.problems ≤ maxUnsigned ∧ 0 < timeLimitMs ∧ 0 < memoryLimitMb
  · simp [h, guard, timeless, Bank.timeless, ProblemRow.timeless]
  · simp [h, guard, timeless, Bank.timeless]

/-- Tags have no times. -/
theorem upsertTag_timeless (s : Store) (name : Bytes) :
    (s.upsertTag weight name).map (Prod.map id timeless) = s.timeless.upsertTag weight name := by
  unfold upsertTag
  cases fitVarchar 64 name with
  | none => rfl
  | some name =>
  by_cases h : s.next.tags ≤ maxUnsigned
  · simp only [h, guard, timeless, Bank.timeless]
    cases hfind : s.rows.tags.find? fun t => weight t.name == weight name with
    | none => simp [hfind, timeless, Bank.timeless]
    | some t => simp [hfind, timeless, Bank.timeless]
  · simp [h, guard, timeless, Bank.timeless]

/-- Nor have their links. -/
theorem linkTag_timeless (s : Store) (problemId tagId : Nat) :
    (s.linkTag problemId tagId).map timeless = s.timeless.linkTag problemId tagId := by
  unfold linkTag
  simp only [timeless, Bank.timeless, any_id_timeless]
  by_cases hproblem : (s.rows.problems.any fun p => p.id == problemId) = true <;>
    by_cases htag : (s.rows.tags.any fun t => t.id == tagId) = true <;>
    by_cases hlink : (⟨problemId, tagId⟩ : ProblemTagRow) ∉ s.rows.problemTags <;>
    simp [hproblem, htag, hlink, guard, timeless, Bank.timeless]

/-- The insert of a testcase looks at the problem only. -/
theorem insertTestcase_timeless (s : Store) (now problemId : Nat) (input expectedOutput : Bytes)
    (isSample : Bool) (score : UInt32) :
    (s.insertTestcase now problemId input expectedOutput isSample score).map timeless =
      s.timeless.insertTestcase 0 problemId input expectedOutput isSample score := by
  unfold insertTestcase
  cases fitText input with
  | none => rfl
  | some input =>
  cases fitText expectedOutput with
  | none => rfl
  | some expectedOutput =>
  simp only [timeless, Bank.timeless, any_id_timeless]
  by_cases hproblem : (s.rows.problems.any fun p => p.id == problemId) = true <;>
    by_cases hnext : s.next.testcases ≤ maxUnsigned <;>
    simp [hproblem, hnext, guard, timeless, Bank.timeless, TestcaseRow.timeless]

/-- A map goes through a sequence of two steps when it goes through each. -/
theorem map_bind_of_map {α β γ δ : Type} {φ : α → β} {ψ : γ → δ} {x : Option α} {y : Option β}
    {f : α → Option γ} {g : β → Option δ} (hxy : x.map φ = y) (hfg : ∀ a, (f a).map ψ = g (φ a)) :
    (x.bind f).map ψ = y.bind g := by
  subst hxy
  cases x with
  | none => rfl
  | some a => exact hfg a

/-- The tags of a problem. -/
theorem addTags_timeless (s : Store) (problemId : Nat) (names : List Bytes) :
    (s.addTags weight problemId names).map timeless =
      s.timeless.addTags weight problemId names := by
  induction names generalizing s with
  | nil => rfl
  | cons name names ih =>
    exact map_bind_of_map (s.upsertTag_timeless name) fun r =>
      map_bind_of_map (linkTag_timeless r.2 problemId r.1) fun s => ih s

/-- The testcases of a problem. -/
theorem addTestcases_timeless (s : Store) (problemId : Nat) (cases : List TestCaseInput)
    (n n' : Nat) : (s.addTestcases clock problemId cases n).map timeless =
      s.timeless.addTestcases (fun _ => 0) problemId cases n' := by
  induction cases generalizing s n n' with
  | nil => rfl
  | cons c cases ih =>
    exact map_bind_of_map (s.insertTestcase_timeless _ _ _ _ _ _) fun s => ih s _ _

/-- **A problem is stored the same at all times.** -/
theorem addProblem_timeless (s : Store) (input : ProblemInput) (n n' : Nat) :
    (s.addProblem weight clock input n).map (Prod.map id timeless) =
      s.timeless.addProblem weight (fun _ => 0) input n' :=
  map_bind_of_map (s.insertProblem_timeless _ _ _ _ _ _) fun r =>
    map_bind_of_map (addTags_timeless r.2 r.1 input.tags) fun s =>
      map_bind_of_map (addTestcases_timeless s r.1 input.testcases _ _) fun _ => rfl

end Store

/-- A server on which nothing fails and whose clock stands still. -/
def Mysql.frozen (weight : Bytes → Bytes) : Mysql := { Mysql.healthy with weight }

/-- No call fails. -/
def Mysql.Healthy (m : Mysql) : Prop := ∀ n, m.fails n = none

variable {m : Mysql} {w w' : World}

theorem Mysql.Healthy.quiet (h : m.Healthy) (n k : Nat) : m.Quiet n k := fun i _ => h (n + i)

/-- A server whose clock stands still. -/
theorem healthy_frozen (weight : Bytes → Bytes) : (Mysql.frozen weight).Healthy := fun _ => rfl

theorem Mysql.Healthy.stored (h : m.Healthy) (n : Nat) (s : Store) (input : ProblemInput) :
    m.stored n s input = s.addProblem m.weight m.clock input (n + 2) :=
  if_pos (h.quiet _ _)

/-- **Filling a bank, with the timestamps erased**, is filling it on a frozen server. -/
theorem fill_timeless (h : m.Healthy) (entries : List Json) (n n' : Nat) (s : Store) :
    ((m.fill n s entries).1.timeless, (m.fill n s entries).2) =
      (Mysql.frozen m.weight).fill n' s.timeless entries := by
  induction entries generalizing n n' s with
  | nil => rfl
  | cons entry entries ih =>
    rw [Mysql.fill, Mysql.fill]
    cases parseProblemInput entry with
    | error e => rfl
    | ok input =>
      dsimp only
      rw [h.stored, (healthy_frozen m.weight).stored]
      have hadd : (s.addProblem m.weight m.clock input (n + 2)).map (Prod.map id Store.timeless) =
          s.timeless.addProblem (Mysql.frozen m.weight).weight (Mysql.frozen m.weight).clock input
            (n' + 2) := Store.addProblem_timeless s input _ _
      rw [← hadd]
      cases s.addProblem m.weight m.clock input (n + 2) with
      | none => rfl
      | some r => exact ih _ _ r.2

/-! ## In the order of the file -/

/-- The row is that of an entry of the file. -/
def IsEntry (entry : Json) (p : ProblemRow) : Prop :=
  ∃ input, parseProblemInput entry = .ok input ∧ IsRow input p

/-- **The problems of a bank that gets filled** come in the order of the file, counted up. -/
theorem fill_problems (entries : List Json) (n : Nat) (s : Store)
    (h : (m.fill n s entries).2 = true) :
    ∃ rows, (m.fill n s entries).1.problems = s.rows.problems ++ rows ∧
      rows.map ProblemRow.id = List.range' s.next.problems entries.length ∧
      List.Forall₂ IsEntry entries rows := by
  induction entries generalizing n s with
  | nil => exact ⟨[], (List.append_nil _).symm, rfl, .nil⟩
  | cons entry entries ih =>
    rw [Mysql.fill] at h ⊢
    cases hparse : parseProblemInput entry with
    | error e =>
      rw [hparse] at h
      cases h
    | ok input =>
      rw [hparse] at h
      dsimp only at h ⊢
      cases hs : m.stored n s input with
      | none =>
        rw [hs] at h
        cases h
      | some r =>
        obtain ⟨id, s'⟩ := r
        rw [hs] at h
        dsimp only at h ⊢
        have hadd := (Option.ite_none_right_eq_some.mp hs).2
        obtain ⟨p, hp, hrow, hproblems⟩ := (Store.addProblem_spec hadd).problems
        obtain ⟨hid, hnext, -⟩ := Store.addProblem_ids hadd
        obtain ⟨rows, hrows, hids, hall⟩ := ih _ s' h
        refine ⟨p :: rows, ?_, ?_, .cons ⟨input, hparse, hrow⟩ hall⟩
        · rw [hrows, hproblems, List.append_assoc]
          rfl
        · rw [List.map_cons, hids, hp, hid, hnext]
          rfl

/-! ## A reset of a healthy database -/

/-- Where the rows of the database are after a program, and whether it has thrown. -/
structure Leaves (m : Mysql) (p : Dao Unit) (w : World) (outcome : Bank × Bool) : Prop where
  ok : outcome.2 = true → ∃ w', p.run m.exec w = (.ok (), w') ∧ w'.bank = outcome.1
  error : outcome.2 = false → ∃ e w', p.run m.exec w = (.error e, w') ∧ w'.bank = outcome.1

/-- What throws at once. -/
theorem leaves_throw {e : Exn} : Leaves m (.throw e) w (w.bank, false) where
  ok h := nomatch h
  error _ := ⟨e, w, rfl, rfl⟩

/-- An entry that can be stored is. -/
theorem run_loadEntry_ok {input : ProblemInput} {index id : Nat} {entry : Json} {s : Store}
    (hw : w.work = none) (hparse : parseProblemInput entry = .ok input)
    (hs : m.stored w.calls ⟨w.bank, w.next⟩ input = some (id, s)) :
    (loadEntry index entry).run m.exec w = (.ok (), { w with
      bank := s.rows, next := s.next, calls := w.calls + Mysql.bodyCalls input + 4 }) := by
  rw [loadEntry, Program.run_tryCatch, hparse]
  dsimp only
  rw [Program.run_bind, createProblem_ok hw hs]
  rfl

/-- An entry that cannot be parsed or stored leaves no rows. -/
theorem run_loadEntry_error (index : Nat) {entry : Json} (hw : w.work = none)
    (h : ∀ input, parseProblemInput entry = .ok input →
      m.stored w.calls ⟨w.bank, w.next⟩ input = none) :
    ∃ e w', (loadEntry index entry).run m.exec w = (.error e, w') ∧ w'.bank = w.bank := by
  rw [loadEntry, Program.run_tryCatch]
  cases hparse : parseProblemInput entry with
  | error e => exact ⟨_, w, rfl, rfl⟩
  | ok input =>
    obtain ⟨e, w', hrun, hbank, -⟩ := createProblem_error hw (h input hparse)
    dsimp only
    rw [Program.run_bind, hrun]
    exact ⟨_, w', rfl, hbank⟩

/-- **The loop over the entries** stores those before the first that fails. -/
theorem leaves_loadEntries (entries : List Json) (index : Nat) (hw : w.work = none) :
    Leaves m (loadEntries index entries) w (m.fill w.calls ⟨w.bank, w.next⟩ entries) := by
  induction entries generalizing index w with
  | nil => exact ⟨fun _ => ⟨w, rfl, rfl⟩, fun h => nomatch h⟩
  | cons entry entries ih =>
    -- an entry that fails ends the loop, and what was stored before stays
    have hstop : (∀ input, parseProblemInput entry = .ok input →
        m.stored w.calls ⟨w.bank, w.next⟩ input = none) →
        Leaves m (loadEntries index (entry :: entries)) w (w.bank, false) := by
      intro h
      obtain ⟨e, w', hrun, hbank⟩ := run_loadEntry_error index hw h
      refine ⟨fun h => (nomatch h), fun _ => ⟨e, w', ?_, hbank⟩⟩
      rw [loadEntries_cons, Program.run_bind, hrun]
    rw [Mysql.fill]
    cases hparse : parseProblemInput entry with
    | error e => exact hstop fun input h => by rw [hparse] at h; cases h
    | ok input =>
      dsimp only
      cases hs : m.stored w.calls ⟨w.bank, w.next⟩ input with
      | none =>
        refine hstop fun input' h => ?_
        rw [hparse] at h
        cases h
        exact hs
      | some r =>
        obtain ⟨id, s⟩ := r
        have hrest := ih (index + 1) (w := { w with
          bank := s.rows, next := s.next, calls := w.calls + Mysql.bodyCalls input + 4 }) hw
        refine ⟨fun h => ?_, fun h => ?_⟩
        · rw [loadEntries_cons, Program.run_bind, run_loadEntry_ok hw hparse hs]
          exact hrest.ok h
        · rw [loadEntries_cons, Program.run_bind, run_loadEntry_ok hw hparse hs]
          exact hrest.error h

/-- The loading of a file, for every file. -/
theorem leaves_loadProblemsFromJson (read : JsonReader) (file : SeedFile) (hw : w.work = none) :
    Leaves m (loadProblemsFromJson read file) w (match Mysql.seedEntries read file with
      | some entries => m.fill w.calls ⟨w.bank, w.next⟩ entries
      | none => (w.bank, false)) := by
  cases hf : Mysql.seedEntries read file with
  | none =>
    obtain ⟨e, he⟩ := loadProblemsFromJson_of_none hf
    rw [he]
    exact leaves_throw
  | some entries =>
    rw [loadProblemsFromJson_of_some hf]
    exact leaves_loadEntries entries 0 hw

/-- On a healthy server the bank is cleared. -/
theorem run_clearProblemBank_ok (h : m.Healthy) (hw : w.work = none) :
    clearProblemBank.run m.exec w = (.ok (), w.cleared) := by
  rw [← m.execLosing_never]
  exact run_clearProblemBank_through hw (h _) (Mysql.through_never.mpr (h.quiet _ _))
    (Mysql.through_never.mpr (h.quiet _ _))

/-- **A reset of a healthy database** leaves the rows of the entries stored, whatever was there
before. -/
theorem reset_refills (h : m.Healthy) (read : JsonReader) (file : SeedFile) (hw : w.work = none) :
    Leaves m (resetProblemBank read file) w (m.refilled read file w.calls) := by
  have hload := leaves_loadProblemsFromJson (m := m) (w := w.cleared) read file hw
  unfold Mysql.refilled
  rw [if_pos (h.quiet _ _)]
  refine ⟨fun hdone => ?_, fun hdone => ?_⟩
  · rw [resetProblemBank, Program.run_bind, run_clearProblemBank_ok h hw]
    exact hload.ok hdone
  · rw [resetProblemBank, Program.run_bind, run_clearProblemBank_ok h hw]
    exact hload.error hdone

/-- After each entry no transaction is open. -/
theorem work_loadEntries {entries : List Json} : ∀ {index : Nat} {w w' : World},
    w.work = none → (loadEntries index entries).run m.exec w = (.ok (), w') → w'.work = none := by
  induction entries with
  | nil =>
    intro index w w' hw h
    cases h
    exact hw
  | cons entry entries ih =>
    intro index w w' hw h
    rw [loadEntries_cons, Program.run_bind] at h
    by_cases hstored : ∃ input id s, parseProblemInput entry = .ok input ∧
        m.stored w.calls ⟨w.bank, w.next⟩ input = some (id, s)
    · obtain ⟨input, id, s, hparse, hs⟩ := hstored
      rw [run_loadEntry_ok hw hparse hs] at h
      dsimp only at h
      refine ih ?_ h
      exact hw
    · obtain ⟨e, w₁, hrun, -⟩ := run_loadEntry_error index hw fun input hparse => by
        rw [Option.eq_none_iff_forall_ne_some]
        exact fun r hs => hstored ⟨input, r.1, r.2, hparse, hs⟩
      rw [hrun] at h
      cases h

/-- Nor is one after a reset. -/
theorem work_resetProblemBank {read : JsonReader} {file : SeedFile} (h : m.Healthy)
    (hw : w.work = none) (hrun : (resetProblemBank read file).run m.exec w = (.ok (), w')) :
    w'.work = none := by
  rw [resetProblemBank, Program.run_bind, run_clearProblemBank_ok h hw] at hrun
  cases hf : Mysql.seedEntries read file with
  | none =>
    obtain ⟨e, he⟩ := loadProblemsFromJson_of_none hf
    rw [he] at hrun
    cases hrun
  | some entries =>
    rw [loadProblemsFromJson_of_some hf] at hrun
    refine work_loadEntries ?_ hrun
    exact hw

/-- The rows of a reset of a healthy database, with the timestamps erased, and whether it
completes. -/
def Mysql.reseeded (weight : Bytes → Bytes) (read : JsonReader) (file : SeedFile) : Bank × Bool :=
  (frozen weight).refilled read file 0

/-- **What a reset leaves does not depend on what was there**, times apart. -/
theorem refilled_timeless (h : m.Healthy) (read : JsonReader) (file : SeedFile) (n : Nat) :
    ((m.refilled read file n).1.timeless, (m.refilled read file n).2) =
      Mysql.reseeded m.weight read file := by
  unfold Mysql.reseeded Mysql.refilled
  rw [if_pos (h.quiet _ _), if_pos ((healthy_frozen m.weight).quiet _ _)]
  cases Mysql.seedEntries read file with
  | none => rfl
  | some entries => exact fill_timeless h entries _ _ _

/-- The problems of the seed file, in its order and numbered from 1. -/
def InFileOrder (read : JsonReader) (file : SeedFile) (b : Bank) : Prop :=
  ∃ entries, Mysql.seedEntries read file = some entries ∧
    b.problems.map ProblemRow.id = List.range' 1 entries.length ∧
    List.Forall₂ IsEntry entries b.problems

/-- The ids are in the order of the file. -/
theorem refilled_inFileOrder (h : m.Healthy) (read : JsonReader) (file : SeedFile) (n : Nat)
    (hdone : (m.refilled read file n).2 = true) :
    InFileOrder read file (m.refilled read file n).1 := by
  unfold Mysql.refilled at hdone ⊢
  rw [if_pos (h.quiet _ _)] at hdone ⊢
  cases hentries : Mysql.seedEntries read file with
  | none =>
    rw [hentries] at hdone
    cases hdone
  | some entries =>
    rw [hentries] at hdone
    obtain ⟨rows, hrows, hids, hall⟩ := fill_problems entries (n + 9) ⟨.empty, ⟨1, 1, 1⟩⟩ hdone
    refine ⟨entries, hentries, ?_, ?_⟩ <;> dsimp only at hrows ⊢ <;> rw [hrows]
    · exact hids
    · exact hall

/-- **A reset of a healthy database** completes or not whatever was there before, and what it
leaves is the same up to the timestamps. -/
theorem run_reset (h : m.Healthy) (hw : w.work = none) (read : JsonReader) (file : SeedFile) :
    (Mysql.reseeded m.weight read file).2 = true ∧
        (∃ w', (resetProblemBank read file).run m.exec w = (.ok (), w') ∧ w'.work = none ∧
          w'.bank.timeless = (Mysql.reseeded m.weight read file).1 ∧
          InFileOrder read file w'.bank) ∨
      (Mysql.reseeded m.weight read file).2 = false ∧
        ∃ e w', (resetProblemBank read file).run m.exec w = (.error e, w') := by
  have hleaves := reset_refills h read file hw
  have htimeless := refilled_timeless h read file w.calls
  rw [← htimeless]
  cases hdone : (m.refilled read file w.calls).2 with
  | false =>
    obtain ⟨e, w', hrun, -⟩ := hleaves.error hdone
    exact .inr ⟨rfl, e, w', hrun⟩
  | true =>
    obtain ⟨w', hrun, hbank⟩ := hleaves.ok hdone
    refine .inl ⟨rfl, w', hrun, ?_, ?_, ?_⟩
    · exact work_resetProblemBank h hw hrun
    · rw [hbank]
    · rw [hbank]
      exact refilled_inFileOrder h read file w.calls hdone

end MiniOj.Db
