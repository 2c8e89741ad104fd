import MiniOj.Db.Properties.Refilling
import MiniOj.Db.Properties.Storing

/-!
# What a reset that fails leaves behind

`resetProblemBank` is not one transaction: every `DELETE` commits at once, and so does every
entry. A call may fail, and the answer to one that is carried out may be lost.

* `run_clearProblemBank_stopped`, `run_loadEntries_stops` — the rows after a reset that throws, for
  every content of the database, seed file, failing call and lost answer
* `keeps_rows_iff` — when the rows after a reset that throws are those before
* `loses_rows` — a missing seed file costs the whole bank
-/

namespace MiniOj.Db

open Infra Admin

variable {m : Mysql} {lost : Nat → Option Bytes} {w : World} {b : Bank} {t t' : Table}
  {read : JsonReader} {file : SeedFile}

/-! ## Empty tables -/

/-- A table that has been emptied is empty. -/
theorem Bank.isEmpty_deleteAll (b : Bank) (t : Table) : (b.deleteAll t).IsEmpty t := by
  cases t with
  | problems => simp [deleteAll, deleteProblems, IsEmpty]
  | testcases => rfl
  | tags => rfl
  | problemTags => rfl

/-- An empty table stays empty while others are emptied. -/
theorem Bank.IsEmpty.deleteAll (h : b.IsEmpty t) (t' : Table) : (b.deleteAll t').IsEmpty t := by
  cases t <;> cases t' <;> simp_all [IsEmpty, Bank.deleteAll, deleteProblems]

/-- An empty table has nothing to delete, and nothing refers to it. -/
theorem Bank.deleteAll_of_isEmpty (h : b.IsEmpty t) : b.deleteAll t = b := by
  obtain ⟨problems, testcases, tags, problemTags⟩ := b
  cases t <;> cases h <;> simp [Bank.deleteAll, deleteProblems]

theorem Bank.SameRows.refl (b : Bank) : b.SameRows b :=
  ⟨fun _ => Iff.rfl, fun _ => Iff.rfl, fun _ => Iff.rfl, fun _ => Iff.rfl⟩

/-- The same rows are no rows. -/
theorem Bank.SameRows.isEmpty {b' : Bank} (h : b.SameRows b') (he : b'.IsEmpty t) :
    b.IsEmpty t := by
  have hnil : ∀ {α : Type} {l l' : List α}, (∀ r, r ∈ l ↔ r ∈ l') → l' = [] → l = [] := by
    rintro α l l' hl rfl
    exact List.eq_nil_iff_forall_not_mem.mpr fun r hr => List.not_mem_nil ((hl r).mp hr)
  cases t with
  | problems => exact hnil h.problems he
  | testcases => exact hnil h.testcases he
  | tags => exact hnil h.tags he
  | problemTags => exact hnil h.problemTags he

/-- The rows after these tables have been emptied. -/
def Bank.deleteEach (b : Bank) (ts : List Table) : Bank := ts.foldl Bank.deleteAll b

/-- However many are emptied. -/
theorem Bank.IsEmpty.deleteEach {ts : List Table} (h : b.IsEmpty t) :
    (b.deleteEach ts).IsEmpty t := by
  induction ts generalizing b with
  | nil => exact h
  | cons t' ts ih => exact ih (h.deleteAll t')

/-- Each of the tables that are emptied is empty in the end. -/
theorem Bank.isEmpty_deleteEach {ts : List Table} (ht : t ∈ ts) :
    (b.deleteEach ts).IsEmpty t := by
  induction ts generalizing b with
  | nil => cases ht
  | cons t' ts ih =>
    rcases List.mem_cons.mp ht with rfl | ht
    · exact (b.isEmpty_deleteAll t).deleteEach
    · exact ih ht

/-- Emptying empty tables does nothing. -/
theorem Bank.deleteEach_of_isEmpty {ts : List Table} (h : ∀ t ∈ ts, b.IsEmpty t) :
    b.deleteEach ts = b := by
  induction ts with
  | nil => rfl
  | cons t ts ih =>
    rw [deleteEach, List.foldl_cons, deleteAll_of_isEmpty (h t List.mem_cons_self)]
    exact ih fun t ht => h t (List.mem_cons_of_mem _ ht)

/-- Emptying tables loses no row exactly when they are empty. -/
theorem Bank.sameRows_deleteEach {ts : List Table} :
    b.SameRows (b.deleteEach ts) ↔ ∀ t ∈ ts, b.IsEmpty t := by
  constructor
  · exact fun h t ht => h.isEmpty (isEmpty_deleteEach ht)
  · intro h
    rw [deleteEach_of_isEmpty h]
    exact .refl b

/-- All four tables are emptied. -/
theorem Bank.deleteEach_clearOrder (b : Bank) : b.deleteEach clearOrder = .empty := by
  have h : ∀ t ∈ clearOrder, (b.deleteEach clearOrder).IsEmpty t :=
    fun t ht => isEmpty_deleteEach ht
  generalize b.deleteEach clearOrder = c at h
  obtain ⟨problems, testcases, tags, problemTags⟩ := c
  cases h .problems (by decide)
  cases h .testcases (by decide)
  cases h .tags (by decide)
  cases h .problemTags (by decide)
  rfl

/-! ## Clearing -/

/-- The first loop of `clearProblemBank`. -/
def deletes (ts : List Table) : Dao Unit :=
  ts.forM fun t => executeQuery (.deleteAll t) "clearProblemBank"

/-- The second loop of `clearProblemBank`. -/
def counterResets (ts : List Table) : Dao Unit :=
  ts.forM fun t => executeQuery (.resetAutoIncrement t) "clearProblemBank reset auto_increment"

/-- A lease around two loops. -/
theorem clearProblemBank_eq : clearProblemBank = withLease (do
    deletes clearOrder
    counterResets counterOrder) := rfl

/-- The first call gets through, and then the others do. -/
theorem through_succ {n k : Nat} : m.Through lost n (k + 1) ↔
    (m.fails n = none ∧ lost n = none) ∧ m.Through lost (n + 1) k := by
  rw [Nat.add_comm k, Mysql.through_add, Mysql.through_one]

/-- Outside of a transaction a `DELETE` is committed at once. -/
theorem perform_deleteAll (m : Mysql) (hw : w.work = none) (t : Table) :
    m.perform w (.deleteAll t) = some ((), { w with bank := w.bank.deleteAll t }) := by
  rw [Mysql.perform, World.view, World.setRows, hw]
  rfl

/-- The tables that get emptied by the calls from the `n`th on: those whose `DELETE` is reached
and carried out. -/
def Emptied (m : Mysql) (lost : Nat → Option Bytes) (n : Nat) (ts : List Table) (t : Table) : Prop :=
  ∃ i, ts[i]? = some t ∧ m.Through lost n i ∧ m.fails (n + i) = none

/-- The first table is emptied, or its `DELETE` gets through and a later one is. -/
theorem emptied_cons {n : Nat} {ts : List Table} : Emptied m lost n (t :: ts) t' ↔
    m.fails n = none ∧ (t' = t ∨ lost n = none ∧ Emptied m lost (n + 1) ts t') := by
  constructor
  · rintro ⟨_ | i, hi, hthrough, hf⟩
    · cases hi
      exact ⟨hf, .inl rfl⟩
    · obtain ⟨⟨hfails, hlost⟩, hrest⟩ := through_succ.mp hthrough
      exact ⟨hfails, .inr ⟨hlost, i, hi, hrest, Nat.add_right_comm n 1 i ▸ hf⟩⟩
  · rintro ⟨hf, rfl | ⟨hlost, i, hi, hthrough, hf'⟩⟩
    · exact ⟨0, rfl, Mysql.through_zero, hf⟩
    · exact ⟨i + 1, hi, through_succ.mpr ⟨⟨hf, hlost⟩, hthrough⟩, Nat.add_right_comm n 1 i ▸ hf'⟩

/-- All `DELETE`s get through. -/
theorem run_deletes (ts : List Table) (hw : w.work = none)
    (h : m.Through lost w.calls ts.length) : (deletes ts).run (m.execLosing lost) w =
      (.ok (), { w with bank := w.bank.deleteEach ts, calls := w.calls + ts.length }) := by
  induction ts generalizing w with
  | nil => rfl
  | cons t ts ih =>
    have hcons : deletes (t :: ts) =
      executeQuery (.deleteAll t) "clearProblemBank" >>= fun _ => deletes ts := rfl
    obtain ⟨⟨hf, hl⟩, hrest⟩ := through_succ.mp h
    have hrun := ih (w := { w with bank := w.bank.deleteAll t, calls := w.calls + 1 }) hw hrest
    rw [hcons, Program.run_bind, run_executeQuery_through hf hl (perform_deleteAll m hw t)]
    dsimp only at hrun ⊢
    rw [hrun, Nat.add_right_comm]
    rfl

/-- The loop that stops in the middle has emptied some tables. -/
theorem run_deletes_stopped (ts : List Table) (hw : w.work = none)
    (h : ¬ m.Through lost w.calls ts.length) :
    ∃ e w' ts', (deletes ts).run (m.execLosing lost) w = (.error e, w') ∧
      w'.bank = w.bank.deleteEach ts' ∧ ∀ t, t ∈ ts' ↔ Emptied m lost w.calls ts t := by
  induction ts generalizing w with
  | nil => exact absurd Mysql.through_zero h
  | cons t ts ih =>
    have hcons : deletes (t :: ts) =
      executeQuery (.deleteAll t) "clearProblemBank" >>= fun _ => deletes ts := rfl
    rw [List.length_cons, through_succ] at h
    rw [hcons, Program.run_bind]
    by_cases hone : m.fails w.calls = none ∧ lost w.calls = none
    · obtain ⟨e, w', ts', hrun, hbank, hmem⟩ :=
        ih (w := { w with bank := w.bank.deleteAll t, calls := w.calls + 1 }) hw
          fun hrest => h ⟨hone, hrest⟩
      rw [run_executeQuery_through hone.1 hone.2 (perform_deleteAll m hw t)]
      refine ⟨e, w', t :: ts', hrun, hbank, fun u => ?_⟩
      rw [emptied_cons, List.mem_cons, hmem]
      exact ⟨fun hu => ⟨hone.1, hu.imp_right fun hu => ⟨hone.2, hu⟩⟩,
        fun ⟨_, hu⟩ => hu.imp_right And.right⟩
    · obtain ⟨e, w', hrun, hbank, -⟩ := run_executeQuery_stopped (m := m) "clearProblemBank" rfl hw
        (perform_deleteAll m hw t) hone
      rw [hrun]
      by_cases hf : m.fails w.calls = none
      · -- the answer to this `DELETE` is lost
        rw [if_pos hf] at hbank
        refine ⟨e, w', [t], rfl, hbank, fun u => ?_⟩
        rw [emptied_cons, List.mem_singleton]
        exact ⟨fun hu => ⟨hf, .inl hu⟩,
          fun ⟨_, hu⟩ => hu.resolve_right fun hu => hone ⟨hf, hu.1⟩⟩
      · rw [if_neg hf] at hbank
        refine ⟨e, w', [], rfl, hbank, fun u => ?_⟩
        rw [emptied_cons]
        exact ⟨fun hu => (nomatch hu), fun hu => absurd hu.1 hf⟩

/-- An `ALTER TABLE` changes the counter alone. -/
theorem perform_resetAutoIncrement (m : Mysql) (hw : w.work = none) (t : Table) :
    m.perform w (.resetAutoIncrement t) = some ((), { w with
      next := Store.resetAutoIncrement ⟨w.bank, w.next⟩ t }) := by
  rw [Mysql.perform, World.store, World.view, hw]
  rfl

/-- The counters after each of these tables has been asked to count from 1. -/
def Store.resetEach (s : Store) (ts : List Table) : Counters :=
  ts.foldl (fun next t => Store.resetAutoIncrement ⟨s.rows, next⟩ t) s.next

/-- All `ALTER`s get through. -/
theorem run_counterResets (ts : List Table) (hw : w.work = none)
    (h : m.Through lost w.calls ts.length) : (counterResets ts).run (m.execLosing lost) w =
      (.ok (), { w with
        next := Store.resetEach ⟨w.bank, w.next⟩ ts, calls := w.calls + ts.length }) := by
  induction ts generalizing w with
  | nil => rfl
  | cons t ts ih =>
    have hcons : counterResets (t :: ts) = executeQuery (.resetAutoIncrement t)
      "clearProblemBank reset auto_increment" >>= fun _ => counterResets ts := rfl
    obtain ⟨⟨hf, hl⟩, hrest⟩ := through_succ.mp h
    have hrun := ih (w := { w with
      next := Store.resetAutoIncrement ⟨w.bank, w.next⟩ t, calls := w.calls + 1 }) hw hrest
    rw [hcons, Program.run_bind,
      run_executeQuery_through hf hl (perform_resetAutoIncrement m hw t)]
    dsimp only at hrun ⊢
    rw [hrun, Nat.add_right_comm]
    rfl

/-- An `ALTER` that does not get through changes no row. -/
theorem run_counterResets_stopped (ts : List Table) (hw : w.work = none)
    (h : ¬ m.Through lost w.calls ts.length) :
    ∃ e w', (counterResets ts).run (m.execLosing lost) w = (.error e, w') ∧ w'.bank = w.bank := by
  induction ts generalizing w with
  | nil => exact absurd Mysql.through_zero h
  | cons t ts ih =>
    have hcons : counterResets (t :: ts) = executeQuery (.resetAutoIncrement t)
      "clearProblemBank reset auto_increment" >>= fun _ => counterResets ts := rfl
    rw [List.length_cons, through_succ] at h
    rw [hcons, Program.run_bind]
    by_cases hone : m.fails w.calls = none ∧ lost w.calls = none
    · rw [run_executeQuery_through hone.1 hone.2 (perform_resetAutoIncrement m hw t)]
      exact ih (w := { w with
        next := Store.resetAutoIncrement ⟨w.bank, w.next⟩ t, calls := w.calls + 1 }) hw
          fun hrest => h ⟨hone, hrest⟩
    · obtain ⟨e, w', hrun, hbank, -⟩ := run_executeQuery_stopped (m := m)
        "clearProblemBank reset auto_increment" rfl hw (perform_resetAutoIncrement m hw t) hone
      rw [hrun]
      exact ⟨e, w', rfl, hbank.trans (ite_self _)⟩

/-- The database when clearing has got through: no rows, and counters at 1. -/
def World.cleared (w : World) : World :=
  { w with bank := .empty, next := ⟨1, 1, 1⟩, calls := w.calls + 9 }

/-- The database when the `DELETE`s have got through. -/
def World.emptied (w : World) : World :=
  { w.acquired with bank := .empty, calls := w.acquired.calls + 4 }

/-- The first loop empties the bank. -/
theorem run_deletes_clearOrder (hw : w.work = none) (h : m.Through lost (w.calls + 1) 4) :
    (deletes clearOrder).run (m.execLosing lost) w.acquired = (.ok (), w.emptied) := by
  rw [run_deletes (w := w.acquired) clearOrder hw h, Bank.deleteEach_clearOrder]
  rfl

/-- **A bank that is cleared** is empty, with all counters at 1. -/
theorem run_clearProblemBank_through (hw : w.work = none) (hacquire : m.fails w.calls = none)
    (hdeletes : m.Through lost (w.calls + 1) 4) (hcounters : m.Through lost (w.calls + 5) 3) :
    clearProblemBank.run (m.execLosing lost) w = (.ok (), w.cleared) := by
  rw [clearProblemBank_eq, run_withLease_held hacquire, Program.run_bind,
    run_deletes_clearOrder hw hdeletes]
  dsimp only
  rw [run_counterResets (w := w.emptied) counterOrder hw hcounters]
  rfl

/-- **Clearing that stops in the `DELETE`s** leaves the tables it has not come to. -/
theorem run_clearProblemBank_stopped (hw : w.work = none) (hacquire : m.fails w.calls = none)
    (h : ¬ m.Through lost (w.calls + 1) 4) :
    ∃ e w' ts, clearProblemBank.run (m.execLosing lost) w = (.error e, w') ∧
      w'.bank = w.bank.deleteEach ts ∧
      ∀ t, t ∈ ts ↔ Emptied m lost (w.calls + 1) clearOrder t := by
  obtain ⟨e, w', ts, hrun, hbank, hmem⟩ :=
    run_deletes_stopped (w := w.acquired) clearOrder hw h
  rw [clearProblemBank_eq, run_withLease_held hacquire, Program.run_bind, hrun]
  exact ⟨e, w'.released, ts, rfl, hbank, hmem⟩

/-- **Clearing that stops in the `ALTER`s** has emptied all of them. -/
theorem run_clearProblemBank_late (hw : w.work = none) (hacquire : m.fails w.calls = none)
    (hdeletes : m.Through lost (w.calls + 1) 4) (hno : ¬ m.Through lost (w.calls + 5) 3) :
    ∃ e w', clearProblemBank.run (m.execLosing lost) w = (.error e, w') ∧ w'.bank = .empty := by
  obtain ⟨e, w', hrun, hbank⟩ :=
    run_counterResets_stopped (w := w.emptied) counterOrder hw hno
  rw [clearProblemBank_eq, run_withLease_held hacquire, Program.run_bind,
    run_deletes_clearOrder hw hdeletes]
  dsimp only
  rw [hrun]
  exact ⟨e, w'.released, rfl, hbank⟩

/-! ## Loading -/

section Loading

variable {n : Nat} {ps stored : List SeedProblem} {entry : Json} {entries : List Json}
  {input : ProblemInput}

/-- The first entry, and then the others. -/
theorem loadEntries_cons (index : Nat) (entry : Json) (entries : List Json) :
    loadEntries index (entry :: entries) =
      loadEntry index entry >>= fun _ => loadEntries (index + 1) entries := rfl

/-- An entry that can be stored is. -/
theorem Seeded.addProblem_of_stores (h : Seeded m ps ⟨w.bank, w.next⟩)
    (hs : m.Stores lost n ps entry input) :
    ∃ id s, Store.addProblem m.weight m.clock input (n + 2) ⟨w.bank, w.next⟩ = some (id, s) ∧
      Seeded m (ps ++ [⟨input, n⟩]) s := by
  have hchecked := checked_of_parseProblemInput hs.parsed
  obtain ⟨⟨id, s⟩, hadd⟩ := Option.isSome_iff_exists.mp
    ((addProblem_isSome_iff_fits (n := n) h hchecked).mpr ⟨hs.fits, hs.room⟩)
  exact ⟨id, s, hadd, (seeded_addProblem h hadd).1⟩

/-- An entry that cannot be stored leaves no rows. -/
theorem run_loadEntry_refused (index : Nat) (hw : w.work = none)
    (h : Seeded m ps ⟨w.bank, w.next⟩) (hno : ∀ input, ¬ m.Stores lost w.calls ps entry input) :
    ∃ e w', (loadEntry index entry).run (m.execLosing lost) w = (.error e, w') ∧
      w'.bank = w.bank := by
  rw [loadEntry, Program.run_tryCatch]
  cases hparse : parseProblemInput entry with
  | error e => exact ⟨_, w, rfl, rfl⟩
  | ok input =>
    have hstopped : ¬ (m.Commits lost w.calls input ∧ (Store.addProblem m.weight m.clock input
        (w.calls + 2) ⟨w.bank, w.next⟩).isSome) := by
      rintro ⟨hcommits, hsome⟩
      obtain ⟨hfits, hroom⟩ :=
        (addProblem_isSome_iff_fits h (checked_of_parseProblemInput hparse)).mp hsome
      exact hno input ⟨hparse, hcommits, hfits, hroom⟩
    obtain ⟨e, w', hrun, hbank, -⟩ := createProblem_stopped hw hstopped
    dsimp only
    rw [Program.run_bind, hrun]
    exact ⟨_, w', rfl, hbank⟩

/-- An entry whose `COMMIT` is not answered has been stored. -/
theorem run_loadEntry_unheard (index : Nat) (hw : w.work = none)
    (h : Seeded m ps ⟨w.bank, w.next⟩) (hs : m.Stores lost w.calls ps entry input)
    (hl : lost (Mysql.commitCall w.calls input) ≠ none) :
    ∃ e w', (loadEntry index entry).run (m.execLosing lost) w = (.error e, w') ∧
      w'.bank.Holds m (ps ++ [⟨input, w.calls⟩]) := by
  obtain ⟨id, s, hadd, hseeded⟩ := h.addProblem_of_stores hs
  obtain ⟨e, w', hrun, hbank, -⟩ := createProblem_unheard hw hs.commits hl hadd
  rw [loadEntry, Program.run_tryCatch, hs.parsed]
  dsimp only
  rw [Program.run_bind, hrun]
  exact ⟨_, w', rfl, hbank ▸ hseeded.holds⟩

/-- An entry that is stored comes behind those stored before. -/
theorem run_loadEntry_through (index : Nat) (hw : w.work = none)
    (h : Seeded m ps ⟨w.bank, w.next⟩) (hs : m.Stores lost w.calls ps entry input)
    (hl : lost (Mysql.commitCall w.calls input) = none) :
    ∃ w', (loadEntry index entry).run (m.execLosing lost) w = (.ok (), w') ∧ w'.work = none ∧
      w'.calls = w.calls + Mysql.bodyCalls input + 4 ∧
      Seeded m (ps ++ [⟨input, w.calls⟩]) ⟨w'.bank, w'.next⟩ := by
  obtain ⟨id, s, hadd, hseeded⟩ := h.addProblem_of_stores hs
  rw [loadEntry, Program.run_tryCatch, hs.parsed]
  dsimp only
  rw [Program.run_bind, createProblem_through hw hs.commits hl hadd]
  exact ⟨_, rfl, hw, rfl, hseeded⟩

/-- **Where the loop over the entries stops**, the problems before are in the bank. -/
theorem run_loadEntries_stops (h : Stops m lost n ps entries stored) :
    ∀ {index : Nat} {w : World}, w.work = none → w.calls = n →
      Seeded m ps ⟨w.bank, w.next⟩ → ∃ e w',
        (loadEntries index entries).run (m.execLosing lost) w = (.error e, w') ∧
          w'.bank.Holds m stored := by
  induction h with
  | refused hno =>
    rintro index w hw rfl hseeded
    obtain ⟨e, w', hrun, hbank⟩ := run_loadEntry_refused index hw hseeded hno
    rw [loadEntries_cons, Program.run_bind, hrun]
    exact ⟨e, w', rfl, hbank ▸ hseeded.holds⟩
  | unheard hs hl =>
    rintro index w hw rfl hseeded
    obtain ⟨e, w', hrun, hholds⟩ := run_loadEntry_unheard index hw hseeded hs hl
    rw [loadEntries_cons, Program.run_bind, hrun]
    exact ⟨e, w', rfl, hholds⟩
  | next hs hl _ ih =>
    rintro index w hw rfl hseeded
    obtain ⟨w₁, hrun, hw₁, hcalls, hseeded₁⟩ := run_loadEntry_through index hw hseeded hs hl
    rw [loadEntries_cons, Program.run_bind, hrun]
    exact ih hw₁ hcalls hseeded₁

/-- The loop gets to the end of the file, or there is a place where it stops. -/
theorem run_loadEntries_or_stops (entries : List Json) :
    ∀ {index : Nat} {w : World} {ps : List SeedProblem}, w.work = none →
      Seeded m ps ⟨w.bank, w.next⟩ →
      (∃ w', (loadEntries index entries).run (m.execLosing lost) w = (.ok (), w')) ∨
        ∃ stored, Stops m lost w.calls ps entries stored := by
  induction entries with
  | nil => exact fun _ _ => .inl ⟨_, rfl⟩
  | cons entry entries ih =>
    intro index w ps hw hseeded
    by_cases hstores : ∃ input, m.Stores lost w.calls ps entry input
    · obtain ⟨input, hs⟩ := hstores
      by_cases hl : lost (Mysql.commitCall w.calls input) = none
      · obtain ⟨w₁, hrun, hw₁, hcalls, hseeded₁⟩ := run_loadEntry_through index hw hseeded hs hl
        rw [loadEntries_cons, Program.run_bind, hrun]
        refine (ih hw₁ hseeded₁).imp_right fun ⟨stored, hstops⟩ => ⟨stored, .next hs hl ?_⟩
        rw [← hcalls]
        exact hstops
      · exact .inr ⟨_, .unheard hs hl⟩
    · exact .inr ⟨_, .refused fun input hs => hstores ⟨input, hs⟩⟩

/-- A file that can be read is loaded entry by entry. -/
theorem loadProblemsFromJson_of_some (h : Mysql.seedEntries read file = some entries) :
    loadProblemsFromJson read file = loadEntries 0 entries := by
  unfold Mysql.seedEntries at h
  unfold loadProblemsFromJson
  cases hcontent : file.content with
  | none =>
    rw [hcontent] at h
    cases h
  | some raw =>
    rw [hcontent, Option.map_some] at h
    split at h
    · next hread =>
      cases h
      dsimp only
      rw [Option.some.inj hread]
    · cases h

/-- A file that cannot be read stops the loading before it has touched the database. -/
theorem loadProblemsFromJson_of_none (h : Mysql.seedEntries read file = none) :
    ∃ e, loadProblemsFromJson read file = .throw e := by
  unfold Mysql.seedEntries at h
  unfold loadProblemsFromJson
  cases hcontent : file.content with
  | none => exact ⟨_, rfl⟩
  | some raw =>
    rw [hcontent, Option.map_some] at h
    cases hread : read raw with
    | error e =>
      dsimp only
      rw [hread]
      cases e <;> exact ⟨_, rfl⟩
    | ok root =>
      dsimp only
      rw [hread] at h ⊢
      cases root with
      | array entries => cases h
      | _ => exact ⟨_, rfl⟩

end Loading

/-! ## Resetting -/

/-- If the reset throws, the four tables have the rows they had. -/
def LeavesAlone (m : Mysql) (lost : Nat → Option Bytes) (read : JsonReader) (file : SeedFile)
    (w : World) : Prop :=
  ∀ e w', (resetProblemBank read file).run (m.execLosing lost) w = (.error e, w') →
    w.bank.SameRows w'.bank

/-- A reset that throws is judged by the rows it leaves. -/
theorem leavesAlone_of_error {e : Exn} {w' : World}
    (hrun : (resetProblemBank read file).run (m.execLosing lost) w = (.error e, w')) :
    LeavesAlone m lost read file w ↔ w.bank.SameRows w'.bank := by
  refine ⟨fun h => h e w' hrun, fun h e' w'' hrun' => ?_⟩
  rw [hrun] at hrun'
  cases hrun'
  exact h

section Resetting

variable (bank : Bank) (next : Counters)

/-- **A reset that gets past the `DELETE`s and stops** leaves the problems stored until then,
whatever was there before. -/
theorem run_reset_stops {stored : List SeedProblem} (hacquire : m.fails 0 = none)
    (hdeletes : m.Through lost 1 4) (h : StopsLoading m lost read file stored) :
    ∃ e w', (resetProblemBank read file).run (m.execLosing lost) (.resting bank next) =
      (.error e, w') ∧ w'.bank.Holds m stored := by
  rw [resetProblemBank, Program.run_bind]
  cases h with
  | counters hno =>
    obtain ⟨e, w', hrun, hbank⟩ :=
      run_clearProblemBank_late (w := .resting bank next) rfl hacquire hdeletes hno
    rw [hrun]
    exact ⟨e, w', rfl, hbank ▸ holds_empty⟩
  | file hcounters hf =>
    obtain ⟨e, he⟩ := loadProblemsFromJson_of_none hf
    rw [run_clearProblemBank_through rfl hacquire hdeletes hcounters, he]
    exact ⟨e, _, rfl, holds_empty⟩
  | entry hcounters hf hs =>
    rw [run_clearProblemBank_through rfl hacquire hdeletes hcounters,
      loadProblemsFromJson_of_some hf]
    exact run_loadEntries_stops hs rfl rfl seeded_empty

/-- **A reset that gets past the `DELETE`s** gets through, or stops somewhere. -/
theorem run_reset_or_stops (hacquire : m.fails 0 = none) (hdeletes : m.Through lost 1 4) :
    (∃ w', (resetProblemBank read file).run (m.execLosing lost) (.resting bank next) =
      (.ok (), w')) ∨ ∃ stored, StopsLoading m lost read file stored := by
  by_cases hcounters : m.Through lost 5 3
  · cases hf : Mysql.seedEntries read file with
    | none => exact .inr ⟨[], .file hcounters hf⟩
    | some entries =>
      rw [resetProblemBank, Program.run_bind,
        run_clearProblemBank_through rfl hacquire hdeletes hcounters,
        loadProblemsFromJson_of_some hf]
      refine Or.imp_right (fun ⟨stored, hs⟩ => ⟨stored, .entry hcounters hf hs⟩)
        (run_loadEntries_or_stops entries (w := World.cleared (.resting bank next)) rfl ?_)
      exact seeded_empty
  · exact .inr ⟨[], .counters hcounters⟩

/-- A reset whose `DELETE`s do not all get through loses no row exactly when those carried out
had none to delete. -/
theorem leavesAlone_clearing (hacquire : m.fails 0 = none) (hno : ¬ m.Through lost 1 4) :
    LeavesAlone m lost read file (.resting bank next) ↔
      ∀ t, Emptied m lost 1 clearOrder t → bank.IsEmpty t := by
  obtain ⟨e, w', ts, hrun, hbank, hmem⟩ :=
    run_clearProblemBank_stopped (w := .resting bank next) rfl hacquire hno
  have hreset : (resetProblemBank read file).run (m.execLosing lost) (.resting bank next) =
      (.error e, w') := by
    rw [resetProblemBank, Program.run_bind, hrun]
  rw [leavesAlone_of_error hreset, hbank, show (World.resting bank next).bank = bank from rfl,
    Bank.sameRows_deleteEach]
  exact forall_congr' fun t => by rw [hmem]; rfl

/-- Such a reset loses no row exactly when it stores again what was there. -/
theorem leavesAlone_loading (hacquire : m.fails 0 = none) (hdeletes : m.Through lost 1 4) :
    LeavesAlone m lost read file (.resting bank next) ↔
      ∀ stored, StopsLoading m lost read file stored → bank.Holds m stored := by
  constructor
  · intro h stored hstops
    obtain ⟨e, w', hrun, hholds⟩ := run_reset_stops bank next hacquire hdeletes hstops
    exact hholds.sameRows_iff.mp (h e w' hrun)
  · intro h
    rcases run_reset_or_stops bank next hacquire hdeletes with ⟨w', hrun⟩ | ⟨stored, hstops⟩
    · -- the reset does not throw, and there is nothing to show
      intro e w'' hrun'
      rw [hrun] at hrun'
      cases hrun'
    · obtain ⟨e, w', hrun, hholds⟩ := run_reset_stops bank next hacquire hdeletes hstops
      exact (leavesAlone_of_error hrun).mpr (hholds.sameRows_iff.mpr (h stored hstops))

/-- Without a connection nothing is done. -/
theorem leavesAlone_refused (hacquire : m.fails 0 ≠ none) :
    LeavesAlone m lost read file (.resting bank next) := by
  intro e w' hrun
  rw [resetProblemBank, Program.run_bind, clearProblemBank_eq] at hrun
  obtain ⟨e', he⟩ := run_withLease_refused (m := m) (w := .resting bank next) (p := do
    deletes clearOrder
    counterResets counterOrder) hacquire
  rw [he] at hrun
  cases hrun
  exact .refl bank

end Resetting

/-- **When a failed reset leaves the bank alone.** For every content of the database, every seed
file and all sets of failing calls and lost answers: exactly when there is no connection to be
had, or the `DELETE`s do not all get through and those carried out have nothing to delete, or the
loading stops nowhere but where the file has just the problems that were there. -/
theorem keeps_rows_iff (m : Mysql) (lost : Nat → Option Bytes) (read : JsonReader)
    (file : SeedFile) (bank : Bank) (next : Counters) :
    LeavesAlone m lost read file (.resting bank next) ↔ KeepsRows m lost read file bank := by
  by_cases hacquire : m.fails 0 = none
  · by_cases hdeletes : m.Through lost 1 4
    · rw [leavesAlone_loading bank next hacquire hdeletes]
      refine ⟨.loading hdeletes, fun h => ?_⟩
      cases h with
      | refused hf => exact absurd hacquire hf
      | clearing hno => exact absurd hdeletes hno
      | loading _ hb => exact hb
    · rw [leavesAlone_clearing bank next hacquire hdeletes]
      constructor
      · exact fun h => .clearing hdeletes fun i t hi hthrough hf => h t ⟨i, hi, hthrough, hf⟩
      · intro h
        cases h with
        | refused hf => exact absurd hacquire hf
        | clearing _ hb => exact fun t ⟨i, hi, hthrough, hf⟩ => hb i t hi hthrough hf
        | loading hthrough => exact absurd hthrough hdeletes
  · exact ⟨fun _ => .refused hacquire, fun _ => leavesAlone_refused bank next hacquire⟩

/-- Nothing fails in the database and no answer is lost, but the seed file is missing: the one
problem is gone. -/
theorem loses_rows : ¬ ∀ (m : Mysql) (lost : Nat → Option Bytes) (read : JsonReader)
    (file : SeedFile) (bank : Bank) (next : Counters),
      LeavesAlone m lost read file (.resting bank next) := by
  intro h
  let read : JsonReader := fun _ => .error (.invalid [])
  let file : SeedFile := ⟨utf8 "seed.json", none⟩
  let problem : ProblemRow := ⟨1, utf8 "A+B", [], .easy, 500, 256, 0, 0⟩
  have hthrough : ∀ n k, Mysql.healthy.Through (fun _ => none) n k := fun n k i _ => ⟨rfl, rfl⟩
  have hleaves := h .healthy (fun _ => none) read file ⟨[problem], [], [], []⟩ ⟨2, 1, 1⟩
  have hholds := (leavesAlone_loading _ _ rfl (hthrough 1 4)).mp hleaves []
    (.file (hthrough 5 3) rfl)
  obtain ⟨before, p, after, heq, -⟩ := (hholds.problems problem).mp (List.mem_singleton.mpr rfl)
  cases before <;> cases heq

end MiniOj.Db
