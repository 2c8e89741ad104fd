import MiniOj.Db.Spec.Refilling

/-!
# Filling a bank from a seed file

* `Seeded` — the invariant of the loading: the bank holds the problems stored so far
* `seeded_addProblem` — storing one more problem keeps it
* `addProblem_isSome_iff_fits` — when one more problem can be stored
-/

namespace MiniOj.Db

open Infra Admin Store

variable {m : Mysql} {weight : Bytes → Bytes} {clock : Nat → Nat} {s s' : Store}
  {problemId : Nat} {ps : List SeedProblem} {input : ProblemInput} {n : Nat}

/-! ## Places -/

section Filled

variable {α ρ : Type} {P : List α → α → ρ → Prop} {places : List α} {rows : List ρ}

theorem filled_nil : Filled P [] [] := by
  intro r
  constructor
  · intro hr
    cases hr
  · rintro ⟨before, a, after, heq, -⟩
    cases before <;> cases heq

/-- One more place, and its row if it has one. -/
theorem Filled.snoc (h : Filled P places rows) (a : α) (new : List ρ)
    (hnew : ∀ r, r ∈ new ↔ P places a r) : Filled P (places ++ [a]) (rows ++ new) := by
  intro r
  rw [List.mem_append, h r, hnew r]
  constructor
  · rintro (⟨before, x, after, rfl, hr⟩ | hr)
    · exact ⟨before, x, after ++ [a], by rw [List.append_assoc]; rfl, hr⟩
    · exact ⟨places, a, [], rfl, hr⟩
  · rintro ⟨before, x, after, heq, hr⟩
    rcases List.eq_nil_or_concat after with rfl | ⟨after, y, rfl⟩
    · obtain ⟨rfl, hx⟩ := List.append_inj' heq rfl
      cases hx
      exact .inr hr
    · rw [List.concat_eq_append, ← List.cons_append, ← List.append_assoc] at heq
      obtain ⟨rfl, -⟩ := List.append_inj' heq rfl
      exact .inl ⟨before, x, after, rfl, hr⟩

/-- One more place, and the one row that it can have. -/
theorem Filled.push (h : Filled P places rows) {a : α} {new : ρ} (hnew : P places a new)
    (hunique : ∀ r, P places a r → r = new) : Filled P (places ++ [a]) (rows ++ [new]) := by
  refine h.snoc a [new] fun r => ?_
  rw [List.mem_singleton]
  constructor
  · rintro rfl
    exact hnew
  · exact hunique r

/-- Two tables filled alike have the same rows. -/
theorem Filled.mem_iff {rows' : List ρ} (h : Filled P places rows') :
    (∀ r, r ∈ rows ↔ r ∈ rows') ↔ Filled P places rows :=
  forall_congr' fun r => by rw [h r]

end Filled

/-- A bank has the same rows as one filled from problems, if it holds those problems. -/
theorem Bank.Holds.sameRows_iff {b b' : Bank} (h : b'.Holds m ps) :
    b.SameRows b' ↔ b.Holds m ps :=
  ⟨fun hs => ⟨h.problems.mem_iff.mp hs.problems, h.testcases.mem_iff.mp hs.testcases,
      h.tags.mem_iff.mp hs.tags, h.problemTags.mem_iff.mp hs.problemTags⟩,
    fun hs => ⟨h.problems.mem_iff.mpr hs.problems, h.testcases.mem_iff.mpr hs.testcases,
      h.tags.mem_iff.mpr hs.tags, h.problemTags.mem_iff.mpr hs.problemTags⟩⟩

theorem holds_empty : Bank.empty.Holds m [] := ⟨filled_nil, filled_nil, filled_nil, filled_nil⟩

theorem casePlaces_snoc (ps : List SeedProblem) (p : SeedProblem) :
    casePlaces (ps ++ [p]) = casePlaces ps ++
      casePlacesOf (ps.length + 1) p.input.testcases (p.call + 3 + 2 * p.input.tags.length) := by
  unfold casePlaces
  rw [List.zipIdx_append, List.zipIdx_singleton, List.flatMap_append, List.flatMap_singleton,
    Nat.add_comm 1]

theorem tagPlaces_snoc (ps : List SeedProblem) (p : SeedProblem) :
    tagPlaces (ps ++ [p]) = tagPlaces ps ++ tagPlacesOf (ps.length + 1) p.input.tags := by
  unfold tagPlaces
  rw [List.zipIdx_append, List.zipIdx_singleton, List.flatMap_append, List.flatMap_singleton,
    Nat.add_comm 1]

/-! ## Tags -/

section Tags

variable {places : List TagPlace} {name : Bytes} {tagId : Nat}

/-- The rows of `tags` and the counter, when these places are filled. -/
structure TagsFilled (weight : Bytes → Bytes) (places : List TagPlace) (s : Store) : Prop where
  tags : Filled (TagRow.At weight) places s.rows.tags
  next : s.next.tags = places.length + 1
  room : s.next.tags ≤ maxUnsigned + 1

/-- A name that has been used before has a row. -/
theorem TagsFilled.exists_row (h : TagsFilled weight places s) {key : Bytes}
    (hkey : some key ∈ places.map (TagPlace.key weight)) :
    ∃ t ∈ s.rows.tags, weight t.name = key := by
  -- the row is that of the first use
  obtain ⟨before, after, heq, hfirst⟩ := List.eq_append_cons_of_mem hkey
  obtain ⟨places₁, places₂, rfl, rfl, htail⟩ := List.map_eq_append_iff.mp heq
  obtain ⟨t, places₃, rfl, ht, -⟩ := List.map_eq_cons_iff.mp htail
  obtain ⟨kept, hkept, rfl⟩ := Option.map_eq_some_iff.mp ht
  refine ⟨⟨places₁.length + 1, kept⟩, (h.tags _).mpr ⟨places₁, t, places₃, rfl, rfl, hkept, ?_⟩,
    rfl⟩
  rw [ht]
  exact hfirst

/-- The tag of one more place, and the link to it. -/
theorem filled_upsertTag (problemId : Nat) (h : TagsFilled weight places s)
    (hs : s.upsertTag weight name = some (tagId, s')) :
    TagsFilled weight (places ++ [⟨problemId, name⟩]) s' ∧
      ProblemTagRow.At weight places ⟨problemId, name⟩ ⟨problemId, tagId⟩ := by
  let place : TagPlace := ⟨problemId, name⟩
  obtain ⟨kept, hkept, hroom, hcases⟩ := upsertTag_eq_some_iff.mp hs
  have hkey : place.key weight = some (weight kept) := by
    rw [TagPlace.key, hkept, Option.map_some]
  have hnext : s.next.tags + 1 = (places ++ [place]).length + 1 := by
    rw [h.next, List.length_append, List.length_singleton]
  rcases hcases with ⟨t, hfind, rfl, rfl⟩ | ⟨hnone, rfl, rfl⟩
  · -- the name has a row already, at the place of its first use
    obtain ⟨before, u, after, rfl, hat⟩ := (h.tags t).mp (List.mem_of_find?_eq_some hfind)
    have hsame : u.key weight = some (weight kept) := by
      rw [TagPlace.key, hat.name, Option.map_some, eq_of_beq (List.find?_some hfind :)]
    refine ⟨⟨?_, hnext, Nat.succ_le_succ hroom⟩, rfl, ?_⟩
    · have hused : place.key weight ∈ (before ++ u :: after).map (TagPlace.key weight) := by
        rw [hkey, ← hsame]
        exact List.mem_map_of_mem (List.mem_append_right _ List.mem_cons_self)
      have htags := h.tags.snoc place [] fun r => by
        constructor
        · intro hr
          cases hr
        · exact fun hr => absurd hused hr.first
      rwa [List.append_nil] at htags
    · show t.id = _
      rw [hat.id, show (⟨problemId, name⟩ : TagPlace).key weight = _ from hkey, ← hsame,
        List.append_assoc, List.map_append, List.idxOf_append, if_neg hat.first, List.cons_append,
        List.map_cons, List.idxOf_cons_self, Nat.zero_add, List.length_map]
  · -- the name is new
    have hfirst : some (weight kept) ∉ places.map (TagPlace.key weight) := by
      intro hmem
      obtain ⟨t, ht, hw⟩ := h.exists_row hmem
      exact List.find?_eq_none.mp hnone t ht (beq_iff_eq.mpr hw)
    have hrow : TagRow.At weight places place ⟨s.next.tags, kept⟩ :=
      ⟨h.next, hkept, hkey ▸ hfirst⟩
    refine ⟨⟨h.tags.push hrow ?_, hnext, Nat.succ_le_succ hroom⟩, rfl, ?_⟩
    · rintro ⟨id, name'⟩ ⟨hid, hname, -⟩
      cases hkept.symm.trans hname
      cases hid.trans h.next.symm
      rfl
    · show s.next.tags = _
      rw [h.next, show (⟨problemId, name⟩ : TagPlace).key weight = _ from hkey, List.map_append,
        List.idxOf_append, if_neg hfirst, List.map_singleton,
        show (⟨problemId, name⟩ : TagPlace).key weight = _ from hkey, List.idxOf_cons_self,
        Nat.zero_add, List.length_map]

theorem filled_addTags {names : List Bytes} (h : TagsFilled weight places s)
    (hl : Filled (ProblemTagRow.At weight) places s.rows.problemTags)
    (hs : s.addTags weight problemId names = some s') :
    TagsFilled weight (places ++ tagPlacesOf problemId names) s' ∧
      Filled (ProblemTagRow.At weight) (places ++ tagPlacesOf problemId names)
        s'.rows.problemTags := by
  induction names generalizing s places with
  | nil =>
    cases hs
    rw [tagPlacesOf, List.map_nil, List.append_nil]
    exact ⟨h, hl⟩
  | cons name names ih =>
    obtain ⟨⟨tagId, t⟩, hup, hrest⟩ := Option.bind_eq_some_iff.mp hs
    obtain ⟨u, hlink, hnames⟩ := Option.bind_eq_some_iff.mp hrest
    obtain ⟨⟨htags, hnext, hroom⟩, hat⟩ := filled_upsertTag problemId h hup
    obtain ⟨-, -, hlinks, -⟩ := upsertTag_spec problemId hup
    obtain ⟨-, -, -, hu⟩ := linkTag_eq_some_iff.mp hlink
    have hl' : Filled (ProblemTagRow.At weight) (places ++ [⟨problemId, name⟩])
        u.rows.problemTags := by
      rw [← hu, hlinks]
      refine hl.push hat ?_
      rintro ⟨id, tag⟩ ⟨hid, htag⟩
      cases hid
      cases htag.trans hat.tagId.symm
      rfl
    have htags' : TagsFilled weight (places ++ [⟨problemId, name⟩]) u := by
      rw [← hu]
      exact ⟨htags, hnext, hroom⟩
    have hrest := ih htags' hl' hnames
    rw [List.append_assoc] at hrest
    exact hrest

end Tags

/-! ## Testcases -/

section Testcases

variable {places : List CasePlace} {cases : List TestCaseInput}

/-- The rows of `testcases` and the counter, when these places are filled. -/
structure CasesFilled (clock : Nat → Nat) (places : List CasePlace) (s : Store) : Prop where
  testcases : Filled (TestcaseRow.At clock) places s.rows.testcases
  next : s.next.testcases = places.length + 1
  room : s.next.testcases ≤ maxUnsigned + 1

theorem filled_addTestcases (h : CasesFilled clock places s)
    (hs : s.addTestcases clock problemId cases n = some s') :
    CasesFilled clock (places ++ casePlacesOf problemId cases n) s' ∧
      s'.next.problems = s.next.problems ∧ s'.next.tags = s.next.tags := by
  induction cases generalizing s places n with
  | nil =>
    cases hs
    rw [casePlacesOf, List.zipIdx_nil, List.map_nil, List.append_nil]
    exact ⟨h, rfl, rfl⟩
  | cons c cases ih =>
    obtain ⟨t, hinsert, hrest⟩ := Option.bind_eq_some_iff.mp hs
    obtain ⟨input, hinput, output, houtput, -, hroom, rfl⟩ :=
      insertTestcase_eq_some_iff.mp hinsert
    have hrow : TestcaseRow.At clock places ⟨problemId, c, n⟩ {
        id := s.next.testcases, problemId, input, expectedOutput := output, isSample := c.isSample
        score := c.score, createdAt := clock n } :=
      ⟨h.next, ⟨rfl, hinput, houtput, rfl, rfl⟩, rfl⟩
    have hnew := h.testcases.push hrow <| by
      rintro ⟨id, problemId', input', output', isSample, score, createdAt⟩
        ⟨hid, ⟨hproblem, hinput', houtput', hsample, hscore⟩, hcreated⟩
      cases hinput.symm.trans hinput'
      cases houtput.symm.trans houtput'
      cases hid.trans h.next.symm
      cases hproblem
      cases hsample
      cases hscore
      cases hcreated
      rfl
    have hnext : s.next.testcases + 1 =
        (places ++ [(⟨problemId, c, n⟩ : CasePlace)]).length + 1 := by
      rw [h.next, List.length_append, List.length_singleton]
    obtain ⟨hfilled, hproblems, htags⟩ := ih ⟨hnew, hnext, Nat.succ_le_succ hroom⟩ hrest
    rw [List.append_assoc] at hfilled
    exact ⟨hfilled, hproblems, htags⟩

end Testcases

/-! ## Problems -/

/-- **The invariant of the loading.** The bank holds the problems stored so far, and the counters
are past their rows. -/
structure Seeded (m : Mysql) (ps : List SeedProblem) (s : Store) : Prop where
  holds : s.rows.Holds m ps
  next : s.next = nextAfter ps
  schema : Schema m.weight s
  problems : s.next.problems ≤ maxUnsigned + 1
  testcases : s.next.testcases ≤ maxUnsigned + 1
  tags : s.next.tags ≤ maxUnsigned + 1

theorem seeded_empty : Seeded m [] ⟨.empty, ⟨1, 1, 1⟩⟩ where
  holds := holds_empty
  next := rfl
  schema := schema_empty m.weight
  problems := by decide
  testcases := by decide
  tags := by decide

/-- The row of the new problem takes the next place; the other tables stay as they are. -/
theorem filled_insertProblem {id : Nat}
    (h : Filled (ProblemRow.At clock) ps s.rows.problems)
    (hnext : s.next.problems = ps.length + 1)
    (hs : s.insertProblem (clock (n + 2)) input.title input.descriptionMd input.difficulty
      input.timeLimitMs input.memoryLimitMb = some (id, s')) :
    id = ps.length + 1 ∧ s.next.problems ≤ maxUnsigned ∧
      s'.next = { s.next with problems := s.next.problems + 1 } ∧ ∃ problems,
        s'.rows = { s.rows with problems } ∧
        Filled (ProblemRow.At clock) (ps ++ [⟨input, n⟩]) problems := by
  obtain ⟨title, htitle, text, htext, ⟨hroom, -, -⟩, rfl, rfl⟩ := insertProblem_eq_some_iff.mp hs
  refine ⟨hnext, hroom, rfl, _, rfl,
    h.push (a := ⟨input, n⟩) ⟨hnext, ⟨htitle, htext, rfl, rfl, rfl⟩, rfl, rfl⟩ ?_⟩
  rintro ⟨id, title', text', difficulty, timeLimitMs, memoryLimitMb, createdAt, updatedAt⟩
    ⟨hid, ⟨htitle', htext', hdifficulty, htime, hmemory⟩, hcreated, hupdated⟩
  cases htitle.symm.trans htitle'
  cases htext.symm.trans htext'
  cases hid.trans hnext.symm
  cases hdifficulty
  cases htime
  cases hmemory
  cases hcreated
  cases hupdated
  rfl

theorem seeded_addProblem {id : Nat} (h : Seeded m ps s)
    (hs : s.addProblem m.weight m.clock input (n + 2) = some (id, s')) :
    Seeded m (ps ++ [⟨input, n⟩]) s' ∧ Room (nextAfter ps) input := by
  have hschema := schema_addProblem h.schema hs
  obtain ⟨⟨id', t⟩, hinsert, hrest⟩ := Option.bind_eq_some_iff.mp hs
  obtain ⟨u, htags, hrest⟩ := Option.bind_eq_some_iff.mp hrest
  obtain ⟨v, hcases, hdone⟩ := Option.bind_eq_some_iff.mp hrest
  cases hdone
  -- the problem
  obtain ⟨rfl, hroom, hnext, problems, hrows, hproblems⟩ :=
    filled_insertProblem h.holds.problems (by rw [h.next, nextAfter]) hinsert
  -- its tags
  have htagsFilled : TagsFilled m.weight (tagPlaces ps) t :=
    ⟨by rw [hrows]; exact h.holds.tags, by rw [hnext, h.next, nextAfter],
      by rw [hnext]; exact h.tags⟩
  obtain ⟨⟨htagRows, htagNext, htagRoom⟩, hlinks⟩ :=
    filled_addTags htagsFilled (by rw [hrows]; exact h.holds.problemTags) htags
  obtain ⟨hp, hc, -⟩ := addTags_spec htags
  obtain ⟨hnp, hnc⟩ := addTags_next htags
  -- its testcases
  have hcasesFilled : CasesFilled m.clock (casePlaces ps) u :=
    ⟨by rw [hc, hrows]; exact h.holds.testcases, by rw [hnc, hnext, h.next, nextAfter],
      by rw [hnc, hnext]; exact h.testcases⟩
  obtain ⟨⟨hcaseRows, hcaseNext, hcaseRoom⟩, hnp', hnt'⟩ := filled_addTestcases hcasesFilled hcases
  obtain ⟨hp', ht', hl', -⟩ := addTestcases_spec hcases
  have hcount : s'.next.problems = s.next.problems + 1 := by rw [hnp', hnp, hnext]
  rw [← hnt'] at htagNext htagRoom
  refine ⟨⟨⟨?_, ?_, ?_, ?_⟩, ?_, hschema, ?_, hcaseRoom, htagRoom⟩, ?_, ?_, ?_⟩
  · rw [hp', hp, hrows]
    exact hproblems
  · rw [casePlaces_snoc]
    exact hcaseRows
  · rw [tagPlaces_snoc, ht']
    exact htagRows
  · rw [tagPlaces_snoc, hl']
    exact hlinks
  · rw [h.next, nextAfter] at hcount
    rw [nextAfter, casePlaces_snoc, tagPlaces_snoc, List.length_append, List.length_singleton,
      ← hcount, ← htagNext]
    exact congrArg (Counters.mk _ · _) hcaseNext
  · rw [hcount]
    exact Nat.succ_le_succ hroom
  · rw [← h.next]
    exact hroom
  · rw [htagNext, List.length_append, tagPlacesOf, List.length_map] at htagRoom
    show (tagPlaces ps).length + 1 + _ ≤ _
    omega
  · rw [hcaseNext, List.length_append, casePlacesOf, List.length_map, List.length_zipIdx]
      at hcaseRoom
    show (casePlaces ps).length + 1 + _ ≤ _
    omega

/-- **When one more problem can be stored.** -/
theorem addProblem_isSome_iff_fits (h : Seeded m ps s) (hchecked : input.Checked) :
    (s.addProblem m.weight m.clock input (n + 2)).isSome ↔
      Fits m.weight input ∧ Room (nextAfter ps) input := by
  constructor
  · intro hsome
    obtain ⟨⟨id, s'⟩, hs⟩ := Option.isSome_iff_exists.mp hsome
    have hroom := (seeded_addProblem h hs).2
    exact ⟨(addProblem_isSome_iff h.schema (h.next ▸ hroom) hchecked).mp hsome, hroom⟩
  · rintro ⟨hfits, hroom⟩
    exact (addProblem_isSome_iff h.schema (h.next ▸ hroom) hchecked).mpr hfits

end MiniOj.Db
