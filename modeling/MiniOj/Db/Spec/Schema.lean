import Mathlib.Data.List.Nodup
import MiniOj.Db.Spec.Stored

/-!
# The constraints of the schema

Keys, references and counters of the four tables as `schema.sql` and InnoDB keep them, and what
it takes for a problem to be stored without violating one.

* `Schema` — the constraints between rows
* `schema_addProblem`, `schema_replaceProblem` — storing and changing a problem keeps them
* `addTags_isSome_iff`, `addTestcases_isSome_iff`, `addProblem_isSome_iff`
-/

namespace MiniOj.Db

open Infra Admin

/-- The constraints of `schema.sql` on the four tables. -/
structure Schema (weight : Bytes → Bytes) (s : Store) : Prop where
  problemIds : (s.rows.problems.map ProblemRow.id).Nodup
  testcaseIds : (s.rows.testcases.map TestcaseRow.id).Nodup
  tagIds : (s.rows.tags.map TagRow.id).Nodup
  /-- `uk_tags_name`, under the collation -/
  tagNames : (s.rows.tags.map fun t => weight t.name).Nodup
  problemTags : s.rows.problemTags.Nodup
  testcaseProblem : ∀ c ∈ s.rows.testcases, ∃ p ∈ s.rows.problems, p.id = c.problemId
  linkedProblem : ∀ l ∈ s.rows.problemTags, ∃ p ∈ s.rows.problems, p.id = l.problemId
  linkedTag : ∀ l ∈ s.rows.problemTags, ∃ t ∈ s.rows.tags, t.id = l.tagId
  nextProblem : ∀ p ∈ s.rows.problems, p.id < s.next.problems
  nextTestcase : ∀ c ∈ s.rows.testcases, c.id < s.next.testcases
  nextTag : ∀ t ∈ s.rows.tags, t.id < s.next.tags

/-- Empty tables break none. -/
theorem schema_empty (weight : Bytes → Bytes) : Schema weight ⟨.empty, ⟨1, 1, 1⟩⟩ := by
  constructor <;> first | exact List.nodup_nil | exact fun _ h => nomatch h

/-- The problem has a tag whose name has this sort key. -/
def Uses (weight : Bytes → Bytes) (s : Store) (problemId : Nat) (key : Bytes) : Prop :=
  ∃ l ∈ s.rows.problemTags, l.problemId = problemId ∧
    ∃ t ∈ s.rows.tags, t.id = l.tagId ∧ weight t.name = key

/-- The sort keys of the names as the column keeps them. -/
def tagKeys (weight : Bytes → Bytes) (names : List Bytes) : List Bytes :=
  names.filterMap fun name => (fitVarchar 64 name).map weight

/-- A new key is different from the others. -/
theorem nodup_map_push {α β : Type} {f : α → β} {xs : List α} {x : α} (h : (xs.map f).Nodup)
    (hx : ∀ y ∈ xs, f y ≠ f x) : ((xs ++ [x]).map f).Nodup := by
  rw [List.map_append, List.nodup_append]
  refine ⟨h, List.nodup_singleton _, fun a ha b hb => ?_⟩
  obtain ⟨y, hy, rfl⟩ := List.mem_map.mp ha
  rw [List.mem_singleton.mp hb]
  exact hx y hy

namespace Schema

variable {weight : Bytes → Bytes} {s s' : Store} {problemId tagId id now : Nat} {name : Bytes}

/-- A tag is told by its id. -/
theorem eq_of_tagId (h : Schema weight s) {t u : TagRow} (ht : t ∈ s.rows.tags)
    (hu : u ∈ s.rows.tags) (heq : t.id = u.id) : t = u :=
  List.inj_on_of_nodup_map h.tagIds ht hu heq

/-- And by its name, as the collation has it. -/
theorem eq_of_tagName (h : Schema weight s) {t u : TagRow} (ht : t ∈ s.rows.tags)
    (hu : u ∈ s.rows.tags) (heq : weight t.name = weight u.name) : t = u :=
  List.inj_on_of_nodup_map h.tagNames ht hu heq

/-! ## Inserts -/

/-- The primary key of a new problem is new. -/
theorem insertProblem {title descriptionMd : Bytes} {difficulty : Difficulty}
    {timeLimitMs memoryLimitMb : UInt32} (h : Schema weight s)
    (hs : s.insertProblem now title descriptionMd difficulty timeLimitMs memoryLimitMb =
      some (id, s')) : Schema weight s' := by
  obtain ⟨_, _, _, _, -, -, rfl⟩ := Store.insertProblem_eq_some_iff.mp hs
  exact { h with
    problemIds := nodup_map_push h.problemIds fun p hp => Nat.ne_of_lt (h.nextProblem p hp)
    testcaseProblem := fun c hc =>
      let ⟨p, hp, hid⟩ := h.testcaseProblem c hc
      ⟨p, List.mem_append_left _ hp, hid⟩
    linkedProblem := fun l hl =>
      let ⟨p, hp, hid⟩ := h.linkedProblem l hl
      ⟨p, List.mem_append_left _ hp, hid⟩
    nextProblem := fun p hp => by
      rcases List.mem_append.mp hp with hp | hp
      · exact Nat.lt_succ_of_lt (h.nextProblem p hp)
      · rw [List.mem_singleton.mp hp]
        exact Nat.lt_succ_self _ }

/-- A tag is new, or is there already. -/
theorem upsertTag (h : Schema weight s) (hs : s.upsertTag weight name = some (tagId, s')) :
    Schema weight s' := by
  obtain ⟨kept, -, -, ⟨t, -, -, rfl⟩ | ⟨hnone, -, rfl⟩⟩ := Store.upsertTag_eq_some_iff.mp hs
  · exact { h with nextTag := fun t ht => Nat.lt_succ_of_lt (h.nextTag t ht) }
  · exact { h with
      tagIds := nodup_map_push h.tagIds fun t ht => Nat.ne_of_lt (h.nextTag t ht)
      tagNames := nodup_map_push h.tagNames fun t ht heq =>
        List.find?_eq_none.mp hnone t ht (beq_iff_eq.mpr heq)
      linkedTag := fun l hl =>
        let ⟨t, ht, hid⟩ := h.linkedTag l hl
        ⟨t, List.mem_append_left _ ht, hid⟩
      nextTag := fun t ht => by
        rcases List.mem_append.mp ht with ht | ht
        · exact Nat.lt_succ_of_lt (h.nextTag t ht)
        · rw [List.mem_singleton.mp ht]
          exact Nat.lt_succ_self _ }

/-- The link is between rows that are there. -/
theorem linkTag (h : Schema weight s) (hs : s.linkTag problemId tagId = some s') :
    Schema weight s' := by
  obtain ⟨hproblem, htag, hnew, rfl⟩ := Store.linkTag_eq_some_iff.mp hs
  obtain ⟨p, hp, hpid⟩ := List.any_eq_true.mp hproblem
  obtain ⟨t, ht, htid⟩ := List.any_eq_true.mp htag
  refine { h with
    problemTags := ?_
    linkedProblem := fun l hl => ?_
    linkedTag := fun l hl => ?_ }
  · show (s.rows.problemTags ++ [(⟨problemId, tagId⟩ : ProblemTagRow)]).Nodup
    rw [List.nodup_append]
    refine ⟨h.problemTags, List.nodup_singleton _, fun l hl l' hl' heq => ?_⟩
    rw [List.mem_singleton.mp hl'] at heq
    exact hnew (heq ▸ hl)
  · rcases List.mem_append.mp hl with hl | hl
    · exact h.linkedProblem l hl
    · rw [List.mem_singleton.mp hl]
      exact ⟨p, hp, eq_of_beq hpid⟩
  · rcases List.mem_append.mp hl with hl | hl
    · exact h.linkedTag l hl
    · rw [List.mem_singleton.mp hl]
      exact ⟨t, ht, eq_of_beq htid⟩

/-- The testcase is of a problem that is there. -/
theorem insertTestcase {input expectedOutput : Bytes} {isSample : Bool} {score : UInt32}
    (h : Schema weight s)
    (hs : s.insertTestcase now problemId input expectedOutput isSample score = some s') :
    Schema weight s' := by
  obtain ⟨_, _, _, _, hproblem, -, rfl⟩ := Store.insertTestcase_eq_some_iff.mp hs
  obtain ⟨p, hp, hpid⟩ := List.any_eq_true.mp hproblem
  refine { h with
    testcaseIds := nodup_map_push h.testcaseIds fun c hc => Nat.ne_of_lt (h.nextTestcase c hc)
    testcaseProblem := fun c hc => ?_
    nextTestcase := fun c hc => ?_ }
  · rcases List.mem_append.mp hc with hc | hc
    · exact h.testcaseProblem c hc
    · rw [List.mem_singleton.mp hc]
      exact ⟨p, hp, eq_of_beq hpid⟩
  · rcases List.mem_append.mp hc with hc | hc
    · exact Nat.lt_succ_of_lt (h.nextTestcase c hc)
    · rw [List.mem_singleton.mp hc]
      exact Nat.lt_succ_self _

/-! ## Updates and deletes -/

/-- Nothing refers to testcases. -/
theorem deleteTestcases (h : Schema weight s) (problemId : Nat) :
    Schema weight { s with rows := s.rows.deleteTestcases problemId } :=
  { h with
    testcaseIds := h.testcaseIds.sublist (List.filter_sublist.map _)
    testcaseProblem := fun c hc => h.testcaseProblem c (List.mem_filter.mp hc).1
    nextTestcase := fun c hc => h.nextTestcase c (List.mem_filter.mp hc).1 }

/-- Nothing refers to links. -/
theorem deleteProblemTags (h : Schema weight s) (problemId : Nat) :
    Schema weight { s with rows := s.rows.deleteProblemTags problemId } :=
  { h with
    problemTags := h.problemTags.filter _
    linkedProblem := fun l hl => h.linkedProblem l (List.mem_filter.mp hl).1
    linkedTag := fun l hl => h.linkedTag l (List.mem_filter.mp hl).1 }

/-- An update that leaves the ids of the problems as they are. -/
theorem changeProblems {problems : List ProblemRow} (h : Schema weight s)
    (hids : problems.map ProblemRow.id = s.rows.problems.map ProblemRow.id) :
    Schema weight { s with rows := { s.rows with problems } } := by
  have hid : ∀ n, (∃ p ∈ problems, p.id = n) ↔ ∃ p ∈ s.rows.problems, p.id = n := by
    intro n
    rw [← List.mem_map, hids, List.mem_map]
  exact { h with
    problemIds := hids ▸ h.problemIds
    testcaseProblem := fun c hc => (hid _).mpr (h.testcaseProblem c hc)
    linkedProblem := fun l hl => (hid _).mpr (h.linkedProblem l hl)
    nextProblem := fun p hp => by
      obtain ⟨q, hq, heq⟩ := (hid p.id).mp ⟨p, hp, rfl⟩
      rw [← heq]
      exact h.nextProblem q hq }

end Schema

/-! ## Tags -/

namespace Store

variable {weight : Bytes → Bytes} {clock : Nat → Nat} {s s' : Store} {problemId tagId : Nat}
  {name : Bytes}

/-- A new or present tag does not change which names a problem uses. -/
theorem uses_upsertTag (h : Schema weight s) (hs : s.upsertTag weight name = some (tagId, s'))
    {key : Bytes} : Uses weight s' problemId key ↔ Uses weight s problemId key := by
  obtain ⟨-, -, hlinks, htags, -⟩ := upsertTag_spec problemId hs
  unfold Uses
  rw [hlinks]
  refine exists_congr fun l => and_congr_right fun hl => and_congr_right fun _ => ⟨?_, ?_⟩
  · rintro ⟨t, ht, hid, hkey⟩
    -- the tag of an old link is an old tag
    obtain ⟨u, hu, huid⟩ := h.linkedTag l hl
    have htu := (h.upsertTag hs).eq_of_tagId ht (htags.subset hu) (hid.trans huid.symm)
    exact ⟨u, hu, huid, htu ▸ hkey⟩
  · rintro ⟨t, ht, hrest⟩
    exact ⟨t, htags.subset ht, hrest⟩

/-- A link is there already exactly when the problem uses the name of the tag. -/
theorem mem_problemTags_iff_uses (h : Schema weight s) {t : TagRow} (ht : t ∈ s.rows.tags) :
    ⟨problemId, t.id⟩ ∈ s.rows.problemTags ↔ Uses weight s problemId (weight t.name) := by
  constructor
  · exact fun hl => ⟨_, hl, rfl, t, ht, rfl, rfl⟩
  · rintro ⟨l, hl, rfl, u, hu, hid, hkey⟩
    rw [h.eq_of_tagName ht hu hkey.symm, hid]
    exact hl

/-- **A link adds one name to what the problem uses.** -/
theorem uses_linkTag (h : Schema weight s) (hs : s.linkTag problemId tagId = some s')
    {t : TagRow} (ht : t ∈ s.rows.tags) (hid : t.id = tagId) {key : Bytes} :
    Uses weight s' problemId key ↔ Uses weight s problemId key ∨ key = weight t.name := by
  obtain ⟨-, -, -, rfl⟩ := linkTag_eq_some_iff.mp hs
  constructor
  · rintro ⟨l, hl, hproblem, u, hu, huid, hkey⟩
    rcases List.mem_append.mp hl with hl | hl
    · exact .inl ⟨l, hl, hproblem, u, hu, huid, hkey⟩
    · rw [List.mem_singleton.mp hl] at huid
      rw [← hkey, h.eq_of_tagId hu ht (huid.trans hid.symm)]
      exact .inr rfl
  · rintro (⟨l, hl, hrest⟩ | rfl)
    · exact ⟨l, List.mem_append_left _ hl, hrest⟩
    · exact ⟨_, List.mem_append_right _ (List.mem_singleton_self _), rfl, t, ht, hid, rfl⟩

/-- A name that fits is found or inserted, as long as there are ids. -/
theorem exists_upsertTag (weight : Bytes → Bytes) {kept : Bytes}
    (hfit : fitVarchar 64 name = some kept) (hroom : s.next.tags ≤ maxUnsigned) :
    ∃ tagId s', s.upsertTag weight name = some (tagId, s') := by
  cases hfind : s.rows.tags.find? fun t => weight t.name == weight kept with
  | none =>
    exact ⟨_, _, upsertTag_eq_some_iff.mpr ⟨kept, hfit, hroom, .inr ⟨hfind, rfl, rfl⟩⟩⟩
  | some t =>
    exact ⟨_, _, upsertTag_eq_some_iff.mpr ⟨kept, hfit, hroom, .inl ⟨t, hfind, rfl, rfl⟩⟩⟩

/-- An id is used up in either case. -/
theorem upsertTag_next (hs : s.upsertTag weight name = some (tagId, s')) :
    s'.next = { s.next with tags := s.next.tags + 1 } := by
  obtain ⟨_, -, -, ⟨_, -, -, rfl⟩ | ⟨-, -, rfl⟩⟩ := upsertTag_eq_some_iff.mp hs <;> rfl

/-- A link changes neither problems nor counters. -/
theorem linkTag_frame (hs : s.linkTag problemId tagId = some s') :
    s'.rows.problems = s.rows.problems ∧ s'.next = s.next := by
  obtain ⟨-, -, -, rfl⟩ := linkTag_eq_some_iff.mp hs
  exact ⟨rfl, rfl⟩

/-- A tag can be linked once. -/
theorem linkTag_isSome_iff (problemId : Nat) (h : Schema weight s) {t : TagRow}
    (ht : t ∈ s.rows.tags)
    (hproblem : (s.rows.problems.any fun p => p.id == problemId) = true) :
    (s.linkTag problemId t.id).isSome ↔ ¬ Uses weight s problemId (weight t.name) := by
  rw [← mem_problemTags_iff_uses h ht, Option.isSome_iff_exists]
  constructor
  · rintro ⟨s', hs⟩
    exact (linkTag_eq_some_iff.mp hs).2.2.1
  · intro hnew
    have htag : (s.rows.tags.any fun u => u.id == t.id) = true :=
      List.any_eq_true.mpr ⟨t, ht, beq_iff_eq.mpr rfl⟩
    exact ⟨_, linkTag_eq_some_iff.mpr ⟨hproblem, htag, hnew, rfl⟩⟩

/-- **Which tags can be added**: those that fit the column and that the collation tells from one
another and from the tags there are. -/
theorem addTags_isSome_iff (names : List Bytes) : ∀ {s : Store}, Schema weight s →
    (s.rows.problems.any fun p => p.id == problemId) = true →
    s.next.tags + names.length ≤ maxUnsigned + 1 →
    ((s.addTags weight problemId names).isSome ↔
      (∀ name ∈ names, (fitVarchar 64 name).isSome) ∧ (tagKeys weight names).Nodup ∧
        ∀ key ∈ tagKeys weight names, ¬ Uses weight s problemId key) := by
  induction names with
  | nil => simp [addTags, tagKeys]
  | cons name names ih =>
    intro s h hproblem hroom
    rw [List.length_cons] at hroom
    have hcons : (s.addTags weight problemId (name :: names)) =
        (s.upsertTag weight name).bind fun r =>
          (r.2.linkTag problemId r.1).bind fun t => t.addTags weight problemId names := rfl
    cases hfit : fitVarchar 64 name with
    | none =>
      have hup : s.upsertTag weight name = none := by rw [upsertTag, hfit]; rfl
      rw [hcons, hup]
      simp [hfit]
    | some kept =>
      have hkeys : tagKeys weight (name :: names) = weight kept :: tagKeys weight names := by
        simp [tagKeys, hfit]
      obtain ⟨tagId, s₁, hup⟩ := exists_upsertTag (s := s) weight hfit (by omega)
      have h₁ := h.upsertTag hup
      obtain ⟨hp₁, -, -, -, -, t, ht, hid, kept', hkept', hkey⟩ :=
        upsertTag_spec problemId hup
      cases hfit.symm.trans hkept'
      have hid' : t.id = tagId := hid
      subst hid'
      have hlinks := linkTag_isSome_iff problemId h₁ ht (hp₁ ▸ hproblem)
      rw [hkey] at hlinks
      rw [hcons, hup, hkeys, Option.bind_some, List.nodup_cons, List.forall_mem_cons,
        List.forall_mem_cons, ← uses_upsertTag h hup, hfit, ← hlinks]
      dsimp only
      cases hlink : s₁.linkTag problemId t.id with
      | none => simp
      | some s₂ =>
        obtain ⟨hp₂, hnext₂⟩ := linkTag_frame hlink
        rw [Option.bind_some, ih (h₁.linkTag hlink) (by rw [hp₂, hp₁]; exact hproblem)
          (by rw [hnext₂, upsertTag_next hup]; dsimp only; omega)]
        have huses₂ : ∀ key, Uses weight s₂ problemId key ↔
            Uses weight s problemId key ∨ key = weight kept := fun key => by
          rw [uses_linkTag h₁ hlink ht rfl, uses_upsertTag h hup, hkey]
        constructor
        · rintro ⟨hall, hnodup, hfree⟩
          refine ⟨⟨rfl, hall⟩, ⟨fun hmem => ?_, hnodup⟩, rfl, fun key hmem hold => ?_⟩
          · exact hfree _ hmem ((huses₂ _).mpr (.inr rfl))
          · exact hfree key hmem ((huses₂ key).mpr (.inl hold))
        · rintro ⟨⟨-, hall⟩, ⟨hnew, hnodup⟩, -, hfree⟩
          refine ⟨hall, hnodup, fun key hmem hold => ?_⟩
          rcases (huses₂ key).mp hold with hold | rfl
          · exact hfree key hmem hold
          · exact hnew hmem

/-! ## Testcases and the whole problem -/

/-- **Testcases are stored when their texts fit.** -/
theorem addTestcases_isSome_iff {cases : List TestCaseInput} : ∀ {n : Nat} {s : Store},
    (s.rows.problems.any fun p => p.id == problemId) = true →
    s.next.testcases + cases.length ≤ maxUnsigned + 1 →
    ((s.addTestcases clock problemId cases n).isSome ↔
      ∀ c ∈ cases, (fitText c.input).isSome ∧ (fitText c.expectedOutput).isSome) := by
  induction cases with
  | nil => simp [addTestcases]
  | cons c cases ih =>
    intro n s hproblem hroom
    rw [List.length_cons] at hroom
    have hcons : s.addTestcases clock problemId (c :: cases) n =
        (s.insertTestcase (clock n) problemId c.input c.expectedOutput c.isSample c.score).bind
          fun t => t.addTestcases clock problemId cases (n + 1) := rfl
    rw [hcons, List.forall_mem_cons]
    cases hs : s.insertTestcase (clock n) problemId c.input c.expectedOutput c.isSample c.score with
    | none =>
      refine ⟨fun h => (nomatch h), fun ⟨⟨hinput, houtput⟩, _⟩ => ?_⟩
      obtain ⟨input, hinput⟩ := Option.isSome_iff_exists.mp hinput
      obtain ⟨output, houtput⟩ := Option.isSome_iff_exists.mp houtput
      rw [Option.eq_none_iff_forall_ne_some] at hs
      exact absurd (insertTestcase_eq_some_iff.mpr
        ⟨input, hinput, output, houtput, hproblem, by omega, rfl⟩) (hs _)
    | some t =>
      obtain ⟨input, hinput, output, houtput, -, -, ht⟩ := insertTestcase_eq_some_iff.mp hs
      have hrows : t.rows.problems = s.rows.problems ∧
          t.next.testcases = s.next.testcases + 1 := by
        rw [← ht]
        exact ⟨rfl, rfl⟩
      rw [Option.bind_some, ih (by rw [hrows.1]; exact hproblem) (by rw [hrows.2]; omega), hinput,
        houtput]
      simp

/-- `AUTO_INCREMENT` values are left for every row of the problem. -/
structure Room (next : Counters) (input : ProblemInput) : Prop where
  problem : next.problems ≤ maxUnsigned
  tags : next.tags + input.tags.length ≤ maxUnsigned + 1
  testcases : next.testcases + input.testcases.length ≤ maxUnsigned + 1

/-- Every text of the problem is UTF-8 and fits its column, and the collation tells the tags from
one another. That the title is short enough has been checked before. -/
structure Fits (weight : Bytes → Bytes) (input : ProblemInput) : Prop where
  title : (utf8Length input.title).isSome
  descriptionMd : (fitText input.descriptionMd).isSome
  tags : ∀ name ∈ input.tags, (fitVarchar 64 name).isSome
  distinct : (tagKeys weight input.tags).Nodup
  testcases : ∀ c ∈ input.testcases, (fitText c.input).isSome ∧ (fitText c.expectedOutput).isSome

/-- A text that is not too long is kept as it is. -/
theorem fitVarchar_short {limit : Nat} {value kept : Bytes}
    (hshort : ∀ n, utf8Length value = some n → n ≤ limit)
    (h : fitVarchar limit value = some kept) : value = kept := by
  obtain ⟨n, hn, h⟩ := Option.bind_eq_some_iff.mp h
  have hle := hshort n hn
  simp only [show n - limit = 0 by omega, Nat.sub_zero, List.drop_length, List.all_nil, if_true,
    List.take_length, Option.some.injEq] at h
  exact h

/-- A value of so few bytes has no character too many. -/
theorem fitVarchar_isSome_iff {limit : Nat} {value : Bytes} (h : value.length ≤ limit) :
    (fitVarchar limit value).isSome ↔ (utf8Length value).isSome := by
  unfold fitVarchar
  cases hn : utf8Length value with
  | none => rfl
  | some n =>
    have hle := utf8Length_le hn
    rw [Option.bind_some]
    dsimp only
    rw [show n - limit = 0 by omega, Nat.sub_zero, List.drop_length, List.all_nil]
    exact ⟨fun _ => rfl, fun _ => rfl⟩

/-- Tags use up their own counter only. -/
theorem addTags_next {names : List Bytes} (h : s.addTags weight problemId names = some s') :
    s'.next.problems = s.next.problems ∧ s'.next.testcases = s.next.testcases := by
  induction names generalizing s with
  | nil =>
    cases h
    exact ⟨rfl, rfl⟩
  | cons name names ih =>
    obtain ⟨⟨tagId, t⟩, hup, hrest⟩ := Option.bind_eq_some_iff.mp h
    obtain ⟨u, hlink, hnames⟩ := Option.bind_eq_some_iff.mp hrest
    rw [(ih hnames).1, (ih hnames).2, (linkTag_frame hlink).2, upsertTag_next hup]
    exact ⟨rfl, rfl⟩

/-- **A problem is stored when its texts fit.** -/
theorem insertProblem_isSome_iff (now : Nat) (title descriptionMd : Bytes)
    (difficulty : Difficulty) {timeLimitMs memoryLimitMb : UInt32}
    (hroom : s.next.problems ≤ maxUnsigned) (htime : 0 < timeLimitMs) (hmemory : 0 < memoryLimitMb) :
    (s.insertProblem now title descriptionMd difficulty timeLimitMs memoryLimitMb).isSome ↔
      (fitVarchar 255 title).isSome ∧ (fitText descriptionMd).isSome := by
  rw [Option.isSome_iff_exists]
  constructor
  · rintro ⟨⟨id, s'⟩, hs⟩
    obtain ⟨title', htitle, text, htext, -⟩ := insertProblem_eq_some_iff.mp hs
    rw [htitle, htext]
    exact ⟨rfl, rfl⟩
  · rintro ⟨htitle, htext⟩
    obtain ⟨title', htitle⟩ := Option.isSome_iff_exists.mp htitle
    obtain ⟨text, htext⟩ := Option.isSome_iff_exists.mp htext
    exact ⟨_, insertProblem_eq_some_iff.mpr
      ⟨title', htitle, text, htext, ⟨hroom, htime, hmemory⟩, rfl, rfl⟩⟩

/-- The new problem is there, has no tags, and used up its own counter only. -/
theorem insertProblem_new (h : Schema weight s) {now id : Nat} {title descriptionMd : Bytes}
    {difficulty : Difficulty} {timeLimitMs memoryLimitMb : UInt32}
    (hs : s.insertProblem now title descriptionMd difficulty timeLimitMs memoryLimitMb =
      some (id, s')) :
    (s'.rows.problems.any fun p => p.id == id) = true ∧ (∀ key, ¬ Uses weight s' id key) ∧
      s'.next.tags = s.next.tags ∧ s'.next.testcases = s.next.testcases := by
  obtain ⟨title', -, text, -, -, rfl, rfl⟩ := insertProblem_eq_some_iff.mp hs
  refine ⟨by simp, ?_, rfl, rfl⟩
  rintro key ⟨l, hl, hlid, -⟩
  -- the new id is above those of the problems that have tags
  obtain ⟨p, hp, hpid⟩ := h.linkedProblem l hl
  exact Nat.ne_of_lt (h.nextProblem p hp) (hpid.trans hlid)

/-- Tags and, after `f`, testcases are added to a problem without tags when they fit. -/
theorem addParts_isSome_iff {f : Store → Store} {input : ProblemInput} {n : Nat}
    (hf : ∀ t, (f t).rows.problems = t.rows.problems ∧ (f t).next = t.next) (h : Schema weight s)
    (hproblem : (s.rows.problems.any fun p => p.id == problemId) = true)
    (hfree : ∀ key, ¬ Uses weight s problemId key)
    (htags : s.next.tags + input.tags.length ≤ maxUnsigned + 1)
    (hcases : s.next.testcases + input.testcases.length ≤ maxUnsigned + 1) :
    ((s.addTags weight problemId input.tags).bind fun t =>
        (f t).addTestcases clock problemId input.testcases n).isSome ↔
      (∀ name ∈ input.tags, (fitVarchar 64 name).isSome) ∧ (tagKeys weight input.tags).Nodup ∧
        ∀ c ∈ input.testcases, (fitText c.input).isSome ∧ (fitText c.expectedOutput).isSome := by
  have hadd := addTags_isSome_iff input.tags h hproblem htags
  cases ht : Store.addTags weight problemId input.tags s with
  | none =>
    rw [ht] at hadd
    constructor
    · intro h
      cases h
    · rintro ⟨hall, hdistinct, -⟩
      cases hadd.mpr ⟨hall, hdistinct, fun key _ => hfree key⟩
  | some t =>
    obtain ⟨hall, hdistinct, -⟩ := hadd.mp (by rw [ht]; rfl)
    obtain ⟨hp, -, -, -⟩ := addTags_spec ht
    have hproblem' : ((f t).rows.problems.any fun p => p.id == problemId) = true := by
      rw [(hf t).1, hp]
      exact hproblem
    have hroom : (f t).next.testcases + input.testcases.length ≤ maxUnsigned + 1 := by
      rw [(hf t).2, (addTags_next ht).2]
      exact hcases
    rw [Option.bind_some, addTestcases_isSome_iff hproblem' hroom]
    exact ⟨fun hcases => ⟨hall, hdistinct, hcases⟩, fun hfits => hfits.2.2⟩

/-- **Which problems can be stored.** -/
theorem addProblem_isSome_iff {input : ProblemInput} {n : Nat} (h : Schema weight s)
    (hroom : Room s.next input) (hchecked : input.Checked) :
    (s.addProblem weight clock input n).isSome ↔ Fits weight input := by
  have hbind : s.addProblem weight clock input n =
      (s.insertProblem (clock n) input.title input.descriptionMd input.difficulty
        input.timeLimitMs input.memoryLimitMb).bind fun r =>
        (r.2.addTags weight r.1 input.tags).bind fun t =>
          (t.addTestcases clock r.1 input.testcases (n + 1 + 2 * input.tags.length)).bind
            fun u => some (r.1, u) := rfl
  have hinsert := insertProblem_isSome_iff (clock n) input.title input.descriptionMd
    input.difficulty hroom.problem hchecked.timeLimitMs hchecked.memoryLimitMb
  rw [fitVarchar_isSome_iff hchecked.title_length] at hinsert
  rw [hbind]
  cases hs : s.insertProblem (clock n) input.title input.descriptionMd input.difficulty
    input.timeLimitMs input.memoryLimitMb with
  | none =>
    rw [hs] at hinsert
    constructor
    · intro h
      cases h
    · intro hfits
      cases hinsert.mpr ⟨hfits.title, hfits.descriptionMd⟩
  | some r =>
    obtain ⟨problemId, s₁⟩ := r
    obtain ⟨htitle, htext⟩ := hinsert.mp (by rw [hs]; rfl)
    obtain ⟨hproblem, hfree, hnextTag, hnextCase⟩ := insertProblem_new h hs
    have hbind : ∀ o : Option Store, (o.bind fun u => some (problemId, u)).isSome = o.isSome := by
      rintro (_ | u) <;> rfl
    rw [Option.bind_some, ← Option.bind_assoc, hbind, addParts_isSome_iff (f := fun t => t)
      (fun t => ⟨rfl, rfl⟩) (h.insertProblem hs) hproblem hfree (by rw [hnextTag]; exact hroom.tags)
      (by rw [hnextCase]; exact hroom.testcases)]
    constructor
    · rintro ⟨hall, hdistinct, hcases⟩
      exact ⟨htitle, htext, hall, hdistinct, hcases⟩
    · intro hfits
      exact ⟨hfits.tags, hfits.distinct, hfits.testcases⟩

/-! ## After storing and changing -/

/-- The testcases get ids that count up. -/
theorem addTestcases_ids {cases : List TestCaseInput} {n : Nat}
    (h : s.addTestcases clock problemId cases n = some s') :
    s'.next.problems = s.next.problems ∧ ∃ rows, s'.rows.testcases = s.rows.testcases ++ rows ∧
      rows.map TestcaseRow.id = List.range' s.next.testcases cases.length := by
  induction cases generalizing s n with
  | nil =>
    cases h
    exact ⟨rfl, [], (List.append_nil _).symm, rfl⟩
  | cons c cases ih =>
    obtain ⟨t, hinsert, hrest⟩ := Option.bind_eq_some_iff.mp h
    obtain ⟨hnext, rows, hrows, hids⟩ := ih hrest
    obtain ⟨_, _, _, _, -, -, rfl⟩ := insertTestcase_eq_some_iff.mp hinsert
    dsimp only at hrows hids
    rw [List.append_assoc] at hrows
    refine ⟨hnext, _, hrows, ?_⟩
    rw [List.singleton_append, List.map_cons, hids]
    rfl

/-- A problem takes the next id, and its testcases get ids that count up. -/
theorem addProblem_ids {input : ProblemInput} {n id : Nat}
    (h : s.addProblem weight clock input n = some (id, s')) :
    id = s.next.problems ∧ s'.next.problems = s.next.problems + 1 ∧
      ∃ rows, s'.rows.testcases = s.rows.testcases ++ rows ∧
        rows.map TestcaseRow.id = List.range' s.next.testcases input.testcases.length := by
  obtain ⟨⟨id', t⟩, hinsert, hrest⟩ := Option.bind_eq_some_iff.mp h
  obtain ⟨u, htags, hrest⟩ := Option.bind_eq_some_iff.mp hrest
  obtain ⟨v, hcases, hdone⟩ := Option.bind_eq_some_iff.mp hrest
  cases hdone
  obtain ⟨hproblems, rows, hrows, hids⟩ := addTestcases_ids hcases
  obtain ⟨-, htestcases, -, -⟩ := addTags_spec htags
  rw [(addTags_next htags).1] at hproblems
  rw [(addTags_next htags).2] at hids
  rw [htestcases] at hrows
  obtain ⟨_, _, _, _, -, hid, rfl⟩ := insertProblem_eq_some_iff.mp hinsert
  exact ⟨hid.symm, hproblems, rows, hrows, hids⟩

/-- All testcases of a problem. -/
theorem schema_addTestcases {cases : List TestCaseInput} {n : Nat} (h : Schema weight s)
    (hs : s.addTestcases clock problemId cases n = some s') : Schema weight s' := by
  induction cases generalizing s n with
  | nil =>
    cases hs
    exact h
  | cons c cases ih =>
    obtain ⟨t, hinsert, hrest⟩ := Option.bind_eq_some_iff.mp hs
    exact ih (h.insertTestcase hinsert) hrest

/-- All tags of a problem. -/
theorem schema_addTags {names : List Bytes} (h : Schema weight s)
    (hs : s.addTags weight problemId names = some s') : Schema weight s' := by
  induction names generalizing s with
  | nil =>
    cases hs
    exact h
  | cons name names ih =>
    obtain ⟨⟨tagId, t⟩, hup, hrest⟩ := Option.bind_eq_some_iff.mp hs
    obtain ⟨u, hlink, hnames⟩ := Option.bind_eq_some_iff.mp hrest
    exact ih ((h.upsertTag hup).linkTag hlink) hnames

/-- **Storing a problem** keeps the schema. -/
theorem schema_addProblem {input : ProblemInput} {n id : Nat} (h : Schema weight s)
    (hs : s.addProblem weight clock input n = some (id, s')) : Schema weight s' := by
  obtain ⟨⟨id', t⟩, hinsert, hrest⟩ := Option.bind_eq_some_iff.mp hs
  obtain ⟨u, htags, hrest⟩ := Option.bind_eq_some_iff.mp hrest
  obtain ⟨v, hcases, hdone⟩ := Option.bind_eq_some_iff.mp hrest
  cases hdone
  exact schema_addTestcases (schema_addTags (h.insertProblem hinsert) htags) hcases

/-- An update changes no key. -/
theorem schema_updateProblem {input : ProblemInput} {now : Nat} {b : Bank} (h : Schema weight s)
    (hs : s.rows.updateProblem now problemId input.title input.descriptionMd input.difficulty
      input.timeLimitMs input.memoryLimitMb = some b) :
    Schema weight { s with rows := b } ∧ b.testcases = s.rows.testcases := by
  unfold Bank.updateProblem at hs
  split at hs
  · obtain ⟨title, -, hs⟩ := Option.bind_eq_some_iff.mp hs
    obtain ⟨text, -, hs⟩ := Option.bind_eq_some_iff.mp hs
    obtain ⟨-, -, hs⟩ := Option.bind_eq_some_iff.mp hs
    cases hs
    refine ⟨h.changeProblems ?_, rfl⟩
    rw [List.map_map]
    refine List.map_congr_left fun p _ => ?_
    show (if p.id ≠ problemId then p else _).id = p.id
    split
    · rfl
    · split <;> rfl
  · cases hs
    exact ⟨h, rfl⟩

/-- **Changing a problem** keeps the schema, and gives the testcases ids that count up. -/
theorem schema_replaceProblem {input : ProblemInput} {n : Nat} (h : Schema weight s)
    (hs : s.replaceProblem weight clock problemId input n = some s') :
    Schema weight s' ∧
      ∃ rows, s'.rows.testcases = (s.rows.deleteTestcases problemId).testcases ++ rows ∧
        rows.map TestcaseRow.id = List.range' s.next.testcases input.testcases.length := by
  obtain ⟨b, hupdate, hrest⟩ := Option.bind_eq_some_iff.mp hs
  obtain ⟨t, htags, hcases⟩ := Option.bind_eq_some_iff.mp hrest
  obtain ⟨hupdated, hsame⟩ := schema_updateProblem h hupdate
  have hkept := schema_addTags (hupdated.deleteProblemTags problemId) htags
  obtain ⟨-, rows, hrows, hids⟩ := addTestcases_ids hcases
  obtain ⟨-, htestcases, -, -⟩ := addTags_spec htags
  refine ⟨schema_addTestcases (hkept.deleteTestcases problemId) hcases, rows, ?_, ?_⟩
  · rw [hrows]
    show t.rows.testcases.filter _ ++ rows = _
    rw [htestcases]
    show b.testcases.filter _ ++ rows = _
    rw [hsame]
    rfl
  · rw [hids]
    exact congrArg (List.range' · _) (addTags_next htags).2

end Store

end MiniOj.Db
