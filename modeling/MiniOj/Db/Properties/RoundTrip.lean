import MiniOj.Db.Properties.Contents
import MiniOj.Db.Spec.Schema
import MiniOj.Infra.Keyed

/-!
# What was stored is what is read

A problem that `createProblem` or `updateProblem` has stored is read back by `getFullProblem`,
with the testcases in the order given and one tag for each name given, and every other problem
is read as before.

* `Attached.tagsOf`, `Attached.testcasesOf` — the rows of the problem stored
* `Attached.tagsOf_other`, `Attached.testcasesOf_other` — those of another problem
* `getFullProblem_after` — what is read after storing, up to what the columns cut off
* `loses_space` — a space too many at the end of a title
-/

namespace MiniOj.Db

open Infra Admin

variable {weight : Bytes → Bytes} {b b' kept : Bank} {problemId other : Nat} {input : ProblemInput}

/-! ## Keys -/

/-- Rows for one problem on top of rows for others. -/
theorem filter_top {α : Type} {f : α → Nat} {old new : List α} (hold : ∀ a ∈ old, f a ≠ problemId)
    (hnew : ∀ a ∈ new, f a = problemId) :
    ((old ++ new).filter fun a => f a == problemId) = new := by
  rw [List.filter_append, List.filter_eq_nil_iff.mpr, List.nil_append, List.filter_eq_self.mpr]
  · intro a ha
    exact beq_iff_eq.mpr (hnew a ha)
  · intro a ha heq
    exact hold a ha (eq_of_beq heq)

/-- New rows of one problem are none of another. -/
theorem filter_other {α : Type} {f : α → Nat} {old new : List α}
    (hnew : ∀ a ∈ new, f a = problemId) (hne : other ≠ problemId) :
    ((old ++ new).filter fun a => f a == other) = old.filter fun a => f a == other := by
  have hnone : (new.filter fun a => f a == other) = [] := List.filter_eq_nil_iff.mpr
    fun a ha heq => hne ((eq_of_beq heq).symm.trans (hnew a ha))
  rw [List.filter_append, hnone, List.append_nil]

/-- The rows of another problem are not among those deleted. -/
theorem filter_deleted {α : Type} {f : α → Nat} {l : List α} (hne : other ≠ problemId) :
    ((l.filter fun a => f a != problemId).filter fun a => f a == other) =
      l.filter fun a => f a == other := by
  rw [List.filter_filter]
  refine List.filter_congr fun a _ => ?_
  by_cases heq : f a = other
  · simp [heq, hne]
  · simp [heq]

/-! ## The rows of the problem -/

/-- The tag has the name, up to the collation. -/
def IsTag (weight : Bytes → Bytes) (tags : List TagRow) (name : Bytes) (t : TagRow) : Prop :=
  t ∈ tags ∧ ∃ kept, fitVarchar 64 name = some kept ∧ weight t.name = weight kept

/-- **The links of a problem lead to one tag for each name.** -/
theorem links_tags {tags : List TagRow} {names : List Bytes} {links : List ProblemTagRow}
    (hids : (tags.map TagRow.id).Nodup)
    (h : List.Forall₂ (IsLink weight tags problemId) names links) :
    let rows := links.flatMap fun l => tags.filter fun t => t.id == l.tagId
    rows.map TagRow.id = links.map ProblemTagRow.tagId ∧
      List.Forall₂ (IsTag weight tags) names rows := by
  induction h with
  | nil => exact ⟨rfl, .nil⟩
  | cons hlink _ ih =>
    obtain ⟨-, t, ht, hid, hname⟩ := hlink
    dsimp only at ih ⊢
    rw [List.flatMap_cons, ← hid, filter_key hids ht]
    refine ⟨?_, .cons ⟨ht, hname⟩ ih.2⟩
    rw [List.singleton_append, List.map_cons, ih.1, List.map_cons, hid]

/-- New links are of this problem. -/
theorem Attached.mem_links {links : List ProblemTagRow} {tags : List TagRow} {names : List Bytes}
    (h : List.Forall₂ (IsLink weight tags problemId) names links) :
    ∀ l ∈ links, l.problemId = problemId := by
  induction h with
  | nil => exact fun l hl => nomatch hl
  | cons hlink _ ih =>
    intro l hl
    rcases List.mem_cons.mp hl with rfl | hl
    · exact hlink.problemId
    · exact ih l hl

/-- New testcases are of this problem. -/
theorem Attached.mem_cases {rows : List TestcaseRow} {cases : List TestCaseInput}
    (h : List.Forall₂ (IsCase problemId) cases rows) : ∀ c ∈ rows, c.problemId = problemId := by
  induction h with
  | nil => exact fun c hc => nomatch hc
  | cons hcase _ ih =>
    intro c hc
    rcases List.mem_cons.mp hc with rfl | hc
    · exact hcase.problemId
    · exact ih c hc

/-- **The tags of the problem stored**: one for each name given. -/
theorem Attached.tagsOf (h : Attached weight kept b problemId input)
    (hids : (b.tags.map TagRow.id).Nodup) (hlinks : b.problemTags.Nodup)
    (hkept : ∀ l ∈ kept.problemTags, l.problemId ≠ problemId) :
    ∃ rows, (b.tagsOf weight problemId).Perm rows ∧ (rows.map TagRow.id).Nodup ∧
      List.Forall₂ (IsTag weight b.tags) input.tags rows := by
  obtain ⟨links, heq, hall⟩ := h.problemTags
  have hmem := Attached.mem_links hall
  obtain ⟨hkeys, hrows⟩ := links_tags hids hall
  refine ⟨_, ?_, ?_, hrows⟩
  · unfold Bank.tagsOf
    rw [heq, filter_top hkept hmem]
    exact List.perm_insertionSort _ _
  · rw [hkeys]
    rw [heq] at hlinks
    refine (List.nodup_append.mp hlinks).2.1.map_on ?_
    intro l hl l' hl' htag
    have hproblem := (hmem l hl).trans (hmem l' hl').symm
    cases l
    cases l'
    cases htag
    cases hproblem
    rfl

/-- **The testcases of the problem stored**, in the order given. -/
theorem Attached.testcasesOf (h : Attached weight kept b problemId input)
    (hkept : ∀ c ∈ kept.testcases, c.problemId ≠ problemId) {start : Nat}
    (hids : ∃ rows, b.testcases = kept.testcases ++ rows ∧
      rows.map TestcaseRow.id = List.range' start input.testcases.length) :
    List.Forall₂ (IsCase problemId) input.testcases (b.testcasesOf problemId) := by
  obtain ⟨rows, heq, hall⟩ := h.testcases
  obtain ⟨rows', heq', hids⟩ := hids
  cases List.append_cancel_left (heq'.symm.trans heq)
  have hsorted : rows.Pairwise fun c d => c.id ≤ d.id := by
    rw [← List.pairwise_map (f := TestcaseRow.id), hids]
    exact List.pairwise_le_range'
  unfold Bank.testcasesOf
  rw [heq, filter_top hkept (Attached.mem_cases hall), hsorted.insertionSort_eq]
  exact hall

/-! ## The rows of another problem -/

/-- Other problems keep their tags. -/
theorem Attached.tagsOf_other (h : Attached weight kept b problemId input)
    (hids : (b.tags.map TagRow.id).Nodup)
    (hlinked : ∀ l ∈ kept.problemTags, ∃ t ∈ kept.tags, t.id = l.tagId)
    (hne : other ≠ problemId) : b.tagsOf weight other = kept.tagsOf weight other := by
  obtain ⟨links, heq, hall⟩ := h.problemTags
  unfold Bank.tagsOf
  rw [heq, filter_other (Attached.mem_links hall) hne]
  refine congrArg _ (List.flatMap_congr fun l hl => ?_)
  -- the tag of an old link is an old one, and no new one has its id
  obtain ⟨t, ht, hid⟩ := hlinked l (List.mem_filter.mp hl).1
  have hids' : (kept.tags.map TagRow.id).Nodup := hids.sublist (h.tags.sublist.map _)
  rw [← hid, filter_key hids (h.tags.subset ht), filter_key hids' ht]

/-- Other problems keep their testcases. -/
theorem Attached.testcasesOf_other (h : Attached weight kept b problemId input)
    (hne : other ≠ problemId) : b.testcasesOf other = kept.testcasesOf other := by
  obtain ⟨rows, heq, hall⟩ := h.testcases
  unfold Bank.testcasesOf
  rw [heq, filter_other (Attached.mem_cases hall) hne]

/-! ## The row of `problems` -/

/-- The last row is found by its id, and the others as before. -/
theorem find_push {ps : List ProblemRow} {p : ProblemRow} (hnew : ∀ q ∈ ps, q.id < p.id) :
    ((ps ++ [p]).find? fun q => q.id == p.id) = some p ∧
      ∀ other ≠ p.id,
        ((ps ++ [p]).find? fun q => q.id == other) = ps.find? fun q => q.id == other := by
  constructor
  · have hnone : (ps.find? fun q => q.id == p.id) = none := List.find?_eq_none.mpr
      fun q hq heq => Nat.ne_of_lt (hnew q hq) (eq_of_beq heq)
    simp [hnone]
  · intro other hne
    have hnone : ([p].find? fun q => q.id == other) = none := by simp [Ne.symm hne]
    rw [List.find?_append, hnone, Option.or_none]

/-- One row has been changed. -/
theorem find_changed {ps ps' : List ProblemRow}
    (h : List.Forall₂ (fun p p' =>
      if p.id = problemId then p'.id = problemId ∧ IsRow input p' else p' = p) ps ps') :
    ((∃ p ∈ ps, p.id = problemId) →
        ∃ p', (ps'.find? fun p => p.id == problemId) = some p' ∧ IsRow input p') ∧
      ∀ other ≠ problemId,
        (ps'.find? fun p => p.id == other) = ps.find? fun p => p.id == other := by
  induction h with
  | nil => exact ⟨fun ⟨p, hp, _⟩ => (nomatch hp), fun _ _ => rfl⟩
  | @cons p p' ps ps' hrow _ ih =>
    obtain ⟨hthis, hother⟩ := ih
    by_cases hid : p.id = problemId
    · rw [if_pos hid] at hrow
      refine ⟨fun _ => ⟨p', ?_, hrow.2⟩, fun other hne => ?_⟩
      · simp [hrow.1]
      · simp [hrow.1, hid, Ne.symm hne, hother other hne]
    · rw [if_neg hid] at hrow
      subst hrow
      refine ⟨?_, fun other hne => ?_⟩
      · rintro ⟨q, hq, hqid⟩
        rcases List.mem_cons.mp hq with rfl | hq
        · exact absurd hqid hid
        · obtain ⟨r, hr, hrow⟩ := hthis ⟨q, hq, hqid⟩
          exact ⟨r, by simp [hid, hr], hrow⟩
      · rw [List.find?_cons, List.find?_cons, hother other hne]

/-! ## The complete content -/

/-- What is read is the problem as it was given. What the columns make of a text is `varchar`
and `text`. -/
structure Returned (varchar : Nat → Bytes → Option Bytes) (text : Bytes → Option Bytes)
    (weight : Bytes → Bytes) (b : Bank) (problemId : Nat) (input : ProblemInput)
    (d : AdminProblemDetail) : Prop where
  id : d.id = problemId
  title : varchar 255 input.title = some d.title
  descriptionMd : text input.descriptionMd = some d.descriptionMd
  difficulty : d.difficulty = input.difficulty
  timeLimitMs : d.timeLimitMs = input.timeLimitMs
  memoryLimitMb : d.memoryLimitMb = input.memoryLimitMb
  testcases : List.Forall₂ (fun c c' =>
    text c.input = some c'.input ∧ text c.expectedOutput = some c'.expectedOutput ∧
      c'.isSample = c.isSample ∧ c'.score = c.score) input.testcases d.testcases
  /-- one tag for each name, and no tag twice -/
  tags : ∃ tags, d.tags.Perm tags ∧ (tags.map Tag.id).Nodup ∧
    List.Forall₂ (fun name t => ⟨t.id, t.name⟩ ∈ b.tags ∧
      ∃ kept, varchar 64 name = some kept ∧ weight t.name = weight kept) input.tags tags

/-- The problem is there as it was given, and the others are as they were. -/
structure Kept (weight : Bytes → Bytes) (b b' : Bank) (problemId : Nat) (input : ProblemInput) :
    Prop where
  detail : ∃ d, b'.detail weight problemId = some d ∧
    Returned fitVarchar fitText weight b' problemId input d
  others : ∀ other ≠ problemId, b'.detail weight other = b.detail weight other

/-- **What was attached is what is read.** -/
theorem Attached.returned (h : Attached weight kept b problemId input)
    (hids : (b.tags.map TagRow.id).Nodup) (hlinks : b.problemTags.Nodup)
    (hfreeTags : ∀ l ∈ kept.problemTags, l.problemId ≠ problemId)
    (hfreeCases : ∀ c ∈ kept.testcases, c.problemId ≠ problemId) {start : Nat}
    (hcases : ∃ rows, b.testcases = kept.testcases ++ rows ∧
      rows.map TestcaseRow.id = List.range' start input.testcases.length)
    (hproblem : ∃ p, b.problem? problemId = some p ∧ IsRow input p) :
    ∃ d, b.detail weight problemId = some d ∧
      Returned fitVarchar fitText weight b problemId input d := by
  obtain ⟨p, hp, hrow⟩ := hproblem
  have hid : p.id = problemId := by
    have hfound := List.find?_some hp
    exact eq_of_beq hfound
  obtain ⟨tags, hperm, hdistinct, htags⟩ := h.tagsOf hids hlinks hfreeTags
  have htestcases := h.testcasesOf hfreeCases hcases
  refine ⟨_, by rw [Bank.detail, hp, Option.map_some, hid], hid, hrow.title, hrow.descriptionMd,
    hrow.difficulty, hrow.timeLimitMs, hrow.memoryLimitMb, ?_, ?_⟩
  · refine List.forall₂_map_right_iff.mpr (htestcases.imp fun c row hcase => ?_)
    exact ⟨hcase.input, hcase.expectedOutput, hcase.isSample, hcase.score⟩
  · refine ⟨tags.map fun t : TagRow => (⟨t.id, t.name⟩ : Tag), hperm.map _, ?_, ?_⟩
    · rw [List.map_map]
      exact hdistinct
    · exact List.forall₂_map_right_iff.mpr htags

/-- A problem is its row, its tags and its testcases. -/
theorem detail_congr (hproblem : b'.problem? other = b.problem? other)
    (htags : b'.tagsOf weight other = b.tagsOf weight other)
    (hcases : b'.testcasesOf other = b.testcasesOf other) :
    b'.detail weight other = b.detail weight other := by
  unfold Bank.detail
  rw [hproblem]
  cases hp : b.problem? other with
  | none => rfl
  | some p =>
    have hid : p.id = other := by
      have hfound := List.find?_some hp
      exact eq_of_beq hfound
    rw [Option.map_some, Option.map_some, hid, htags, hcases]

namespace Store

variable {clock : Nat → Nat} {s s' : Store} {n : Nat}

/-- A new problem, with the others as they were. -/
theorem addProblem_kept (h : Schema weight s)
    (hs : s.addProblem weight clock input n = some (problemId, s')) :
    Kept weight s.rows s'.rows problemId input := by
  obtain ⟨⟨p, hid, hrow, hproblems⟩, hattached⟩ := addProblem_spec hs
  obtain ⟨hnext, -, hcases⟩ := addProblem_ids hs
  have h' := schema_addProblem h hs
  have hnew : ∀ q ∈ s.rows.problems, q.id < p.id := by
    rw [hid, hnext]
    exact h.nextProblem
  obtain ⟨hfind, hothers⟩ := find_push hnew
  -- no row refers to the new problem yet
  have hfree : ∀ id, (∃ q ∈ s.rows.problems, q.id = id) → id ≠ problemId := by
    rintro id ⟨q, hq, rfl⟩
    rw [← hid]
    exact Nat.ne_of_lt (hnew q hq)
  refine ⟨hattached.returned h'.tagIds h'.problemTags (fun l hl => hfree _ (h.linkedProblem l hl))
    (fun c hc => hfree _ (h.testcaseProblem c hc)) hcases ⟨p, ?_, hrow⟩, fun other hne => ?_⟩
  · rw [Bank.problem?, hproblems, ← hid]
    exact hfind
  · refine detail_congr ?_ (hattached.tagsOf_other h'.tagIds h.linkedTag hne)
      (hattached.testcasesOf_other hne)
    rw [Bank.problem?, hproblems]
    exact hothers other (hid ▸ hne)

/-- A problem that is replaced, with the others as they were. -/
theorem replaceProblem_kept (h : Schema weight s)
    (hin : (s.rows.problems.any fun p => p.id == problemId) = true)
    (hs : s.replaceProblem weight clock problemId input n = some s') :
    Kept weight s.rows s'.rows problemId input := by
  obtain ⟨hexisted, hproblems, hattached⟩ := replaceProblem_spec hin hs
  obtain ⟨h', hcases⟩ := schema_replaceProblem h hs
  obtain ⟨hthis, hothers⟩ := find_changed hproblems
  refine ⟨hattached.returned h'.tagIds h'.problemTags ?_ ?_ hcases (hthis hexisted),
    fun other hne => detail_congr (hothers other hne) ?_ ?_⟩
  · exact fun l hl => bne_iff_ne.mp (List.mem_filter.mp hl).2
  · exact fun c hc => bne_iff_ne.mp (List.mem_filter.mp hc).2
  · rw [hattached.tagsOf_other h'.tagIds
      (fun l hl => h.linkedTag l (List.mem_filter.mp hl).1) hne]
    show List.insertionSort _ (List.flatMap _ (List.filter _ (List.filter _ _))) = _
    rw [filter_deleted hne]
    rfl
  · rw [hattached.testcasesOf_other hne]
    show List.insertionSort _ (List.filter _ (List.filter _ _)) = _
    rw [filter_deleted hne]
    rfl

end Store

/-! ## Texts that fit -/

/-- No text is longer than its column. -/
structure WithinColumns (input : ProblemInput) : Prop where
  title : ∀ n, utf8Length input.title = some n → n ≤ 255
  descriptionMd : input.descriptionMd.length ≤ 65535
  tags : ∀ name ∈ input.tags, ∀ n, utf8Length name = some n → n ≤ 64
  testcases : ∀ c ∈ input.testcases, c.input.length ≤ 65535 ∧ c.expectedOutput.length ≤ 65535

/-- A text that is not too long is kept as it is. -/
theorem fitText_short {value kept : Bytes} (hshort : value.length ≤ 65535)
    (h : fitText value = some kept) : value = kept := by
  obtain ⟨n, hn, h⟩ := Option.bind_eq_some_iff.mp h
  simp only [List.drop_of_length_le hshort, List.all_nil, if_true, List.take_of_length_le hshort,
    Option.some.injEq] at h
  exact h

theorem forall₂_imp_mem {α β : Type} {R S : α → β → Prop} {as : List α} {bs : List β}
    (h : List.Forall₂ R as bs) (himp : ∀ a ∈ as, ∀ b, R a b → S a b) : List.Forall₂ S as bs := by
  induction h with
  | nil => exact .nil
  | cons hab _ ih =>
    exact .cons (himp _ List.mem_cons_self _ hab)
      (ih fun a ha => himp a (List.mem_cons_of_mem _ ha))

/-- Texts that fit their columns are read as they were given. -/
theorem Returned.exact {d : AdminProblemDetail}
    (h : Returned fitVarchar fitText weight b problemId input d) (hfit : WithinColumns input) :
    Returned (fun _ => some) some weight b problemId input d := by
  obtain ⟨tags, hperm, hdistinct, htags⟩ := h.tags
  refine ⟨h.id, congrArg some (Store.fitVarchar_short hfit.title h.title),
    congrArg some (fitText_short hfit.descriptionMd h.descriptionMd), h.difficulty, h.timeLimitMs,
    h.memoryLimitMb, forall₂_imp_mem h.testcases ?_,
    tags, hperm, hdistinct, forall₂_imp_mem htags ?_⟩
  · rintro c hc c' ⟨hinput, houtput, hsample, hscore⟩
    obtain ⟨hin, hout⟩ := hfit.testcases c hc
    exact ⟨congrArg some (fitText_short hin hinput), congrArg some (fitText_short hout houtput),
      hsample, hscore⟩
  · rintro name hname t ⟨ht, kept, hkept, hweight⟩
    cases Store.fitVarchar_short (hfit.tags name hname) hkept
    exact ⟨ht, name, rfl, hweight⟩

/-! ## What is read after storing -/

/-- Every `getFullProblem` of the id returns this, or throws because a call of it has failed. -/
def Reads (weight : Bytes → Bytes) (w : World) (problemId : Nat) (r : Option AdminProblemDetail) :
    Prop :=
  ∀ m : Mysql, m.weight = weight →
    ((getFullProblem problemId).run m.exec w).1 = .ok r ∨
      (∃ e, ((getFullProblem problemId).run m.exec w).1 = .error e) ∧
        m.FailsBetween w.calls ((getFullProblem problemId).run m.exec w).2.calls

variable {varchar : Nat → Bytes → Option Bytes} {text : Bytes → Option Bytes} {m : Mysql}
  {w w' : World}

/-- What a reader is told, or that a call of its own has failed. -/
theorem reads_detail (hw : w.work = none) (weight : Bytes → Bytes) (problemId : Nat) :
    Reads weight w problemId (w.bank.detail weight problemId) := by
  rintro m rfl
  have hview : w.view = w.bank := view_of_none hw
  obtain ⟨-, ⟨r, hr, hpost⟩ | herror⟩ := reports_getFullProblem (m := m) problemId w
  · rw [hr, hpost, hview]
    exact .inl rfl
  · exact .inr herror

/-- What the problem is, once it is created. -/
theorem createProblem_kept (hw : w.work = none) (h : Schema m.weight ⟨w.bank, w.next⟩)
    (hrun : (createProblem input).run m.exec w = (.ok problemId, w')) :
    Kept m.weight w.bank w'.bank problemId input := by
  obtain ⟨n, s, hs, hbank, -⟩ := addProblem_of_createProblem hw hrun
  rw [← hbank]
  exact Store.addProblem_kept h hs

/-- What it is after a change, and the tags there were are still there. -/
theorem updateProblem_kept (hw : w.work = none) (h : Schema m.weight ⟨w.bank, w.next⟩)
    (hrun : (updateProblem problemId input).run m.exec w = (.ok true, w')) :
    Kept m.weight w.bank w'.bank problemId input ∧ w.bank.tags <+: w'.bank.tags ∧
      (w'.bank.tags.map fun t => m.weight t.name).Nodup := by
  obtain ⟨⟨hin, n, s, hs, hbank⟩, -⟩ := replaced_of_updateProblem hw hrun
  rw [← hbank]
  refine ⟨Store.replaceProblem_kept h hin hs, ?_, (Store.schema_replaceProblem h hs).1.tagNames⟩
  exact (Store.replaceProblem_spec hin hs).attached.tags

/-- The problem is read as it was given, and every other one as before. -/
structure RoundTrip (varchar : Nat → Bytes → Option Bytes) (text : Bytes → Option Bytes)
    (weight : Bytes → Bytes) (w w' : World) (problemId : Nat) (input : ProblemInput) : Prop where
  stored : ∃ d, Reads weight w' problemId (some d) ∧
    Returned varchar text weight w'.bank problemId input d
  others : ∀ other ≠ problemId, ∃ r, Reads weight w other r ∧ Reads weight w' other r

/-- What has been kept in the tables is read back. -/
theorem Kept.roundTrip (h : Kept weight w.bank w'.bank problemId input) (hw : w.work = none)
    (hw' : w'.work = none) : RoundTrip fitVarchar fitText weight w w' problemId input := by
  obtain ⟨d, hd, hreturned⟩ := h.detail
  refine ⟨⟨d, ?_, hreturned⟩, fun other hne => ⟨_, reads_detail hw weight other, ?_⟩⟩
  · rw [← hd]
    exact reads_detail hw' weight problemId
  · rw [← h.others other hne]
    exact reads_detail hw' weight other

/-- Texts within their columns come back word for word. -/
theorem RoundTrip.exact (h : RoundTrip fitVarchar fitText weight w w' problemId input)
    (hfit : WithinColumns input) : RoundTrip (fun _ => some) some weight w w' problemId input := by
  obtain ⟨d, hd, hreturned⟩ := h.stored
  exact ⟨⟨d, hd, hreturned.exact hfit⟩, h.others⟩

/-- **A problem that is created is read back.** -/
theorem createProblem_roundTrip (hw : w.work = none) (h : Schema m.weight ⟨w.bank, w.next⟩)
    (hrun : (createProblem input).run m.exec w = (.ok problemId, w')) :
    RoundTrip fitVarchar fitText m.weight w w' problemId input := by
  obtain ⟨n, s, -, -, hw'⟩ := addProblem_of_createProblem hw hrun
  exact (createProblem_kept hw h hrun).roundTrip hw hw'

/-- **A problem that is updated is read back.** -/
theorem updateProblem_roundTrip (hw : w.work = none) (h : Schema m.weight ⟨w.bank, w.next⟩)
    (hrun : (updateProblem problemId input).run m.exec w = (.ok true, w')) :
    RoundTrip fitVarchar fitText m.weight w w' problemId input := by
  obtain ⟨-, hw'⟩ := replaced_of_updateProblem hw hrun
  exact (updateProblem_kept hw h hrun).1.roundTrip hw hw'

/-- What is stored is what is read, in a database that keeps the schema. -/
def StoredIsRead (varchar : Nat → Bytes → Option Bytes) (text : Bytes → Option Bytes) (m : Mysql)
    (w : World) (input : ProblemInput) : Prop :=
  (∀ problemId w', (createProblem input).run m.exec w = (.ok problemId, w') →
    RoundTrip varchar text m.weight w w' problemId input) ∧
  ∀ problemId w', (updateProblem problemId input).run m.exec w = (.ok true, w') →
    RoundTrip varchar text m.weight w w' problemId input

/-- **What was stored is what is read**, as the columns keep it, and just as it was given when
no text is longer than its column. -/
theorem getFullProblem_after (m : Mysql) (w : World) (input : ProblemInput) (hw : w.work = none)
    (h : Schema m.weight ⟨w.bank, w.next⟩) :
    StoredIsRead fitVarchar fitText m w input ∧
      (WithinColumns input → StoredIsRead (fun _ => some) some m w input) :=
  ⟨⟨fun _ _ => createProblem_roundTrip hw h, fun _ _ => updateProblem_roundTrip hw h⟩,
    fun hfit => ⟨fun _ _ hrun => (createProblem_roundTrip hw h hrun).exact hfit,
      fun _ _ hrun => (updateProblem_roundTrip hw h hrun).exact hfit⟩⟩

/-- A problem with a tag and a testcase, stored in an empty bank. -/
theorem getFullProblem_after_tagged :
    RoundTrip (fun _ => some) some id (.resting .empty ⟨1, 1, 1⟩)
      ((createProblem taggedProblem).run Mysql.healthy.exec (.resting .empty ⟨1, 1, 1⟩)).2
      1 taggedProblem :=
  ((getFullProblem_after .healthy (.resting .empty ⟨1, 1, 1⟩) taggedProblem rfl
    (schema_empty id)).2 ⟨by decide, by decide, by decide, by decide⟩).1 1 _ rfl

/-- A problem with one tag, of 64 characters and a space. -/
def longTag : ProblemInput where
  title := [97]
  descriptionMd := []
  tags := [List.replicate 64 97 ++ [32]]
  testcases := [{ input := [49], expectedOutput := [50] }]

/-- The one tag of the problem, as it is read. -/
theorem longTag_name {varchar : Nat → Bytes → Option Bytes} {b : Bank} {problemId : Nat}
    {d : AdminProblemDetail} (h : Returned varchar text id b problemId longTag d) :
    ∃ t, d.tags = [t] ∧ varchar 64 (List.replicate 64 97 ++ [32]) = some t.name := by
  obtain ⟨tags, hperm, -, hall⟩ := h.tags
  cases hall with
  | cons htag hrest =>
    cases hrest
    obtain ⟨-, kept, hkept, hname⟩ := htag
    exact ⟨_, List.perm_singleton.mp hperm, by rw [hkept]; exact congrArg some hname.symm⟩

/-- The space is cut off. -/
theorem loses_space : ¬ ∀ (m : Mysql) (w : World) (input : ProblemInput), w.work = none →
    Schema m.weight ⟨w.bank, w.next⟩ → StoredIsRead (fun _ => some) some m w input := by
  intro h
  have hschema := schema_empty Mysql.healthy.weight
  obtain ⟨⟨id, s⟩, hs⟩ : ∃ r, Mysql.healthy.stored 0 ⟨.empty, ⟨1, 1, 1⟩⟩ longTag = some r :=
    Option.isSome_iff_exists.mp (by decide +kernel)
  have hrun := createProblem_ok (w := .resting .empty ⟨1, 1, 1⟩) rfl hs
  obtain ⟨d, hd, hreturned⟩ := ((h _ _ longTag rfl hschema).1 id _ hrun).stored
  obtain ⟨d', hd', hreturned'⟩ := (createProblem_roundTrip rfl hschema hrun).stored
  have hsame : d = d' := by
    rcases hd .healthy rfl with hok | ⟨-, n, -, -, hn⟩
    · rcases hd' .healthy rfl with hok' | ⟨-, n, -, -, hn⟩
      · rw [hok] at hok'
        cases hok'
        rfl
      · exact absurd rfl hn
    · exact absurd rfl hn
  subst hsame
  obtain ⟨t, ht, hname⟩ := longTag_name hreturned
  obtain ⟨t', ht', hname'⟩ := longTag_name hreturned'
  rw [ht] at ht'
  cases ht'
  have hkept : fitVarchar 64 (List.replicate 64 97 ++ [32]) =
      some (List.replicate 64 97 ++ [32]) := hname'.trans hname.symm
  revert hkept
  decide +kernel

end MiniOj.Db
