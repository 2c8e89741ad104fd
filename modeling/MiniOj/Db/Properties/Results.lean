import MiniOj.Db.Results

/-!
# Result sets that are not freed

`mysql_free_result` stands behind the loop over the rows, and no destructor calls it. So a result
is freed when everything between has returned, and lost when something has thrown.

* `Meets` — what a program obtains and frees, and when it returns, with a rule for each construct
* `allFreed_withResult` — the result of the outer query is freed when the body returns
* `results_freed_iff` — when the four reading functions free all they have obtained
-/

namespace MiniOj.Db.Results

open Infra Program

variable {db : Database} {α β : Type} {n c c' : Nat} {h h' h'' : Handles}

/-! ## Obtained and freed -/

/-- Results are obtained under the numbers of the calls made, and only such are freed. -/
structure Extends (h h' : Handles) : Prop where
  calls : h.calls ≤ h'.calls
  obtained : ∃ news, h'.obtained = news ++ h.obtained
  freed : ∃ frees, h'.freed = frees ++ h.freed ∧ ∀ res ∈ frees, h.calls ≤ res

/-- Nothing has happened. -/
theorem Extends.refl (h : Handles) : Extends h h :=
  ⟨Nat.le_refl _, ⟨[], rfl⟩, [], rfl, fun _ hr => nomatch hr⟩

/-- One after another. -/
theorem Extends.trans (h₁ : Extends h h') (h₂ : Extends h' h'') : Extends h h'' := by
  obtain ⟨news, hnews⟩ := h₁.obtained
  obtain ⟨news', hnews'⟩ := h₂.obtained
  obtain ⟨frees, hfrees, hle⟩ := h₁.freed
  obtain ⟨frees', hfrees', hle'⟩ := h₂.freed
  refine ⟨h₁.calls.trans h₂.calls, ⟨news' ++ news, ?_⟩, frees' ++ frees, ?_, ?_⟩
  · rw [hnews', hnews, List.append_assoc]
  · rw [hfrees', hfrees, List.append_assoc]
  · intro res hres
    rcases List.mem_append.mp hres with hres | hres
    · exact h₁.calls.trans (hle' res hres)
    · exact hle res hres

/-- What has been obtained between the two has been freed once, too. -/
structure Balanced (h h' : Handles) : Prop where
  lists : ∃ news frees, h'.obtained = news ++ h.obtained ∧ h'.freed = frees ++ h.freed ∧
    frees.Perm news ∧ news.Nodup ∧ ∀ res ∈ news, h.calls ≤ res ∧ res < h'.calls
  calls : h.calls ≤ h'.calls

theorem Balanced.refl (h : Handles) : Balanced h h :=
  ⟨⟨[], [], rfl, rfl, .nil, .nil, fun _ hr => nomatch hr⟩, Nat.le_refl _⟩

/-- One after another, with nothing left over. -/
theorem Balanced.trans (h₁ : Balanced h h') (h₂ : Balanced h' h'') : Balanced h h'' := by
  obtain ⟨news, frees, hnews, hfrees, hperm, hnodup, hrange⟩ := h₁.lists
  obtain ⟨news', frees', hnews', hfrees', hperm', hnodup', hrange'⟩ := h₂.lists
  have hcalls := h₁.calls
  have hcalls' := h₂.calls
  refine ⟨⟨news' ++ news, frees' ++ frees, ?_, ?_, hperm'.append hperm, ?_, ?_⟩,
    hcalls.trans hcalls'⟩
  · rw [hnews', hnews, List.append_assoc]
  · rw [hfrees', hfrees, List.append_assoc]
  · refine List.nodup_append.mpr ⟨hnodup', hnodup, fun a ha b hb heq => ?_⟩
    have hlow := hrange' a ha
    have hhigh := hrange b hb
    omega
  · intro res hres
    rcases List.mem_append.mp hres with hres | hres
    · have := hrange' res hres
      omega
    · have := hrange res hres
      omega

/-! ## What a program does -/

/-- Whatever the program frees it has obtained. When its first call has number `n` it returns
exactly when `ok n`, having made `c` calls and freed all it has obtained. -/
structure Meets (db : Database) (p : Reading α) (c : Nat) (ok : Nat → Prop) : Prop where
  keeps : ∀ h, Extends h (p.run db.exec h).2
  returns : ∀ h, (∃ a, (p.run db.exec h).1 = .ok a) ↔ ok h.calls
  balanced : ∀ h, ok h.calls →
    Balanced h (p.run db.exec h).2 ∧ (p.run db.exec h).2.calls = h.calls + c

/-- A value calls nothing. -/
theorem Meets.ret (a : α) : Meets db (.ret a) 0 fun _ => True where
  keeps := Extends.refl
  returns _ := ⟨fun _ => trivial, fun _ => ⟨a, rfl⟩⟩
  balanced h _ := ⟨.refl h, rfl⟩

/-- The second program goes on where the first has stopped. -/
theorem Meets.bind {p : Reading α} {f : α → Reading β} {ok ok' : Nat → Prop}
    (hp : Meets db p c ok) (hf : ∀ a, Meets db (f a) c' ok') :
    Meets db (p >>= f) (c + c') fun n => ok n ∧ ok' (n + c) := by
  have hcases (h : Handles) :
      (¬ ok h.calls ∧ ∃ e, (p >>= f).run db.exec h = (.error e, (p.run db.exec h).2)) ∨
        (ok h.calls ∧ ∃ a, (p >>= f).run db.exec h = (f a).run db.exec (p.run db.exec h).2) := by
    have hreturns := hp.returns h
    rw [run_bind]
    cases hrun : p.run db.exec h with
    | mk r s =>
      rw [hrun] at hreturns
      cases r with
      | error e => exact .inl ⟨fun hok => (nomatch hreturns.mpr hok), e, rfl⟩
      | ok a => exact .inr ⟨hreturns.mp ⟨a, rfl⟩, a, rfl⟩
  constructor
  case keeps =>
    intro h
    rcases hcases h with ⟨-, e, hrun⟩ | ⟨-, a, hrun⟩
    · rw [hrun]
      exact hp.keeps h
    · rw [hrun]
      exact (hp.keeps h).trans ((hf a).keeps _)
  case returns =>
    intro h
    rcases hcases h with ⟨hnot, e, hrun⟩ | ⟨hok, a, hrun⟩
    · rw [hrun]
      constructor
      · rintro ⟨_, h⟩
        cases h
      · intro hok
        exact absurd hok.1 hnot
    · rw [hrun, (hf a).returns, (hp.balanced h hok).2]
      exact (and_iff_right hok).symm
  case balanced =>
    rintro h ⟨hok, hok'⟩
    obtain ⟨hbalanced, hcalls⟩ := hp.balanced h hok
    rcases hcases h with ⟨hnot, -⟩ | ⟨-, a, hrun⟩
    · exact absurd hok hnot
    · rw [← hcalls] at hok'
      obtain ⟨hbalanced', hcalls'⟩ := (hf a).balanced _ hok'
      rw [hrun]
      exact ⟨hbalanced.trans hbalanced', by omega⟩

/-- Conditions with the same meaning. -/
theorem Meets.of_iff {p : Reading α} {ok ok' : Nat → Prop} (hp : Meets db p c ok)
    (h : ∀ n, ok n ↔ ok' n) : Meets db p c ok' := by
  rwa [← funext fun n => propext (h n)]

/-- A conversion makes no call. -/
theorem Meets.convert {x : Except Thrown α} : Meets db (convert x) 0 fun _ => ∃ a, x = .ok a := by
  cases x with
  | ok a => exact (Meets.ret a).of_iff fun _ => ⟨fun _ => ⟨a, rfl⟩, fun _ => trivial⟩
  | error e =>
    exact ⟨Extends.refl, fun _ => ⟨fun ⟨_, h⟩ => (nomatch h), fun ⟨_, h⟩ => (nomatch h)⟩,
      fun _ ⟨_, h⟩ => (nomatch h)⟩

/-- A loop over rows, with as many calls for each. -/
theorem Meets.mapM {f : α → Reading β} {ok : α → Nat → Prop} (hf : ∀ a, Meets db (f a) c (ok a))
    (as : List α) : Meets db (as.mapM f) (c * as.length) fun n =>
      ∀ k a, as[k]? = some a → ok a (n + c * k) := by
  induction as with
  | nil => exact (Meets.ret []).of_iff fun _ => ⟨fun _ _ _ h => (nomatch h), fun _ => trivial⟩
  | cons a as ih =>
    have hcons := (hf a).bind fun b => ih.bind fun bs => Meets.ret (b :: bs)
    rw [List.mapM_cons, List.length_cons, Nat.mul_succ, Nat.add_comm]
    refine Meets.of_iff hcons fun n => ?_
    constructor
    · rintro ⟨ha, has, -⟩ k x hx
      cases k with
      | zero =>
        cases hx
        exact ha
      | succ k =>
        have hk := has k x hx
        rwa [Nat.add_assoc, Nat.add_comm c, ← Nat.mul_succ] at hk
    · intro hall
      refine ⟨hall 0 a rfl, fun k x hx => ?_, trivial⟩
      have hk := hall (k + 1) x hx
      rwa [Nat.mul_succ, Nat.add_comm _ c, ← Nat.add_assoc] at hk

/-! ## A result set -/

/-- The query of call `n` is answered with these rows. -/
def Answers (db : Database) (n : Nat) (rows : List Row) : Prop :=
  db.query n = .ok () ∧ db.store (n + 1) = .ok rows

/-- A result has been stored. -/
def stored (h : Handles) : Handles :=
  { h with calls := h.calls + 2, obtained := (h.calls + 1) :: h.obtained }

variable {q : Query} {context store : String} {body : List Row → Reading α}

/-- The rows are those of the answer. -/
theorem Answers.exists_iff {rows : List Row} (ha : Answers db n rows) {ok : List Row → Prop} :
    (∃ rows', Answers db n rows' ∧ ok rows') ↔ ok rows := by
  constructor
  · rintro ⟨rows', ha', hok⟩
    have heq : rows' = rows := Except.ok.inj (ha'.2.symm.trans ha.2)
    rwa [← heq]
  · intro hok
    exact ⟨rows, ha, hok⟩

/-- A result has been obtained. -/
theorem extends_stored (h : Handles) : Extends h (stored h) :=
  ⟨Nat.le_add_right _ _, ⟨[h.calls + 1], rfl⟩, [], rfl, fun _ hr => nomatch hr⟩

/-- Freeing a result of one's own. -/
theorem Extends.free {res : Nat} (hs : Extends h h') (hres : h.calls ≤ res) :
    Extends h { h' with freed := res :: h'.freed } := by
  obtain ⟨frees, hfrees, hle⟩ := hs.freed
  refine ⟨hs.calls, hs.obtained, res :: frees, by rw [hfrees]; rfl, ?_⟩
  intro res' hres'
  rcases List.mem_cons.mp hres' with rfl | hres'
  · exact hres
  · exact hle res' hres'

/-- What has been stored is freed when the rest is in balance. -/
theorem Balanced.free (hs : Balanced (stored h) h') :
    Balanced h { h' with freed := (h.calls + 1) :: h'.freed } := by
  obtain ⟨news, frees, hnews, hfrees, hperm, hnodup, hrange⟩ := hs.lists
  have hcalls : h.calls + 2 ≤ h'.calls := hs.calls
  have hrange' : ∀ res ∈ news, h.calls + 2 ≤ res ∧ res < h'.calls := hrange
  refine ⟨⟨news ++ [h.calls + 1], (h.calls + 1) :: frees, ?_, ?_, ?_, ?_, ?_⟩, ?_⟩
  · rw [hnews]
    exact (List.append_assoc news [h.calls + 1] h.obtained).symm
  · show (h.calls + 1) :: h'.freed = _
    rw [hfrees]
    rfl
  · exact (hperm.cons _).trans (List.perm_append_singleton _ _).symm
  · refine List.nodup_append.mpr ⟨hnodup, List.nodup_singleton _, fun a ha b hb heq => ?_⟩
    have := hrange' a ha
    have := List.mem_singleton.mp hb
    omega
  · intro res hres
    show h.calls ≤ res ∧ res < h'.calls
    rcases List.mem_append.mp hres with hres | hres
    · have := hrange' res hres
      omega
    · have := List.mem_singleton.mp hres
      omega
  · show h.calls ≤ h'.calls
    omega

/-- The query is one call. -/
theorem run_executeQuery : (executeQuery q context).run db.exec h =
    match db.query h.calls with
    | .ok _ => (.ok (), { h with calls := h.calls + 1 })
    | .error error => (.error (failed context error), { h with calls := h.calls + 1 }) := by
  unfold executeQuery
  rw [run_call]
  dsimp only [Database.exec]
  cases db.query h.calls <;> rfl

/-- A result is obtained by one call. -/
theorem run_storeResult : (storeResult store).run db.exec h =
    match db.store h.calls with
    | .ok rows => (.ok (h.calls, rows),
        { h with calls := h.calls + 1, obtained := h.calls :: h.obtained })
    | .error error => (.error (failed store error), { h with calls := h.calls + 1 }) := by
  unfold storeResult
  rw [run_call]
  dsimp only [Database.exec]
  cases db.store h.calls <;> rfl

/-- The result is freed behind the body, and only when the body does not throw. -/
theorem run_withResult_of_answers {rows : List Row} (ha : Answers db h.calls rows) :
    (withResult q context store body).run db.exec h =
      match (body rows).run db.exec (stored h) with
      | (.ok a, s) => (.ok a, { s with freed := (h.calls + 1) :: s.freed })
      | (.error e, s) => (.error e, s) := by
  unfold withResult
  rw [run_bind, run_executeQuery, ha.1]
  dsimp only
  rw [run_bind, run_storeResult, ha.2]
  dsimp only
  rw [run_bind]
  have hstored : Handles.mk (h.calls + 1 + 1) ((h.calls + 1) :: h.obtained) h.freed = stored h :=
    rfl
  rw [hstored]
  cases (body rows).run db.exec (stored h) with
  | mk r s => cases r <;> rfl

/-- Nothing is stored when the query fails or its result cannot be stored. -/
theorem run_withResult_of_not (hnot : ∀ rows, ¬ Answers db h.calls rows) :
    ∃ e k, (withResult q context store body).run db.exec h =
      (.error e, { h with calls := h.calls + k }) := by
  unfold withResult
  rw [run_bind, run_executeQuery]
  cases hquery : db.query h.calls with
  | error error => exact ⟨_, 1, rfl⟩
  | ok =>
    dsimp only
    rw [run_bind, run_storeResult]
    cases hstore : db.store (h.calls + 1) with
    | error error => exact ⟨_, 2, rfl⟩
    | ok rows => exact absurd ⟨hquery, hstore⟩ (hnot rows)

/-- The result of a query is freed when the body has returned. -/
theorem Meets.withResult {ok : List Row → Prop}
    (hbody : ∀ rows, Meets db (body rows) 0 fun _ => ok rows) :
    Meets db (withResult q context store body) 2 fun n => ∃ rows, Answers db n rows ∧ ok rows := by
  have hcases (h : Handles) :
      (∃ rows, Answers db h.calls rows) ∨ ∀ rows, ¬ Answers db h.calls rows :=
    (Classical.em _).imp_right not_exists.mp
  constructor
  case keeps =>
    intro h
    rcases hcases h with ⟨rows, ha⟩ | hnot
    · have hkeeps := (hbody rows).keeps (stored h)
      rw [run_withResult_of_answers ha]
      cases hrun : (body rows).run db.exec (stored h) with
      | mk r s =>
        rw [hrun] at hkeeps
        have hs := (extends_stored h).trans hkeeps
        cases r with
        | error e => exact hs
        | ok a => exact hs.free (Nat.le_succ _)
    · obtain ⟨e, k, hrun⟩ := run_withResult_of_not hnot
      rw [hrun]
      exact ⟨Nat.le_add_right _ _, ⟨[], rfl⟩, [], rfl, fun _ hr => nomatch hr⟩
  case returns =>
    intro h
    rcases hcases h with ⟨rows, ha⟩ | hnot
    · have hreturns := (hbody rows).returns (stored h)
      rw [run_withResult_of_answers ha, ha.exists_iff, ← hreturns]
      cases (body rows).run db.exec (stored h) with
      | mk r s =>
        cases r with
        | error e => rfl
        | ok a => rfl
    · obtain ⟨e, k, hrun⟩ := run_withResult_of_not hnot
      rw [hrun]
      constructor
      · rintro ⟨_, h⟩
        cases h
      · rintro ⟨rows, ha, -⟩
        exact absurd ha (hnot rows)
  case balanced =>
    rintro h ⟨rows, ha, hok⟩
    obtain ⟨a, hrun⟩ := ((hbody rows).returns (stored h)).mpr hok
    obtain ⟨hbalanced, hcalls⟩ := (hbody rows).balanced (stored h) hok
    rw [run_withResult_of_answers ha]
    cases hrun' : (body rows).run db.exec (stored h) with
    | mk r s =>
      rw [hrun'] at hrun hbalanced hcalls
      cases hrun
      exact ⟨hbalanced.free, hcalls⟩

/-! ## Helpers -/

/-- `std::stoull` and `std::stoul` find a number at the front, of 64 bits. -/
def IsNumber (text : Bytes) : Prop := ∃ n, parseNumber "stoull" text = .ok n

/-- The text of a column that `parseDifficulty` knows. -/
def IsDifficulty (value : Bytes) : Prop := ∃ d, parseDifficulty value = .ok d

/-- What is thrown names the function, and nothing else depends on the name. -/
theorem parseNumber_ok_iff {function : String} {text : Bytes} :
    (∃ n, parseNumber function text = .ok n) ↔ IsNumber text := by
  unfold IsNumber parseNumber
  dsimp only
  generalize Http.readDigits 0 0 _ = read
  by_cases hcount : read.2 = 0
  · simp [hcount]
  · by_cases hvalue : 2 ^ 64 ≤ read.1
    · simp only [hcount, hvalue, if_true, if_false]
      constructor
      · rintro ⟨_, h⟩
        cases h
      · rintro ⟨_, h⟩
        cases h
    · simp only [hcount, hvalue, if_false]

/-- A column that is no number throws. -/
theorem meets_stoull {text : Bytes} : Meets db (stoull text) 0 fun _ => IsNumber text :=
  Meets.convert

/-- The same of `std::stoul`. -/
theorem meets_stoul {text : Bytes} : Meets db (stoul text) 0 fun _ => IsNumber text :=
  (Meets.convert.bind fun n => Meets.ret n.toUInt32).of_iff fun _ =>
    (and_true _).to_iff.trans parseNumber_ok_iff

/-- A column that is no difficulty throws. -/
theorem meets_parseDifficultyOrThrow {value : Bytes} :
    Meets db (parseDifficultyOrThrow value) 0 fun _ => IsDifficulty value := by
  refine Meets.of_iff Meets.convert fun _ => ?_
  unfold IsDifficulty
  cases parseDifficulty value with
  | ok d => simp [Except.mapError]
  | error e => simp [Except.mapError]

/-- Rows that only convert. -/
theorem Meets.rows {f : Row → Reading β} {ok : Row → Prop}
    (hf : ∀ row, Meets db (f row) 0 fun _ => ok row) (rows : List Row) :
    Meets db (rows.mapM f) 0 fun _ => ∀ row ∈ rows, ok row := by
  have hrows := Meets.mapM hf rows
  rw [Nat.zero_mul] at hrows
  refine hrows.of_iff fun n => ?_
  constructor
  · intro hall row hrow
    obtain ⟨k, hk⟩ := List.mem_iff_getElem?.mp hrow
    exact hall k row hk
  · intro hall k row hk
    exact hall row (List.mem_of_getElem? hk)

/-- The id is a number. -/
def TagReadable (row : Row) : Prop := IsNumber (column row 0)

/-- Both ids are numbers. -/
def SampleReadable (row : Row) : Prop := IsNumber (column row 0) ∧ IsNumber (column row 1)

/-- The ids and the score are numbers. -/
def TestcaseReadable (row : Row) : Prop :=
  IsNumber (column row 0) ∧ IsNumber (column row 1) ∧ IsNumber (column row 5)

/-- The query of call `n` is answered with rows that convert. -/
def AllReadable (db : Database) (n : Nat) (readable : Row → Prop) : Prop :=
  ∃ rows, Answers db n rows ∧ ∀ row ∈ rows, readable row

/-- Names need no conversion. -/
theorem meets_tagNamesForProblem (problemId : UInt64) :
    Meets db (tagNamesForProblem problemId) 2 fun n => AllReadable db n fun _ => True :=
  Meets.withResult fun rows => Meets.rows (fun row => Meets.ret (column row 0)) rows

/-- The ids of tags are converted. -/
theorem meets_tagsWithIdForProblem (problemId : UInt64) :
    Meets db (tagsWithIdForProblem problemId) 2 fun n => AllReadable db n TagReadable := by
  refine Meets.withResult fun rows => Meets.rows (fun row => ?_) rows
  refine (meets_stoull.bind fun id => Meets.ret (Tag.mk id.toNat (column row 1))).of_iff fun _ => ?_
  exact (and_true _).to_iff

/-- The ids of samples are converted. -/
theorem meets_sampleTestcases (problemId : UInt64) :
    Meets db (sampleTestcases problemId) 2 fun n => AllReadable db n SampleReadable := by
  refine Meets.withResult fun rows => Meets.rows (fun row => ?_) rows
  refine Meets.of_iff (meets_stoull.bind fun id => meets_stoull.bind fun problemId => Meets.ret
    (TestCase.mk id.toNat problemId.toNat (column row 2) (column row 3) true)) fun _ => ?_
  simp only [SampleReadable, and_true]

/-- Ids and scores are converted. -/
theorem meets_allTestcases (problemId : UInt64) :
    Meets db (allTestcases problemId) 2 fun n => AllReadable db n TestcaseReadable := by
  refine Meets.withResult fun rows => Meets.rows (fun row => ?_) rows
  refine Meets.of_iff (meets_stoull.bind fun id => meets_stoull.bind fun problemId =>
    meets_stoul.bind fun score => Meets.ret (AdminTestCase.mk id.toNat problemId.toNat
      (column row 2) (column row 3) (column row 4 == utf8 "1") score)) fun _ => ?_
  simp only [TestcaseReadable, and_true]

/-! ## Rows of problems -/

/-- The row converts, and the query for its tags, call `n`, is answered. -/
def SummaryReadable (db : Database) (n : Nat) (row : Row) : Prop :=
  IsNumber (column row 0) ∧ IsDifficulty (column row 2) ∧ IsNumber (column row 3) ∧
    IsNumber (column row 4) ∧ AllReadable db n fun _ => True

/-- The row converts, and so do the answers to the two queries for its problem. -/
def ProblemReadable (db : Database) (n : Nat) (first second : Row → Prop) (row : Row) : Prop :=
  IsNumber (column row 0) ∧ IsDifficulty (column row 3) ∧ IsNumber (column row 4) ∧
    IsNumber (column row 5) ∧ AllReadable db n first ∧ AllReadable db (n + 2) second

/-- One row of the list. -/
theorem meets_summaryOf (row : Row) :
    Meets db (summaryOf row) 2 fun n => SummaryReadable db n row := by
  refine Meets.of_iff (meets_stoull.bind fun id => meets_parseDifficultyOrThrow.bind
    fun difficulty => meets_stoul.bind fun timeLimitMs => meets_stoul.bind fun memoryLimitMb =>
    (meets_tagNamesForProblem id).bind fun tags => Meets.ret (ProblemSummary.mk id.toNat
      (column row 1) difficulty timeLimitMs memoryLimitMb tags)) fun n => ?_
  simp only [SummaryReadable, and_true, Nat.add_zero]

/-- One row of the public page. -/
theorem meets_detailOf (row : Row) : Meets db (detailOf row) 4 fun n =>
    ProblemReadable db n SampleReadable TagReadable row := by
  refine Meets.of_iff (meets_stoull.bind fun id => meets_parseDifficultyOrThrow.bind
    fun difficulty => meets_stoul.bind fun timeLimitMs => meets_stoul.bind fun memoryLimitMb =>
    (meets_sampleTestcases id).bind fun samples => (meets_tagsWithIdForProblem id).bind
    fun tags => Meets.ret (ProblemDetail.mk id.toNat (column row 1) (column row 2) difficulty
      timeLimitMs memoryLimitMb samples tags)) fun n => ?_
  simp only [ProblemReadable, and_true, Nat.add_zero]

/-- One row of the administration. -/
theorem meets_fullOf (row : Row) : Meets db (fullOf row) 4 fun n =>
    ProblemReadable db n TagReadable TestcaseReadable row := by
  refine Meets.of_iff (meets_stoull.bind fun id => meets_parseDifficultyOrThrow.bind
    fun difficulty => meets_stoul.bind fun timeLimitMs => meets_stoul.bind fun memoryLimitMb =>
    (meets_tagsWithIdForProblem id).bind fun tags => (meets_allTestcases id).bind
    fun testcases => Meets.ret (AdminProblemDetail.mk id.toNat (column row 1) (column row 2)
      difficulty timeLimitMs memoryLimitMb tags testcases)) fun n => ?_
  simp only [ProblemReadable, and_true, Nat.add_zero]

/-- A row or none. -/
theorem Meets.head {f : Row → Reading β} {ok : Row → Nat → Prop}
    (hf : ∀ row, Meets db (f row) c (ok row)) (rows : List Row) :
    Meets db (rows.head?.mapM f) (if rows = [] then 0 else c) fun n =>
      ∀ row, rows.head? = some row → ok row n := by
  cases rows with
  | nil => exact (Meets.ret none).of_iff fun _ => ⟨fun _ _ h => (nomatch h), fun _ => trivial⟩
  | cons row rows =>
    refine Meets.of_iff ((hf row).bind fun b => Meets.ret (some b)) fun n => ?_
    constructor
    · rintro ⟨hrow, -⟩ row' heq
      cases heq
      exact hrow
    · intro hall
      exact ⟨hall row rfl, trivial⟩

/-! ## The outer query -/

/-- What the program obtains has been freed once when it is left. -/
def AllFreed (db : Database) (p : Reading α) : Prop :=
  ∀ res ∈ (p.run db.exec {}).2.obtained, (p.run db.exec {}).2.freed.count res = 1

/-- Giving the connection back frees no result. -/
theorem always_release :
    Always db.exec (.call .release fun _ => .ret () : Reading Unit) (fun h => h) :=
  fun _ => rfl

/-- **Each result is freed once.** -/
theorem Balanced.count_eq_one (hs : Balanced { calls := n } h') :
    ∀ res ∈ h'.obtained, h'.freed.count res = 1 := by
  obtain ⟨news, frees, hnews, hfrees, hperm, hnodup, -⟩ := hs.lists
  intro res hres
  have hmem : res ∈ news := by simpa [hnews] using hres
  have hfreed : h'.freed = frees := by simpa using hfrees
  rw [hfreed, hperm.count_eq]
  exact List.count_eq_one_of_mem hnodup hmem

/-- What has been stored before is not freed. -/
theorem Extends.not_freed (hs : Extends (stored { calls := n }) h') :
    n + 1 ∈ h'.obtained ∧ h'.freed.count (n + 1) = 0 := by
  obtain ⟨news, hnews⟩ := hs.obtained
  obtain ⟨frees, hfrees, hle⟩ := hs.freed
  have hfreed : h'.freed = frees := hfrees.trans (List.append_nil frees)
  constructor
  · rw [hnews]
    exact List.mem_append_right news (List.mem_singleton_self _)
  · rw [hfreed, List.count_eq_zero]
    intro hmem
    have : n + 2 ≤ n + 1 := hle (n + 1) hmem
    omega

/-- The result of the outer query is freed exactly when all that is nested in it returns. -/
theorem allFreed_withResult {cost : List Row → Nat} {ok : List Row → Nat → Prop}
    (hbody : ∀ rows, Meets db (body rows) (cost rows) (ok rows)) :
    AllFreed db (withLease (withResult q context store body)) ↔
      (db.acquire 0 = .ok () → ∀ rows, Answers db 1 rows → ok rows 3) := by
  unfold AllFreed withLease
  rw [run_call]
  show (∀ res ∈ (run db.exec _ { calls := 1 }).2.obtained, _) ↔ _
  dsimp only [Database.exec]
  cases hacquire : db.acquire 0 with
  | error e => exact ⟨fun _ h => (nomatch h), fun _ _ hres => (nomatch hres)⟩
  | ok u =>
    dsimp only
    rw [run_andFinally always_release]
    dsimp only
    have htrue : (Except.ok u : Except Exn Unit) = .ok () := rfl
    rw [forall_prop_of_true htrue]
    by_cases hanswers : ∃ rows, Answers db 1 rows
    · obtain ⟨rows, ha⟩ := hanswers
      have hreturns := (hbody rows).returns (stored { calls := 1 })
      have hkeeps := (hbody rows).keeps (stored { calls := 1 })
      have hbalanced := (hbody rows).balanced (stored { calls := 1 })
      rw [run_withResult_of_answers ha]
      cases hrun : (body rows).run db.exec (stored { calls := 1 }) with
      | mk r s =>
        rw [hrun] at hreturns hkeeps hbalanced
        cases r with
        | error e =>
          constructor
          · intro hall
            obtain ⟨hmem, hcount⟩ := hkeeps.not_freed
            exact absurd ((hall 2 hmem).symm.trans hcount) Nat.one_ne_zero
          · intro hall
            obtain ⟨_, h⟩ := hreturns.mpr (hall rows ha)
            cases h
        | ok a =>
          have hok := hreturns.mp ⟨a, rfl⟩
          constructor
          · intro _ rows' ha'
            rwa [Except.ok.inj (ha'.2.symm.trans ha.2)]
          · intro _
            exact (hbalanced hok).1.free.count_eq_one
    · obtain ⟨e, k, hrun⟩ := run_withResult_of_not (h := { calls := 1 }) (not_exists.mp hanswers)
      rw [hrun]
      constructor
      · intro _ rows ha
        exact absurd ⟨rows, ha⟩ hanswers
      · intro _ res hres
        cases hres

/-- The four reading functions free each result once exactly when nothing nested in an outer
result throws: every row that they fetch converts, and so do the answers to its queries. -/
theorem results_freed_iff (db : Database) (filters : ProblemFilters) (problemId : UInt64) :
    (AllFreed db (listProblems filters) ↔ (db.acquire 0 = .ok () → ∀ rows, Answers db 1 rows →
        ∀ k row, rows[k]? = some row → SummaryReadable db (3 + 2 * k) row)) ∧
      (AllFreed db (getProblemDetail problemId) ↔
        (db.acquire 0 = .ok () → ∀ rows, Answers db 1 rows →
          ∀ row, rows.head? = some row → ProblemReadable db 3 SampleReadable TagReadable row)) ∧
      (AllFreed db listFullProblems ↔ (db.acquire 0 = .ok () → ∀ rows, Answers db 1 rows →
        ∀ k row, rows[k]? = some row →
          ProblemReadable db (3 + 4 * k) TagReadable TestcaseReadable row)) ∧
      (AllFreed db (getFullProblem problemId) ↔
        (db.acquire 0 = .ok () → ∀ rows, Answers db 1 rows →
          ∀ row, rows.head? = some row → ProblemReadable db 3 TagReadable TestcaseReadable row)) :=
  ⟨allFreed_withResult (Meets.mapM meets_summaryOf),
    allFreed_withResult (Meets.head meets_detailOf),
    allFreed_withResult (Meets.mapM meets_fullOf),
    allFreed_withResult (Meets.head meets_fullOf)⟩

/-- One problem is listed, and the query for its tags fails. -/
def tagQueryFails : Database where
  acquire _ := .ok ()
  query n := if n = 3 then .error (utf8 "gone away") else .ok ()
  store _ := .ok [[some (utf8 "1"), some (utf8 "A"), some (utf8 "easy"), some (utf8 "500"),
    some (utf8 "256")]]

/-- The list of problems is still held when the exception leaves `listProblems`. -/
theorem result_lost :
    ((listProblems {}).run tagQueryFails.exec {}).2 = { calls := 4, obtained := [2] } ∧
      ¬ AllFreed tagQueryFails (listProblems {}) := by
  unfold AllFreed
  decide

end MiniOj.Db.Results
