import MiniOj.Db.ProblemDao

/-!
# What a reader of a problem sees

`getFullProblem` makes three queries and no transaction, so other connections may commit
between them.

* `reads_in_order` — every part of the answer is that of a committed state, the parts in order;
  while nothing changes the problem, the answer is its complete content
* `mixes_states` — otherwise the limits may be those of one state and the testcases those of
  another
-/

namespace MiniOj.Db

open Infra Admin

/-! ## Other connections -/

/-- What another connection commits at once: an edit, or one statement or transaction of a
reset. -/
inductive Write where
  | update (problemId : Nat) (input : ProblemInput)
  | delete (problemId : Nat)
  | clear (t : Table)
  | resetCounter (t : Table)
  | create (input : ProblemInput)

/-- What a writer runs. -/
def Write.program : Write → Dao Unit
  | update problemId input => do
    let _ ← updateProblem problemId input
  | delete problemId => do
    let _ ← deleteProblem problemId
  | clear t => executeQuery (.deleteAll t) "clearProblemBank"
  | resetCounter t => executeQuery (.resetAutoIncrement t) "clearProblemBank reset auto_increment"
  | create input => do
    let _ ← createProblem input

/-- A write, when it happens and which of its statements fail. -/
structure Other where
  write : Write
  clock : Nat → Nat
  fails : Nat → Option Bytes

/-- The database as the reader uses it, and the rows committed since the reader started, oldest
first. -/
structure Reading where
  world : World
  history : List Bank

variable (m : Mysql)

/-- A call of the reader. -/
def Reading.exec (st : Statement) (s : Reading) : Except Bytes st.Result × Reading :=
  ((m.exec st s.world).1, { s with world := (m.exec st s.world).2 })

/-- A whole transaction of somebody else. -/
def Reading.env (s : Reading) (o : Other) : Option Reading :=
  let others := { m with clock := o.clock, fails := o.fails }
  let after := (o.write.program.run others.exec (.resting s.world.bank s.world.next)).2
  some {
    world := { s.world with bank := after.bank, next := after.next }
    history := s.history ++ [after.bank] }

/-- A call of `getFullProblem` and the database around it. -/
abbrev Reader := Dao (Option AdminProblemDetail) × Reading

/-- The call is about to start. -/
structure Reader.Init (problemId : Nat) (c : Reader) : Prop where
  program : c.1 = getFullProblem problemId
  work : c.2.world.work = none
  history : c.2.history = [c.2.world.bank]

/-- A problem with these tags and testcases. -/
def ProblemRow.detail (p : ProblemRow) (tags : List TagRow) (testcases : List TestcaseRow) :
    AdminProblemDetail where
  id := p.id
  title := p.title
  descriptionMd := p.descriptionMd
  difficulty := p.difficulty
  timeLimitMs := p.timeLimitMs
  memoryLimitMb := p.memoryLimitMb
  tags := tags.map fun t => ⟨t.id, t.name⟩
  testcases := testcases.map fun c =>
    ⟨c.id, c.problemId, c.input, c.expectedOutput, c.isSample, c.score⟩

/-- The complete content of a problem. -/
def Bank.detail (weight : Bytes → Bytes) (b : Bank) (problemId : Nat) : Option AdminProblemDetail :=
  (b.problem? problemId).map fun p => p.detail (b.tagsOf weight p.id) (b.testcasesOf p.id)

/-! ## The reader's view -/

variable {m} {s s' : Reading} {st : Statement} {problemId : Nat}

/-- The reader has no transaction open, and the last state in the history is the one it sees. -/
structure Reading.Current (s : Reading) : Prop where
  work : s.world.work = none
  last : s.history.getLast? = some s.world.bank

/-- What happens to a reader from outside. -/
structure Reading.Later (s s' : Reading) : Prop where
  history : s.history <+: s'.history
  current : s.Current → s'.Current

theorem Reading.Later.refl (s : Reading) : s.Later s := ⟨List.prefix_refl _, id⟩

/-- Time goes on. -/
theorem Reading.Later.trans {t u : Reading} (h : s.Later t) (h' : t.Later u) : s.Later u :=
  ⟨h.history.trans h'.history, fun hc => h'.current (h.current hc)⟩

/-- What others do only adds to the history. -/
theorem Reading.later_of_env {o : Other} (h : Reading.env m s o = some s') : s.Later s' := by
  cases h
  exact ⟨List.prefix_append _ _, fun hc => ⟨hc.work, by simp⟩⟩

/-- Statements that leave the rows alone. -/
def Statement.Quiet : Statement → Prop
  | acquire | release | selectExists _ | selectProblem _ | selectTags _ | selectTestcases _
  | storeResult | freeResult _ => True
  | _ => False

/-- A query changes nothing. -/
theorem Mysql.perform_quiet {w w' : World} {r : st.Result} (h : st.Quiet)
    (hp : m.perform w st = some (r, w')) : w'.bank = w.bank ∧ w'.work = w.work := by
  cases st <;> first | exact h.elim | (cases hp; exact ⟨rfl, rfl⟩)

/-- The outcomes of a call. -/
theorem Mysql.exec_cases (m : Mysql) (st : Statement) (w : World) :
    (∃ r w', m.perform w st = some (r, w') ∧
      m.exec st w = (.ok r, { w' with calls := w'.calls + 1 })) ∨
    ∃ e, m.exec st w = (.error e, { w with calls := w.calls + 1 }) := by
  unfold exec
  split
  · next e _ => exact Or.inr ⟨e, rfl⟩
  · split
    · next r w' hp => exact Or.inl ⟨r, w', hp, rfl⟩
    · exact Or.inr ⟨_, rfl⟩

/-- A call of the reader is no event of the history. -/
theorem Reading.exec_quiet (h : st.Quiet) (hc : s.Current) :
    (Reading.exec m st s).2.history = s.history ∧ (Reading.exec m st s).2.Current := by
  refine ⟨rfl, ?_⟩
  rcases m.exec_cases st s.world with ⟨r, w', hp, he⟩ | ⟨e, he⟩
  · obtain ⟨hb, hw⟩ := m.perform_quiet h hp
    simp only [Reading.exec, he]
    exact ⟨hw.trans hc.work, hc.last.trans (congrArg some hb.symm)⟩
  · simp only [Reading.exec, he]
    exact ⟨hc.work, hc.last⟩

/-! ## The queries -/

variable {α β : Type} {post : Except Exn β → Reading → Prop}

/-- **A query sees the bank of its moment.** -/
theorem under_executeQuery {context : String} {f : st.Result → Dao β} (hst : st.Quiet)
    (hs : s.Current) (herror : ∀ e s, post (.error e) s)
    (h : ∀ t u r w, s.Later t → t.Current → m.perform t.world st = some (r, w) →
      u.history = t.history → u.Current → Program.Under (Reading.exec m) Reading.Later post (f r) u) :
    Program.Under (Reading.exec m) Reading.Later post (executeQuery st context >>= f) s := by
  intro t ht
  have hcur := ht.current hs
  obtain ⟨hhist, hcur'⟩ := Reading.exec_quiet (m := m) hst hcur
  rcases m.exec_cases st t.world with ⟨r, w', hp, he⟩ | ⟨e, he⟩
  · have hreply : (Reading.exec m st t).1 = .ok r := congrArg Prod.fst he
    rw [hreply]
    exact h t _ r w' ht hcur hp hhist hcur'
  · have hreply : (Reading.exec m st t).1 = .error e := congrArg Prod.fst he
    rw [hreply]
    exact fun _ _ => herror _ _

/-- A call whose outcome does not matter. -/
theorem under_ignoring {f : Unit → Dao β} (hst : st.Quiet) (hs : s.Current)
    (h : ∀ u, s.history <+: u.history → u.Current →
      Program.Under (Reading.exec m) Reading.Later post (f ()) u) :
    Program.Under (Reading.exec m) Reading.Later post (ignoring st >>= f) s := by
  intro t ht
  obtain ⟨hhist, hcur⟩ := Reading.exec_quiet (m := m) hst (ht.current hs)
  exact h _ (hhist ▸ ht.history) hcur

/-- The rows are those of one state between the start and the end. -/
theorem under_rowsOf {context store : String} {f : st.Result → Dao β} (hst : st.Quiet)
    (hs : s.Current) (herror : ∀ e s, post (.error e) s)
    (h : ∀ t u r w, s.Later t → t.Current → m.perform t.world st = some (r, w) →
      t.history <+: u.history → u.Current →
      Program.Under (Reading.exec m) Reading.Later post (f r) u) :
    Program.Under (Reading.exec m) Reading.Later post (rowsOf st context store >>= f) s := by
  refine Program.Under.bind Reading.Later.refl ?_
  refine under_executeQuery hst hs (fun e s u _ => herror e u) fun t u r w ht hcur hp hu hucur => ?_
  refine under_executeQuery trivial hucur (fun e s u _ => herror e u)
    fun t₂ u₂ res _ ht₂ _ _ hu₂ hucur₂ => ?_
  refine under_ignoring trivial hucur₂ fun u₃ hu₃ hucur₃ u₄ hu₄ => ?_
  refine h t u₄ r w ht hcur hp ?_ (hu₄.current hucur₃)
  have h₂ := ht₂.history
  rw [hu, ← hu₂] at h₂
  exact (h₂.trans hu₃).trans hu₄.history

/-! ## The answer -/

/-- The row, the tags and the testcases of `d` are those of committed states, in this order. -/
def InOrder (weight : Bytes → Bytes) (problemId : Nat) (history : List Bank)
    (d : AdminProblemDetail) : Prop :=
  ∃ (i j l : Nat) (b₁ b₂ b₃ : Bank) (p : ProblemRow), i ≤ j ∧ j ≤ l ∧
    history[i]? = some b₁ ∧ history[j]? = some b₂ ∧ history[l]? = some b₃ ∧
    b₁.problem? problemId = some p ∧ d = p.detail (b₂.tagsOf weight p.id) (b₃.testcasesOf p.id)

/-- What is known of the outcome of `getFullProblem`. -/
def Answers (weight : Bytes → Bytes) (problemId : Nat) (history : List Bank) :
    Except Exn (Option AdminProblemDetail) → Prop
  | .error _ => True
  | .ok none => ∃ b ∈ history, b.problem? problemId = none
  | .ok (some d) => InOrder weight problemId history d

/-- The past does not change. -/
theorem getElem?_later {h h' : List α} {i : Nat} {b : α} (hp : h <+: h') (hi : h[i]? = some b) :
    h'[i]? = some b := by
  obtain ⟨rest, rfl⟩ := hp
  exact (List.getElem?_append_left (List.getElem?_eq_some_iff.mp hi).1).trans hi

/-- An answer stays one. -/
theorem Answers.later {weight : Bytes → Bytes} {h h' : List Bank}
    {r : Except Exn (Option AdminProblemDetail)} (ha : Answers weight problemId h r)
    (hp : h <+: h') : Answers weight problemId h' r := by
  match r, ha with
  | .error _, _ => exact trivial
  | .ok none, ⟨b, hb, hn⟩ => exact ⟨b, hp.subset hb, hn⟩
  | .ok (some d), ⟨i, j, l, b₁, b₂, b₃, p, hij, hjl, h₁, h₂, h₃, hrow⟩ =>
    exact ⟨i, j, l, b₁, b₂, b₃, p, hij, hjl, getElem?_later hp h₁, getElem?_later hp h₂,
      getElem?_later hp h₃, hrow⟩

/-- The last state of a history has the last index. -/
theorem Reading.Current.getElem? (hc : s.Current) :
    s.history[s.history.length - 1]? = some s.world.bank := by
  rw [← List.getLast?_eq_getElem?]
  exact hc.last

/-- The two queries of `detailOf` add their parts to a row read before. -/
theorem under_detailOf {p : ProblemRow} {b : Bank} {i : Nat} (hs : s.Current)
    (hi : s.history[i]? = some b) (hp : b.problem? problemId = some p) :
    Program.Under (Reading.exec m) Reading.Later (fun r s => match r with
      | .ok d => s.Current ∧ InOrder m.weight problemId s.history d
      | .error _ => True) (detailOf p) s := by
  have hlast : ∀ {t : Reading} {i : Nat} {b : Bank}, t.history[i]? = some b →
      i ≤ t.history.length - 1 := fun h => Nat.le_sub_one_of_lt (List.getElem?_eq_some_iff.mp h).1
  refine Program.Under.bind Reading.Later.refl ?_
  refine under_rowsOf trivial hs (fun _ _ _ _ => trivial) fun t u tags w ht hcur htags hu hucur => ?_
  cases htags
  intro u' hu'
  refine Program.Under.bind Reading.Later.refl ?_
  refine under_rowsOf trivial (hu'.current hucur) (fun _ _ _ _ => trivial)
    fun t₂ v cases w₂ ht₂ hcur₂ hcases hv hvcur => ?_
  cases hcases
  intro v' hv' v'' hv''
  have hview : ∀ {t : Reading}, t.Current → t.world.view = t.world.bank := fun hc => by
    rw [World.view, hc.work, Option.getD_none]
  have hend : v.history <+: v''.history := hv'.history.trans hv''.history
  have htv : t.history <+: v.history := (hu.trans hu'.history).trans (ht₂.history.trans hv)
  have hti := getElem?_later ht.history hi
  refine ⟨hv''.current (hv'.current hvcur), i, t.history.length - 1, t₂.history.length - 1, b,
    t.world.bank, t₂.world.bank, p, hlast hti,
    Nat.sub_le_sub_right ((hu.trans hu'.history).trans ht₂.history).length_le 1,
    getElem?_later hend (getElem?_later htv hti),
    getElem?_later hend (getElem?_later htv hcur.getElem?),
    getElem?_later hend (getElem?_later hv hcur₂.getElem?), hp, ?_⟩
  rw [hview hcur, hview hcur₂]
  rfl

/-- When the body ends with an answer, the destructor of the lease does not change it. -/
theorem under_release {r : Except Exn (Option AdminProblemDetail)}
    (ha : Answers m.weight problemId s.history r) :
    Program.Under (Reading.exec m) Reading.Later (fun r' s => match r' with
      | .ok _ => ∀ s', s.Later s' → Answers m.weight problemId s'.history r
      | .error e => ∀ s', s.Later s' → Answers m.weight problemId s'.history (.error e))
      (ignoring .release) s := by
  intro t ht u hu v hv
  exact ha.later ((ht.history.trans hu.history).trans hv.history)

/-- **`getFullProblem` under interference.** -/
theorem under_getFullProblem (hs : s.Current) :
    Program.Under (Reading.exec m) Reading.Later
      (fun r s => Answers m.weight problemId s.history r) (getFullProblem problemId) s := by
  intro t ht
  have hquiet : Statement.acquire.Quiet := trivial
  have hcur := (Reading.exec_quiet (m := m) hquiet (ht.current hs)).2
  generalize Reading.exec m .acquire t = reply at hcur
  obtain ⟨_ | _, t₁⟩ := reply
  · exact fun _ _ => trivial
  refine Program.Under.andFinally Reading.Later.refl ?_
  have herror : ∀ (e : Exn) (s : Reading), Program.Under (Reading.exec m) Reading.Later
      (fun r' s => match r' with
        | .ok _ => ∀ s', s.Later s' → Answers m.weight problemId s'.history (.error e)
        | .error e => ∀ s', s.Later s' → Answers m.weight problemId s'.history (.error e))
      (ignoring .release) s := fun e s => under_release trivial
  refine under_executeQuery trivial hcur herror fun t₂ u row w ht₂ hcur₂ hrow hu hucur => ?_
  cases hrow
  refine under_executeQuery trivial hucur herror fun t₃ u₃ res w ht₃ hcur₃ _ hu₃ hucur₃ => ?_
  have hview : t₂.world.view = t₂.world.bank := by
    rw [World.view, hcur₂.work, Option.getD_none]
  have hprefix : t₂.history <+: u₃.history := by
    rw [hu₃, ← hu]
    exact ht₃.history
  have hbank := getElem?_later hprefix hcur₂.getElem?
  rw [hview]
  cases hp : t₂.world.bank.problem? problemId with
  | none =>
    refine under_ignoring (f := fun _ => pure none) trivial hucur₃ fun u₄ hu₄ _ u₅ hu₅ => ?_
    have hin := List.mem_of_getElem? (getElem?_later (hu₄.trans hu₅.history) hbank)
    exact under_release ⟨_, hin, hp⟩
  | some p =>
    refine Program.Under.bind Reading.Later.refl ?_
    refine Program.Under.bind Reading.Later.refl (p := detailOf p) (f := fun d => pure (some d)) ?_
    refine (under_detailOf hucur₃ hbank hp).mono fun r u₄ hr => ?_
    cases r with
    | error e => exact fun u₅ _ u₆ _ => herror e u₆
    | ok d =>
      intro u₅ hu₅
      refine under_ignoring (f := fun _ => pure (some d)) trivial (hu₅.current hr.1)
        fun u₆ hu₆ _ u₇ hu₇ => ?_
      exact under_release (Answers.later (r := .ok (some d)) hr.2
        ((hu₅.history.trans hu₆).trans hu₇.history))

/-- At the start the history ends with the bank as it is. -/
theorem Reader.Init.current {c : Reader} (h : Reader.Init problemId c) : c.2.Current :=
  ⟨h.work, by rw [h.history]; rfl⟩

/-- What a reader is told when it is done. -/
theorem answers_of_reachable {result : Option AdminProblemDetail}
    (h : Reachable (Program.interleave (Reading.exec m) (Reading.env m)) (Reader.Init problemId)
      (.ret result, s)) : Answers m.weight problemId s.history (.ok result) := by
  have hinit : ∀ c, Reader.Init problemId c → Program.Under (Reading.exec m) Reading.Later
      (fun r s => Answers m.weight problemId s.history r) c.1 c.2 := by
    intro c hc
    rw [hc.program]
    exact under_getFullProblem hc.current
  have hunder := Program.under_of_reachable Reading.Later.refl (fun _ _ _ => Reading.Later.trans)
    (fun _ _ _ => Reading.later_of_env) hinit h
  exact hunder s (.refl s)

/-- A problem that nobody has changed is read as it is. -/
theorem InOrder.detail_eq {weight : Bytes → Bytes} {history : List Bank} {d : AdminProblemDetail}
    {content : Option AdminProblemDetail} (h : InOrder weight problemId history d)
    (hsame : ∀ b ∈ history, b.detail weight problemId = content) : content = some d := by
  obtain ⟨i, j, l, b₁, b₂, b₃, p, -, -, h₁, h₂, h₃, hp, rfl⟩ := h
  have hid : ∀ {b : Bank} {p : ProblemRow}, b.problem? problemId = some p → p.id = problemId := by
    intro b p hp
    have h := List.find?_some hp
    exact eq_of_beq h
  have hc₁ := hsame b₁ (List.mem_of_getElem? h₁)
  have hc₂ := hsame b₂ (List.mem_of_getElem? h₂)
  have hc₃ := hsame b₃ (List.mem_of_getElem? h₃)
  rw [Bank.detail, hp, Option.map_some] at hc₁
  subst hc₁
  -- the three states may differ, but not in what they say about this problem
  obtain ⟨p₂, hp₂, hd₂⟩ := Option.map_eq_some_iff.mp hc₂
  obtain ⟨p₃, hp₃, hd₃⟩ := Option.map_eq_some_iff.mp hc₃
  have htags := congrArg AdminProblemDetail.tags hd₂
  have hcases := congrArg AdminProblemDetail.testcases hd₃
  rw [hid hp₂, hid hp] at htags
  rw [hid hp₃, hid hp] at hcases
  simp only [ProblemRow.detail] at htags hcases ⊢
  rw [hid hp, htags, hcases]

/-- **What `getFullProblem` returns**, in every interleaving with edits and resets on other
connections: parts of committed states in order, the complete content when no commit changes
it, and nothing only if the problem was absent at some moment. -/
theorem reads_in_order (m : Mysql) (problemId : Nat) (s : Reading)
    (result : Option AdminProblemDetail)
    (h : Reachable (Program.interleave (Reading.exec m) (Reading.env m)) (Reader.Init problemId)
      (.ret result, s)) :
    (∀ d, result = some d → InOrder m.weight problemId s.history d) ∧
    (result = none → ∃ b ∈ s.history, b.problem? problemId = none) ∧
    ∀ content, (∀ b ∈ s.history, b.detail m.weight problemId = content) → result = content := by
  have hans := answers_of_reachable h
  refine ⟨?_, ?_, fun content hsame => ?_⟩
  · rintro d rfl
    exact hans
  · rintro rfl
    exact hans
  · cases result with
    | some d => exact (InOrder.detail_eq hans hsame).symm
    | none =>
      obtain ⟨b, hb, hn⟩ := hans
      rw [← hsame b hb, Bank.detail, hn, Option.map_none]

/-! ## An edit between two queries -/

/-- Problem 1 with the limit 500 and one testcase. -/
def oldBank : Bank where
  problems := [⟨1, [97], [], .easy, 500, 256, 0, 0⟩]
  testcases := [⟨1, 1, [49], [49], true, 10, 0⟩]
  tags := []
  problemTags := []

/-- The edit sets the limit 1000 and another testcase. -/
def edit : Other where
  write := .update 1 {
    title := [97], descriptionMd := [], timeLimitMs := 1000, tags := []
    testcases := [{ input := [50], expectedOutput := [50] }] }
  clock := fun _ => 0
  fails := fun _ => none

/-- A reader, before anything has happened. -/
def startReading : Reader := (getFullProblem 1, ⟨.resting oldBank ⟨2, 2, 1⟩, [oldBank]⟩)

/-- The reader has found the problem and there have been two states. -/
def foundInTwo (c : Reader) : Bool :=
  match c.1 with
  | .ret (some _) => c.2.history.length == 2
  | _ => false

/-- The answer has the parts of two states. -/
theorem reads_in_order_around_edit : ∃ s d,
    Reachable (Program.interleave (Reading.exec .healthy) (Reading.env .healthy)) (Reader.Init 1)
      (.ret (some d), s) ∧ s.history.length = 2 ∧ InOrder id 1 s.history d := by
  have h0 : Reader.Init 1 startReading := ⟨rfl, rfl, rfl⟩
  obtain ⟨⟨p, s⟩, hreach, hp⟩ := exists_reachable_of_run
    (Program.interleave (Reading.exec .healthy) (Reading.env .healthy))
    ([none, none, some edit] ++ List.replicate 9 none) foundInTwo h0 (by decide)
  unfold foundInTwo at hp
  split at hp
  · next d hd =>
    cases hd
    exact ⟨s, d, hreach, eq_of_beq hp, (reads_in_order .healthy 1 s (some d) hreach).1 d rfl⟩
  · cases hp

/-- The answer has the limit of the old state and the input of the new one, and the content of
neither. -/
def mixed (c : Reader) : Bool :=
  match c.1 with
  | .ret (some d) => d.timeLimitMs == 500 && d.testcases.map AdminTestCase.input == [[50]] &&
      c.2.history.all fun b => b.detail id 1 != some d
  | _ => false

/-- The edit is committed between the first query and the others. -/
theorem mixes_states : ¬ ∀ (m : Mysql) (problemId : Nat) (s : Reading)
    (result : Option AdminProblemDetail),
    Reachable (Program.interleave (Reading.exec m) (Reading.env m)) (Reader.Init problemId)
      (.ret result, s) →
    ∃ b ∈ s.history, b.detail m.weight problemId = result := by
  intro h
  have h0 : Reader.Init 1 startReading := ⟨rfl, rfl, rfl⟩
  obtain ⟨⟨p, s⟩, hreach, hp⟩ := exists_reachable_of_run
    (Program.interleave (Reading.exec .healthy) (Reading.env .healthy))
    ([none, none, some edit] ++ List.replicate 9 none) mixed h0 (by decide)
  unfold mixed at hp
  split at hp
  · next d hd =>
    cases hd
    rw [Bool.and_eq_true, List.all_eq_true] at hp
    obtain ⟨b, hb, hcontent⟩ := h .healthy 1 s (some d) hreach
    have hne := hp.2 b hb
    rw [bne_iff_ne] at hne
    exact hne hcontent
  · cases hp

end MiniOj.Db
