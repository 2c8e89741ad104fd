import MiniOj.Db.Properties.RoundTrip
import MiniOj.Infra.Utf8

/-!
# Which changes are carried out

* `replaceProblem_isSome_iff` — a problem can be changed to what fits the columns
* `updateProblem_saves` — on a healthy database `updateProblem` then returns `true`
* `fitVarchar_fitVarchar`, `fitText_fitText` — what a column has kept is kept once more
* `named_createProblem`, `named_updateProblem` — what names tags can have
-/

namespace MiniOj.Db

open Infra Admin

namespace Store

variable {weight : Bytes → Bytes} {clock : Nat → Nat} {s : Store} {problemId n now : Nat}
  {input : ProblemInput} {b : Bank}

theorem updateProblem_isSome_iff (hchecked : input.Checked)
    (hin : (b.problems.any fun p => p.id == problemId) = true) :
    (b.updateProblem now problemId input.title input.descriptionMd input.difficulty
      input.timeLimitMs input.memoryLimitMb).isSome ↔
        (utf8Length input.title).isSome ∧ (fitText input.descriptionMd).isSome := by
  rw [← fitVarchar_isSome_iff hchecked.title_length, Bank.updateProblem, if_pos hin]
  cases fitVarchar 255 input.title with
  | none => simp
  | some title =>
    cases fitText input.descriptionMd with
    | none => simp
    | some descriptionMd =>
      have hlimits : 0 < input.timeLimitMs ∧ 0 < input.memoryLimitMb :=
        ⟨hchecked.timeLimitMs, hchecked.memoryLimitMb⟩
      simp [hlimits]

/-- The ids of the problems are as before. -/
theorem any_updateProblem {b' : Bank} (hin : (b.problems.any fun p => p.id == problemId) = true)
    (h : b.updateProblem now problemId input.title input.descriptionMd input.difficulty
      input.timeLimitMs input.memoryLimitMb = some b') :
    (b'.problems.any fun p => p.id == problemId) = true := by
  obtain ⟨-, -, -, hproblems⟩ := updateProblem_spec hin h
  obtain ⟨p, hmem, hid⟩ := List.any_eq_true.mp hin
  obtain ⟨p', hfind, -⟩ := (find_changed hproblems).1 ⟨p, hmem, eq_of_beq hid⟩
  have hsame := List.find?_some hfind
  exact List.any_eq_true.mpr ⟨p', List.mem_of_find?_eq_some hfind, hsame⟩

/-- **Which changes of a problem can be made**, with ids left for its tags and testcases. -/
theorem replaceProblem_isSome_iff (h : Schema weight s) (hchecked : input.Checked)
    (hin : (s.rows.problems.any fun p => p.id == problemId) = true)
    (htags : s.next.tags + input.tags.length ≤ maxUnsigned + 1)
    (hcases : s.next.testcases + input.testcases.length ≤ maxUnsigned + 1) :
    (s.replaceProblem weight clock problemId input n).isSome ↔ Fits weight input := by
  have hupdate : (s.rows.updateProblem (clock n) problemId input.title input.descriptionMd
      input.difficulty input.timeLimitMs input.memoryLimitMb).isSome ↔
        (utf8Length input.title).isSome ∧ (fitText input.descriptionMd).isSome :=
    updateProblem_isSome_iff hchecked hin
  unfold replaceProblem
  cases hb : s.rows.updateProblem (clock n) problemId input.title input.descriptionMd
    input.difficulty input.timeLimitMs input.memoryLimitMb with
  | none =>
    rw [hb] at hupdate
    constructor
    · intro h
      cases h
    · intro hfits
      cases hupdate.mpr ⟨hfits.title, hfits.descriptionMd⟩
  | some b =>
    obtain ⟨htitle, htext⟩ := hupdate.mp (by rw [hb]; rfl)
    have hproblem := any_updateProblem hin hb
    have hschema := (schema_updateProblem h hb).1.deleteProblemTags problemId
    -- the problem has no tag when the new ones are added
    have hfree (key : Bytes) :
        ¬ Uses weight { s with rows := b.deleteProblemTags problemId } problemId key := by
      rintro ⟨l, hl, hid, -⟩
      exact bne_iff_ne.mp (List.mem_filter.mp hl).2 hid
    refine (addParts_isSome_iff
      (f := fun t => { t with rows := t.rows.deleteTestcases problemId })
      (fun t => ⟨rfl, rfl⟩) hschema hproblem hfree htags hcases).trans ?_
    constructor
    · rintro ⟨hall, hdistinct, hcases⟩
      exact ⟨htitle, htext, hall, hdistinct, hcases⟩
    · intro hfits
      exact ⟨hfits.tags, hfits.distinct, hfits.testcases⟩

end Store

variable {m : Mysql} {w : World} {problemId : Nat} {input : ProblemInput}

theorem reports_problemExists (problemId : Nat) :
    Reports m (problemExists problemId) fun b r => r = (b.problem? problemId).isSome :=
  reports_rowsOf (.selectExists problemId) (fun b => (b.problem? problemId).isSome) rfl
    (fun _ => rfl) "existence check" "existence store"

/-- A problem that is there is changed when nothing keeps the statements from being carried
out. -/
theorem updateProblem_saves (hfails : ∀ n, m.fails n = none) (hw : w.work = none)
    (hin : (w.bank.problem? problemId).isSome = true)
    (hsome : ∀ n, (Store.replaceProblem m.weight m.clock problemId input n
      ⟨w.bank, w.next⟩).isSome) :
    ∃ w', (updateProblem problemId input).run m.exec w = (.ok true, w') := by
  have hquiet : ∀ n k, m.Quiet n k := fun n k i _ => hfails _
  obtain ⟨hsame, ⟨r, hr, hexists⟩ | ⟨-, n, -, -, hn⟩⟩ :=
    reports_problemExists (m := m) problemId w.acquired
  · have hview : w.acquired.view = w.bank := by
      show w.work.getD w.bank = w.bank
      rw [hw, Option.getD_none]
    rw [hview, hin] at hexists
    subst hexists
    rw [updateProblem_eq, run_withLease (hfails _), Program.run_bind]
    cases hrun : (problemExists problemId).run m.exec w.acquired with
    | mk r w₁ =>
      rw [hrun] at hr hsame
      cases hr
      have hwork : w₁.work = none := hsame.work.trans hw
      obtain ⟨s, hs⟩ := Option.isSome_iff_exists.mp (hsome (w₁.calls + 1))
      have hbank : w₁.bank = w.bank := hsame.bank
      have hnext : w₁.next = w.next := hsame.next
      rw [← hbank, ← hnext] at hs
      dsimp only
      rw [if_pos rfl, Program.run_bind, run_transaction_ok implements_updateBody hwork
        (hquiet _ _) (a := ()) (s := s) (by rw [hs]; rfl)]
      exact ⟨_, rfl⟩
  · exact absurd (hfails n) hn

/-! ## Texts in the columns -/

/-- A text that is short enough is kept. -/
theorem fitVarchar_of_length {limit n : Nat} {value : Bytes} (hn : utf8Length value = some n)
    (hle : n ≤ limit) : fitVarchar limit value = some value := by
  unfold fitVarchar
  rw [hn, Option.bind_some]
  dsimp only
  rw [show n - limit = 0 by omega, Nat.sub_zero, List.drop_length, List.take_length]
  rfl

theorem length_of_fitVarchar {limit : Nat} {value : Bytes}
    (h : fitVarchar limit value = some value) : ∃ n, utf8Length value = some n ∧ n ≤ limit := by
  obtain ⟨n, hn, h⟩ := Option.bind_eq_some_iff.mp h
  obtain ⟨-, h⟩ := Option.ite_none_right_eq_some.mp h
  have hlength := congrArg List.length (Option.some.inj h)
  have hle := utf8Length_le hn
  rw [List.length_take] at hlength
  exact ⟨n, hn, by omega⟩

/-- What the column has kept is kept once more. -/
theorem fitText_fitText {value kept : Bytes} (h : fitText value = some kept) :
    fitText kept = some kept := by
  obtain ⟨n, hn, h⟩ := Option.bind_eq_some_iff.mp h
  obtain ⟨hspaces, h⟩ := Option.ite_none_right_eq_some.mp h
  have hkept := Option.some.inj h
  have hlength : kept.length ≤ 65535 := by
    rw [← hkept, List.length_take]
    exact Nat.min_le_left _ _
  have hvalid : (utf8Length kept).isSome := by
    rw [← hkept]
    refine utf8Length_of_append (value.drop 65535) (fun x hx => ?_) ?_
    · rw [eq_of_beq (List.all_eq_true.mp hspaces x hx)]
      decide
    · rw [List.take_append_drop, hn]
      rfl
  obtain ⟨k, hk⟩ := Option.isSome_iff_exists.mp hvalid
  unfold fitText
  rw [hk, Option.bind_some, List.drop_of_length_le hlength, List.take_of_length_le hlength]
  rfl

/-- What a column keeps, it keeps again. -/
theorem fitVarchar_fitVarchar {limit : Nat} {value kept : Bytes}
    (h : fitVarchar limit value = some kept) : fitVarchar limit kept = some kept := by
  obtain ⟨n, hn, h⟩ := Option.bind_eq_some_iff.mp h
  obtain ⟨hspaces, h⟩ := Option.ite_none_right_eq_some.mp h
  have hkept := Option.some.inj h
  have hle := utf8Length_le hn
  -- the characters cut off are spaces, of one byte each
  have hrest : value.drop (value.length - (n - limit)) =
      encode (List.replicate (n - limit) ' ') := by
    rw [encode_replicate_space]
    refine List.eq_replicate_iff.mpr ⟨?_, fun x hx => eq_of_beq (List.all_eq_true.mp hspaces x hx)⟩
    rw [List.length_drop]
    omega
  have hvalue : value = kept ++ encode (List.replicate (n - limit) ' ') := by
    rw [← hkept, ← hrest, List.take_append_drop]
  have hvalid : (utf8Length kept).isSome := by
    refine utf8Length_of_append (encode (List.replicate (n - limit) ' ')) ?_ ?_
    · intro x hx
      rw [encode_replicate_space] at hx
      rw [List.eq_of_mem_replicate hx]
      decide
    · rw [← hvalue, hn]
      rfl
  obtain ⟨s, rfl⟩ := exists_encode hvalid
  rw [hvalue, ← encode_append, utf8Length_encode, Option.some.injEq, List.length_append,
    List.length_replicate] at hn
  exact fitVarchar_of_length (utf8Length_encode s) (by omega)

/-- Cutting off does not make a text empty. -/
theorem ne_nil_of_fitVarchar {limit : Nat} {value kept : Bytes} (hlimit : 0 < limit)
    (hne : value ≠ []) (h : fitVarchar limit value = some kept) : kept ≠ [] := by
  obtain ⟨n, hn, h⟩ := Option.bind_eq_some_iff.mp h
  obtain ⟨-, h⟩ := Option.ite_none_right_eq_some.mp h
  have hle := utf8Length_le hn
  have hpos := List.length_pos_iff.mpr hne
  rw [← List.length_pos_iff, ← Option.some.inj h, List.length_take]
  omega

/-! ## Names of tags -/

/-- Every name is a text as `tags.name` keeps it, and not empty. -/
def Named (b : Bank) : Prop := ∀ t ∈ b.tags, t.name ≠ [] ∧ fitVarchar 64 t.name = some t.name

instance (b : Bank) : Decidable (Named b) :=
  inferInstanceAs (Decidable (∀ t ∈ b.tags, t.name ≠ [] ∧ fitVarchar 64 t.name = some t.name))

namespace Named

variable {weight : Bytes → Bytes} {s s' : Store} {names : List Bytes}

theorem upsertTag {name : Bytes} {tagId : Nat} (h : Named s.rows) (hname : name ≠ [])
    (hs : s.upsertTag weight name = some (tagId, s')) : Named s'.rows := by
  obtain ⟨kept, hkept, -, ⟨t, -, -, rfl⟩ | ⟨-, -, rfl⟩⟩ := Store.upsertTag_eq_some_iff.mp hs
  · exact h
  · intro t ht
    rcases List.mem_append.mp ht with ht | ht
    · exact h t ht
    · rw [List.mem_singleton.mp ht]
      exact ⟨ne_nil_of_fitVarchar (by decide) hname hkept, fitVarchar_fitVarchar hkept⟩

theorem addTags (h : Named s.rows) (hnames : ∀ name ∈ names, name ≠ [])
    (hs : s.addTags weight problemId names = some s') : Named s'.rows := by
  induction names generalizing s with
  | nil =>
    cases hs
    exact h
  | cons name names ih =>
    obtain ⟨hname, hrest⟩ := List.forall_mem_cons.mp hnames
    obtain ⟨⟨tagId, t⟩, hup, hs⟩ := Option.bind_eq_some_iff.mp hs
    obtain ⟨u, hlink, hs⟩ := Option.bind_eq_some_iff.mp hs
    obtain ⟨-, -, -, rfl⟩ := Store.linkTag_eq_some_iff.mp hlink
    have hnamed : Named t.rows := h.upsertTag hname hup
    exact ih (by exact hnamed) hrest hs

end Named

/-- A problem that is created leaves no tag without a name. -/
theorem named_createProblem {w' : World} (hw : w.work = none) (h : Named w.bank)
    (htags : ∀ name ∈ input.tags, name ≠ [])
    (hrun : (createProblem input).run m.exec w = (.ok problemId, w')) : Named w'.bank := by
  obtain ⟨n, s, hs, hbank, -⟩ := addProblem_of_createProblem hw hrun
  obtain ⟨⟨id, t⟩, hinsert, hrest⟩ := Option.bind_eq_some_iff.mp hs
  obtain ⟨u, hadd, hrest⟩ := Option.bind_eq_some_iff.mp hrest
  obtain ⟨v, hcases, hdone⟩ := Option.bind_eq_some_iff.mp hrest
  cases hdone
  obtain ⟨_, _, _, _, _, _, rfl⟩ := Store.insertProblem_eq_some_iff.mp hinsert
  obtain ⟨-, hsame, -, -⟩ := Store.addTestcases_spec hcases
  have hadded : Named u.rows := Named.addTags (by exact h) htags hadd
  intro t ht
  rw [← hbank, hsame] at ht
  exact hadded t ht

/-- Nor does one that is changed. -/
theorem named_updateProblem {w' : World} {changed : Bool} (hw : w.work = none) (h : Named w.bank)
    (htags : ∀ name ∈ input.tags, name ≠ [])
    (hrun : (updateProblem problemId input).run m.exec w = (.ok changed, w')) : Named w'.bank := by
  obtain ⟨hdone, -⟩ := replaced_of_updateProblem hw hrun
  cases changed with
  | false =>
    have hsame : w'.bank = w.bank := hdone
    rw [hsame]
    exact h
  | true =>
    obtain ⟨hin, n, s, hs, hbank⟩ := hdone
    obtain ⟨b, hupdate, hrest⟩ := Option.bind_eq_some_iff.mp hs
    obtain ⟨t, hadd, hcases⟩ := Option.bind_eq_some_iff.mp hrest
    obtain ⟨-, hb, -, -⟩ := Store.updateProblem_spec hin hupdate
    obtain ⟨-, hsame, -, -⟩ := Store.addTestcases_spec hcases
    have hbefore : Named (b.deleteProblemTags problemId) := fun t ht => h t (hb ▸ ht)
    have hadded : Named t.rows := Named.addTags (by exact hbefore) htags hadd
    intro t' ht
    rw [← hbank, hsame] at ht
    exact hadded t' ht

end MiniOj.Db
