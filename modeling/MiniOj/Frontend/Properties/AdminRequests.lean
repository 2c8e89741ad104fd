import MiniOj.Db.Spec.ProblemSet
import MiniOj.Frontend.Properties.AdminList
import MiniOj.Frontend.Properties.Requests

/-!
# From the list for administrators to the handlers

* `Deletion` — what a deletion does to the problems
* `row_buttons` — the buttons of a row edit and delete the problem that it shows
-/

namespace MiniOj.Frontend

open Infra Db Http AdminEdit

/-! ## Routes -/

/-- A pattern with a parameter whose static part does not begin the path. -/
theorem matchPattern_other {pattern fragment path raw : Bytes} (n : Nat) (hn : n ≤ path.length)
    (hfragment : n ≤ fragment.length) (hne : path.take n ≠ fragment.take n)
    (hparam : [47, 58] <:+: pattern)
    (hmatcher : PathParamsMatcher.ofPattern pattern = ⟨[fragment], [utf8 "id"]⟩) :
    matchPattern pattern (path ++ raw) = none := by
  have hprefix : ¬ fragment.isPrefixOf (path ++ raw) = true := by
    rw [List.isPrefixOf_iff_prefix]
    rintro ⟨rest, heq⟩
    have htake := congrArg (List.take n) heq
    rw [List.take_append_of_le_length hn, List.take_append_of_le_length hfragment] at htake
    exact hne htake.symm
  unfold matchPattern
  rw [if_pos hparam, hmatcher]
  dsimp only
  rw [matchFragments, if_neg hprefix]

section Routes

variable {cfg : Config} {req : Request} {raw : Bytes}

theorem matchPattern_adminProblem (h : 47 ∉ raw) :
    matchPattern (utf8 "/api/admin/problems/:id") (utf8 "/api/admin/problems/" ++ raw) =
      some [(utf8 "id", raw)] := matchPattern_item (by decide) (by decide) h

theorem handlerOf_getAdminProblem (hmethod : req.method = utf8 "GET")
    (hpath : req.path = utf8 "/api/admin/problems/" ++ raw) (h : 47 ∉ raw) :
    handlerOf cfg req = some (getAdminProblemHandler raw) := by
  have hme : matchPattern (utf8 "/api/auth/me") (utf8 "/api/admin/problems/" ++ raw) = none :=
    matchPattern_none 7 (by decide) (by decide) (by decide)
  have hlist : matchPattern (utf8 "/api/problems") (utf8 "/api/admin/problems/" ++ raw) = none :=
    matchPattern_none 6 (by decide) (by decide) (by decide)
  have hproblem : matchPattern (utf8 "/api/problems/:id") (utf8 "/api/admin/problems/" ++ raw) =
      none := by
    have hmatcher : PathParamsMatcher.ofPattern (utf8 "/api/problems/:id") =
        ⟨[utf8 "/api/problems/"], [utf8 "id"]⟩ := by decide
    exact matchPattern_other 6 (by decide) (by decide) (by decide) (by decide) hmatcher
  have hadmin : matchPattern (utf8 "/api/admin/problems") (utf8 "/api/admin/problems/" ++ raw) =
      none := matchPattern_none 20 (by decide) (by decide) (by decide)
  unfold handlerOf Routes.table
  rw [hmethod, if_pos (.inl rfl), Option.bind_some]
  show dispatch (⟨utf8 "/api/auth/me", _⟩ :: ⟨utf8 "/api/problems", _⟩ ::
    ⟨utf8 "/api/problems/:id", _⟩ :: ⟨utf8 "/api/admin/problems", _⟩ ::
    ⟨utf8 "/api/admin/problems/:id", _⟩ :: _) req = _
  unfold dispatch
  rw [hpath, List.findSome?_cons, hme, List.findSome?_cons, hlist, List.findSome?_cons, hproblem,
    List.findSome?_cons, hadmin, List.findSome?_cons, matchPattern_adminProblem h]
  rfl

theorem handlerOf_deleteProblem (hmethod : req.method = utf8 "DELETE")
    (hpath : req.path = utf8 "/api/admin/problems/" ++ raw) (h : 47 ∉ raw) :
    handlerOf cfg req = some (deleteProblemHandler raw) := by
  unfold handlerOf Routes.table
  rw [hmethod, if_neg (by decide), if_neg (by decide), if_neg (by decide), if_pos rfl,
    Option.bind_some]
  show dispatch (⟨utf8 "/api/admin/problems/:id", _⟩ :: _) req = _
  unfold dispatch
  rw [hpath, List.findSome?_cons, matchPattern_adminProblem h]
  rfl

end Routes

/-! ## Deletion -/

section Deletion

variable {lost : Nat → Option Bytes}

theorem perform_deleteProblem (m : Mysql) {w : World} (hw : w.work = none) (id : Nat) :
    m.perform w (.deleteProblem id) = some (w.bank.problems.countP fun p => p.id == id,
      { w with bank := w.bank.deleteProblems fun p => p.id == id }) := by
  rw [Mysql.perform, World.view, World.setRows, hw]
  rfl

/-- The calls are the lease, the `DELETE`, which commits at once, and the release. -/
theorem run_deleteProblem (m : Mysql) (lost : Nat → Option Bytes) {w : World}
    (hw : w.work = none) (id : Nat) :
    let after := (deleteProblem id).run (m.execLosing lost) w
    after.2.work = none ∧
      ((after.1 = .ok (decide (0 < w.bank.problems.countP fun p => p.id == id)) ∧
          after.2.bank = w.bank.deleteProblems fun p => p.id == id) ∨
        (∃ e, after.1 = .error e) ∧
          ((m.fails w.calls ≠ none ∨ m.fails (w.calls + 1) ≠ none) ∧ after.2.bank = w.bank ∨
            lost (w.calls + 1) ≠ none ∧
              after.2.bank = w.bank.deleteProblems fun p => p.id == id)) := by
  unfold deleteProblem
  by_cases hacquire : m.fails w.calls = none
  · have hperform := perform_deleteProblem m (w := w.acquired) hw id
    rw [run_withLease_held hacquire, Program.run_bind]
    by_cases hdelete : m.fails (w.calls + 1) = none ∧ lost (w.calls + 1) = none
    · rw [run_executeQuery_through hdelete.1 hdelete.2 hperform]
      exact ⟨hw, .inl ⟨rfl, rfl⟩⟩
    · obtain ⟨e, w', hrun, hbank, hwork⟩ :=
        run_executeQuery_stopped (w := w.acquired) "problem delete" rfl hw hperform hdelete
      rw [hrun]
      refine ⟨hwork, .inr ⟨⟨e, rfl⟩, ?_⟩⟩
      by_cases hf : m.fails w.acquired.calls = none
      · rw [if_pos hf] at hbank
        exact .inr ⟨fun hl => hdelete ⟨hf, hl⟩, hbank⟩
      · rw [if_neg hf] at hbank
        exact .inl ⟨.inr hf, hbank⟩
  · obtain ⟨e, he⟩ := run_withLease_refused (m := m) (p := do
      let affected : Nat ← executeQuery (.deleteProblem id) "problem delete"
      return decide (0 < affected)) hacquire
    rw [he]
    exact ⟨hw, .inr ⟨⟨e, rfl⟩, .inl ⟨.inl hacquire, rfl⟩⟩⟩

/-- What a deletion comes to. The calls that can fail are the lease and the `DELETE`. -/
inductive Deletion (env : Env) (lost : Nat → Option Bytes) (b : Backend) (id : Nat)
    (after : Except Exn Response × Backend) : Prop where
  /-- the problem is removed, and no other -/
  | done (hres : after.1 = .ok { status := 204 })
      (hset : after.2.db.view.problemSet env.mysql.weight =
        Function.update (b.db.view.problemSet env.mysql.weight) id none)
  /-- one of these calls fails, and nothing is removed -/
  | failed (e : Exn) (hres : after.1 = .ok (databaseError e))
      (hfails : env.mysql.fails b.db.calls ≠ none ∨ env.mysql.fails (b.db.calls + 1) ≠ none)
      (hset : after.2.db.view.problemSet env.mysql.weight =
        b.db.view.problemSet env.mysql.weight)
  /-- the `DELETE` is carried out, and the handler does not learn it -/
  | unheard (e : Exn) (hres : after.1 = .ok (databaseError e))
      (hlost : lost (b.db.calls + 1) ≠ none)
      (hset : after.2.db.view.problemSet env.mysql.weight =
        Function.update (b.db.view.problemSet env.mysql.weight) id none)

/-- **Deleting a problem** takes it from the problems and leaves the others, or fails and leaves
all. -/
theorem run_deleteProblemHandler {env : Env} {b : Backend} {raw : Bytes} {id : Nat}
    (hraw : parseProblemId raw = some id) (hw : b.db.work = none)
    (hin : b.db.view.problemSet env.mysql.weight id ≠ none) :
    Deletion env lost b id ((deleteProblemHandler raw).run (env.execLosing lost) b) := by
  have hview : b.db.view = b.db.bank := view_of_none hw
  have hcount : (b.db.bank.problems.countP fun p => p.id == id) ≠ 0 := by
    intro hzero
    refine hin (detail_eq_none_iff.mpr fun p hp hid => ?_)
    rw [hview] at hp
    exact List.countP_eq_zero.mp hzero p hp (beq_iff_eq.mpr hid)
  unfold deleteProblemHandler
  rw [hraw]
  dsimp only
  rw [Program.run_tryCatch, Program.run_bind, run_ofDao_losing]
  obtain ⟨hwork, hrun⟩ := run_deleteProblem env.mysql lost hw id
  generalize (deleteProblem id).run (env.mysql.execLosing lost) b.db = x at hwork hrun
  obtain ⟨x, w⟩ := x
  have hview' : w.view = w.bank := view_of_none hwork
  rcases hrun with ⟨hok, hbank⟩ | ⟨⟨e, he⟩, ⟨hfails, hbank⟩ | ⟨hlost, hbank⟩⟩
  · rw [decide_eq_true (Nat.pos_of_ne_zero hcount)] at hok
    cases hok
    refine .done rfl ?_
    show w.view.problemSet _ = _
    rw [hview, hview', hbank, problemSet_deleteProblem]
  · cases he
    refine .failed e rfl hfails ?_
    show w.view.problemSet _ = _
    rw [hview, hview', hbank]
  · cases he
    refine .unheard e rfl hlost ?_
    show w.view.problemSet _ = _
    rw [hview, hview', hbank, problemSet_deleteProblem]

end Deletion

/-! ## The buttons -/

theorem parseTarget_adminProblem (n : Nat) :
    parseTarget (requestTarget (adminProblemAddress (numberText n))) =
      (utf8 "/api/admin/problems/" ++ encode (numberText n), []) := by
  obtain ⟨hdot, hdots, -⟩ := numberText_plain n
  have haddress : adminProblemAddress (numberText n) =
      pathOf ([utf8 "api", utf8 "admin", utf8 "problems"] ++
        [encodeURIComponent (numberText n)]) := by
    show _ = 47 :: utf8 "api" ++ (47 :: utf8 "admin" ++ (47 :: utf8 "problems" ++
      (47 :: encodeURIComponent (numberText n) ++ [])))
    rw [List.append_nil]
    rfl
  rw [haddress, parseTarget_item (by decide) hdot hdots]
  rfl

/-- What the row of a problem gives its buttons is the number of the problem. -/
theorem row_buttons (env : Env) (lost : Nat → Option Bytes) (cfg : Config) (b : Backend)
    (d : AdminProblemDetail) (remoteAddr : Bytes) (headers : List (Bytes × Bytes))
    (h : Schema env.mysql.weight b.db.store) (hw : b.db.work = none)
    (hd : d ∈ details env.mysql.weight b.db.view) (hid : d.id < 2 ^ 53) :
    ∃ search id editing deleting,
      ("href", "/admin/edit.html?".toList ++ search) ∈
        AdminList.editAttributes (numberShown (d.id % UInt64.size)) ∧
      searchParam (encode search) "id" = some (encode id) ∧
      handlerOf cfg (fetched "GET" (adminProblemAddress id) remoteAddr headers) = some editing ∧
      Answered env b editing (writeJson 200 (Dto.ofAdminDetail d)) ∧
      ("data-id", id) ∈
        AdminList.deleteAttributes (numberShown (d.id % UInt64.size)) (decode d.title) ∧
      handlerOf cfg (fetched "DELETE" (adminProblemAddress id) remoteAddr headers) =
        some deleting ∧
      Deletion env lost b d.id (deleting.run (env.execLosing lost) b) := by
  have hsize : d.id % UInt64.size = d.id := Nat.mod_eq_of_lt (hid.trans (by decide))
  have hraw := parseProblemId_numberText (hid.trans (by decide : 2 ^ 53 < 2 ^ 64))
  have hdetail : b.db.view.detail env.mysql.weight d.id = some d := detail_of_mem_details h hd
  have hslash : 47 ∉ encode (numberText d.id) := notMem_encode_slash (numberText_plain d.id).2.2
  have hget := fetched_of_parseTarget (parseTarget_adminProblem d.id) "GET" remoteAddr headers
  have hdelete := fetched_of_parseTarget (parseTarget_adminProblem d.id) "DELETE" remoteAddr headers
  have hediting := answered_admin hraw env b
  rw [hdetail] at hediting
  have hin : b.db.view.problemSet env.mysql.weight d.id ≠ none := by
    rw [Bank.problemSet, hdetail]
    exact Option.some_ne_none d
  rw [hsize, numberShown_of_lt hid]
  refine ⟨"id=".toList ++ numberText d.id, numberText d.id, _, _, ?_, searchParam_numberText d.id,
    handlerOf_getAdminProblem hget.1 hget.2.1 hslash, hediting, ?_,
    handlerOf_deleteProblem hdelete.1 hdelete.2.1 hslash, run_deleteProblemHandler hraw hw hin⟩
  · exact List.mem_cons_of_mem _ (List.mem_singleton.mpr rfl)
  · simp [AdminList.deleteAttributes, numberText]

/-- The answer to the second call is lost. -/
def secondLost (n : Nat) : Option Bytes := if n = 1 then some [] else none

theorem row_buttons_shared :
    let d : AdminProblemDetail :=
      ⟨1, utf8 "A+B", [], .easy, 500, 256, [⟨1, utf8 "math"⟩], []⟩
    ∃ search id editing deleting,
      ("href", "/admin/edit.html?".toList ++ search) ∈
        AdminList.editAttributes (numberShown (d.id % UInt64.size)) ∧
      searchParam (encode search) "id" = some (encode id) ∧
      handlerOf bareConfig (fetched "GET" (adminProblemAddress id) [] []) = some editing ∧
      Answered calmEnv sharedTag editing (writeJson 200 (Dto.ofAdminDetail d)) ∧
      ("data-id", id) ∈
        AdminList.deleteAttributes (numberShown (d.id % UInt64.size)) (decode d.title) ∧
      handlerOf bareConfig (fetched "DELETE" (adminProblemAddress id) [] []) = some deleting ∧
      Deletion calmEnv secondLost sharedTag d.id
        (deleting.run (calmEnv.execLosing secondLost) sharedTag) :=
  row_buttons calmEnv secondLost bareConfig sharedTag
    ⟨1, utf8 "A+B", [], .easy, 500, 256, [⟨1, utf8 "math"⟩], []⟩
    [] [] ⟨by decide, by decide, by decide, by decide, by decide, by decide, by decide, by decide,
      by decide, by decide, by decide⟩ rfl (by decide) (by decide)

end MiniOj.Frontend
