import MiniOj.Http.Outages
import MiniOj.Http.Properties.Sessions

/-!
# Whether a logout has worked

`deleteSession` is `noexcept`: a failure is the value `false`, which `logoutHandler` does not
look at. The answer is 200 in any case.

* `run_logout` — the rows afterwards
* `logout_works_iff` — when the answer 200 is true
* `logout_answers_ok` — a session that is still there
-/

namespace MiniOj.Http

open Infra Db

variable {env : Env} {lost : Nat → Option Bytes} {cfg : Config} {b b' : Backend} {req : Request}
  {id : Bytes}

/-! ## The lookup afterwards -/

/-- No lookup of the id finds a user, whatever becomes of its calls. -/
def FindsNobody (b : Backend) (id : Bytes) : Prop :=
  ∀ (env : Env) (user : UserSummary),
    ((findUserByValidSessionId id).run env.exec b).1 ≠ .ok (some user)

theorem findsNobody_iff : FindsNobody b id ↔ found b id = none := by
  constructor
  · intro h
    rcases lookup_outcome calmEnv b id with hok | ⟨-, hno⟩
    · cases hfound : found b id with
      | none => rfl
      | some user => exact absurd (hok.trans (congrArg _ hfound)) (h calmEnv user)
    · exact absurd (fun _ _ => rfl) hno
  · intro h env user hrun
    rcases lookup_outcome env b id with hok | ⟨⟨e, he⟩, -⟩
    · cases (hok.symm.trans hrun).symm.trans (congrArg _ h)
    · cases he.symm.trans hrun

theorem found_congr (ha : b'.accounts = b.accounts) (hnow : b'.now = b.now) :
    found b' id = found b id := by
  unfold found Backend.utc
  rw [ha, hnow]

theorem found_deleted (h : b'.accounts = (b.accounts.deleteSession id).2) :
    found b' id = none := by
  unfold found
  split
  · rw [h, AccountTables.sessionUser_deleted]
    rfl
  · rfl

/-! ## The logout -/

/-- The pool has a connection and the `DELETE` is carried out. -/
def Deletes (env : Env) (b : Backend) : Prop :=
  env.mysql.fails b.db.calls = none ∧ env.mysql.fails (b.db.calls + 1) = none

instance : Decidable (Deletes env b) := inferInstanceAs (Decidable (_ ∧ _))

/-- `deleteSession` returns, and the row is gone or everything is as before. -/
theorem run_deleteSession (env : Env) (lost : Nat → Option Bytes) (b : Backend)
    (hid : Auth.isSessionIdShape id = true) :
    ∃ deleted b', (deleteSession id).run (env.execLosing lost) b = (.ok deleted, b') ∧
      b'.now = b.now ∧
      b'.accounts = if Deletes env b then (b.accounts.deleteSession id).2 else b.accounts := by
  unfold deleteSession
  rw [hid, Bool.not_true, if_neg Bool.false_ne_true, Program.run_tryCatch]
  by_cases hacquire : env.mysql.fails b.db.calls = none
  · rw [run_withLease_held hacquire, Program.run_call, execLosing_deleteSession]
    by_cases hdelete : env.mysql.fails (b.db.calls + 1) = none
    · rw [if_pos ⟨hacquire, hdelete⟩, changeLosing_done hdelete rfl]
      cases hl : lost b.acquired.db.calls with
      | none => exact ⟨_, _, rfl, rfl, rfl⟩
      | some error => exact ⟨_, _, rfl, rfl, rfl⟩
    · rw [if_neg fun h => hdelete h.2]
      obtain ⟨e, he⟩ := changeLosing_undone env lost (.deleteSession id)
        (fun _ a => .ok (a.deleteSession id)) (b := b.acquired) fun hf => absurd hf hdelete
      rw [he]
      exact ⟨_, _, rfl, rfl, rfl⟩
  · rw [if_neg fun h => hacquire h.1]
    obtain ⟨e, he⟩ := run_withLease_refused env lost hacquire
    rw [he]
    exact ⟨_, _, rfl, rfl, rfl⟩

/-- The answer is 200 whatever has happened. -/
theorem run_logout (env : Env) (lost : Nat → Option Bytes) (cfg : Config) (b : Backend)
    (hreq : parseSessionId req = some id) :
    ∃ res b', (logoutHandler cfg req).run (env.execLosing lost) b = (.ok res, b') ∧
      res.status = 200 ∧ b'.now = b.now ∧
      b'.accounts = if Deletes env b then (b.accounts.deleteSession id).2 else b.accounts := by
  have hid : Auth.isSessionIdShape id = true := (Option.filter_eq_some_iff.mp hreq).2
  obtain ⟨deleted, b', hrun, hnow, haccounts⟩ := run_deleteSession env lost b hid
  unfold logoutHandler
  rw [hreq]
  have hanswer := Program.run_bind (env.execLosing lost) (deleteSession id) (fun _ => Program.ret
    (clearSessionCookie (writeJson 200 (.object [(utf8 "status", .string (utf8 "ok"))]))
      cfg.session)) b
  rw [hrun] at hanswer
  exact ⟨_, b', hanswer, rfl, hnow, haccounts⟩

/-- An answer 200 is true, and every other answer is 500. -/
def LogoutWorks (id : Bytes) (x : Except Exn Response × Backend) : Prop :=
  ∃ res, x.1 = .ok res ∧ (res.status = 200 ∧ FindsNobody x.2 id ∨ res.status = 500)

/-- **A logout works, or says so, exactly when the `DELETE` is carried out or there is no valid
session to delete.** -/
theorem logout_works_iff (env : Env) (lost : Nat → Option Bytes) (cfg : Config) (b : Backend)
    (req : Request) (id : Bytes) (hreq : parseSessionId req = some id) :
    LogoutWorks id ((logoutHandler cfg req).run (env.execLosing lost) b) ↔
      Deletes env b ∨ found b id = none := by
  obtain ⟨res, b', hrun, hstatus, hnow, haccounts⟩ := run_logout env lost cfg b hreq
  unfold LogoutWorks
  rw [hrun]
  by_cases hdeletes : Deletes env b
  · rw [if_pos hdeletes] at haccounts
    refine ⟨fun _ => .inl hdeletes, fun _ => ⟨res, rfl, .inl ⟨hstatus, ?_⟩⟩⟩
    exact findsNobody_iff.mpr (found_deleted haccounts)
  · rw [if_neg hdeletes] at haccounts
    rw [or_iff_right hdeletes, ← found_congr haccounts hnow, ← findsNobody_iff]
    constructor
    · rintro ⟨res', hres, ⟨-, hnobody⟩ | h500⟩
      · exact hnobody
      · cases hres
        rw [hstatus] at h500
        cases h500
    · exact fun hnobody => ⟨res, rfl, .inl ⟨hstatus, hnobody⟩⟩

/-! ## A session that is still there -/

/-- Alice is logged in. -/
def loggedIn : Backend :=
  { oneProblem with
    accounts := ⟨[⟨1, utf8 "alice", [], .user, 0⟩], [⟨zeroId, 1, 604800, 0⟩], 2⟩ }

def leaving : Request where
  method := utf8 "POST"
  path := utf8 "/api/auth/logout"
  headers := [(utf8 "Cookie", utf8 "minioj_sid=" ++ zeroId)]
  remoteAddr := utf8 "192.0.2.1"

/-- The connection is lost at the second call. -/
def deleteFails : Env :=
  { calmEnv with mysql := { Mysql.healthy with fails := fun n => if n = 1 then some [] else none } }

theorem logout_works_iff_leaving :
    LogoutWorks zeroId ((logoutHandler bareConfig leaving).run
      (calmEnv.execLosing fun _ => none) loggedIn) ↔
        Deletes calmEnv loggedIn ∨ found loggedIn zeroId = none :=
  logout_works_iff calmEnv (fun _ => none) bareConfig loggedIn leaving zeroId (by decide +kernel)

/-- The answer is 200, and the session goes on. -/
theorem logout_answers_ok :
    ∃ res b', (logoutHandler bareConfig leaving).run (deleteFails.execLosing fun _ => none)
        loggedIn = (.ok res, b') ∧ res.status = 200 ∧
      ((findUserByValidSessionId zeroId).run calmEnv.exec b').1 =
        .ok (some { id := 1, username := utf8 "alice", role := .user }) :=
  ⟨_, _, rfl, by decide +kernel, by decide +kernel⟩

end MiniOj.Http
