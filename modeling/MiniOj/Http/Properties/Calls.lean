import MiniOj.Db.Properties.Reading
import MiniOj.Http.Router

/-!
# Which calls a handler makes

* `Call.Reads` — the calls that leave all six tables as they are
* `reads_of_get` — the handlers of `GET` and `HEAD` make no others, and neither do the guards
* `Routed` — which handlers a request can reach
-/

namespace MiniOj.Http

open Infra Db

/-- Calls that change no table. -/
def Call.Reads : Call → Prop
  | bank st => st.Quiet
  | insertUser .. | insertSession .. | deleteSession _ => False
  | _ => True

/-- The same rows in all six tables. -/
structure Backend.SameTables (b b' : Backend) : Prop where
  bank : b'.db.bank = b.db.bank
  accounts : b'.accounts = b.accounts

variable {env : Env} {cfg : Config} {req : Request} {α : Type} {ok : Call → Prop}

/-- A call that reads leaves all tables as they are. -/
theorem exec_reads (env : Env) {c : Call} (h : c.Reads) (b : Backend) :
    b.SameTables (env.exec c b).2 := by
  cases c with
  | bank st =>
    refine ⟨?_, rfl⟩
    rcases env.mysql.exec_cases st b.db with ⟨r, w, hp, he⟩ | ⟨e, he⟩
    · obtain ⟨hbank, -⟩ := Mysql.perform_quiet h hp
      simp only [Env.exec, he, hbank]
    · simp only [Env.exec, he]
  | insertUser | insertSession | deleteSession => exact h.elim
  | selectProblems | selectSamples | selectUser | selectSessionUser =>
    unfold Env.exec
    rw [Env.query_snd]
    exact ⟨rfl, rfl⟩
  | now | random | rateLimit | judge => exact ⟨rfl, rfl⟩

/-- **A program that only reads** leaves the tables as they are. -/
theorem run_reads {p : Handler α} (hp : p.Only Call.Reads) (b : Backend) :
    b.SameTables (p.run env.exec b).2 :=
  hp.run (I := b.SameTables) (fun _ b' hc hb =>
    let h := exec_reads env hc b'
    ⟨h.bank.trans hb.bank, h.accounts.trans hb.accounts⟩) ⟨rfl, rfl⟩

/-! ## Rules -/

/-- The calls of a function on the bank are its statements. -/
theorem only_ofDao {okSt : Statement → Prop} (h : ∀ st, okSt st → ok (.bank st)) {p : Dao α}
    (hp : p.Only okSt) : (ofDao p).Only ok := by
  induction p with
  | ret a => trivial
  | throw e => trivial
  | call st k ih => exact ⟨h st hp.1, fun r => ih r (hp.2 r)⟩

/-- A lease adds the calls that take and return the connection. -/
theorem only_withLease (ha : ok (.bank .acquire)) (hr : ok (.bank .release)) {body : Handler α}
    (hb : body.Only ok) : (withLease body).Only ok := by
  refine ⟨ha, fun r => ?_⟩
  cases r with
  | error e => trivial
  | ok _ => exact hb.andFinally ⟨hr, fun _ => trivial⟩

/-- Refusing a body calls nothing. -/
theorem only_refuseInvalid (e : Exn) : (refuseInvalid e).Only ok := by
  unfold refuseInvalid
  split <;> trivial

/-- A handler of exceptions adds no calls. -/
theorem only_attempt {p : Handler α} {refuse : Exn → Response} (hp : p.Only ok) :
    (attempt p refuse).Only ok := by
  refine Program.Only.tryCatch (Program.Only.bind hp fun a => ?_) fun e => ?_ <;> trivial

/-- An exception becomes the answer that is made of it. -/
theorem run_attempt (exec : (c : Call) → Backend → c.Reply × Backend) (p : Handler α)
    (refuse : Exn → Response) (b : Backend) : (attempt p refuse).run exec b =
      match p.run exec b with
      | (.ok a, b') => (.ok (.ok a), b')
      | (.error e, b') => (.ok (.error (refuse e)), b') := by
  rw [attempt, Program.run_tryCatch, Program.run_bind]
  generalize p.run exec b = x
  obtain ⟨x, b'⟩ := x
  cases x <;> rfl

/-- Nothing is called to turn the answer of a query into an exception. -/
theorem only_orThrow {context : String} (r : Except SqlError α) : (orThrow context r).Only ok := by
  cases r <;> trivial

theorem only_ofExcept (r : Except Exn α) : (ofExcept r).Only ok := by cases r <;> trivial

/-! ## The problem DAO -/

/-- A query, with the result stored and freed. -/
theorem quiet_rowsOf (st : Statement) (h : st.Quiet) (context store : String) :
    (rowsOf st context store).Only Statement.Quiet := by
  refine ⟨h, fun r => ?_⟩
  cases r with
  | error e => trivial
  | ok rows =>
    refine ⟨trivial, fun r => ?_⟩
    cases r with
    | error e => trivial
    | ok res => exact ⟨trivial, fun _ => trivial⟩

theorem quiet_tagsWithIdForProblem (problemId : Nat) :
    (tagsWithIdForProblem problemId).Only Statement.Quiet :=
  Program.Only.bind (quiet_rowsOf (.selectTags problemId) trivial _ _) fun _ => trivial

/-- Tags and testcases of a row are read by queries. -/
theorem quiet_detailOf (p : ProblemRow) : (detailOf p).Only Statement.Quiet := by
  refine Program.Only.bind (quiet_tagsWithIdForProblem p.id) fun tags => ?_
  refine Program.Only.bind (Program.Only.bind ?_ fun rows => ?_) fun testcases => ?_
  · exact quiet_rowsOf (.selectTestcases p.id) trivial _ _
  · trivial
  · trivial

theorem quiet_executeQuery (st : Statement) (h : st.Quiet) (context : String) :
    (executeQuery st context).Only Statement.Quiet := by
  refine ⟨h, fun r => ?_⟩
  cases r <;> trivial

theorem quiet_storeResult (context : String) :
    (executeQuery .storeResult context).Only Statement.Quiet :=
  quiet_executeQuery .storeResult trivial context

/-- Freeing a result is no statement to the server. -/
theorem quiet_freeResult (res : Nat) : (ignoring (.freeResult res)).Only Statement.Quiet :=
  ⟨trivial, fun _ => trivial⟩

/-- The page of the administration reads only. -/
theorem quiet_getFullProblem (problemId : Nat) :
    (getFullProblem problemId).Only Statement.Quiet := by
  refine ⟨trivial, fun r => ?_⟩
  cases r with
  | error e => trivial
  | ok _ =>
    refine Program.Only.andFinally ?_ ⟨trivial, fun _ => trivial⟩
    refine Program.Only.bind (quiet_executeQuery (.selectProblem problemId) trivial _)
      fun row => Program.Only.bind (quiet_storeResult _) fun res => ?_
    refine Program.Only.bind ?_ fun result => Program.Only.bind (quiet_freeResult res) fun _ => ?_
    · cases row with
      | none => trivial
      | some p => exact Program.Only.bind (quiet_detailOf p) fun _ => trivial
    · trivial

/-- What only reads the bank only reads. -/
theorem reads_ofDao {p : Dao α} (hp : p.Only Statement.Quiet) : (ofDao p).Only Call.Reads :=
  only_ofDao (fun _ h => h) hp

theorem reads_storeResult (context : String) :
    (ofDao (executeQuery .storeResult context)).Only Call.Reads :=
  reads_ofDao (quiet_storeResult context)

theorem reads_freeResult (res : Nat) : (ofDao (ignoring (.freeResult res))).Only Call.Reads :=
  reads_ofDao (quiet_freeResult res)

/-- The end of a query: its result is stored and freed. -/
theorem reads_freed (store : String) (rows : α) : (freed store rows).Only Call.Reads :=
  Program.Only.bind (reads_storeResult store) fun res =>
    Program.Only.bind (reads_freeResult res) fun _ => trivial

/-- A lease changes no table. -/
theorem reads_withLease {body : Handler α} (hb : body.Only Call.Reads) :
    (withLease body).Only Call.Reads := only_withLease trivial trivial hb

theorem reads_summaryOf (p : ProblemRow) : (ofDao (summaryOf p)).Only Call.Reads := by
  refine reads_ofDao (Program.Only.bind (Program.Only.bind ?_ fun rows => ?_) fun tags => ?_)
  · exact quiet_rowsOf (.selectTags p.id) trivial _ _
  · trivial
  · trivial

/-- The list reads only. -/
theorem reads_listProblems (filters : ProblemFilters) : (listProblems filters).Only Call.Reads := by
  refine reads_withLease (Program.Only.bind ⟨trivial, only_orThrow⟩ fun rows => ?_)
  refine Program.Only.bind (reads_storeResult _) fun res => ?_
  refine Program.Only.bind (Program.Only.mapM reads_summaryOf rows) fun summaries => ?_
  exact Program.Only.bind (reads_freeResult res) fun _ => trivial

theorem reads_listFullProblems : listFullProblems.Only Call.Reads := by
  refine reads_withLease (Program.Only.bind ⟨trivial, only_orThrow⟩ fun rows => ?_)
  refine Program.Only.bind (reads_storeResult _) fun res => ?_
  refine Program.Only.bind (Program.Only.mapM ?_ rows) fun result => ?_
  · exact fun p => reads_ofDao (quiet_detailOf p)
  · exact Program.Only.bind (reads_freeResult res) fun _ => trivial

theorem reads_problemDetailOf (p : ProblemRow) : (problemDetailOf p).Only Call.Reads := by
  refine Program.Only.bind (Program.Only.bind ⟨trivial, only_orThrow⟩ fun rows => ?_)
    fun samples => Program.Only.bind (reads_ofDao (quiet_tagsWithIdForProblem p.id)) fun tags => ?_
  · exact reads_freed _ _
  · trivial

theorem reads_getProblemDetail (problemId : Nat) :
    (getProblemDetail problemId).Only Call.Reads := by
  refine reads_withLease (Program.Only.bind (reads_ofDao ?_) fun row => ?_)
  · exact quiet_executeQuery (.selectProblem problemId) trivial _
  refine Program.Only.bind (reads_storeResult _) fun res => ?_
  refine Program.Only.bind ?_ fun result => Program.Only.bind (reads_freeResult res) fun _ => ?_
  · cases row with
    | none => trivial
    | some p => exact Program.Only.bind (reads_problemDetailOf p) fun _ => trivial
  · trivial

/-- Looking a session up does not lengthen it. -/
theorem reads_findUserByValidSessionId (sessionId : Bytes) :
    (findUserByValidSessionId sessionId).Only Call.Reads := by
  unfold findUserByValidSessionId
  split
  · trivial
  · exact reads_withLease (Program.Only.bind ⟨trivial, only_orThrow⟩ fun _ => reads_freed _ _)

theorem reads_findUserByUsername (username : Bytes) :
    (findUserByUsername username).Only Call.Reads :=
  reads_withLease (Program.Only.bind ⟨trivial, only_orThrow⟩ fun _ => reads_freed _ _)

/-! ## Handlers -/

/-- Hashing calls nothing but the random source. -/
theorem reads_hashPassword (cfg : Config) (password : Bytes) :
    (hashPassword cfg password).Only Call.Reads := by
  refine ⟨trivial, fun r => ?_⟩
  cases r with
  | error e => trivial
  | ok bytes => exact only_ofExcept _

/-- A session id that nobody stores changes nothing. -/
theorem reads_generateSessionId : generateSessionId.Only Call.Reads := by
  refine ⟨trivial, fun r => ?_⟩
  cases r <;> trivial

/-- Asking who is logged in changes nothing. -/
theorem reads_meHandler (req : Request) : (meHandler req).Only Call.Reads := by
  unfold meHandler
  split
  · trivial
  · refine Program.Only.tryCatch (Program.Only.bind (reads_findUserByValidSessionId _)
      fun user => ?_) fun _ => trivial
    cases user <;> trivial

/-- A logout deletes the session of its cookie. -/
theorem only_logoutHandler (hr : ∀ c, c.Reads → ok c)
    (hd : ∀ id, parseSessionId req = some id → ok (.deleteSession id)) :
    (logoutHandler cfg req).Only ok := by
  unfold logoutHandler
  split
  · next sessionId hid =>
    refine Program.Only.bind ?_ fun _ => trivial
    unfold deleteSession
    split
    · trivial
    · refine Program.Only.tryCatch (only_withLease (hr _ trivial) (hr _ trivial)
        ⟨hd sessionId hid, fun r => ?_⟩) fun _ => trivial
      cases r <;> trivial
  · trivial

/-- The public list changes nothing. -/
theorem reads_listProblemsHandler (req : Request) : (listProblemsHandler req).Only Call.Reads := by
  unfold listProblemsHandler
  split
  · trivial
  · exact Program.Only.tryCatch ((reads_listProblems _).bind fun _ => trivial) fun _ => trivial

/-- The public page of a problem changes nothing. -/
theorem reads_getProblemHandler (id : Bytes) : (getProblemHandler id).Only Call.Reads := by
  unfold getProblemHandler
  split
  · trivial
  · refine Program.Only.tryCatch ((reads_getProblemDetail _).bind fun detail => ?_) fun _ => trivial
    cases detail <;> trivial

/-- A submission is judged and not stored. -/
theorem reads_submitHandler (cfg : Config) (req : Request) :
    (submitHandler cfg req).Only Call.Reads := by
  unfold submitHandler
  split
  · exact only_refuseInvalid _
  · refine (only_attempt (reads_ofDao (quiet_getFullProblem _))).bind fun full => ?_
    rcases full with res | _ | full
    · trivial
    · trivial
    · dsimp only
      split
      · trivial
      · refine ⟨trivial, fun r => ?_⟩
        cases r <;> trivial

/-- The list of the administration changes nothing. -/
theorem reads_listAdminProblemsHandler : listAdminProblemsHandler.Only Call.Reads :=
  Program.Only.tryCatch (reads_listFullProblems.bind fun _ => trivial) fun _ => trivial

/-- The page of the administration changes nothing. -/
theorem reads_getAdminProblemHandler (id : Bytes) :
    (getAdminProblemHandler id).Only Call.Reads := by
  unfold getAdminProblemHandler
  split
  · trivial
  · refine Program.Only.tryCatch ((reads_ofDao (quiet_getFullProblem _)).bind fun detail => ?_)
      fun _ => trivial
    cases detail <;> trivial

/-- Parsing a problem calls nothing. -/
theorem reads_readProblem (cfg : Config) (req : Request) :
    (readProblem cfg req).Only Call.Reads :=
  Program.Only.bind (only_ofExcept _) fun _ => only_ofExcept _

/-- The guard of the administration looks a session up. -/
theorem reads_checkAdminAuth (req : Request) : (checkAdminAuth req).Only Call.Reads := by
  unfold checkAdminAuth
  split
  · trivial
  · split
    · trivial
    · refine (only_attempt (reads_findUserByValidSessionId _)).bind fun user => ?_
      rcases user with res | _ | user
      · trivial
      · trivial
      · dsimp only
        split <;> trivial

/-- **The guards change no table**, whether they refuse or let through. -/
theorem reads_preRouting (cfg : Config) (req : Request) :
    (preRouting cfg req).Only Call.Reads := by
  refine ⟨trivial, fun r => ?_⟩
  cases r with
  | some refused => trivial
  | none =>
    dsimp only
    split
    · trivial
    · exact reads_checkAdminAuth req

/-- A handler that is found is that of a route whose pattern matches. -/
theorem mem_of_dispatch {table : List Route} {handler : Handler Response}
    (h : dispatch table req = some handler) : ∃ route ∈ table, ∃ params,
      matchPattern route.pattern req.path = some params ∧ handler = route.handler req params := by
  obtain ⟨route, hroute, hmatch⟩ := List.exists_of_findSome?_eq_some h
  obtain ⟨params, hparams, rfl⟩ := Option.map_eq_some_iff.mp hmatch
  exact ⟨route, hroute, params, hparams, rfl⟩

/-- **`GET` handlers only read.** -/
theorem reads_of_get {handler : Handler Response}
    (h : dispatch (allRoutes cfg).get req = some handler) : handler.Only Call.Reads := by
  obtain ⟨route, hroute, params, -, rfl⟩ := mem_of_dispatch h
  simp only [allRoutes, Routes.append, authRoutes, publicRoutes, adminRoutes, List.cons_append,
    List.nil_append, List.mem_cons, List.not_mem_nil, or_false] at hroute
  rcases hroute with rfl | rfl | rfl | rfl | rfl
  · exact reads_meHandler req
  · exact reads_listProblemsHandler req
  · exact reads_getProblemHandler _
  · exact reads_listAdminProblemsHandler
  · exact reads_getAdminProblemHandler _

/-! ## Routes -/

/-- All of the routes of the administration are behind its guard. -/
theorem isAdminPath_of_prefix {path : Bytes} (h : utf8 "/api/admin/" <+: path) :
    isAdminPath path = true := by
  obtain ⟨rest, rfl⟩ := h
  have hlen : (utf8 "/api/admin/").length = 11 := by decide
  unfold isAdminPath
  rw [Bool.and_eq_true, decide_eq_true_iff, beq_iff_eq, List.length_append, hlen]
  exact ⟨Nat.le_add_right 11 _, List.take_left' hlen⟩

/-- A pattern without parameters matches itself only. -/
theorem eq_of_matchPattern {pattern path : Bytes} {params : PathParams}
    (hp : ¬ [47, 58] <:+: pattern) (h : matchPattern pattern path = some params) :
    path = pattern := by
  unfold matchPattern at h
  rw [if_neg hp] at h
  exact (Option.ite_none_right_eq_some.mp h).1

/-- A path that matches a pattern with parameters starts as the pattern does. -/
theorem prefix_of_matchPattern {pattern path fragment : Bytes} {params : PathParams}
    (hp : [47, 58] <:+: pattern)
    (hf : (PathParamsMatcher.ofPattern pattern).staticFragments.head? = some fragment)
    (h : matchPattern pattern path = some params) : fragment <+: path := by
  unfold matchPattern at h
  rw [if_pos hp] at h
  dsimp only at h
  cases hfragments : (PathParamsMatcher.ofPattern pattern).staticFragments with
  | nil =>
    rw [hfragments] at hf
    cases hf
  | cons f fs =>
    rw [hfragments] at hf h
    cases hf
    exact List.isPrefixOf_iff_prefix.mp (Option.ite_none_right_eq_some.mp h).1

/-- **The prefix that the guard looks for covers every route of the administration.** -/
theorem isAdminPath_of_match {pattern path : Bytes} {params : PathParams}
    (hp : pattern ∈ [utf8 "/api/admin/problems", utf8 "/api/admin/reset",
      utf8 "/api/admin/problems/:id"])
    (h : matchPattern pattern path = some params) : isAdminPath path = true := by
  simp only [List.mem_cons, List.not_mem_nil, or_false] at hp
  rcases hp with rfl | rfl | rfl
  · rw [eq_of_matchPattern (by decide) h]
    decide
  · rw [eq_of_matchPattern (by decide) h]
    decide
  · have hprefix : utf8 "/api/admin/problems/" <+: path :=
      prefix_of_matchPattern (by decide) (by decide) h
    exact isAdminPath_of_prefix (List.IsPrefix.trans (by decide) hprefix)

/-- The handlers that a request can reach: those that only read, and the others by name. -/
inductive Routed (cfg : Config) (req : Request) : Handler Response → Prop
  | reads {handler : Handler Response} (h : handler.Only Call.Reads) : Routed cfg req handler
  | register : Routed cfg req (registerHandler cfg req)
  | login (hmethod : req.method = utf8 "POST") (hpath : req.path = utf8 "/api/auth/login") :
    Routed cfg req (loginHandler cfg req)
  | logout : Routed cfg req (logoutHandler cfg req)
  | create (hadmin : isAdminPath req.path = true) : Routed cfg req (createProblemHandler cfg req)
  | reset (hadmin : isAdminPath req.path = true) : Routed cfg req (resetProblemBankHandler cfg)
  | update (raw : Bytes) (hadmin : isAdminPath req.path = true) :
    Routed cfg req (updateProblemHandler cfg req raw)
  | delete (raw : Bytes) (hadmin : isAdminPath req.path = true) :
    Routed cfg req (deleteProblemHandler raw)

/-- **Where a request can lead.** -/
theorem routed_of_handlerOf {handler : Handler Response} (h : handlerOf cfg req = some handler) :
    Routed cfg req handler := by
  obtain ⟨table, htable, hdispatch⟩ := Option.bind_eq_some_iff.mp h
  unfold Routes.table at htable
  split at htable
  · cases htable
    exact .reads (reads_of_get hdispatch)
  · split at htable
    · next hmethod =>
      cases htable
      obtain ⟨route, hroute, params, hmatch, rfl⟩ := mem_of_dispatch hdispatch
      simp only [allRoutes, Routes.append, authRoutes, publicRoutes, adminRoutes, List.cons_append,
        List.nil_append, List.mem_cons, List.not_mem_nil, or_false] at hroute
      rcases hroute with rfl | rfl | rfl | rfl | rfl | rfl
      · exact .register
      · exact .login hmethod (eq_of_matchPattern (by decide) hmatch)
      · exact .logout
      · exact .reads (reads_submitHandler cfg req)
      · exact .create (isAdminPath_of_match (by simp) hmatch)
      · exact .reset (isAdminPath_of_match (by simp) hmatch)
    · split at htable
      · cases htable
        obtain ⟨route, hroute, params, hmatch, rfl⟩ := mem_of_dispatch hdispatch
        cases List.mem_singleton.mp hroute
        exact .update _ (isAdminPath_of_match (by simp) hmatch)
      · split at htable
        · cases htable
          obtain ⟨route, hroute, params, hmatch, rfl⟩ := mem_of_dispatch hdispatch
          cases List.mem_singleton.mp hroute
          exact .delete _ (isAdminPath_of_match (by simp) hmatch)
        · obtain ⟨-, hs⟩ := Option.ite_none_right_eq_some.mp htable
          cases hs
          cases hdispatch

end MiniOj.Http
