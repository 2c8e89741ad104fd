import MiniOj.Db.Spec.Accounts
import MiniOj.Http.Outages
import MiniOj.Http.Properties.CrossOrigin
import MiniOj.Http.Server

/-!
# Sessions over time

Which user a session id stands for is settled by what has been created and deleted before, and
by the clock.

* `Opened` — a session has been created and not deleted since
* `Recorded` — the rows of an id are what the log says of it
* `follows_routing` — no request inserts a session with another id shape or another expiry
* `lookup_outcome` — what the lookup answers, and when it throws
* `session_lookup_iff`
-/

namespace MiniOj.Http

open Infra Db

/-! ## The log -/

/-- `createSession` has inserted the id for the user at `t₀`, and no `deleteSession` of it has
succeeded since. -/
def Opened (log : List SessionEvent) (id : Bytes) (userId t₀ : Nat) : Prop :=
  ∃ before after, log = before ++ .created id userId t₀ :: after ∧ .deleted id ∉ after

variable {log : List SessionEvent} {id : Bytes} {userId t₀ : Nat}

/-- Nothing is open before the first event. -/
theorem not_opened_nil : ¬ Opened [] id userId t₀ := by
  rintro ⟨before, after, h, -⟩
  exact List.append_ne_nil_of_right_ne_nil before (List.cons_ne_nil _ after) h.symm

/-- The last event opens a session, or closes it, or leaves it. -/
theorem opened_append {e : SessionEvent} : Opened (log ++ [e]) id userId t₀ ↔
    e = .created id userId t₀ ∨ (Opened log id userId t₀ ∧ e ≠ .deleted id) := by
  constructor
  · rintro ⟨before, after, h, hafter⟩
    rcases List.eq_nil_or_concat after with rfl | ⟨after', e', rfl⟩
    · exact .inl (List.singleton_inj.mp (List.append_inj_right' h rfl))
    · rw [List.concat_eq_append, ← List.cons_append, ← List.append_assoc] at h
      obtain ⟨hlog, he⟩ := List.append_inj' h rfl
      cases List.singleton_inj.mp he
      rw [List.concat_eq_append, List.mem_append, List.mem_singleton, not_or] at hafter
      exact .inr ⟨⟨before, after', hlog, hafter.1⟩, fun h => hafter.2 h.symm⟩
  · rintro (rfl | ⟨⟨before, after, rfl, hafter⟩, he⟩)
    · exact ⟨log, [], rfl, List.not_mem_nil⟩
    · refine ⟨before, after ++ [e], ?_, fun h => ?_⟩
      · rw [List.append_assoc, List.cons_append]
      · rcases List.mem_append.mp h with h | h
        · exact hafter h
        · exact he (List.mem_singleton.mp h).symm

/-! ## Rows and log -/

variable {env : Env} {cfg : Config} {ttl : Nat} {l l' : Local} {s s' : Shared}

/-- The rows with this id are what the log says of it. -/
structure Recorded (ttl : Nat) (id : Bytes) (s : Shared) : Prop where
  linked : s.backend.accounts.Linked
  shape : ∀ r ∈ s.backend.accounts.sessions, r.id = id → Auth.isSessionIdShape id = true
  rows : ∀ userId expiresAt, (∃ r ∈ s.backend.accounts.sessions,
    r.id = id ∧ r.userId = userId ∧ r.expiresAt = expiresAt) ↔
      ∃ t₀, Opened s.log id userId t₀ ∧ expiresAt = formatMysqlTimestamp (t₀ + ttl * 10 ^ 9)

/-- A session is inserted with a well-formed id, and expires `ttl` seconds after the last reading
of the clock. -/
def WellOpened (ttl : Nat) (l : Local) (c : Call) : Prop :=
  ∀ id userId expiresAt, c = .insertSession id userId expiresAt →
    Auth.isSessionIdShape id = true ∧ expiresAt = formatMysqlTimestamp (l.read + ttl * 10 ^ 9)

/-- Calls that leave the sessions and the log. -/
theorem Recorded.of_sessions (h : Recorded ttl id s) (hl : s'.backend.accounts.Linked)
    (hs : s'.backend.accounts.sessions = s.backend.accounts.sessions) (hlog : s'.log = s.log) :
    Recorded ttl id s' := by
  refine ⟨hl, ?_, ?_⟩
  · rw [hs]
    exact h.shape
  · rw [hs, hlog]
    exact h.rows

/-- Calls that leave users and sessions. -/
theorem Recorded.of_accounts (h : Recorded ttl id s)
    (ha : s'.backend.accounts = s.backend.accounts) (hlog : s'.log = s.log) :
    Recorded ttl id s' :=
  h.of_sessions (ha ▸ h.linked) (by rw [ha]) hlog

/-- A call that reads is no event of a session. -/
theorem events_of_reads {c : Call} {read : Nat} {r : c.Reply} (hc : c.Reads) :
    c.events read r = [] := by
  cases c with
  | insertSession | deleteSession => exact hc.elim
  | _ => rfl

/-- A call of a thread does to the accounts what it does alone. -/
theorem accounts_of_execute {c : Call} {r : c.Reply} {x : c.Reply × Backend}
    (h : env.execute c l s = some (r, l', s')) (hx : env.exec c (s.seenBy l) = x) :
    r = x.1 ∧ s'.backend.accounts = x.2.accounts := by
  obtain ⟨hr, -, hb, -⟩ := execute_eq_some h
  rw [← hx]
  exact ⟨hr, by rw [hb]⟩

/-- A new user has no session yet. -/
theorem recorded_insertUser {username passwordHash : Bytes} {role : Role}
    {r : Except SqlError Nat} (h : Recorded ttl id s)
    (hexec : env.execute (.insertUser username passwordHash role) l s = some (r, l', s')) :
    Recorded ttl id s' := by
  obtain ⟨-, -, -, hlog⟩ := execute_eq_some hexec
  rcases Env.change_cases env (.insertUser username passwordHash role) (fun now a =>
    a.insertUser env.mysql.weight now username passwordHash role) (s.seenBy l) with
      ⟨x, a, ha, he⟩ | ⟨error, he⟩
  · obtain ⟨-, haccounts⟩ := accounts_of_execute hexec he
    obtain ⟨-, row, -, -, rfl⟩ := AccountTables.insertUser_spec ha
    refine h.of_sessions ?_ (by rw [haccounts]; rfl) (hlog.trans (List.append_nil _))
    rw [haccounts]
    refine ⟨h.linked.ids, fun r hr => ?_⟩
    obtain ⟨u, hu, hid⟩ := h.linked.user r hr
    exact ⟨u, List.mem_append_left _ hu, hid⟩
  · exact h.of_accounts (accounts_of_execute hexec he).2 (hlog.trans (List.append_nil _))

/-- A new session is logged with the time it is reckoned from. -/
theorem recorded_insertSession {id' : Bytes} {user expiresAt : Nat} {r : Except SqlError Unit}
    (hrule : WellOpened ttl l (.insertSession id' user expiresAt)) (h : Recorded ttl id s)
    (hexec : env.execute (.insertSession id' user expiresAt) l s = some (r, l', s')) :
    Recorded ttl id s' := by
  obtain ⟨hshape, rfl⟩ := hrule id' user expiresAt rfl
  obtain ⟨-, -, -, hlog⟩ := execute_eq_some hexec
  rcases Env.change_cases env (.insertSession id' user _) (fun now a =>
    a.insertSession now id' user _) (s.seenBy l) with ⟨x, a, ha, he⟩ | ⟨error, he⟩
  · obtain ⟨rfl, haccounts⟩ := accounts_of_execute hexec he
    have hl := h.linked.insertSession ha
    obtain ⟨-, -, rfl⟩ := AccountTables.insertSession_spec ha
    rw [show (Call.insertSession id' user _).events l.read (.ok x) =
      [SessionEvent.created id' user l.read] from rfl] at hlog
    refine ⟨haccounts ▸ hl, ?_, fun userId e => ?_⟩
    · rw [haccounts]
      intro r hr hid
      rcases List.mem_append.mp hr with hr | hr
      · exact h.shape r hr hid
      · rw [← hid, List.mem_singleton.mp hr]
        exact hshape
    · rw [haccounts, hlog]
      constructor
      · rintro ⟨r, hr, hrow⟩
        rcases List.mem_append.mp hr with hr | hr
        · obtain ⟨t₀, hopen, he⟩ := (h.rows userId e).mp ⟨r, hr, hrow⟩
          exact ⟨t₀, opened_append.mpr (.inr ⟨hopen, SessionEvent.noConfusion⟩), he⟩
        · cases List.mem_singleton.mp hr
          obtain ⟨rfl, rfl, rfl⟩ := hrow
          exact ⟨l.read, opened_append.mpr (.inl rfl), rfl⟩
      · rintro ⟨t₀, hopen, rfl⟩
        rcases opened_append.mp hopen with he | ⟨hopen, -⟩
        · cases he
          exact ⟨_, List.mem_append_right _ (List.mem_singleton_self _), rfl, rfl, rfl⟩
        · obtain ⟨r, hr, hrow⟩ := (h.rows userId _).mpr ⟨t₀, hopen, rfl⟩
          exact ⟨r, List.mem_append_left _ hr, hrow⟩
  · obtain ⟨rfl, haccounts⟩ := accounts_of_execute hexec he
    exact h.of_accounts haccounts (hlog.trans (List.append_nil _))

/-- A session that is deleted is logged as such. -/
theorem recorded_deleteSession {id' : Bytes} {r : Except SqlError Nat} (h : Recorded ttl id s)
    (hexec : env.execute (.deleteSession id') l s = some (r, l', s')) : Recorded ttl id s' := by
  obtain ⟨-, -, -, hlog⟩ := execute_eq_some hexec
  rcases Env.change_cases env (.deleteSession id') (fun _ a => .ok (a.deleteSession id'))
    (s.seenBy l) with ⟨x, a, ha, he⟩ | ⟨error, he⟩
  · obtain ⟨rfl, haccounts⟩ := accounts_of_execute hexec he
    cases ha
    have hmem : ∀ r, r ∈ s'.backend.accounts.sessions ↔
        r ∈ s.backend.accounts.sessions ∧ r.id ≠ id' := by
      intro r
      rw [haccounts]
      exact List.mem_filter.trans (and_congr_right fun _ => bne_iff_ne)
    have hopened : ∀ userId t₀, Opened s'.log id userId t₀ ↔
        Opened s.log id userId t₀ ∧ id ≠ id' := by
      intro userId t₀
      rw [hlog]
      unfold Call.events
      dsimp only
      split
      · rw [opened_append]
        simp only [reduceCtorEq, false_or, ne_eq, SessionEvent.deleted.injEq, eq_comm]
      · next hcount =>
        rw [List.append_nil]
        refine (and_iff_left_of_imp fun hopen heq => hcount ?_).symm
        -- a session that is opened has a row
        obtain ⟨r, hr, hid, -⟩ := (h.rows userId _).mpr ⟨t₀, hopen, rfl⟩
        exact List.countP_pos_iff.mpr ⟨r, hr, beq_iff_eq.mpr (hid.trans heq)⟩
    refine ⟨?_, fun r hr => h.shape r ((hmem r).mp hr).1, fun userId e => ?_⟩
    · rw [haccounts]
      exact h.linked.deleteSession id'
    · constructor
      · rintro ⟨r, hr, rfl, hrow⟩
        obtain ⟨hr, hne⟩ := (hmem r).mp hr
        obtain ⟨t₀, hopen, he⟩ := (h.rows userId e).mp ⟨r, hr, rfl, hrow⟩
        exact ⟨t₀, (hopened userId t₀).mpr ⟨hopen, hne⟩, he⟩
      · rintro ⟨t₀, hopen, he⟩
        obtain ⟨hopen, hne⟩ := (hopened userId t₀).mp hopen
        obtain ⟨r, hr, rfl, hrow⟩ := (h.rows userId e).mpr ⟨t₀, hopen, he⟩
        exact ⟨r, (hmem r).mpr ⟨hr, hne⟩, rfl, hrow⟩
  · obtain ⟨rfl, haccounts⟩ := accounts_of_execute hexec he
    exact h.of_accounts haccounts (hlog.trans (List.append_nil _))

/-- **Every call keeps the rows of an id in step with the log.** -/
theorem recorded_execute {c : Call} {r : c.Reply} (hrule : WellOpened ttl l c)
    (hexec : env.execute c l s = some (r, l', s')) (h : Recorded ttl id s) :
    Recorded ttl id s' := by
  have hreads : c.Reads → Recorded ttl id s' := fun hc => by
    obtain ⟨-, -, hb, hlog⟩ := execute_eq_some hexec
    rw [events_of_reads hc, List.append_nil] at hlog
    refine h.of_accounts ?_ hlog
    rw [hb]
    exact (exec_reads env hc (s.seenBy l)).accounts
  cases c with
  | bank st =>
    obtain ⟨-, -, hb, hlog⟩ := execute_eq_some hexec
    exact h.of_accounts (by rw [hb]; rfl) (hlog.trans (List.append_nil _))
  | insertUser => exact recorded_insertUser h hexec
  | insertSession => exact recorded_insertSession hrule h hexec
  | deleteSession => exact recorded_deleteSession h hexec
  | _ => exact hreads trivial

/-- The clock changes no row. -/
theorem recorded_tick {elapsed : Nat} (h : Recorded ttl id s)
    (ht : Server.tick s elapsed = some s') : Recorded ttl id s' := by
  cases ht
  exact ⟨h.linked, h.shape, h.rows⟩

/-! ## Requests -/

/-- Calls that insert no session. -/
def Call.Closed : Call → Prop
  | insertSession .. => False
  | _ => True

/-- What reads opens no session. -/
theorem Call.Closed.of_reads {c : Call} (h : c.Reads) : c.Closed := by
  cases c with
  | insertSession => exact h.elim
  | _ => trivial

variable {α : Type} {req : Request}

/-- A program that opens no session keeps to the rule. -/
theorem follows_of_closed {p : Handler α} (hp : p.Only Call.Closed) (l : Local) :
    p.Follows env.execute (WellOpened ttl) l := by
  refine Program.Only.follows (fun l c hc => ?_) hp l
  rintro id userId expiresAt rfl
  exact hc.elim

theorem closed_of_reads {p : Handler α} (hp : p.Only Call.Reads) : p.Only Call.Closed :=
  hp.mono fun _ => Call.Closed.of_reads

theorem follows_of_reads {p : Handler α} (hp : p.Only Call.Reads) (l : Local) :
    p.Follows env.execute (WellOpened ttl) l := follows_of_closed (closed_of_reads hp) l

/-- Statements on the bank open no session. -/
theorem closed_ofDao (p : Dao α) : (ofDao p).Only Call.Closed :=
  only_ofDao (fun _ _ => trivial) (Program.Only.any p)

theorem closed_withLease {body : Handler α} (hb : body.Only Call.Closed) :
    (withLease body).Only Call.Closed := only_withLease trivial trivial hb

/-- A lease opens no session. -/
theorem follows_withLease {body : Handler α}
    (hb : ∀ l, body.Follows env.execute (WellOpened ttl) l) (l : Local) :
    (withLease body).Follows env.execute (WellOpened ttl) l := by
  refine ⟨nofun, fun s r l' s' _ => ?_⟩
  cases r with
  | error e => trivial
  | ok _ => exact (hb l').andFinally (follows_of_closed (closed_ofDao (ignoring .release)))

/-- The clock is read right before the session is inserted. -/
theorem follows_createSession {userId : Nat} {id : Bytes} (l : Local) :
    (createSession userId id ttl).Follows env.execute (WellOpened ttl) l := by
  refine follows_withLease (fun l => ?_) l
  split
  · trivial
  · next hshape =>
    refine ⟨nofun, fun s now l' s' hnow => ⟨?_, fun s r l' s' _ => ?_⟩⟩
    · obtain ⟨-, hread, -, -⟩ := execute_eq_some hnow
      rintro _ _ _ ⟨⟩
      rw [Bool.not_eq_true', Bool.not_eq_false] at hshape
      exact ⟨hshape, by rw [hread]; rfl⟩
    · cases r <;> trivial

/-- **A login opens a session with the id and the expiry it is told.** -/
theorem follows_openSession {status userId : Nat} {username : Bytes} {role : Role} (l : Local) :
    (openSession cfg status userId username role).Follows env.execute
      (WellOpened cfg.session.ttl) l := by
  refine Program.Follows.bind (follows_of_reads reads_generateSessionId l) fun sessionId l => ?_
  refine Program.Follows.bind (Program.Follows.tryCatch ?_ fun e l => trivial) fun r l => ?_
  · exact Program.Follows.bind (follows_createSession l) fun _ _ => trivial
  · cases r <;> trivial

/-- A new user alone opens no session. -/
theorem closed_createUser {username passwordHash : Bytes} {role : Role} :
    (createUser username passwordHash role).Only Call.Closed := by
  refine closed_withLease ⟨trivial, fun r => ?_⟩
  cases r with
  | ok id => trivial
  | error e =>
    dsimp only
    split <;> trivial

/-- A registration ends with a login. -/
theorem follows_registerHandler (l : Local) :
    (registerHandler cfg req).Follows env.execute (WellOpened cfg.session.ttl) l := by
  unfold registerHandler
  split
  · exact follows_of_closed (only_refuseInvalid _) l
  · refine Program.Follows.bind (follows_of_reads (only_attempt (reads_hashPassword cfg _)) l)
      fun hash l => ?_
    cases hash with
    | error res => trivial
    | ok passwordHash =>
      refine Program.Follows.bind (follows_of_closed (only_attempt closed_createUser) l)
        fun user l => ?_
      cases user with
      | error res => trivial
      | ok userId => exact follows_openSession l

/-- A login opens its session in the same way. -/
theorem follows_loginHandler (l : Local) :
    (loginHandler cfg req).Follows env.execute (WellOpened cfg.session.ttl) l := by
  unfold loginHandler
  split
  · exact follows_of_closed (only_refuseInvalid _) l
  · split
    · trivial
    · refine Program.Follows.bind (follows_of_reads (only_attempt (reads_findUserByUsername _)) l)
        fun user l => ?_
      rcases user with res | _ | user
      · trivial
      · trivial
      · dsimp only
        split
        · exact follows_openSession l
        · trivial

/-- The administration opens no session. -/
theorem closed_createProblemHandler : (createProblemHandler cfg req).Only Call.Closed := by
  refine Program.Only.tryCatch (Program.Only.bind (closed_of_reads (reads_readProblem cfg req))
    fun input => ?_) fun _ => trivial
  exact Program.Only.bind (closed_ofDao _) fun _ => trivial

theorem closed_updateProblemHandler {raw : Bytes} :
    (updateProblemHandler cfg req raw).Only Call.Closed := by
  unfold updateProblemHandler
  split
  · trivial
  · refine Program.Only.tryCatch (Program.Only.bind (closed_of_reads (reads_readProblem cfg req))
      fun input => Program.Only.bind (closed_ofDao _) fun found => ?_) fun _ => trivial
    split <;> trivial

theorem closed_deleteProblemHandler {raw : Bytes} :
    (deleteProblemHandler raw).Only Call.Closed := by
  unfold deleteProblemHandler
  split
  · trivial
  · refine Program.Only.tryCatch (Program.Only.bind (closed_ofDao _) fun found => ?_)
      fun _ => trivial
    split <;> trivial

theorem closed_resetProblemBankHandler : (resetProblemBankHandler cfg).Only Call.Closed :=
  Program.Only.tryCatch (Program.Only.bind (closed_ofDao _) fun _ => trivial) fun _ => trivial

/-- Every handler keeps to the rule. -/
theorem follows_handlerOf {handler : Handler Response} (h : handlerOf cfg req = some handler)
    (l : Local) : handler.Follows env.execute (WellOpened cfg.session.ttl) l := by
  cases routed_of_handlerOf h with
  | reads hreads => exact follows_of_reads hreads l
  | register => exact follows_registerHandler l
  | login => exact follows_loginHandler l
  | logout =>
    exact follows_of_closed (only_logoutHandler (fun _ => .of_reads) fun _ _ => trivial) l
  | create => exact follows_of_closed closed_createProblemHandler l
  | reset => exact follows_of_closed closed_resetProblemBankHandler l
  | update => exact follows_of_closed closed_updateProblemHandler l
  | delete => exact follows_of_closed closed_deleteProblemHandler l

/-- **Every request opens its sessions well.** -/
theorem follows_routing (l : Local) :
    (routing cfg req).Follows env.execute (WellOpened cfg.session.ttl) l := by
  refine Program.Follows.bind (follows_of_reads (reads_preRouting cfg req) l) fun handled l => ?_
  cases handled with
  | some res => trivial
  | none =>
    dsimp only
    split
    · next handler hhandler => exact follows_handlerOf hhandler l
    · trivial

/-- **In every run the rows of an id are what the log says of it.** -/
theorem recorded_of_reachable {b : Backend} {S : Server} (hb : b.accounts.Linked)
    (hid : ∀ r ∈ b.accounts.sessions, r.id ≠ id)
    (h : Reachable (Server.step env cfg) (· = Server.start b) S) :
    Recorded cfg.session.ttl id S.shared := by
  refine Threads.keeps ?_ (fun req => follows_routing {}) ?_ ?_ h
  · rintro _ rfl
    refine ⟨⟨hb, fun r hr heq => absurd heq (hid r hr), fun userId e => ⟨?_, ?_⟩⟩, rfl⟩
    · rintro ⟨r, hr, heq, -⟩
      exact absurd heq (hid r hr)
    · rintro ⟨t₀, hopen, -⟩
      exact absurd hopen not_opened_nil
  · exact fun c l s r l' s' hrule hexec hs => recorded_execute hrule hexec hs
  · exact fun s elapsed s' ht hs => recorded_tick hs ht

/-! ## The lookup -/

/-- What the lookup answers when its calls get through. -/
def found (b : Backend) (id : Bytes) : Option UserSummary :=
  if Auth.isSessionIdShape id then
    (b.accounts.sessionUser id b.utc).map fun u =>
      { id := u.id, username := u.username, role := u.role }
  else none

variable {b : Backend}

/-- The end of a query throws only when its call fails. -/
theorem run_freed (env : Env) {rows : α} (store : String) (b : Backend) :
    ((freed store rows).run env.exec b).1 = .ok rows ∨
      (∃ e, ((freed store rows).run env.exec b).1 = .error e) ∧
        env.mysql.fails b.db.calls ≠ none := by
  unfold freed
  rw [Program.run_bind, run_ofDao]
  by_cases hstore : env.mysql.fails b.db.calls = none
  · rw [run_executeQuery_ok hstore rfl]
    exact .inl rfl
  · obtain ⟨e, he⟩ := run_executeQuery_error (m := env.mysql) (w := b.db) .storeResult store rfl
      fun h => absurd h hstore
    rw [he]
    exact .inr ⟨⟨e, rfl⟩, hstore⟩

/-- **The lookup answers with the user of the session, or throws** when a call of it has failed. -/
theorem lookup_outcome (env : Env) (b : Backend) (id : Bytes) :
    ((findUserByValidSessionId id).run env.exec b).1 = .ok (found b id) ∨
      (∃ e, ((findUserByValidSessionId id).run env.exec b).1 = .error e) ∧
        ¬ env.mysql.Quiet b.db.calls 3 := by
  unfold findUserByValidSessionId found
  cases hshape : Auth.isSessionIdShape id with
  | false => exact .inl rfl
  | true =>
    rw [if_neg (by decide), if_pos rfl]
    by_cases hacquire : env.mysql.fails b.db.calls = none
    · rw [run_withLease_ok hacquire, Program.run_bind, Program.run_call, Env.exec_selectSessionUser]
      dsimp only
      by_cases hselect : env.mysql.fails (b.db.calls + 1) = none
      · rw [Env.query_of_quiet hselect]
        rcases run_freed env "session lookup store" _ with hrun | ⟨herror, hstore⟩
        · exact .inl hrun
        · exact .inr ⟨herror, fun hq => hstore (hq 2 (by decide))⟩
      · obtain ⟨e, he⟩ := Env.query_error env (fun b => b.accounts.sessionUser id b.utc)
          (b := b.acquired) hselect
        rw [he]
        exact .inr ⟨⟨_, rfl⟩, fun hq => hselect (hq 1 (by decide))⟩
    · obtain ⟨e, he⟩ := run_withLease_error hacquire
      rw [he]
      exact .inr ⟨⟨e, rfl⟩, fun hq => hacquire (hq 0 (by decide))⟩

/-- **Which user the query answers**, as told by the log and the clock. -/
theorem sessionUser_iff_opened (h : Recorded ttl id s) {userId : Nat} :
    (s.backend.accounts.sessionUser id s.backend.utc).map UserRow.id = some userId ↔
      ∃ t₀, Opened s.log id userId t₀ ∧
        s.backend.utc < formatMysqlTimestamp (t₀ + ttl * 10 ^ 9) := by
  rw [AccountTables.sessionUser_iff h.linked]
  constructor
  · rintro ⟨r, hr, hid, hutc, huser⟩
    obtain ⟨t₀, hopen, he⟩ := (h.rows userId r.expiresAt).mp ⟨r, hr, hid, huser, rfl⟩
    exact ⟨t₀, hopen, he ▸ hutc⟩
  · rintro ⟨t₀, hopen, hutc⟩
    obtain ⟨r, hr, hid, huser, he⟩ := (h.rows userId _).mpr ⟨t₀, hopen, rfl⟩
    exact ⟨r, hr, hid, he ▸ hutc, huser⟩

/-- Whom a lookup finds when the rows of the id are those of the log. -/
theorem found_iff (h : Recorded ttl id s) {userId : Nat} :
    (found s.backend id).map UserSummary.id = some userId ↔
      ∃ t₀, Opened s.log id userId t₀ ∧
        s.backend.utc < formatMysqlTimestamp (t₀ + ttl * 10 ^ 9) := by
  unfold found
  split
  · rw [Option.map_map, ← sessionUser_iff_opened h]
    rfl
  · next hshape =>
    refine ⟨fun h => (nomatch h), ?_⟩
    rintro ⟨t₀, hopen, -⟩
    obtain ⟨r, hr, hid, -⟩ := (h.rows userId _).mpr ⟨t₀, hopen, rfl⟩
    exact absurd (h.shape r hr hid) hshape

/-! ## Logout -/

/-- Calls that leave the session with this id alone. -/
def Call.Spares (id : Bytes) (c : Call) : Prop := c.Reads ∨ ∃ id', id' ≠ id ∧ c = .deleteSession id'

/-- Calls that spare the id leave its lookup. -/
theorem sessionUser_exec {c : Call} (hc : c.Spares id) (b : Backend) (utc : Nat) :
    (env.exec c b).2.accounts.sessionUser id utc = b.accounts.sessionUser id utc := by
  rcases hc with hc | ⟨id', hne, rfl⟩
  · rw [(exec_reads env hc b).accounts]
  · rcases Env.change_cases env (.deleteSession id') (fun _ a => .ok (a.deleteSession id')) b with
      ⟨x, a, ha, he⟩ | ⟨error, he⟩
    · cases ha
      refine (congrArg (fun x : _ × Backend => x.2.accounts.sessionUser id utc) he).trans ?_
      exact AccountTables.sessionUser_deleteSession hne utc
    · exact congrArg (fun x : _ × Backend => x.2.accounts.sessionUser id utc) he

/-- A logout with another id leaves the lookup. -/
theorem sessionUser_logout (env : Env) (cfg : Config) (b : Backend) {req : Request}
    (h : parseSessionId req ≠ some id) (utc : Nat) :
    ((logoutHandler cfg req).run env.exec b).2.accounts.sessionUser id utc =
      b.accounts.sessionUser id utc := by
  have hspares : (logoutHandler cfg req).Only (Call.Spares id) :=
    only_logoutHandler (fun _ => .inl) fun id' hid => .inr ⟨id', fun heq => h (heq ▸ hid), rfl⟩
  exact hspares.run (I := fun b' => b'.accounts.sessionUser id utc = b.accounts.sessionUser id utc)
    (fun c b' hc hb => (sessionUser_exec hc b' utc).trans hb) rfl

/-! ## Runs -/

/-- **Whom a session id stands for.** However the calls of any requests are interleaved while the
clock goes on, a lookup of an id finds the user for whom a session with the id has been created
and not deleted since, until the second in which it expires; it finds nobody else, and throws
only when one of its calls fails. A logout leaves the lookups of other ids as they are. -/
theorem session_lookup_iff (env : Env) (cfg : Config) (b : Backend) (hb : b.accounts.Linked)
    (S : Server) (h : Reachable (Server.step env cfg) (· = Server.start b) S) (id : Bytes)
    (hid : ∀ r ∈ b.accounts.sessions, r.id ≠ id) :
    (∀ user, ((findUserByValidSessionId id).run env.exec S.shared.backend).1 = .ok user →
      ∀ userId, user.map UserSummary.id = some userId ↔
        ∃ t₀, Opened S.shared.log id userId t₀ ∧
          S.shared.backend.utc < formatMysqlTimestamp (t₀ + cfg.session.ttl * 10 ^ 9)) ∧
    (env.mysql.Quiet S.shared.backend.db.calls 3 →
      ∃ user, ((findUserByValidSessionId id).run env.exec S.shared.backend).1 = .ok user) ∧
    ∀ req, parseSessionId req ≠ some id → ∀ utc,
      ((logoutHandler cfg req).run env.exec S.shared.backend).2.accounts.sessionUser id utc =
        S.shared.backend.accounts.sessionUser id utc := by
  have hrecorded := recorded_of_reachable hb hid h
  have houtcome := lookup_outcome env S.shared.backend id
  refine ⟨fun user hrun userId => ?_, fun hquiet => ?_, fun req hreq utc => ?_⟩
  · rcases houtcome with hok | ⟨⟨e, herror⟩, -⟩
    · cases hrun.symm.trans hok
      exact found_iff hrecorded
    · cases hrun.symm.trans herror
  · rcases houtcome with hok | ⟨-, hno⟩
    · exact ⟨_, hok⟩
    · exact absurd hquiet hno
  · exact sessionUser_logout env cfg S.shared.backend hreq utc

/-! ## A registration -/

/-- A registration with some body. -/
def registration : Request where
  method := utf8 "POST"
  path := utf8 "/api/auth/register"
  remoteAddr := utf8 "192.0.2.1"
  body := utf8 "x"

/-- Hashes are the settings, and every body has the credentials of Alice. -/
def aliceConfig : Config :=
  { bareConfig with
    crypt := ⟨fun _ setting => some setting, fun _ _ => []⟩
    readJson := fun _ => .ok (.object [(utf8 "username", .string (utf8 "alice")),
      (utf8 "password", .string (utf8 "correct1horse"))]) }

/-- The id from 32 zeros. -/
def zeroId : Bytes := Auth.sessionIdOf (List.replicate 32 0)

/-- Alice has registered. -/
def registered : Server :=
  (Infra.run (Server.step calmEnv aliceConfig) (Server.start oneProblem)
    (.start registration :: List.replicate 10 (.call 0))).get (by decide +kernel)

theorem session_lookup_iff_registered :
    (∀ user,
      ((findUserByValidSessionId zeroId).run calmEnv.exec registered.shared.backend).1 = .ok user →
        ∀ userId, user.map UserSummary.id = some userId ↔
          ∃ t₀, Opened registered.shared.log zeroId userId t₀ ∧
            registered.shared.backend.utc <
              formatMysqlTimestamp (t₀ + aliceConfig.session.ttl * 10 ^ 9)) ∧
    (calmEnv.mysql.Quiet registered.shared.backend.db.calls 3 → ∃ user,
      ((findUserByValidSessionId zeroId).run calmEnv.exec registered.shared.backend).1 = .ok user) ∧
    ∀ req, parseSessionId req ≠ some zeroId → ∀ utc,
      ((logoutHandler aliceConfig req).run calmEnv.exec
        registered.shared.backend).2.accounts.sessionUser zeroId utc =
          registered.shared.backend.accounts.sessionUser zeroId utc :=
  session_lookup_iff calmEnv aliceConfig oneProblem ⟨by decide, fun _ h => (nomatch h)⟩ registered
    (Reachable.run (.init rfl) (Option.some_get _).symm) zeroId fun _ h => (nomatch h)

/-- Her session is found. -/
example : ((findUserByValidSessionId zeroId).run calmEnv.exec registered.shared.backend).1 =
    .ok (some { id := 1, username := utf8 "alice", role := .user }) := by decide +kernel

end MiniOj.Http
