import MiniOj.Http.Outages
import MiniOj.Http.Properties.Sessions

/-!
# Whether a registration is all or nothing

`registerHandler` stores a user and then a session, each in a statement that commits at once.
Between them it reads random bytes and acquires a connection for the second time; nothing takes
the user back when one of these steps fails.

* `UserStored`, `SessionStored` — the two halves, by the numbers of their calls
* `registration_atomic_iff` — both halves or none
* `user_without_session` — a name that is taken, and an answer that does not say so
-/

namespace MiniOj.Http

open Infra Db

variable {env : Env} {lost : Nat → Option Bytes} {cfg : Config} {b b' : Backend} {req : Request}
  {payload : AuthPayload} {accounts accounts' : AccountTables} {userId : Nat} {sessionId : Bytes}

/-! ## The two halves -/

/-- The `INSERT` of the user takes place: the body is valid, the password can be hashed, the pool
has a connection, and the statement is carried out. -/
structure UserStored (env : Env) (cfg : Config) (req : Request) (b : Backend)
    (payload : AuthPayload) (userId : Nat) (accounts : AccountTables) : Prop where
  valid : parseRegistration cfg req = .ok payload
  connected : env.mysql.fails (b.db.calls + 1) = none
  carriedOut : env.mysql.fails (b.db.calls + 2) = none
  inserted : ∃ salt hash, env.random b.db.calls 16 = .ok salt ∧
    Auth.hashPassword cfg.crypt payload.password salt = .ok hash ∧
    b.accounts.insertUser env.mysql.weight (env.mysql.clock (b.db.calls + 2)) payload.username
      hash .user = .ok (userId, accounts)

/-- From the `calls`th call on, a session is opened and its `INSERT` is answered. -/
structure SessionStored (env : Env) (lost : Nat → Option Bytes) (cfg : Config) (calls now : Nat)
    (userId : Nat) (accounts : AccountTables) (sessionId : Bytes) (accounts' : AccountTables) :
    Prop where
  random : ∃ bytes, env.random calls 32 = .ok bytes ∧ sessionId = Auth.sessionIdOf bytes
  shape : Auth.isSessionIdShape sessionId = true
  connected : env.mysql.fails (calls + 1) = none
  carriedOut : env.mysql.fails (calls + 2) = none
  inserted : accounts.insertSession (env.mysql.clock (calls + 2)) sessionId userId
    (formatMysqlTimestamp (now + cfg.session.ttl * 10 ^ 9)) = .ok ((), accounts')
  answered : lost (calls + 2) = none

/-- The registration has created the user and a session of theirs, and answers 201 with its
cookie. -/
def Registered (cfg : Config) (req : Request) (b : Backend) (x : Except Exn Response × Backend) :
    Prop :=
  ∃ res payload, x.1 = .ok res ∧ res.status = 201 ∧ parseRegistration cfg req = .ok payload ∧
    ∃ user : UserRow, user.username = payload.username ∧
      x.2.accounts.users = b.accounts.users ++ [user] ∧
      ∃ session ∈ x.2.accounts.sessions, session.userId = user.id ∧
        ("Set-Cookie", Auth.formatSessionCookie session.id cfg.session.ttl
          cfg.session.secureCookie) ∈ res.headers

/-- The registration is all or nothing. -/
def RegistrationAtomic (cfg : Config) (req : Request) (b : Backend)
    (x : Except Exn Response × Backend) : Prop :=
  Registered cfg req b x ∨
    x.2.accounts.users = b.accounts.users ∧ x.2.accounts.sessions = b.accounts.sessions

/-! ## The steps -/

theorem run_hashPassword (password : Bytes) :
    (hashPassword cfg password).run (env.execLosing lost) b =
      (match env.random b.db.calls 16 with
        | .ok salt => Auth.hashPassword cfg.crypt password salt
        | .error error => .error (runtimeError error), b.counted) := by
  refine (Program.run_call (env.execLosing lost) (.random 16) _ b).trans ?_
  rw [execLosing_random]
  cases env.random b.db.calls 16 with
  | error e => rfl
  | ok salt =>
    dsimp only
    cases Auth.hashPassword cfg.crypt password salt <;> rfl

/-- `createUser` inserts the row, and returns its id when it is told so. -/
theorem run_createUser_done (lost : Nat → Option Bytes) {username hash : Bytes} {role : Role}
    (hacquire : env.mysql.fails b.db.calls = none)
    (hinsert : env.mysql.fails (b.db.calls + 1) = none)
    (h : b.accounts.insertUser env.mysql.weight (env.mysql.clock (b.db.calls + 1)) username hash
      role = .ok (userId, accounts)) :
    ∃ r b', (createUser username hash role).run (env.execLosing lost) b = (r, b') ∧
      b'.accounts = accounts ∧ b'.now = b.now ∧ b'.db.calls = b.db.calls + 3 ∧
      (lost (b.db.calls + 1) = none ∧ r = .ok userId ∨
        lost (b.db.calls + 1) ≠ none ∧ ∃ e, r = .error e) := by
  unfold createUser
  rw [run_withLease_held hacquire, Program.run_call, execLosing_insertUser,
    changeLosing_done hinsert h]
  cases hl : lost b.acquired.db.calls with
  | none => exact ⟨_, _, rfl, rfl, rfl, rfl, .inl ⟨hl, rfl⟩⟩
  | some error =>
    exact ⟨_, _, rfl, rfl, rfl, rfl, .inr ⟨fun h => (nomatch hl.symm.trans h), _, rfl⟩⟩

theorem run_createUser_undone {username hash : Bytes} {role : Role}
    (h : env.mysql.fails b.db.calls = none → env.mysql.fails (b.db.calls + 1) = none →
      ∀ x, b.accounts.insertUser env.mysql.weight (env.mysql.clock (b.db.calls + 1)) username hash
        role ≠ .ok x) :
    ∃ e b', (createUser username hash role).run (env.execLosing lost) b = (.error e, b') ∧
      b'.accounts = b.accounts := by
  unfold createUser
  by_cases hacquire : env.mysql.fails b.db.calls = none
  · rw [run_withLease_held hacquire, Program.run_call, execLosing_insertUser]
    obtain ⟨e, he⟩ := changeLosing_undone env lost (.insertUser username hash role)
      (fun now a => a.insertUser env.mysql.weight now username hash role) (b := b.acquired)
      (h hacquire)
    rw [he]
    dsimp only
    split
    · exact ⟨_, _, rfl, rfl⟩
    · exact ⟨_, _, rfl, rfl⟩
  · obtain ⟨e, he⟩ := run_withLease_refused env lost hacquire
    exact ⟨e, _, he, rfl⟩

/-- The `INSERT` of `createSession`. -/
def insertion (env : Env) (lost : Nat → Option Bytes) (sessionId : Bytes) (userId ttl : Nat)
    (b : Backend) : Except SqlError Unit × Backend :=
  let expiresAt := formatMysqlTimestamp (b.now + ttl * 10 ^ 9)
  env.changeLosing lost (.insertSession sessionId userId expiresAt)
    (fun now a => a.insertSession now sessionId userId expiresAt) b

theorem run_createSession_held {ttl : Nat} (hshape : Auth.isSessionIdShape sessionId = true)
    (hacquire : env.mysql.fails b.db.calls = none) {r : Except SqlError Unit} :
    insertion env lost sessionId userId ttl b.acquired = (r, b') →
      (createSession userId sessionId ttl).run (env.execLosing lost) b =
        (match r with
          | .ok _ => .ok ⟨sessionId, userId, b.now + ttl * 10 ^ 9⟩
          | .error e => .error (runtimeError (utf8 "session insert failed: " ++ e.text)),
          b'.released) := by
  intro h
  unfold insertion at h
  unfold createSession
  rw [run_withLease_held hacquire, hshape, Bool.not_true, if_neg Bool.false_ne_true,
    Program.run_call, execLosing_now, Program.run_bind, Program.run_call,
    execLosing_insertSession]
  dsimp only
  rw [h]
  cases r <;> rfl

/-- `createSession` inserts the row and is told so. -/
theorem run_createSession_done {ttl : Nat} (hshape : Auth.isSessionIdShape sessionId = true)
    (hacquire : env.mysql.fails b.db.calls = none)
    (hinsert : env.mysql.fails (b.db.calls + 1) = none)
    (h : b.accounts.insertSession (env.mysql.clock (b.db.calls + 1)) sessionId userId
      (formatMysqlTimestamp (b.now + ttl * 10 ^ 9)) = .ok ((), accounts))
    (hanswer : lost (b.db.calls + 1) = none) :
    ∃ record b', (createSession userId sessionId ttl).run (env.execLosing lost) b =
      (.ok record, b') ∧ b'.accounts = accounts := by
  have hdone : insertion env lost sessionId userId ttl b.acquired =
      (answered (lost (b.db.calls + 1)) (), { b.acquired.counted with accounts }) :=
    changeLosing_done hinsert h
  rw [hanswer] at hdone
  exact ⟨_, _, run_createSession_held hshape hacquire hdone, rfl⟩

/-- Otherwise it throws, and the users are as before. -/
theorem run_createSession_undone {ttl : Nat} (h : Auth.isSessionIdShape sessionId = true →
    env.mysql.fails b.db.calls = none → env.mysql.fails (b.db.calls + 1) = none →
    ∀ accounts, b.accounts.insertSession (env.mysql.clock (b.db.calls + 1)) sessionId userId
      (formatMysqlTimestamp (b.now + ttl * 10 ^ 9)) = .ok ((), accounts) →
        lost (b.db.calls + 1) ≠ none) :
    ∃ e b', (createSession userId sessionId ttl).run (env.execLosing lost) b = (.error e, b') ∧
      b'.accounts.users = b.accounts.users := by
  by_cases hacquire : env.mysql.fails b.db.calls = none
  · cases hshape : Auth.isSessionIdShape sessionId with
    | false =>
      unfold createSession
      rw [run_withLease_held hacquire, hshape]
      exact ⟨_, _, rfl, rfl⟩
    | true =>
      by_cases hdone : env.mysql.fails (b.db.calls + 1) = none ∧ ∃ accounts,
          b.accounts.insertSession (env.mysql.clock (b.db.calls + 1)) sessionId userId
            (formatMysqlTimestamp (b.now + ttl * 10 ^ 9)) = .ok ((), accounts)
      · obtain ⟨hinsert, accounts, ha⟩ := hdone
        obtain ⟨error, hl⟩ :=
          Option.ne_none_iff_exists'.mp (h hshape hacquire hinsert accounts ha)
        have hlost : insertion env lost sessionId userId ttl b.acquired =
            (answered (lost (b.db.calls + 1)) (), { b.acquired.counted with accounts }) :=
          changeLosing_done hinsert ha
        rw [hl] at hlost
        obtain ⟨-, -, rfl⟩ := AccountTables.insertSession_spec ha
        exact ⟨_, _, run_createSession_held hshape hacquire hlost, rfl⟩
      · obtain ⟨e, he⟩ : ∃ e, insertion env lost sessionId userId ttl b.acquired =
            (.error e, b.acquired.counted) :=
          changeLosing_undone env lost _ _ fun hinsert x hx => hdone ⟨hinsert, x.2, hx⟩
        exact ⟨_, _, run_createSession_held hshape hacquire he, rfl⟩
  · obtain ⟨e, he⟩ := run_withLease_refused env lost hacquire
    exact ⟨e, _, he, rfl⟩

/-- The answer with the cookie is given only when the session is there. -/
theorem run_openSession (env : Env) (lost : Nat → Option Bytes) (cfg : Config) (b : Backend)
    (status userId : Nat) (username : Bytes) (role : Role) :
    (∃ sessionId accounts' b',
      SessionStored env lost cfg b.db.calls b.now userId b.accounts sessionId accounts' ∧
      (openSession cfg status userId username role).run (env.execLosing lost) b =
        (.ok (attachSessionCookie (writeJson status (accountJson userId username role)) sessionId
          cfg.session), b') ∧ b'.accounts = accounts') ∨
    (¬ ∃ sessionId accounts',
      SessionStored env lost cfg b.db.calls b.now userId b.accounts sessionId accounts') ∧
      ∃ r b', (openSession cfg status userId username role).run (env.execLosing lost) b =
        (r, b') ∧ (∀ res, r = .ok res → res.status = 500) ∧
        b'.accounts.users = b.accounts.users := by
  have hopen {bytes : Bytes} (hbytes : env.random b.db.calls 32 = .ok bytes) :
      (openSession cfg status userId username role).run (env.execLosing lost) b =
        match (createSession userId (Auth.sessionIdOf bytes) cfg.session.ttl).run
          (env.execLosing lost) b.counted with
        | (.ok _, b') => (.ok (attachSessionCookie
            (writeJson status (accountJson userId username role)) (Auth.sessionIdOf bytes)
              cfg.session), b')
        | (.error e, b') => (.ok (writeError 500 (utf8 "session error: " ++ e.what)), b') := by
    have hid : generateSessionId.run (env.execLosing lost) b =
        (.ok (Auth.sessionIdOf bytes), b.counted) := by
      refine (Program.run_call (env.execLosing lost) (.random 32) _ b).trans ?_
      rw [execLosing_random, hbytes]
      rfl
    unfold openSession
    rw [Program.run_bind, hid]
    dsimp only
    rw [Program.run_bind, run_attempt]
    generalize (createSession userId _ cfg.session.ttl).run (env.execLosing lost) b.counted = x
    obtain ⟨x, b'⟩ := x
    cases x <;> rfl
  by_cases hs : ∃ sessionId accounts',
      SessionStored env lost cfg b.db.calls b.now userId b.accounts sessionId accounts'
  · obtain ⟨sessionId, accounts', hs⟩ := hs
    obtain ⟨bytes, hbytes, rfl⟩ := hs.random
    obtain ⟨record, b', hrun, haccounts⟩ := run_createSession_done (b := b.counted) hs.shape
      hs.connected hs.carriedOut hs.inserted hs.answered
    refine .inl ⟨_, _, b', hs, ?_, haccounts⟩
    rw [hopen hbytes, hrun]
  · refine .inr ⟨hs, ?_⟩
    cases hbytes : env.random b.db.calls 32 with
    | error error =>
      refine ⟨.error (runtimeError error), b.counted, ?_, nofun, rfl⟩
      unfold openSession
      rw [Program.run_bind]
      unfold generateSessionId
      rw [Program.run_call, execLosing_random, hbytes]
      rfl
    | ok bytes =>
      obtain ⟨e, b', hrun, husers⟩ : ∃ e b',
          (createSession userId (Auth.sessionIdOf bytes) cfg.session.ttl).run
            (env.execLosing lost) b.counted = (.error e, b') ∧
          b'.accounts.users = b.accounts.users :=
        run_createSession_undone (b := b.counted)
          fun hshape hconnected hcarriedOut accounts ha hanswer =>
            hs ⟨_, accounts, ⟨bytes, hbytes, rfl⟩, hshape, hconnected, hcarriedOut, ha, hanswer⟩
      refine ⟨.ok (writeError 500 (utf8 "session error: " ++ e.what)), b', ?_, ?_, husers⟩
      · rw [hopen hbytes, hrun]
      · rintro res ⟨⟩
        rfl

/-! ## The registration -/

/-- The part of `registerHandler` after the password has been hashed. -/
def registerHashed (cfg : Config) (payload : AuthPayload) (hash : Bytes) : Handler Response := do
  match ← attempt (createUser payload.username hash .user) fun e =>
      if e.kind = .usernameExists then writeError 409 (utf8 "username already exists")
      else databaseError e with
  | .error res => return res
  | .ok userId => openSession cfg 201 userId payload.username .user

theorem run_register_hashed {salt hash : Bytes} (hvalid : parseRegistration cfg req = .ok payload)
    (hsalt : env.random b.db.calls 16 = .ok salt)
    (hhash : Auth.hashPassword cfg.crypt payload.password salt = .ok hash) :
    (registerHandler cfg req).run (env.execLosing lost) b =
      (registerHashed cfg payload hash).run (env.execLosing lost) b.counted := by
  unfold registerHandler
  rw [hvalid]
  dsimp only
  rw [Program.run_bind, run_attempt, run_hashPassword, hsalt]
  dsimp only
  rw [hhash]
  rfl

/-- Without a hash nothing is changed. -/
theorem run_register_unhashed (lost : Nat → Option Bytes)
    (h : ∀ payload salt hash, parseRegistration cfg req = .ok payload →
      env.random b.db.calls 16 = .ok salt →
        Auth.hashPassword cfg.crypt payload.password salt ≠ .ok hash) :
    ((registerHandler cfg req).run (env.execLosing lost) b).2.accounts = b.accounts := by
  unfold registerHandler
  cases hvalid : parseRegistration cfg req with
  | error e =>
    dsimp only
    unfold refuseInvalid
    split <;> rfl
  | ok payload =>
    dsimp only
    rw [Program.run_bind, run_attempt, run_hashPassword]
    cases hsalt : env.random b.db.calls 16 with
    | error error => rfl
    | ok salt =>
      dsimp only
      cases hhash : Auth.hashPassword cfg.crypt payload.password salt with
      | error e => rfl
      | ok hash => exact absurd hhash (h payload salt hash hvalid hsalt)

/-- The user is not stored. -/
theorem run_register_refused (lost : Nat → Option Bytes)
    (h : ¬ ∃ payload userId accounts, UserStored env cfg req b payload userId accounts) :
    ((registerHandler cfg req).run (env.execLosing lost) b).2.accounts = b.accounts := by
  by_cases hhashed : ∃ payload salt hash, parseRegistration cfg req = .ok payload ∧
      env.random b.db.calls 16 = .ok salt ∧
        Auth.hashPassword cfg.crypt payload.password salt = .ok hash
  · obtain ⟨payload, salt, hash, hvalid, hsalt, hhash⟩ := hhashed
    rw [run_register_hashed hvalid hsalt hhash]
    obtain ⟨e, b', hrun, haccounts⟩ : ∃ e b', (createUser payload.username hash .user).run
        (env.execLosing lost) b.counted = (.error e, b') ∧ b'.accounts = b.accounts :=
      run_createUser_undone (b := b.counted) fun hconnected hcarriedOut x hx =>
        h ⟨payload, x.1, x.2, hvalid, hconnected, hcarriedOut, salt, hash, hsalt, hhash, hx⟩
    unfold registerHashed
    rw [Program.run_bind, run_attempt, hrun]
    exact haccounts
  · refine run_register_unhashed lost fun payload salt hash hvalid hsalt hhash => hhashed ?_
    exact ⟨payload, salt, hash, hvalid, hsalt, hhash⟩

/-- The user is stored, and a session is opened when the answer arrives. -/
theorem run_register_stored (lost : Nat → Option Bytes)
    (h : UserStored env cfg req b payload userId accounts) :
    (lost (b.db.calls + 2) = none ∧ ∃ b₁, b₁.accounts = accounts ∧ b₁.now = b.now ∧
      b₁.db.calls = b.db.calls + 4 ∧
      (registerHandler cfg req).run (env.execLosing lost) b =
        (openSession cfg 201 userId payload.username .user).run (env.execLosing lost) b₁) ∨
    lost (b.db.calls + 2) ≠ none ∧ ∃ res b',
      (registerHandler cfg req).run (env.execLosing lost) b = (.ok res, b') ∧
        res.status ≠ 201 ∧ b'.accounts = accounts := by
  obtain ⟨salt, hash, hsalt, hhash, hinserted⟩ := h.inserted
  obtain ⟨r, b', hrun, haccounts, hnow, hcalls, hanswer⟩ := run_createUser_done lost
    (b := b.counted) h.connected h.carriedOut hinserted
  rw [run_register_hashed h.valid hsalt hhash]
  unfold registerHashed
  rw [Program.run_bind, run_attempt, hrun]
  rcases hanswer with ⟨hl, rfl⟩ | ⟨hl, e, rfl⟩
  · exact .inl ⟨hl, b', haccounts, hnow, hcalls.trans (by rfl), rfl⟩
  · refine .inr ⟨hl, _, b', rfl, ?_, haccounts⟩
    split <;> exact nofun

/-! ## Both halves or none -/

theorem length_username {payload : AuthPayload} (h : parseRegistration cfg req = .ok payload) :
    payload.username.length ≤ 20 := by
  unfold parseRegistration at h
  obtain ⟨payload', -, h⟩ := Admin.ok_of_bind h
  obtain ⟨u, husername, h⟩ := Admin.ok_of_bind h
  obtain ⟨v, -, h⟩ := Admin.ok_of_bind h
  cases h
  unfold Auth.validateUsername at husername
  split at husername
  · cases husername
  · next hlength =>
    rw [Bool.not_eq_true, Bool.or_eq_false_iff, decide_eq_false_iff_not,
      decide_eq_false_iff_not] at hlength
    exact Nat.le_of_not_lt hlength.2

/-- The row that is stored has the name of the body. -/
theorem UserStored.row (h : UserStored env cfg req b payload userId accounts) :
    ∃ user : UserRow, user.id = userId ∧ user.username = payload.username ∧
      accounts.users = b.accounts.users ++ [user] ∧
      accounts.sessions = b.accounts.sessions := by
  obtain ⟨salt, hash, -, -, hinserted⟩ := h.inserted
  obtain ⟨-, user, hid, -, hname, rfl⟩ := AccountTables.insertUser_row hinserted
  refine ⟨user, hid, (Store.fitVarchar_short (fun n hn => ?_) hname).symm, rfl, rfl⟩
  exact (utf8Length_le hn).trans (length_username h.valid)

theorem not_atomic {x : Except Exn Response × Backend}
    (h : UserStored env cfg req b payload userId accounts)
    (hstatus : ∀ res, x.1 = .ok res → res.status ≠ 201)
    (husers : x.2.accounts.users = accounts.users) : ¬ RegistrationAtomic cfg req b x := by
  obtain ⟨user, -, -, hrow, -⟩ := h.row
  rintro (⟨res, payload, hres, h201, -⟩ | ⟨hsame, -⟩)
  · exact hstatus res hres h201
  · rw [husers, hrow] at hsame
    exact List.cons_ne_nil user [] (List.append_right_eq_self.mp hsame)

theorem run_register_registered (hu : UserStored env cfg req b payload userId accounts)
    (hanswer : lost (b.db.calls + 2) = none)
    (hs : SessionStored env lost cfg (b.db.calls + 4) b.now userId accounts sessionId accounts') :
    Registered cfg req b ((registerHandler cfg req).run (env.execLosing lost) b) := by
  rcases run_register_stored lost hu with ⟨-, b₁, haccounts, hnow, hcalls, hrun⟩ | ⟨hl, -⟩
  · rw [← haccounts, ← hnow, ← hcalls] at hs
    rcases run_openSession env lost cfg b₁ 201 userId payload.username .user with
      ⟨id, accounts₂, b₂, hs₂, hopen, haccounts₂⟩ | ⟨hno, -⟩
    · rw [hrun, hopen]
      obtain ⟨user, rfl, hname, husers, -⟩ := hu.row
      obtain ⟨-, -, hsession⟩ := AccountTables.insertSession_spec hs₂.inserted
      refine ⟨_, payload, rfl, rfl, hu.valid, user, hname, ?_, ?_⟩
      · rw [haccounts₂, hsession, ← husers, haccounts]
      · rw [haccounts₂, hsession]
        exact ⟨_, List.mem_append_right _ (List.mem_singleton_self _), rfl,
          List.mem_append_right _ (List.mem_singleton_self _)⟩
    · exact absurd ⟨sessionId, accounts', hs⟩ hno
  · exact absurd hanswer hl

/-- **A registration is all or nothing exactly when a user who is stored is told to be, and gets a
session.** -/
theorem registration_atomic_iff (env : Env) (lost : Nat → Option Bytes) (cfg : Config)
    (b : Backend) (req : Request) :
    RegistrationAtomic cfg req b ((registerHandler cfg req).run (env.execLosing lost) b) ↔
      ∀ payload userId accounts, UserStored env cfg req b payload userId accounts →
        lost (b.db.calls + 2) = none ∧ ∃ sessionId accounts',
          SessionStored env lost cfg (b.db.calls + 4) b.now userId accounts sessionId
            accounts' := by
  constructor
  · intro hatomic payload userId accounts hu
    rcases run_register_stored lost hu with
      ⟨hl, b₁, haccounts, hnow, hcalls, hrun⟩ | ⟨hl, res, b', hrun, hstatus, haccounts⟩
    · refine ⟨hl, ?_⟩
      rw [hrun] at hatomic
      rcases run_openSession env lost cfg b₁ 201 userId payload.username .user with
        ⟨sessionId, accounts', -, hs, -⟩ | ⟨-, r, b', hopen, hstatus, husers⟩
      · rw [haccounts, hnow, hcalls] at hs
        exact ⟨sessionId, accounts', hs⟩
      · rw [hopen] at hatomic
        refine absurd hatomic (not_atomic hu (fun res hres h201 => ?_) (by rw [husers, haccounts]))
        have h500 := hstatus res hres
        rw [h201] at h500
        cases h500
    · rw [hrun] at hatomic
      refine absurd hatomic (not_atomic hu ?_ (by rw [haccounts]))
      rintro res' ⟨⟩
      exact hstatus
  · intro h
    by_cases hu : ∃ payload userId accounts, UserStored env cfg req b payload userId accounts
    · obtain ⟨payload, userId, accounts, hu⟩ := hu
      obtain ⟨hanswer, sessionId, accounts', hs⟩ := h payload userId accounts hu
      exact .inl (run_register_registered hu hanswer hs)
    · have haccounts := run_register_refused lost hu
      exact .inr ⟨by rw [haccounts], by rw [haccounts]⟩

/-! ## A user without a session -/

/-- The random source cannot be opened for the session id. -/
def noEntropy : Env :=
  { calmEnv with
    random := fun call n =>
      if call = 4 then .error (utf8 "failed to open random source")
      else .ok (List.replicate n 0) }

/-- The request fails, Alice is stored all the same, and cannot register again. -/
theorem user_without_session :
    ∃ e b', (registerHandler aliceConfig registration).run (noEntropy.execLosing fun _ => none)
        oneProblem = (.error e, b') ∧
      b'.accounts.users.map UserRow.username = [utf8 "alice"] ∧ b'.accounts.sessions = [] ∧
      ((registerHandler aliceConfig registration).run calmEnv.exec b').1.map Response.status =
        .ok 409 :=
  ⟨_, _, rfl, by decide +kernel, by decide +kernel, by decide +kernel⟩

end MiniOj.Http
