import MiniOj.Db.Spec.Accounts
import MiniOj.Http.Properties.CrossOrigin
import MiniOj.Http.Server

/-!
# Only administrators change problems

As long as no request comes with the id of a live session of an admin, or with the password of
one, the problem bank and the admins stay as they are, whatever else is requested at the same
time.

* `Kept` — what the calls of all threads keep
* `kept_insertUser`, `kept_insertSession` — a new user is no admin, and a session for one who is not
* `Guarded` — a program that keeps it, and what is known of its result
* `guarded_routing` — every harmless request is such a program
* `only_admins_change_problems`
-/

namespace MiniOj.Http

open Infra Db

/-- The id of a session of an admin that has not expired. -/
def LiveAdmin (b : Backend) (id : Bytes) : Prop :=
  ∃ r ∈ b.accounts.sessions, r.id = id ∧ b.utc < r.expiresAt ∧
    ∃ u ∈ b.accounts.admins, u.id = r.userId

/-- A login with the name of an admin and a password that `verifyPassword` accepts for it. -/
def AdminLogin (env : Env) (cfg : Config) (b : Backend) (req : Request) : Prop :=
  req.method = utf8 "POST" ∧ req.path = utf8 "/api/auth/login" ∧
    ∃ payload, parseAuthPayload cfg.readJson req.body = .ok payload ∧
      ∃ u ∈ b.accounts.admins, env.mysql.weight u.username = env.mysql.weight payload.username ∧
        Auth.verifyPassword cfg.crypt payload.password u.passwordHash = true

/-- Neither comes with a request that arrives. -/
def Harmless (env : Env) (cfg : Config) (s : Server) : ServerAction → Prop
  | .start req => (∀ id, parseSessionId req = some id → ¬ LiveAdmin s.shared.backend id) ∧
      ¬ AdminLogin env cfg s.shared.backend req
  | _ => True

/-! ## What is kept -/

/-- What calls without the rights of an admin leave. -/
structure Kept (s s' : Shared) : Prop where
  bank : s'.backend.db.bank = s.backend.db.bank
  admins : s'.backend.accounts.admins = s.backend.accounts.admins
  keyed : s.backend.accounts.Keyed → s'.backend.accounts.Keyed
  live : ∀ id, LiveAdmin s'.backend id → LiveAdmin s.backend id

theorem Kept.refl (s : Shared) : Kept s s := ⟨rfl, rfl, fun h => h, fun _ h => h⟩

/-- One call after another. -/
theorem Kept.trans {s t u : Shared} (h : Kept s t) (h' : Kept t u) : Kept s u :=
  ⟨h'.bank.trans h.bank, h'.admins.trans h.admins, fun hk => h'.keyed (h.keyed hk),
    fun id hu => h.live id (h'.live id hu)⟩

variable {env : Env} {cfg : Config} {req : Request} {s s' : Shared} {l l' : Local}

/-- Time only ends sessions. -/
theorem kept_tick {elapsed : Nat} (h : Server.tick s elapsed = some s') : Kept s s' := by
  cases h
  refine ⟨rfl, rfl, fun h => h, ?_⟩
  rintro id ⟨r, hr, hid, hutc, hadmin⟩
  have hle : s.backend.now / 10 ^ 9 ≤ (s.backend.now + elapsed) / 10 ^ 9 :=
    Nat.div_le_div_right (Nat.le_add_right _ _)
  exact ⟨r, hr, hid, Nat.lt_of_le_of_lt hle hutc, hadmin⟩

/-- What a change of the accounts may do. -/
structure SameAdmins (a a' : AccountTables) : Prop where
  admins : a'.admins = a.admins
  keyed : a.Keyed → a'.Keyed
  sessions : ∀ r ∈ a'.sessions, r ∈ a.sessions ∨ ∀ u ∈ a.admins, u.id ≠ r.userId

theorem SameAdmins.refl (a : AccountTables) : SameAdmins a a := ⟨rfl, fun h => h, fun _ h => .inl h⟩

/-- A call keeps what there is if it does so as seen from the accounts. -/
theorem kept_of_exec {c : Call} {r : c.Reply} (h : env.execute c l s = some (r, l', s'))
    (hbank : (env.exec c (s.seenBy l)).2.db.bank = s.backend.db.bank)
    (ha : SameAdmins s.backend.accounts (env.exec c (s.seenBy l)).2.accounts) : Kept s s' := by
  obtain ⟨-, -, hb, -⟩ := execute_eq_some h
  have hutc : s'.backend.utc = s.backend.utc := by
    rw [hb]
    exact congrArg (· / 10 ^ 9) Env.exec_now
  refine ⟨by rw [hb]; exact hbank, by rw [hb]; exact ha.admins, by rw [hb]; exact ha.keyed, ?_⟩
  rintro id ⟨r, hr, hid, hlive, u, hu, huser⟩
  rw [hb] at hr hu
  rw [hutc] at hlive
  dsimp only at hr hu
  rw [ha.admins] at hu
  rcases ha.sessions r hr with hr | hr
  · exact ⟨r, hr, hid, hlive, u, hu, huser⟩
  · exact absurd huser (hr u hu)

/-- A statement on users or sessions keeps what there is if its effect does. -/
theorem kept_of_change {α : Type} {c : Call} {r : c.Reply}
    {effect : Nat → AccountTables → Except Refusal (α × AccountTables)}
    (h : env.execute c l s = some (r, l', s'))
    (hc : (env.exec c (s.seenBy l)).2 = (env.change c effect (s.seenBy l)).2)
    (heffect : ∀ now x a, effect now s.backend.accounts = .ok (x, a) →
      SameAdmins s.backend.accounts a) : Kept s s' := by
  rcases Env.change_cases env c effect (s.seenBy l) with
    ⟨x, a, ha, he⟩ | ⟨error, he⟩
  · refine kept_of_exec h ?_ ?_ <;> rw [hc, he]
    · rfl
    · exact heffect _ x a ha
  · refine kept_of_exec h ?_ ?_ <;> rw [hc, he]
    · rfl
    · exact .refl _

/-- The calls of requests that create neither users nor sessions. -/
def Call.Tame (c : Call) : Prop := c.Reads ∨ ∃ id, c = .deleteSession id

/-- Calls that read, or end a session. -/
theorem kept_of_tame {c : Call} {r : c.Reply} (hc : c.Tame)
    (h : env.execute c l s = some (r, l', s')) : Kept s s' := by
  rcases hc with hc | ⟨id, rfl⟩
  · obtain ⟨hbank, haccounts⟩ := exec_reads env hc (s.seenBy l)
    refine kept_of_exec h hbank ?_
    rw [haccounts]
    exact .refl _
  · refine kept_of_change h rfl fun now n a ha => ?_
    cases ha
    exact ⟨rfl, fun h => ⟨h.ids, h.next⟩, fun r hr => .inl (List.mem_of_mem_filter hr)⟩

/-- A new user is no admin. -/
theorem kept_insertUser {username passwordHash : Bytes} {r : Except SqlError Nat}
    (h : env.execute (.insertUser username passwordHash .user) l s = some (r, l', s')) :
    Kept s s' := by
  refine kept_of_change h rfl fun now id a ha => ?_
  have hkeyed := fun hk : s.backend.accounts.Keyed => hk.insertUser ha
  obtain ⟨-, row, -, hrole, rfl⟩ := AccountTables.insertUser_spec ha
  refine ⟨?_, hkeyed, fun r hr => .inl hr⟩
  unfold AccountTables.admins
  rw [List.filter_append, List.filter_singleton, hrole]
  exact List.append_nil _

/-- The id of a new user is not one of an admin. -/
theorem ne_of_insertUser {username passwordHash : Bytes} {role : Role} {id : Nat}
    (hk : s.backend.accounts.Keyed)
    (h : env.execute (.insertUser username passwordHash role) l s = some (.ok id, l', s')) :
    ∀ u ∈ s.backend.accounts.admins, u.id ≠ id := by
  obtain ⟨hr, -⟩ := execute_eq_some h
  rcases Env.change_cases env (.insertUser username passwordHash role) (fun now a =>
      a.insertUser env.mysql.weight now username passwordHash role) (s.seenBy l) with
      ⟨x, a, ha, he⟩ | ⟨error, he⟩
  · cases hr.trans (congrArg Prod.fst he)
    obtain ⟨hid, -⟩ := AccountTables.insertUser_spec ha
    intro u hu
    rw [hid]
    exact Nat.ne_of_lt (hk.next u (AccountTables.mem_admins.mp hu).1)
  · cases hr.trans (congrArg Prod.fst he)

/-- A session of somebody else is none of an admin. -/
theorem kept_insertSession {id : Bytes} {userId expiresAt : Nat} {r : Except SqlError Unit}
    (huser : ∀ u ∈ s.backend.accounts.admins, u.id ≠ userId)
    (h : env.execute (.insertSession id userId expiresAt) l s = some (r, l', s')) : Kept s s' := by
  refine kept_of_change h rfl fun now x a ha => ?_
  obtain ⟨-, -, rfl⟩ := AccountTables.insertSession_spec ha
  refine ⟨rfl, fun h => ⟨h.ids, h.next⟩, fun r hr => ?_⟩
  rcases List.mem_append.mp hr with hr | hr
  · exact .inl hr
  · rw [List.mem_singleton.mp hr]
    exact .inr huser

/-! ## Guarded programs -/

/-- From `s` on, every call keeps what there is, and a result meets `post`. -/
def Guarded {α : Type} (env : Env) (p : Handler α) (post : α → Prop) (s : Shared) : Prop :=
  ∀ s', Kept s s' → p.Guards env.execute Kept (fun r _ => ∀ a, r = .ok a → post a) s'

variable {α β : Type} {post : α → Prop} {post' : β → Prop}

theorem Guarded.ret {a : α} (h : post a) : Guarded env (.ret a) post s :=
  fun _ _ _ _ _ hr => by cases hr; exact h

theorem Guarded.throw {e : Exn} : Guarded env (.throw e : Handler α) post s :=
  fun _ _ _ _ _ hr => (nomatch hr)

/-- What is left after a call may rely on what the reply says. -/
theorem Guarded.call {c : Call} {k : c.Reply → Handler α}
    (h : ∀ l t r l' t', Kept s t → env.execute c l t = some (r, l', t') →
      Kept t t' ∧ Guarded env (k r) post s) : Guarded env (.call c k) post s := by
  intro s' hs l t ht r l' t' hexec
  obtain ⟨hkept, hk⟩ := h l t r l' t' (hs.trans ht) hexec
  exact ⟨hkept, hk t' ((hs.trans ht).trans hkept)⟩

/-- What the first program has found out is known in the second. -/
theorem Guarded.bind {p : Handler β} {f : β → Handler α} (hp : Guarded env p post' s)
    (hf : ∀ b, post' b → Guarded env (f b) post s) : Guarded env (p >>= f) post s := by
  intro s' hs
  refine Program.Guards.bind Kept.refl (((hp s' hs).from_start (fun _ _ _ h h' => h.trans h')
    hs).mono fun r t hr => ?_)
  obtain ⟨hpost, hkept⟩ := hr
  cases r with
  | ok b => exact hf b (hpost b rfl) t hkept
  | error e => exact fun _ _ _ hr => (nomatch hr)

/-- Nothing is known when an exception is caught. -/
theorem Guarded.tryCatch {p : Handler α} {handler : Exn → Handler α} (hp : Guarded env p post s)
    (hh : ∀ e, Guarded env (handler e) post s) : Guarded env (p.tryCatch handler) post s := by
  intro s' hs
  refine Program.Guards.tryCatch Kept.refl (((hp s' hs).from_start (fun _ _ _ h h' => h.trans h')
    hs).mono fun r t hr => ?_)
  obtain ⟨hpost, hkept⟩ := hr
  cases r with
  | ok a => exact fun _ _ => hpost
  | error e => exact hh e t hkept

/-- A program without other calls. -/
theorem Guarded.of_tame {p : Handler α} (hp : p.Only Call.Tame) :
    Guarded env p (fun _ => True) s := by
  intro s' _
  have hguards : p.Guards env.execute Kept (fun _ _ => True) s' := by
    refine Program.Only.guards ?_ hp s'
    exact fun _ _ _ _ _ _ hc h => kept_of_tame hc h
  exact hguards.mono fun _ _ _ _ _ => trivial

/-- A program that reads. -/
theorem Guarded.of_reads {p : Handler α} (hp : p.Only Call.Reads) :
    Guarded env p (fun _ => True) s := .of_tame (hp.mono fun _ => .inl)

/-- A program with its exceptions made into answers. -/
theorem Guarded.attempt {p : Handler α} {refuse : Exn → Response} (hp : Guarded env p post s) :
    Guarded env (attempt p refuse) (fun r => ∀ a, r = .ok a → post a) s := by
  refine .tryCatch (.bind hp fun a ha => .ret ?_) fun e => .ret ?_
  · rintro _ ⟨⟩
    exact ha
  · rintro _ ⟨⟩

/-- The answer of a query, or an exception. -/
theorem Guarded.orThrow {context : String} {r : Except SqlError α} (h : ∀ a, r = .ok a → post a) :
    Guarded env (orThrow context r) post s := by
  cases r with
  | ok a => exact .ret (h a rfl)
  | error e => exact .throw

/-- The end of a query. -/
theorem Guarded.freed {store : String} {rows : α} (h : post rows) :
    Guarded env (freed store rows) post s :=
  .bind (.of_reads (reads_storeResult store)) fun res _ =>
    .bind (.of_reads (reads_freeResult res)) fun _ _ => .ret h

/-- The body runs with a lease; to give it back cannot fail. -/
theorem Guarded.withLease {body : Handler α} (hb : Guarded env body post s) :
    Guarded env (withLease body) post s := by
  refine .call fun l t r l' t' ht hexec =>
    ⟨kept_of_tame (c := .bank .acquire) (.inl trivial) hexec, ?_⟩
  cases r with
  | error e => exact .throw
  | ok _ =>
    refine fun s' hs => Program.Guards.andFinally Kept.refl (fun _ _ _ h h' => h.trans h')
      (fun u => ?_) (hb s' hs) fun _ _ _ h _ => h
    exact fun l t _ r l' t' hexec =>
      ⟨kept_of_tame (c := .bank .release) (.inl trivial) hexec, fun _ _ => rfl⟩

/-! ## Accounts -/

/-- Nobody but an admin is found by a session id that is not live for one. -/
theorem guarded_findUserByValidSessionId {id : Bytes} (h : ¬ LiveAdmin s.backend id) :
    Guarded env (findUserByValidSessionId id) (fun r => ∀ u, r = some u → u.role ≠ .admin) s := by
  unfold findUserByValidSessionId
  split
  · exact .ret (by rintro _ ⟨⟩)
  · have hselect : Guarded env (.call (.selectSessionUser id) (orThrow "session lookup"))
        (fun row : Option UserRow => ∀ u, row = some u → u.role ≠ .admin) s := by
      refine .call fun l t r l' t' ht hexec =>
        ⟨kept_of_tame (c := .selectSessionUser id) (.inl trivial) hexec, .orThrow ?_⟩
      rintro row hr u rfl hrole
      -- otherwise the session was live at the start
      obtain ⟨hreply, -⟩ := execute_eq_some hexec
      have hrow := Env.query_ok (hreply.symm.trans hr)
      obtain ⟨hmem, r, hr, hid, hutc, huser⟩ := AccountTables.mem_sessionUser hrow.symm
      exact h (ht.live id
        ⟨r, hr, hid, hutc, u, AccountTables.mem_admins.mpr ⟨hmem, hrole⟩, huser.symm⟩)
    refine .withLease (.bind hselect fun row hrow => .freed fun u hu => ?_)
    obtain ⟨row, hrow', rfl⟩ := Option.map_eq_some_iff.mp hu
    exact hrow row hrow'

/-- An admin found by a name has that name, and the password hash found. -/
theorem guarded_findUserByUsername {username : Bytes} (hk : s.backend.accounts.Keyed) :
    Guarded env (findUserByUsername username) (fun r => ∀ u, r = some u →
      ∀ v ∈ s.backend.accounts.admins, v.id = u.id →
        env.mysql.weight v.username = env.mysql.weight username ∧
          v.passwordHash = u.passwordHash) s := by
  have hselect : Guarded env (.call (.selectUser username) (orThrow "user lookup"))
      (fun row : Option UserRow => ∀ u, row = some u →
        ∀ v ∈ s.backend.accounts.admins, v.id = u.id →
          env.mysql.weight v.username = env.mysql.weight username ∧ v = u) s := by
    refine .call fun l t r l' t' ht hexec =>
      ⟨kept_of_tame (c := .selectUser username) (.inl trivial) hexec, .orThrow ?_⟩
    rintro row hr u rfl v hv hid
    obtain ⟨hreply, -⟩ := execute_eq_some hexec
    have hrow := Env.query_ok (hreply.symm.trans hr)
    obtain ⟨hu, hname⟩ := AccountTables.userByName_spec hrow.symm
    rw [← ht.admins] at hv
    cases (ht.keyed hk).eq_of_id (AccountTables.mem_admins.mp hv).1 hu hid
    exact ⟨hname, rfl⟩
  refine .withLease (.bind hselect fun row hrow => .freed fun u hu v hv hid => ?_)
  obtain ⟨row, hrow', rfl⟩ := Option.map_eq_some_iff.mp hu
  obtain ⟨hname, rfl⟩ := hrow row hrow' v hv hid
  exact ⟨hname, rfl⟩

/-- The id of the new user is not one of an admin. -/
theorem guarded_createUser {username passwordHash : Bytes} (hk : s.backend.accounts.Keyed) :
    Guarded env (createUser username passwordHash .user)
      (fun id => ∀ u ∈ s.backend.accounts.admins, u.id ≠ id) s := by
  refine .withLease (.call fun l t r l' t' ht hexec => ⟨kept_insertUser hexec, ?_⟩)
  cases r with
  | ok id =>
    refine .ret fun u hu => ?_
    rw [← ht.admins] at hu
    exact ne_of_insertUser (ht.keyed hk) hexec u hu
  | error e =>
    dsimp only
    split <;> exact .throw

/-- A session for somebody who is no admin. -/
theorem guarded_createSession {userId ttl : Nat} {id : Bytes}
    (h : ∀ u ∈ s.backend.accounts.admins, u.id ≠ userId) :
    Guarded env (createSession userId id ttl) (fun _ => True) s := by
  refine .withLease ?_
  split
  · exact .throw
  · refine .call fun l t now l' t' _ hexec => ⟨kept_of_tame (c := .now) (.inl trivial) hexec, ?_⟩
    have hinsert : Guarded env (.call (.insertSession id userId
        (formatMysqlTimestamp (now + ttl * 10 ^ 9))) (orThrow "session insert"))
        (fun _ => True) s := by
      refine .call fun l t r l' t' ht hexec =>
        ⟨kept_insertSession ?_ hexec, .orThrow fun _ _ => trivial⟩
      rw [ht.admins]
      exact h
    exact .bind hinsert fun _ _ => .ret trivial

/-- A session is opened for a user who is no admin. -/
theorem guarded_openSession {status userId : Nat} {username : Bytes} {role : Role}
    (h : ∀ u ∈ s.backend.accounts.admins, u.id ≠ userId) :
    Guarded env (openSession cfg status userId username role) (fun _ => True) s := by
  refine .bind (.of_reads reads_generateSessionId) fun sessionId _ =>
    .bind (.attempt (guarded_createSession h)) fun r _ => ?_
  cases r <;> exact .ret trivial

/-! ## Handlers -/

/-- **A registration makes no admin.** -/
theorem guarded_registerHandler (hk : s.backend.accounts.Keyed) :
    Guarded env (registerHandler cfg req) (fun _ => True) s := by
  unfold registerHandler
  split
  · exact .of_reads (only_refuseInvalid _)
  · refine .bind (.of_reads (only_attempt (reads_hashPassword cfg _))) fun hash _ => ?_
    cases hash with
    | error res => exact .ret trivial
    | ok passwordHash =>
      refine .bind (.attempt (guarded_createUser hk)) fun user huser => ?_
      cases user with
      | error res => exact .ret trivial
      | ok userId => exact guarded_openSession (huser userId rfl)

/-- **A login that fits no admin** opens no session for one. -/
theorem guarded_loginHandler (hk : s.backend.accounts.Keyed)
    (h : ∀ payload, parseAuthPayload cfg.readJson req.body = .ok payload →
      ∀ u ∈ s.backend.accounts.admins,
        env.mysql.weight u.username = env.mysql.weight payload.username →
          ¬ Auth.verifyPassword cfg.crypt payload.password u.passwordHash = true) :
    Guarded env (loginHandler cfg req) (fun _ => True) s := by
  unfold loginHandler
  split
  · exact .of_reads (only_refuseInvalid _)
  · next payload hpayload =>
    split
    · exact .ret trivial
    · refine .bind (.attempt (guarded_findUserByUsername hk)) fun user huser => ?_
      rcases user with res | _ | user
      · exact .ret trivial
      · exact .ret trivial
      · dsimp only
        split
        · next hverify =>
          refine guarded_openSession fun u hu hid => ?_
          obtain ⟨hname, hhash⟩ := huser _ rfl user rfl u hu hid
          exact h payload hpayload u hu hname (by rw [hhash]; exact hverify)
        · exact .ret trivial

/-- A logout ends a session. -/
theorem tame_logoutHandler : (logoutHandler cfg req).Only Call.Tame :=
  only_logoutHandler (fun _ => .inl) fun id _ => .inr ⟨id, rfl⟩

/-- **The guard stops who has no session of an admin.** -/
theorem guarded_checkAdminAuth (h : ∀ id, parseSessionId req = some id → ¬ LiveAdmin s.backend id) :
    Guarded env (checkAdminAuth req) (fun r => r = none → isAdminPath req.path = false) s := by
  unfold checkAdminAuth
  split
  · next hpath =>
    refine .ret fun _ => ?_
    rwa [Bool.not_eq_true'] at hpath
  · split
    · exact .ret (by rintro ⟨⟩)
    · next id hid =>
      refine .bind (.attempt (guarded_findUserByValidSessionId (h id hid))) fun user huser => ?_
      rcases user with res | _ | user
      · exact .ret (by rintro ⟨⟩)
      · exact .ret (by rintro ⟨⟩)
      · dsimp only
        rw [if_pos (huser _ rfl user rfl)]
        exact .ret (by rintro ⟨⟩)

/-! ## Requests -/

/-- Past the guard of the administration there are the routes of everybody. -/
theorem guarded_handlerOf (hk : s.backend.accounts.Keyed) (h : ¬ AdminLogin env cfg s.backend req)
    (hpath : isAdminPath req.path = false) {handler : Handler Response}
    (hh : handlerOf cfg req = some handler) : Guarded env handler (fun _ => True) s := by
  have hno : ¬ isAdminPath req.path = true := by rw [hpath]; exact Bool.false_ne_true
  cases routed_of_handlerOf hh with
  | reads hreads => exact .of_reads hreads
  | register => exact guarded_registerHandler hk
  | login hmethod hlogin =>
    refine guarded_loginHandler hk fun payload hpayload u hu hname hverify => h ?_
    exact ⟨hmethod, hlogin, payload, hpayload, u, hu, hname, hverify⟩
  | logout => exact .of_tame tame_logoutHandler
  | create hadmin => exact absurd hadmin hno
  | reset hadmin => exact absurd hadmin hno
  | update raw hadmin => exact absurd hadmin hno
  | delete raw hadmin => exact absurd hadmin hno

/-- **A harmless request keeps what there is.** -/
theorem guarded_routing (hk : s.backend.accounts.Keyed)
    (hsession : ∀ id, parseSessionId req = some id → ¬ LiveAdmin s.backend id)
    (hlogin : ¬ AdminLogin env cfg s.backend req) :
    Guarded env (routing cfg req) (fun _ => True) s := by
  have hguard : Guarded env (preRouting cfg req) (fun r => r = none → isAdminPath req.path = false)
      s := by
    refine .call fun l t r l' t' _ hexec =>
      ⟨kept_of_tame (c := .rateLimit req) (.inl trivial) hexec, ?_⟩
    cases r with
    | some refused => exact .ret (by rintro ⟨⟩)
    | none =>
      dsimp only
      split
      · exact .ret (by rintro ⟨⟩)
      · exact guarded_checkAdminAuth hsession
  refine .bind hguard fun handled hpath => ?_
  cases handled with
  | some res => exact .ret trivial
  | none =>
    dsimp only
    split
    · next handler hhandler => exact guarded_handlerOf hk hlogin (hpath rfl) hhandler
    · exact .ret trivial

/-! ## Runs -/

/-- **Only admins change problems.** However the calls of harmless requests are interleaved and
whichever of them fail, the problem bank and the users with role `admin` stay as they are. -/
theorem only_admins_change_problems (env : Env) (cfg : Config) (b : Backend)
    (hb : b.accounts.Keyed) (S : Server)
    (h : ReachableWhen (Server.step env cfg) (· = Server.start b) (Harmless env cfg) S) :
    S.shared.backend.db.bank = b.db.bank ∧
      S.shared.backend.accounts.admins = b.accounts.admins := by
  have hkept : Kept (Server.start b).shared S.shared := by
    refine Threads.relies Kept.refl (fun _ _ _ h h' => h.trans h') ?_ ?_ ?_ h
    · rintro _ rfl
      exact ⟨rfl, rfl⟩
    · exact fun _ _ _ => kept_tick
    · intro s req hs hreq
      have hguarded := guarded_routing (hs.keyed hb) hreq.1 hreq.2 s.shared (.refl _)
      exact hguarded.mono fun _ _ _ => trivial
  exact ⟨hkept.bank, hkept.admins⟩

/-- One problem, an admin, who is not logged in, and Alice, who is. -/
def withAlice : Backend :=
  { oneProblem with accounts :=
    ⟨[⟨1, utf8 "root", [], .admin, 0⟩, ⟨2, utf8 "alice", [], .user, 0⟩],
      [⟨List.replicate 64 48, 2, 3600, 0⟩], 3⟩ }

/-- The deletion of the problem, without a cookie. -/
def anonymousDelete : Request := { foreignDelete with headers := [] }

/-- The deletion of the problem, with Alice's cookie. -/
def aliceDelete : Request :=
  { foreignDelete with headers :=
    [(utf8 "Cookie", Auth.sessionCookieName ++ utf8 "=" ++ List.replicate 64 48)] }

/-- Alice and somebody without a session ask for the deletion of the problem. -/
def deletesArrived : Server where
  shared := { backend := withAlice }
  threads := [Server.spawn bareConfig aliceDelete, Server.spawn bareConfig anonymousDelete]

/-- All their calls, with the lookup of the session. -/
def deleteCalls : List ServerAction :=
  [0, 1, 0, 0, 0, 0, 0].map .call

/-- Both requests have been answered. -/
def deletesRefused : Server :=
  (Infra.run (Server.step calmEnv bareConfig) deletesArrived deleteCalls).get (by decide +kernel)

theorem only_admins_change_problems_delete :
    deletesRefused.shared.backend.db.bank = withAlice.db.bank ∧
      deletesRefused.shared.backend.accounts.admins = withAlice.accounts.admins := by
  have hlive : ∀ id, ¬ LiveAdmin withAlice id := by
    rintro id ⟨r, hr, -, -, u, hu, huser⟩
    have hother : ∀ r ∈ withAlice.accounts.sessions, ∀ u ∈ withAlice.accounts.admins,
        u.id ≠ r.userId := by decide
    exact hother r hr u hu huser
  have hlogin : ∀ req, req.method = utf8 "DELETE" →
      ¬ AdminLogin calmEnv bareConfig withAlice req := by
    rintro req hmethod ⟨hpost, -⟩
    exact absurd (hmethod.symm.trans hpost) (by decide)
  have hrun : Infra.run (Server.step calmEnv bareConfig) deletesArrived deleteCalls =
      some deletesRefused := (Option.some_get _).symm
  refine only_admins_change_problems calmEnv bareConfig withAlice ⟨by decide, by decide⟩ _
    (ReachableWhen.run ?_ ?_ hrun)
  · refine .step (.start anonymousDelete) (.step (.start aliceDelete) (.init rfl) ?_ rfl) ?_ rfl
    · exact ⟨fun id _ => hlive id, hlogin _ rfl⟩
    · exact ⟨fun id _ => hlive id, hlogin _ rfl⟩
  · intro a ha t
    obtain ⟨thread, -, rfl⟩ := List.mem_map.mp ha
    trivial

/-- Neither has a call left. -/
example : ∀ thread < 2, (Server.step calmEnv bareConfig deletesRefused (.call thread)).isNone := by
  decide +kernel

end MiniOj.Http
