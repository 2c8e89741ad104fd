import MiniOj.Http.Properties.Administration
import MiniOj.Http.Properties.Registration
import MiniOj.Infra.Rely

/-!
# Who has an account and who is logged in

Whatever requests arrive and however their calls are interleaved, users are only added, each by a
registration, and sessions are only opened for users by those who know their passwords.

* `Grown` — what the calls of all threads keep to
* `grown_insertUser`, `grown_insertSession` — the two calls that add a row
* `secures_routing` — every request keeps to it
* `sessions_authenticated`
-/

namespace MiniOj.Http

open Infra Db Program

/-! ## Requests and rows -/

/-- The request is a registration, and the row is that of its body. -/
def Registers (cfg : Config) (req : Request) (u : UserRow) : Prop :=
  handlerOf cfg req = some (registerHandler cfg req) ∧ u.role = .user ∧
    ∃ payload random hash, parseRegistration cfg req = .ok payload ∧
      u.username = payload.username ∧
      Auth.hashPassword cfg.crypt payload.password random = .ok hash ∧
      fitVarchar 255 hash = some u.passwordHash

/-- The request is a login with the name of the user and a password that fits the hash. -/
def LogsIn (env : Env) (cfg : Config) (req : Request) (u : UserRow) : Prop :=
  handlerOf cfg req = some (loginHandler cfg req) ∧
    ∃ payload, parseAuthPayload cfg.readJson req.body = .ok payload ∧
      env.mysql.weight u.username = env.mysql.weight payload.username ∧
      Auth.verifyPassword cfg.crypt payload.password u.passwordHash = true

/-- There is a user with this id whom one of the requests has registered or logged in. -/
def Known (env : Env) (cfg : Config) (arrives : Request → Prop) (userId : Nat) (s : Shared) :
    Prop :=
  ∃ u ∈ s.backend.accounts.users, u.id = userId ∧
    ∃ req, arrives req ∧ (Registers cfg req u ∨ LogsIn env cfg req u)

/-- The keys of the table `users`. -/
structure Distinct (weight : Bytes → Bytes) (a : AccountTables) : Prop where
  keyed : a.Keyed
  names : (a.users.map fun u => weight u.username).Nodup

/-! ## What grows -/

/-- What may happen to users and sessions while such requests are handled. -/
structure Grown (env : Env) (cfg : Config) (arrives : Request → Prop) (s s' : Shared) : Prop where
  users : ∃ added, s'.backend.accounts.users = s.backend.accounts.users ++ added ∧
    ∀ u ∈ added, ∃ req, arrives req ∧ Registers cfg req u
  distinct : Distinct env.mysql.weight s.backend.accounts →
    Distinct env.mysql.weight s'.backend.accounts
  sessions : ∀ r ∈ s'.backend.accounts.sessions, r ∈ s.backend.accounts.sessions ∨
    Known env cfg arrives r.userId s'

variable {env : Env} {cfg : Config} {arrives : Request → Prop} {s s' t : Shared} {l l' : Local}
  {req : Request} {u : UserRow} {userId : Nat}

/-- No user goes away. -/
theorem Grown.mem (h : Grown env cfg arrives s s') (hu : u ∈ s.backend.accounts.users) :
    u ∈ s'.backend.accounts.users := by
  obtain ⟨added, hadded, -⟩ := h.users
  rw [hadded]
  exact List.mem_append_left _ hu

/-- Who is known stays known. -/
theorem Known.later (h : Grown env cfg arrives s s') (hk : Known env cfg arrives userId s) :
    Known env cfg arrives userId s' := by
  obtain ⟨u, hu, hrest⟩ := hk
  exact ⟨u, h.mem hu, hrest⟩

/-- A step that leaves the users alone, and all sessions but those it ends. -/
theorem Grown.of_users (hu : s'.backend.accounts.users = s.backend.accounts.users)
    (hnext : s'.backend.accounts.nextUser = s.backend.accounts.nextUser)
    (hs : ∀ r ∈ s'.backend.accounts.sessions, r ∈ s.backend.accounts.sessions) :
    Grown env cfg arrives s s' := by
  refine ⟨⟨[], by rw [hu, List.append_nil], nofun⟩, fun h => ⟨⟨?_, ?_⟩, ?_⟩,
    fun r hr => .inl (hs r hr)⟩
  · rw [hu]
    exact h.keyed.ids
  · rw [hu, hnext]
    exact h.keyed.next
  · rw [hu]
    exact h.names

/-- A step that leaves the accounts alone. -/
theorem Grown.of_accounts (ha : s'.backend.accounts = s.backend.accounts) :
    Grown env cfg arrives s s' :=
  .of_users (by rw [ha]) (by rw [ha]) fun r hr => by rwa [ha] at hr

/-- One step after another. -/
theorem Grown.trans (h : Grown env cfg arrives s s') (h' : Grown env cfg arrives s' t) :
    Grown env cfg arrives s t := by
  refine ⟨?_, fun hd => h'.distinct (h.distinct hd), fun r hr => ?_⟩
  · obtain ⟨added, hadded, hreq⟩ := h.users
    obtain ⟨added', hadded', hreq'⟩ := h'.users
    refine ⟨added ++ added', by rw [hadded', hadded, List.append_assoc], fun u hu => ?_⟩
    exact (List.mem_append.mp hu).elim (hreq u) (hreq' u)
  · rcases h'.sessions r hr with hr | hknown
    · exact (h.sessions r hr).imp_right (Known.later h')
    · exact .inr hknown

instance : IsPreorder Shared (Grown env cfg arrives) where
  refl _ := .of_accounts rfl
  trans _ _ _ := Grown.trans

/-- The accounts after a call of a thread. -/
theorem accounts_of_exec {c : Call} {r : c.Reply} (h : env.execute c l s = some (r, l', s')) :
    s'.backend.accounts = (env.exec c (s.seenBy l)).2.accounts := by
  obtain ⟨-, -, hb, -⟩ := execute_eq_some h
  rw [hb]

/-- All of a row that is inserted. -/
theorem insertUser_full {weight : Bytes → Bytes} {now id : Nat} {a a' : AccountTables}
    {username passwordHash : Bytes} {role : Role}
    (h : a.insertUser weight now username passwordHash role = .ok (id, a')) :
    ∃ row : UserRow, row.id = id ∧ row.role = role ∧
      fitVarchar 20 username = some row.username ∧
      fitVarchar 255 passwordHash = some row.passwordHash ∧
      (∀ u ∈ a.users, weight u.username ≠ weight row.username) ∧
      a' = { a with users := a.users ++ [row], nextUser := a.nextUser + 1 } := by
  unfold AccountTables.insertUser at h
  split at h
  · next name hash hname hhash =>
    split at h
    · cases h
    · split at h
      · cases h
      · next hnew =>
        cases h
        refine ⟨_, rfl, rfl, hname, hhash, fun u hu heq => hnew ?_, rfl⟩
        exact List.any_eq_true.mpr ⟨u, hu, beq_iff_eq.mpr heq⟩
  · cases h

/-- Calls that add no row to users and sessions. -/
def Call.AddsNone : Call → Prop
  | insertUser .. | insertSession .. => False
  | _ => True

/-- What reads adds nothing. -/
theorem Call.AddsNone.of_reads {c : Call} (h : c.Reads) : c.AddsNone := by
  cases c with
  | insertUser | insertSession => exact h.elim
  | _ => trivial

/-- Rows may go away, when a session is ended. -/
theorem grown_of_addsNone {c : Call} {r : c.Reply} (hc : c.AddsNone)
    (h : env.execute c l s = some (r, l', s')) : Grown env cfg arrives s s' := by
  have haccounts := accounts_of_exec h
  cases c with
  | insertUser | insertSession => exact hc.elim
  | deleteSession id =>
    rcases Env.change_cases env (.deleteSession id) (fun _ a => .ok (a.deleteSession id))
      (s.seenBy l) with ⟨x, a, ha, he⟩ | ⟨error, he⟩
    · cases ha
      have ha : s'.backend.accounts = (s.backend.accounts.deleteSession id).2 :=
        haccounts.trans (congrArg (·.2.accounts) he)
      refine .of_users (by rw [ha]; rfl) (by rw [ha]; rfl) fun r hr => ?_
      rw [ha] at hr
      exact List.mem_of_mem_filter hr
    · exact .of_accounts (haccounts.trans (congrArg (·.2.accounts) he))
  | bank st => exact .of_accounts haccounts
  | selectProblems | selectSamples | selectUser | selectSessionUser =>
    refine .of_accounts (haccounts.trans ?_)
    unfold Env.exec
    rw [Env.query_snd]
    rfl
  | now | random | rateLimit | judge => exact .of_accounts haccounts

/-- A registration adds its user. -/
theorem grown_insertUser {username passwordHash : Bytes} {r : Except SqlError Nat}
    (harrives : arrives req)
    (hreq : ∀ u : UserRow, u.role = .user → fitVarchar 20 username = some u.username →
      fitVarchar 255 passwordHash = some u.passwordHash → Registers cfg req u)
    (h : env.execute (.insertUser username passwordHash .user) l s = some (r, l', s')) :
    Grown env cfg arrives s s' ∧ ∀ id, r = .ok id → ∃ u ∈ s'.backend.accounts.users,
      u.id = id ∧ Registers cfg req u := by
  have haccounts := accounts_of_exec h
  obtain ⟨hreply, -⟩ := execute_eq_some h
  rcases Env.change_cases env (.insertUser username passwordHash .user) (fun now a =>
    a.insertUser env.mysql.weight now username passwordHash .user) (s.seenBy l) with
      ⟨id, a, ha, he⟩ | ⟨error, he⟩
  · have hs' : s'.backend.accounts = a := haccounts.trans (congrArg (·.2.accounts) he)
    have hr : r = .ok id := hreply.trans (congrArg Prod.fst he)
    obtain ⟨row, hid, hrole, hname, hhash, hnew, hrows⟩ := insertUser_full ha
    have hregisters := hreq row hrole hname hhash
    have husers : s'.backend.accounts.users = s.backend.accounts.users ++ [row] := by
      rw [hs', hrows]
      rfl
    refine ⟨⟨⟨[row], husers, fun u hu => ?_⟩, fun hd => ⟨?_, ?_⟩, fun r hr => .inl ?_⟩, ?_⟩
    · rw [List.mem_singleton.mp hu]
      exact ⟨req, harrives, hregisters⟩
    · rw [hs']
      exact hd.keyed.insertUser ha
    · rw [husers]
      exact nodup_map_push hd.names hnew
    · rwa [hs', hrows] at hr
    · rintro id' hid'
      cases hr.symm.trans hid'
      exact ⟨row, husers ▸ List.mem_append_right _ (List.mem_singleton_self row), hid, hregisters⟩
  · have hr : r = .error error := hreply.trans (congrArg Prod.fst he)
    refine ⟨.of_accounts (haccounts.trans (congrArg (·.2.accounts) he)), fun id hid => ?_⟩
    cases hr.symm.trans hid

/-- A session is added for somebody who is known. -/
theorem grown_insertSession {id : Bytes} {expiresAt : Nat} {r : Except SqlError Unit}
    (hknown : Known env cfg arrives userId s)
    (h : env.execute (.insertSession id userId expiresAt) l s = some (r, l', s')) :
    Grown env cfg arrives s s' := by
  have haccounts := accounts_of_exec h
  rcases Env.change_cases env (.insertSession id userId expiresAt) (fun now a =>
    a.insertSession now id userId expiresAt) (s.seenBy l) with ⟨x, a, ha, he⟩ | ⟨error, he⟩
  · have hs' : s'.backend.accounts = a := haccounts.trans (congrArg (·.2.accounts) he)
    obtain ⟨-, -, rfl⟩ := AccountTables.insertSession_spec ha
    have husers : s'.backend.accounts.users = s.backend.accounts.users := by
      rw [hs']
      rfl
    refine ⟨⟨[], by rw [husers, List.append_nil], nofun⟩, fun hd => ?_, fun r hr => ?_⟩
    · rw [hs']
      exact ⟨⟨hd.keyed.ids, hd.keyed.next⟩, hd.names⟩
    · rw [hs'] at hr
      rcases List.mem_append.mp hr with hr | hr
      · exact .inl hr
      · rw [List.mem_singleton.mp hr]
        obtain ⟨u, hu, hrest⟩ := hknown
        exact .inr ⟨u, husers ▸ hu, hrest⟩
  · exact .of_accounts (haccounts.trans (congrArg (·.2.accounts) he))

/-! ## Programs -/

variable {α : Type} {post : α → Shared → Prop}

/-- Whatever the others do, the program keeps to what grows. -/
abbrev Lawful (env : Env) (cfg : Config) (arrives : Request → Prop) (p : Handler α)
    (post : α → Shared → Prop) (s : Shared) : Prop :=
  Secures env.execute (Grown env cfg arrives) p post s

/-- A program that adds no row. -/
theorem lawful_of_addsNone {p : Handler α} (hp : p.Only Call.AddsNone) :
    Lawful env cfg arrives p (fun _ _ => True) s := by
  refine Secures.of_only ?_ hp
  exact fun _ _ _ _ _ _ hc h => grown_of_addsNone hc h

/-- A program that reads. -/
theorem lawful_of_reads {p : Handler α} (hp : p.Only Call.Reads) :
    Lawful env cfg arrives p (fun _ _ => True) s :=
  lawful_of_addsNone (hp.mono fun _ => .of_reads)

/-- What the program has found out still holds when its exceptions are caught. -/
theorem lawful_attempt {p : Handler α} {refuse : Exn → Response}
    (hp : Lawful env cfg arrives p post s)
    (hlasts : ∀ a t t', post a t → Grown env cfg arrives t t' → post a t') :
    Lawful env cfg arrives (attempt p refuse) (fun r t => ∀ a, r = .ok a → post a t) s := by
  refine .tryCatch (.bind hp fun a t _ ha => .ret ?_) fun e t _ => .ret ?_
  · rintro t' ht' _ ⟨⟩
    exact hlasts a t t' ha ht'
  · rintro _ _ _ ⟨⟩

/-- The answer of a query, or an exception. -/
theorem lawful_orThrow {context : String} {r : Except SqlError α}
    (h : ∀ a, r = .ok a → ∀ t, Grown env cfg arrives s t → post a t) :
    Lawful env cfg arrives (orThrow context r) post s := by
  cases r with
  | ok a => exact .ret (h a rfl)
  | error e => exact .throw

/-- A lease around a program. -/
theorem lawful_withLease {body : Handler α}
    (hb : ∀ t, Grown env cfg arrives s t → Lawful env cfg arrives body post t) :
    Lawful env cfg arrives (withLease body) post s := by
  refine .call fun l t r l' t' ht hexec => ?_
  have hgrown : Grown env cfg arrives t t' := grown_of_addsNone (c := .bank .acquire) trivial hexec
  refine ⟨hgrown, ?_⟩
  cases r with
  | error e => exact .throw
  | ok _ =>
    refine .andFinally (fun u => ?_) (hb t' (ht.trans hgrown))
    exact fun l t _ r l' t' hexec =>
      ⟨grown_of_addsNone (c := .bank .release) trivial hexec, fun _ _ => rfl⟩

/-! ## Accounts -/

/-- The hash is one of the password. -/
theorem lawful_hashPassword {password : Bytes} :
    Lawful env cfg arrives (hashPassword cfg password) (fun hash _ => ∃ random,
      Auth.hashPassword cfg.crypt password random = .ok hash) s := by
  refine .call fun l t r l' t' _ hexec =>
    ⟨grown_of_addsNone (c := .random 16) trivial hexec, ?_⟩
  cases r with
  | error e => exact .throw
  | ok random =>
    dsimp only
    cases hhash : Auth.hashPassword cfg.crypt password random with
    | error e => exact .throw
    | ok hash => exact .ret fun _ _ => ⟨random, hhash⟩

/-- The user found by a name has it, and the password hash found. -/
theorem lawful_findUserByUsername {username : Bytes} :
    Lawful env cfg arrives (findUserByUsername username) (fun r t => ∀ u, r = some u →
      ∃ v ∈ t.backend.accounts.users, v.id = u.id ∧ v.passwordHash = u.passwordHash ∧
        env.mysql.weight v.username = env.mysql.weight username) s := by
  have hselect : ∀ s, Lawful env cfg arrives (.call (.selectUser username) (orThrow "user lookup"))
      (fun (row : Option UserRow) t => ∀ v, row = some v → v ∈ t.backend.accounts.users ∧
        env.mysql.weight v.username = env.mysql.weight username) s := by
    refine fun s => .call fun l t r l' t' _ hexec => ?_
    have hgrown : Grown env cfg arrives t t' :=
      grown_of_addsNone (c := .selectUser username) trivial hexec
    refine ⟨hgrown, lawful_orThrow ?_⟩
    rintro row hr t'' ht' v rfl
    obtain ⟨hreply, -⟩ := execute_eq_some hexec
    have hrow := Env.query_ok (hreply.symm.trans hr)
    obtain ⟨hv, hname⟩ := AccountTables.userByName_spec hrow.symm
    exact ⟨ht'.mem (hgrown.mem hv), hname⟩
  refine lawful_withLease fun t _ => .bind (hselect t) fun row t₁ _ hrow => ?_
  refine .bind (lawful_of_reads (reads_storeResult _)) fun res t₂ h₂ _ => ?_
  refine .bind (lawful_of_reads (reads_freeResult _)) fun _ t₃ h₃ _ => .ret ?_
  rintro t₄ h₄ u hu
  obtain ⟨v, rfl, rfl⟩ := Option.map_eq_some_iff.mp hu
  obtain ⟨hv, hname⟩ := hrow v rfl
  exact ⟨v, h₄.mem (h₃.mem (h₂.mem hv)), rfl, rfl, hname⟩

/-- **A registration makes its user known.** -/
theorem lawful_createUser {username passwordHash : Bytes} (harrives : arrives req)
    (hreq : ∀ u : UserRow, u.role = .user → fitVarchar 20 username = some u.username →
      fitVarchar 255 passwordHash = some u.passwordHash → Registers cfg req u) :
    Lawful env cfg arrives (createUser username passwordHash .user)
      (fun id t => Known env cfg arrives id t) s := by
  refine lawful_withLease fun t _ => .call fun l t r l' t' _ hexec => ?_
  obtain ⟨hgrown, huser⟩ := grown_insertUser harrives hreq hexec
  refine ⟨hgrown, ?_⟩
  cases r with
  | ok id =>
    obtain ⟨u, hu, hid, hregisters⟩ := huser id rfl
    exact .ret fun t'' ht => ⟨u, ht.mem hu, hid, req, harrives, .inl hregisters⟩
  | error e =>
    dsimp only
    split <;> exact .throw

/-- **A session is opened for somebody who is known.** -/
theorem lawful_createSession {ttl : Nat} {id : Bytes} (h : Known env cfg arrives userId s) :
    Lawful env cfg arrives (createSession userId id ttl) (fun _ _ => True) s := by
  refine lawful_withLease fun t ht => ?_
  split
  · exact .throw
  · refine .call fun l t₁ now l' t₂ h₁ hexec => ?_
    have h₂ : Grown env cfg arrives t₁ t₂ := grown_of_addsNone (c := .now) trivial hexec
    have hinsert : Lawful env cfg arrives (.call (.insertSession id userId
        (formatMysqlTimestamp (now + ttl * 10 ^ 9))) (orThrow "session insert"))
        (fun _ _ => True) t₂ := by
      refine .call fun l t₃ r l' t₄ h₃ hexec => ?_
      have hknown := (((h.later ht).later h₁).later h₂).later h₃
      exact ⟨grown_insertSession hknown hexec, lawful_orThrow fun _ _ _ _ => trivial⟩
    exact ⟨h₂, .bind hinsert fun _ _ _ _ => .ret fun _ _ => trivial⟩

/-- The end of a registration and of a login. -/
theorem lawful_openSession {status : Nat} {username : Bytes} {role : Role}
    (h : Known env cfg arrives userId s) :
    Lawful env cfg arrives (openSession cfg status userId username role) (fun _ _ => True) s := by
  refine .bind (lawful_of_reads reads_generateSessionId) fun sessionId t ht _ => ?_
  refine .bind (lawful_attempt (lawful_createSession (h.later ht)) fun _ _ _ _ _ => trivial)
    fun r t' _ _ => ?_
  cases r <;> exact .ret fun _ _ => trivial

/-! ## Handlers -/

/-- A registration is lawful whatever happens in between. -/
theorem lawful_registerHandler (harrives : arrives req)
    (hhandler : handlerOf cfg req = some (registerHandler cfg req)) :
    Lawful env cfg arrives (registerHandler cfg req) (fun _ _ => True) s := by
  unfold registerHandler
  split
  · exact lawful_of_reads (only_refuseInvalid _)
  · next payload hpayload =>
    refine .bind (lawful_attempt lawful_hashPassword fun _ _ _ h _ => h) fun hash t _ hhash => ?_
    cases hash with
    | error res => exact .ret fun _ _ => trivial
    | ok passwordHash =>
      obtain ⟨random, hhash⟩ := hhash passwordHash rfl
      have hreq : ∀ u : UserRow, u.role = .user → fitVarchar 20 payload.username = some u.username →
          fitVarchar 255 passwordHash = some u.passwordHash → Registers cfg req u := by
        intro u hrole hname hstored
        have hshort := Store.fitVarchar_short
          (fun n hn => (utf8Length_le hn).trans (length_username hpayload)) hname
        exact ⟨hhandler, hrole, payload, random, passwordHash, hpayload, hshort.symm, hhash,
          hstored⟩
      refine .bind (lawful_attempt (lawful_createUser harrives hreq) fun _ _ _ h ht => h.later ht)
        fun user t' _ huser => ?_
      cases user with
      | error res => exact .ret fun _ _ => trivial
      | ok userId => exact lawful_openSession (huser userId rfl)

/-- So is a login: the hash that was checked is that of the row found. -/
theorem lawful_loginHandler (harrives : arrives req)
    (hhandler : handlerOf cfg req = some (loginHandler cfg req)) :
    Lawful env cfg arrives (loginHandler cfg req) (fun _ _ => True) s := by
  unfold loginHandler
  split
  · exact lawful_of_reads (only_refuseInvalid _)
  · next payload hpayload =>
    split
    · exact .ret fun _ _ => trivial
    · refine .bind (lawful_attempt lawful_findUserByUsername ?_) fun user t _ huser => ?_
      · intro r t t' h ht u hu
        obtain ⟨v, hv, hrest⟩ := h u hu
        exact ⟨v, ht.mem hv, hrest⟩
      · rcases user with res | _ | user
        · exact .ret fun _ _ => trivial
        · exact .ret fun _ _ => trivial
        · dsimp only
          split
          · next hverify =>
            obtain ⟨v, hv, hid, hhash, hname⟩ := huser _ rfl user rfl
            refine lawful_openSession ⟨v, hv, hid, req, harrives, .inr ?_⟩
            exact ⟨hhandler, payload, hpayload, hname, by rw [hhash]; exact hverify⟩
          · exact .ret fun _ _ => trivial

/-- Statements on the bank add no accounts. -/
theorem addsNone_ofDao (p : Dao α) : (ofDao p).Only Call.AddsNone :=
  only_ofDao (fun _ _ => trivial) (Program.Only.any p)

/-- The handlers of the administration add no users and sessions. -/
theorem addsNone_adminHandlers (cfg : Config) (req : Request) (raw : Bytes) :
    (createProblemHandler cfg req).Only Call.AddsNone ∧
      (updateProblemHandler cfg req raw).Only Call.AddsNone ∧
      (deleteProblemHandler raw).Only Call.AddsNone ∧
      (resetProblemBankHandler cfg).Only Call.AddsNone := by
  have hread : (readProblem cfg req).Only Call.AddsNone :=
    (reads_readProblem cfg req).mono fun _ => .of_reads
  refine ⟨?_, ?_, ?_, ?_⟩
  · refine Program.Only.tryCatch (Program.Only.bind hread fun input => ?_) fun _ => trivial
    exact Program.Only.bind (addsNone_ofDao _) fun _ => trivial
  · unfold updateProblemHandler
    split
    · trivial
    · refine Program.Only.tryCatch (Program.Only.bind hread fun input =>
        Program.Only.bind (addsNone_ofDao _) fun found => ?_) fun _ => trivial
      split <;> trivial
  · unfold deleteProblemHandler
    split
    · trivial
    · refine Program.Only.tryCatch (Program.Only.bind (addsNone_ofDao _) fun found => ?_)
        fun _ => trivial
      split <;> trivial
  · exact Program.Only.tryCatch (Program.Only.bind (addsNone_ofDao _) fun _ => trivial)
      fun _ => trivial

/-- Every handler is lawful. -/
theorem lawful_handlerOf (harrives : arrives req) {handler : Handler Response}
    (h : handlerOf cfg req = some handler) :
    Lawful env cfg arrives handler (fun _ _ => True) s := by
  cases routed_of_handlerOf h with
  | reads hreads => exact lawful_of_reads hreads
  | register => exact lawful_registerHandler harrives h
  | login => exact lawful_loginHandler harrives h
  | logout =>
    exact lawful_of_addsNone (only_logoutHandler (fun _ => .of_reads) fun _ _ => trivial)
  | create => exact lawful_of_addsNone (addsNone_adminHandlers cfg req []).1
  | update raw => exact lawful_of_addsNone (addsNone_adminHandlers cfg req raw).2.1
  | delete raw => exact lawful_of_addsNone (addsNone_adminHandlers cfg req raw).2.2.1
  | reset => exact lawful_of_addsNone (addsNone_adminHandlers cfg req []).2.2.2

/-- And so is every request, with its guards. -/
theorem lawful_routing (harrives : arrives req) :
    Lawful env cfg arrives (routing cfg req) (fun _ _ => True) s := by
  refine .bind (lawful_of_reads (reads_preRouting cfg req)) fun handled t _ _ => ?_
  cases handled with
  | some res => exact .ret fun _ _ => trivial
  | none =>
    dsimp only
    split
    · next handler hhandler => exact lawful_handlerOf harrives hhandler
    · exact .ret fun _ _ => trivial

/-! ## Runs -/

/--
**Nobody is logged in without the password.** However requests are interleaved and whatever calls
fail, every user that there was not at the start has been registered, with the role `user`, names
stay different, and every session that there was not at the start is for a user who has been
registered or logged in with the right password by a request that has arrived.
-/
theorem sessions_authenticated (env : Env) (cfg : Config) (b : Backend)
    (hb : Distinct env.mysql.weight b.accounts) (arrives : Request → Prop) (S : Server)
    (h : ReachableWhen (Server.step env cfg) (· = Server.start b)
      (fun _ a => ∀ req, a = .start req → arrives req) S) :
    (∃ added, S.shared.backend.accounts.users = b.accounts.users ++ added ∧
      ∀ u ∈ added, ∃ req, arrives req ∧ Registers cfg req u) ∧
    Distinct env.mysql.weight S.shared.backend.accounts ∧
    ∀ r ∈ S.shared.backend.accounts.sessions, r ∈ b.accounts.sessions ∨
      ∃ u ∈ S.shared.backend.accounts.users, u.id = r.userId ∧
        ∃ req, arrives req ∧ (Registers cfg req u ∨ LogsIn env cfg req u) := by
  have hgrown : Grown env cfg arrives (Server.start b).shared S.shared := by
    refine Threads.secured ?_ ?_ ?_ h
    · rintro _ rfl
      exact ⟨rfl, rfl⟩
    · rintro s elapsed _ ⟨⟩
      exact .of_accounts rfl
    · exact fun s req hok => lawful_routing (hok req rfl)
  exact ⟨hgrown.users, hgrown.distinct hb, hgrown.sessions⟩

/-- Alice logs in. -/
def login : Request := { registration with path := utf8 "/api/auth/login" }

/-- Every read from the random source gives other bytes. -/
def variedEnv : Env := { calmEnv with random := fun n len => .ok (List.replicate len n.toUInt8) }

/-- Alice registers, and a second later she logs in. -/
def aliceActions : List ServerAction :=
  .start registration :: List.replicate 10 (.call 0) ++
    .env (10 ^ 9) :: .start login :: List.replicate 11 (.call 1)

/-- She has registered and logged in. -/
def loggedInAgain : Server :=
  (Infra.run (Server.step variedEnv aliceConfig) (Server.start oneProblem) aliceActions).get
    (by decide +kernel)

theorem sessions_authenticated_alice :
    (∃ added, loggedInAgain.shared.backend.accounts.users = oneProblem.accounts.users ++ added ∧
      ∀ u ∈ added, ∃ req, req ∈ [registration, login] ∧ Registers aliceConfig req u) ∧
    Distinct variedEnv.mysql.weight loggedInAgain.shared.backend.accounts ∧
    ∀ r ∈ loggedInAgain.shared.backend.accounts.sessions, r ∈ oneProblem.accounts.sessions ∨
      ∃ u ∈ loggedInAgain.shared.backend.accounts.users, u.id = r.userId ∧
        ∃ req, req ∈ [registration, login] ∧
          (Registers aliceConfig req u ∨ LogsIn variedEnv aliceConfig req u) := by
  have harrive : ∀ a ∈ aliceActions, ∀ req, a = .start req → req ∈ [registration, login] := by
    rintro _ ha req rfl
    simpa [aliceActions] using ha
  exact sessions_authenticated variedEnv aliceConfig oneProblem
    ⟨⟨by decide, by decide⟩, by decide⟩ (· ∈ [registration, login]) _
    (ReachableWhen.run (.init rfl) (fun a ha _ => harrive a ha) (Option.some_get _).symm)

/-- She has two sessions. -/
example : loggedInAgain.shared.backend.accounts.sessions.map (fun r => (r.userId, r.expiresAt)) =
    [(1, 604800), (1, 604801)] := by decide +kernel

end MiniOj.Http
