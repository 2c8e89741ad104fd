import MiniOj.Db.Datetime
import MiniOj.Db.Spec.Accounts
import MiniOj.Http.Properties.Calls
import MiniOj.Http.Properties.CrossOrigin

/-!
# Texts of times

* `readDatetime_timestampText` — the text of a second is read as the second, up to the last one
  of a `DATETIME`
* `timestampText_lt_iff` — texts compare like the seconds
* `execByText_eq` — a database that works on texts does the same
* `times_as_text` — so does the server in every run
-/

namespace MiniOj.Db

open Infra Calendar Http

/-- **The text of a second is read as that second**; one beyond the last `DATETIME` is not read. -/
theorem readDatetime_timestampText (s : Nat) :
    readDatetime (timestampText s) = if s ≤ maxDatetime then some s else none := by
  have hyear := year_gmtime s
  have hlate := year_gmtime_lt_iff s
  unfold readDatetime timestampText
  rw [← List.append_nil (strftime 32 (gmtime s))]
  split
  · next hs =>
    have hhigh := hlate.mpr (Nat.lt_succ_of_le hs)
    rw [readMoment_strftime (by omega) hhigh, Option.bind_some]
    simp only [true_and, if_pos hyear, timegm_gmtime]
  · next hs =>
    have hlow : 10000 ≤ (gmtime s).year := by
      by_contra hlt
      exact hs (Nat.le_of_lt_succ (hlate.mp (Nat.lt_of_not_le hlt)))
    rw [readMoment_late hlow, Option.bind_none]

example : timestampText 946684799 = utf8 "1999-12-31 23:59:59" := by
  rw [timestampText, strftime_eq (by decide) (by decide)]
  decide

/-- **Texts compare like the seconds.** -/
theorem timestampText_lt_iff {s t : Nat} (hs : s ≤ maxDatetime) (ht : t ≤ maxDatetime) :
    timestampText s < timestampText t ↔ s < t :=
  strftime_gmtime_lt_iff (Nat.lt_succ_of_le hs) (Nat.lt_succ_of_le ht)

theorem timestampText_le_iff {s t : Nat} (hs : s ≤ maxDatetime) (ht : t ≤ maxDatetime) :
    timestampText s ≤ timestampText t ↔ s ≤ t := by
  rw [← List.not_lt, timestampText_lt_iff ht hs, Nat.not_lt]

namespace AccountTables

/-- The expiry of every session is a `DATETIME`. -/
def Dated (a : AccountTables) : Prop := ∀ r ∈ a.sessions, r.expiresAt ≤ maxDatetime

instance (a : AccountTables) : Decidable a.Dated :=
  inferInstanceAs (Decidable (∀ r ∈ a.sessions, r.expiresAt ≤ maxDatetime))

theorem insertSession_late {a : AccountTables} {now userId expiresAt : Nat} {id : Bytes}
    (h : ¬ expiresAt ≤ maxDatetime) : a.insertSession now id userId expiresAt = .error .other := by
  have hlate : maxDatetime < expiresAt := Nat.lt_of_not_le h
  unfold insertSession
  rw [if_pos]
  simp [hlate]

/-- The text that is sent has the effect of the second. -/
theorem insertSessionByText_eq (a : AccountTables) (now : Nat) (id : Bytes) (userId s : Nat) :
    a.insertSessionByText now id userId (timestampText s) = a.insertSession now id userId s := by
  unfold insertSessionByText
  rw [readDatetime_timestampText]
  split
  · next h =>
    split at h
    · cases h
      rfl
    · cases h
  · next h =>
    split at h
    · cases h
    · next hs => exact (insertSession_late hs).symm

/-- Texts choose the session that the seconds choose. -/
theorem sessionUserByText_eq {a : AccountTables} (h : a.Dated) {utc : Nat}
    (hutc : utc ≤ maxDatetime) (sessionId : Bytes) :
    a.sessionUserByText sessionId (timestampText utc) = a.sessionUser sessionId utc := by
  have hfilter : a.sessions.filter (fun r => r.id == sessionId && timestampText utc <
      timestampText r.expiresAt) =
        a.sessions.filter fun r => r.id == sessionId && utc < r.expiresAt :=
    List.filter_congr fun r hr => by
      rw [decide_eq_decide.mpr (timestampText_lt_iff hutc (h r hr))]
  unfold sessionUserByText sessionUser
  rw [hfilter]
  have hsort := List.map_insertionSort
    (fun r r' : SessionRow => timestampText r'.expiresAt ≤ timestampText r.expiresAt)
    (fun r r' : SessionRow => r'.expiresAt ≤ r.expiresAt) id
    (a.sessions.filter fun r => r.id == sessionId && utc < r.expiresAt)
    fun r hr r' hr' => timestampText_le_iff (h r' (List.mem_filter.mp hr').1)
      (h r (List.mem_filter.mp hr).1)
  rw [List.map_id, List.map_id] at hsort
  rw [hsort]

/-- Only the text of a `DATETIME` gets into the table. -/
theorem Dated.insertSession {a a' : AccountTables} {now userId expiresAt : Nat} {id : Bytes}
    {u : Unit} (h : a.Dated) (hok : a.insertSession now id userId expiresAt = .ok (u, a')) :
    a'.Dated := by
  have hexpires : expiresAt ≤ maxDatetime := by
    by_contra hlate
    rw [insertSession_late hlate] at hok
    cases hok
  obtain ⟨-, -, rfl⟩ := insertSession_spec hok
  intro r hr
  rcases List.mem_append.mp hr with hr | hr
  · exact h r hr
  · rw [List.mem_singleton.mp hr]
    exact hexpires

end AccountTables

/-! ## Calls -/

variable {env : Env} {cfg : Config} {c : Call} {b : Backend}

/-- Queries with the same answer are the same call. -/
theorem query_congr {α : Type} {answer answer' : Backend → α} (h : answer b = answer' b) :
    env.query answer b = env.query answer' b := by
  unfold Env.query
  rw [h]

/-- **A database that works on texts** gives the same replies and changes the same rows. -/
theorem execByText_eq (hb : b.accounts.Dated) (hclock : b.utc ≤ maxDatetime) :
    execByText env c b = env.exec c b := by
  cases c with
  | insertSession id userId expiresAt =>
    unfold execByText
    simp only [AccountTables.insertSessionByText_eq]
    rfl
  | selectSessionUser id =>
    rw [Env.exec_selectSessionUser, execByText]
    exact query_congr (AccountTables.sessionUserByText_eq hb hclock id)
  | _ => rfl

/-- Every call keeps expiries that are a `DATETIME`. -/
theorem dated_exec (hb : b.accounts.Dated) : (env.exec c b).2.accounts.Dated := by
  have hreads : c.Reads → (env.exec c b).2.accounts.Dated := fun hc => by
    rw [(exec_reads env hc b).accounts]
    exact hb
  cases c with
  | bank st => exact hb
  | insertUser username passwordHash role =>
    rcases Env.change_cases env (.insertUser username passwordHash role) (fun now a =>
      a.insertUser env.mysql.weight now username passwordHash role) b with
        ⟨id, a, ha, he⟩ | ⟨e, he⟩
    · obtain ⟨-, row, -, -, rfl⟩ := AccountTables.insertUser_spec ha
      show (env.change _ _ b).2.accounts.Dated
      rw [he]
      exact hb
    · show (env.change _ _ b).2.accounts.Dated
      rw [he]
      exact hb
  | insertSession id userId expiresAt =>
    rcases Env.change_cases env (.insertSession id userId expiresAt) (fun now a =>
      a.insertSession now id userId expiresAt) b with ⟨u, a, ha, he⟩ | ⟨e, he⟩
    · show (env.change _ _ b).2.accounts.Dated
      rw [he]
      exact hb.insertSession ha
    · show (env.change _ _ b).2.accounts.Dated
      rw [he]
      exact hb
  | deleteSession id =>
    rcases Env.change_cases env (.deleteSession id) (fun _ a => .ok (a.deleteSession id)) b with
      ⟨n, a, ha, he⟩ | ⟨e, he⟩
    · cases ha
      show (env.change _ _ b).2.accounts.Dated
      rw [he]
      exact fun r hr => hb r (List.mem_filter.mp hr).1
    · show (env.change _ _ b).2.accounts.Dated
      rw [he]
      exact hb
  | _ => exact hreads trivial

/-! ## Runs -/

theorem dated_step {S S' : Server} {a : ServerAction} (hS : S.shared.backend.accounts.Dated)
    (h : Server.step env cfg S a = some S') : S'.shared.backend.accounts.Dated := by
  cases a with
  | start req =>
    cases h
    exact hS
  | call i =>
    obtain ⟨c, k, own, r, own', shared', -, hexec, rfl⟩ := Threads.step_call h
    obtain ⟨-, -, hbackend, -⟩ := execute_eq_some hexec
    show shared'.backend.accounts.Dated
    rw [hbackend]
    exact dated_exec (b := S.shared.seenBy own) hS
  | env elapsed =>
    cases h
    exact hS

theorem stepByText_eq {S : Server} (hS : S.shared.backend.accounts.Dated)
    (hclock : S.shared.backend.utc ≤ maxDatetime) (a : ServerAction) :
    stepByText env cfg S a = Server.step env cfg S a := by
  have hexec : ∀ (c : Call) (l : Local), executeByText env c l S.shared =
      env.execute c l S.shared := by
    intro c l
    have heq : execByText env c (S.shared.seenBy l) = env.exec c (S.shared.seenBy l) :=
      execByText_eq hS hclock
    unfold executeByText Env.execute
    rw [heq]
  cases a with
  | start req => rfl
  | call i =>
    unfold stepByText Server.step Threads.step
    simp only [hexec]
  | env elapsed => rfl

/--
**Times as text.** The text that `formatMysqlTimestamp` makes of a second is read as that second,
and as no `DATETIME` beyond the last one; and until then a server whose database reads and compares
texts runs as one with seconds, however requests are interleaved and whatever calls fail.
-/
theorem times_as_text (env : Env) (cfg : Config) (b : Backend) (hb : b.accounts.Dated) :
    (∀ second, readDatetime (timestampText second) =
      if second ≤ maxDatetime then some second else none) ∧
    ∀ S, ReachableWhen (stepByText env cfg) (· = Server.start b)
        (fun S _ => S.shared.backend.utc ≤ maxDatetime) S ↔
      ReachableWhen (Server.step env cfg) (· = Server.start b)
        (fun S _ => S.shared.backend.utc ≤ maxDatetime) S := by
  refine ⟨readDatetime_timestampText, fun S => ?_⟩
  refine ReachableWhen.congr (I := fun S => S.shared.backend.accounts.Dated) ?_ ?_ ?_
  · rintro _ rfl
    exact hb
  · exact fun S a S' hS _ hstep => dated_step hS hstep
  · exact fun S a hS hclock => stepByText_eq hS hclock a

/-- A user with a session until the end of 1999. -/
def withSession : Backend :=
  { oneProblem with accounts :=
      ⟨[⟨1, utf8 "root", [], .admin, 0⟩], [⟨utf8 "s", 1, 946684799, 0⟩], 2⟩ }

theorem times_as_text_session :
    (∀ second, readDatetime (timestampText second) =
      if second ≤ maxDatetime then some second else none) ∧
    ∀ S, ReachableWhen (stepByText calmEnv bareConfig) (· = Server.start withSession)
        (fun S _ => S.shared.backend.utc ≤ maxDatetime) S ↔
      ReachableWhen (Server.step calmEnv bareConfig) (· = Server.start withSession)
        (fun S _ => S.shared.backend.utc ≤ maxDatetime) S :=
  times_as_text calmEnv bareConfig withSession (by decide)

end MiniOj.Db
