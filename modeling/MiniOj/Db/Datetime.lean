import MiniOj.Db.UserDao
import MiniOj.Http.Server
import MiniOj.Infra.DateText

/-!
# Times as the server of the database gets them

`formatMysqlTimestamp` of `db/user_dao.cpp` with the text that it returns, and the two statements
on sessions with texts for their times. In `Db.UserDao` the seconds stand for the texts.
-/

namespace MiniOj.Db

open Infra Calendar Http

/-- `gmtime_r` and `strftime` for a second. -/
def timestampText (second : Nat) : Bytes := strftime 32 (gmtime second)

/-- The second in a literal for a `DATETIME` from 1970 on. -/
def readDatetime (s : Bytes) : Option Nat :=
  (readMoment 32 s).bind fun (m, rest) =>
    if rest = [] ∧ 1970 ≤ m.year then some (timegm m) else none

namespace AccountTables

/-- `INSERT INTO sessions …` with a text for `expires_at`. -/
def insertSessionByText (now : Nat) (a : AccountTables) (id : Bytes) (userId : Nat)
    (expiresAt : Bytes) : Except Refusal (Unit × AccountTables) :=
  match readDatetime expiresAt with
  | some expiresAt => a.insertSession now id userId expiresAt
  | none => .error .other

/-- `WHERE s.id = … AND s.expires_at > UTC_TIMESTAMP() ORDER BY s.expires_at DESC LIMIT 1`, with
the texts of the times. -/
def sessionUserByText (a : AccountTables) (id : Bytes) (utc : Bytes) : Option UserRow :=
  (((a.sessions.filter fun r => r.id == id && utc < timestampText r.expiresAt).insertionSort
    fun r r' => timestampText r'.expiresAt ≤ timestampText r.expiresAt).flatMap fun r =>
      a.users.filter fun u => u.id == r.userId).head?

end AccountTables

/-- A backend whose database works on texts. -/
def execByText (env : Env) : (c : Call) → Backend → c.Reply × Backend
  | .insertSession id userId expiresAt, b =>
    env.change (.insertSession id userId expiresAt) (fun now a =>
      a.insertSessionByText now id userId (timestampText expiresAt)) b
  | .selectSessionUser id, b =>
    env.query (fun b => b.accounts.sessionUserByText id (timestampText b.utc)) b
  | c, b => env.exec c b

/-- A call of a thread, as `Env.execute` has it. -/
def executeByText (env : Env) (c : Call) (l : Local) (s : Shared) :
    Option (c.Reply × Local × Shared) :=
  if c.Locks && s.busy && l.work.isNone then none
  else
    let (r, b) := execByText env c (s.seenBy l)
    some (r, { work := b.db.work, read := c.reading l.read r }, {
      backend := { b with db := { b.db with work := none } }
      busy := if l.work.isSome || b.db.work.isSome then b.db.work.isSome else s.busy
      log := s.log ++ c.events l.read r })

def stepByText (env : Env) (cfg : Config) : Server → ServerAction → Option Server :=
  Threads.step (executeByText env) (Server.spawn cfg) Server.tick

end MiniOj.Db
