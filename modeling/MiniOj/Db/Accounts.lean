import MiniOj.Db.Bank

/-!
# Users and sessions

The tables `users` and `sessions` of `schema.sql`, and what each statement of `user_dao.cpp`
does to them.
-/

namespace MiniOj.Db

open Infra

/-- `UserRole`, and the `ENUM` of the column. -/
inductive Role where
  | user
  | admin
  deriving DecidableEq, Repr

/-- A row of `users`. -/
structure UserRow where
  id : Nat
  username : Bytes
  passwordHash : Bytes
  role : Role
  createdAt : Nat
  deriving DecidableEq, Repr

/-- A row of `sessions`. -/
structure SessionRow where
  id : Bytes
  userId : Nat
  /-- a second of UTC -/
  expiresAt : Nat
  createdAt : Nat
  deriving DecidableEq, Repr

/-- The two tables. -/
structure AccountTables where
  users : List UserRow
  sessions : List SessionRow
  /-- the next `AUTO_INCREMENT` value of `users` -/
  nextUser : Nat
  deriving DecidableEq, Repr

/-- Why a statement is refused. -/
inductive Refusal where
  /-- error 1062 -/
  | duplicateKey
  | other
  deriving DecidableEq, Repr

/-- The last second of a `DATETIME`. -/
def maxDatetime : Nat := 253402300799

namespace AccountTables

variable (weight : Bytes → Bytes) (now : Nat) (a : AccountTables)

/-- `SELECT … FROM users WHERE username = … LIMIT 1`. -/
def userByName (username : Bytes) : Option UserRow :=
  a.users.find? fun u => weight u.username == weight username

/-- `INSERT INTO users`, with the id of the row. -/
def insertUser (username passwordHash : Bytes) (role : Role) :
    Except Refusal (Nat × AccountTables) :=
  match fitVarchar 20 username, fitVarchar 255 passwordHash with
  | some username, some passwordHash =>
    if maxUnsigned < a.nextUser then .error .other
    else if a.users.any fun u => weight u.username == weight username then .error .duplicateKey
    else
      let row : UserRow := { id := a.nextUser, username, passwordHash, role, createdAt := now }
      .ok (row.id, { a with users := a.users ++ [row], nextUser := a.nextUser + 1 })
  | _, _ => .error .other

/-- The column is ASCII and compares byte by byte. -/
def insertSession (id : Bytes) (userId expiresAt : Nat) :
    Except Refusal (Unit × AccountTables) :=
  if 64 < id.length || (id.any fun b => 128 ≤ b) || maxDatetime < expiresAt then .error .other
  else if a.sessions.any fun r => r.id == id then .error .duplicateKey
  else if a.users.any fun u => u.id == userId then
    .ok ((), { a with sessions := a.sessions ++ [{ id, userId, expiresAt, createdAt := now }] })
  else .error .other

/-- The user of the session with this id that expires last, if it has not expired; `utc` is
`UTC_TIMESTAMP()`. -/
def sessionUser (id : Bytes) (utc : Nat) : Option UserRow :=
  (((a.sessions.filter fun r => r.id == id && utc < r.expiresAt).insertionSort
    fun r r' => r'.expiresAt ≤ r.expiresAt).flatMap fun r =>
      a.users.filter fun u => u.id == r.userId).head?

/-- `DELETE FROM sessions WHERE id = …`, with the number of rows. -/
def deleteSession (id : Bytes) : Nat × AccountTables :=
  (a.sessions.countP fun r => r.id == id,
    { a with sessions := a.sessions.filter fun r => r.id != id })

end AccountTables

end MiniOj.Db
