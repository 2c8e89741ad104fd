import MiniOj.Auth.Session
import MiniOj.Http.Backend

/-!
# The user DAO

`db/user_dao.cpp`.
-/

namespace MiniOj.Db

open Infra Http

/-- A user as the handlers get it. -/
structure UserSummary where
  id : Nat
  username : Bytes
  role : Role
  passwordHash : Bytes := []
  deriving DecidableEq, Repr

/-- A session as `createSession` returns it. -/
structure SessionRecord where
  id : Bytes
  userId : Nat
  /-- in nanoseconds since 1970 -/
  expiresAt : Nat
  deriving DecidableEq, Repr

/-- `UsernameExistsError`. -/
def usernameExistsError (username : Bytes) : Exn :=
  ⟨.usernameExists, utf8 "username '" ++ username ++ utf8 "' is already taken"⟩

/-- The second of UTC that the text names. -/
def formatMysqlTimestamp (tp : Nat) : Nat := tp / 10 ^ 9

/-- `none` when there is no such user. -/
def findUserByUsername (username : Bytes) : Handler (Option UserSummary) :=
  Http.withLease do
    let row : Option UserRow ← .call (.selectUser username) (orThrow "user lookup")
    freed "user lookup store" (row.map fun u => ⟨u.id, u.username, u.role, u.passwordHash⟩)

/-- The id of the new user. -/
def createUser (username passwordHash : Bytes) (role : Role) : Handler Nat :=
  Http.withLease <|
    .call (.insertUser username passwordHash role) fun
      | .ok id => .ret id
      | .error e =>
        if e.duplicateKey then .throw (usernameExistsError username)
        else .throw (runtimeError (utf8 "user insert failed: " ++ e.text))

/-- `ttl` is in seconds. -/
def createSession (userId : Nat) (sessionId : Bytes) (ttl : Nat) : Handler SessionRecord :=
  Http.withLease <|
    if !Auth.isSessionIdShape sessionId then
      .throw (invalidArgument (utf8 "session id has invalid shape"))
    else
      .call .now fun now => do
        let expiresAt := now + ttl * 10 ^ 9
        .call (.insertSession sessionId userId (formatMysqlTimestamp expiresAt))
          (orThrow "session insert")
        return ⟨sessionId, userId, expiresAt⟩

/-- The row has no password hash. -/
def findUserByValidSessionId (sessionId : Bytes) : Handler (Option UserSummary) :=
  if !Auth.isSessionIdShape sessionId then return none
  else
    Http.withLease do
      let row : Option UserRow ← .call (.selectSessionUser sessionId) (orThrow "session lookup")
      freed "session lookup store"
        (row.map fun u => { id := u.id, username := u.username, role := u.role })

/-- `noexcept`: a failure is `false`. -/
def deleteSession (sessionId : Bytes) : Handler Bool :=
  if !Auth.isSessionIdShape sessionId then return false
  else
    Program.tryCatch (Http.withLease <|
      .call (.deleteSession sessionId) fun
        | .ok affected => .ret (decide (0 < affected))
        | .error _ => .ret false) fun _ => return false

end MiniOj.Db
