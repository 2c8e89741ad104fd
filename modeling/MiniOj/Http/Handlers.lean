import MiniOj.Db.ProblemList
import MiniOj.Db.UserDao
import MiniOj.Http.Csrf
import MiniOj.Http.Dto
import MiniOj.Http.Middleware
import MiniOj.Http.SubmissionRequest

/-!
# Request handlers

`http/handlers_auth.cpp`, `http/handlers_public.cpp` and `http/handlers_admin.cpp`.
-/

namespace MiniOj.Http

open Infra Db

/-- What the handlers are given besides the request. -/
structure Config where
  session : SessionConfig := {}
  http : HttpConfig := {}
  /-- `CSRF_TRUSTED_ORIGINS` -/
  trustedOrigins : Option Bytes := none
  crypt : Auth.Crypt
  readJson : JsonReader
  /-- the file that `resolveSeedJsonPath` finds -/
  seed : SeedFile

/-- `try { p } catch (const std::exception& error) { … return; }`. -/
def attempt {α : Type} (p : Handler α) (refuse : Exn → Response) : Handler (Except Response α) :=
  Program.tryCatch (p >>= fun a => return .ok a) fun e => return .error (refuse e)

/-- What is answered to an exception of the database. -/
def databaseError (e : Exn) : Response := writeError 500 (utf8 "database error: " ++ e.what)

/-- The names of the roles in answers. -/
def kRole : Role → Bytes
  | .admin => utf8 "admin"
  | .user => utf8 "user"

/-- `{"id": …, "username": …, "role": …}`. -/
def accountJson (id : Nat) (username : Bytes) (role : Role) : Json :=
  .object [
    (utf8 "id", Dto.id id), (utf8 "username", .string username),
    (utf8 "role", .string (kRole role))]

/-! ## Accounts -/

/-- `meHandler`: who is logged in. -/
def meHandler (req : Request) : Handler Response :=
  match parseSessionId req with
  | none => return writeError 401 (utf8 "not logged in")
  | some sessionId =>
    Program.tryCatch (do
      match ← findUserByValidSessionId sessionId with
      | none => return writeError 401 (utf8 "session expired or invalid")
      | some user => return writeJson 200 (accountJson user.id user.username user.role))
      fun e => return databaseError e

/-- `hashPassword`. -/
def hashPassword (cfg : Config) (password : Bytes) : Handler Bytes :=
  .call (.random 16) fun
    | .error error => .throw (runtimeError error)
    | .ok bytes => ofExcept (Auth.hashPassword cfg.crypt password bytes)

/-- `generateSessionId`. -/
def generateSessionId : Handler Bytes :=
  .call (.random 32) fun
    | .error error => .throw (runtimeError error)
    | .ok bytes => .ret (Auth.sessionIdOf bytes)

/-- The part that `registerHandler` and `loginHandler` have in common: a session for the user,
and the answer with its cookie. -/
def openSession (cfg : Config) (status userId : Nat) (username : Bytes) (role : Role) :
    Handler Response := do
  let sessionId ← generateSessionId
  match ← attempt (createSession userId sessionId cfg.session.ttl) fun e =>
      writeError 500 (utf8 "session error: " ++ e.what) with
  | .error res => return res
  | .ok _ =>
    return attachSessionCookie (writeJson status (accountJson userId username role)) sessionId
      cfg.session

/-- `catch (const std::invalid_argument& error) { … 400 … }`: no other exception is caught. -/
def refuseInvalid (e : Exn) : Handler Response :=
  if e.kind = .invalidArgument then return writeError 400 e.what else .throw e

/-- The payload of `registerHandler`, once it has been validated. -/
def parseRegistration (cfg : Config) (req : Request) : Except Exn AuthPayload := do
  let payload ← parseAuthPayload cfg.readJson req.body
  Auth.validateUsername payload.username
  Auth.validatePassword payload.password
  return payload

/-- `registerHandler`: a user is created, and logged in. -/
def registerHandler (cfg : Config) (req : Request) : Handler Response :=
  match parseRegistration cfg req with
  | .error e => refuseInvalid e
  | .ok payload => do
    match ← attempt (hashPassword cfg payload.password) fun e =>
        writeError 500 (utf8 "hash error: " ++ e.what) with
    | .error res => return res
    | .ok passwordHash =>
      match ← attempt (createUser payload.username passwordHash .user) fun e =>
          if e.kind = .usernameExists then writeError 409 (utf8 "username already exists")
          else databaseError e with
      | .error res => return res
      | .ok userId => openSession cfg 201 userId payload.username .user

/-- `loginHandler`: name and password are checked. -/
def loginHandler (cfg : Config) (req : Request) : Handler Response :=
  match parseAuthPayload cfg.readJson req.body with
  | .error e => refuseInvalid e
  | .ok payload =>
    if payload.username.isEmpty || payload.password.isEmpty then
      return writeError 400 (utf8 "username and password are required")
    else do
      match ← attempt (findUserByUsername payload.username) databaseError with
      | .error res => return res
      | .ok none => return writeError 401 (utf8 "invalid username or password")
      | .ok (some user) =>
        if Auth.verifyPassword cfg.crypt payload.password user.passwordHash then
          openSession cfg 200 user.id user.username user.role
        else return writeError 401 (utf8 "invalid username or password")

/-- `logoutHandler`: whether the session is deleted does not matter to the answer. -/
def logoutHandler (cfg : Config) (req : Request) : Handler Response := do
  match parseSessionId req with
  | some sessionId => let _ ← deleteSession sessionId
  | none => pure ()
  return clearSessionCookie (writeJson 200 (.object [(utf8 "status", .string (utf8 "ok"))]))
    cfg.session

/-! ## Problems -/

/-- `parseDifficultyQuery`: a difficulty that is not given, or empty, is none. -/
def parseDifficultyQuery (req : Request) : Except Exn (Option Difficulty) :=
  match req.param? "difficulty" with
  | some (b :: bs) => (parseDifficulty (b :: bs)).map some
  | _ => .ok none

/-- `listProblemsHandler`: the list that the filters ask for. -/
def listProblemsHandler (req : Request) : Handler Response :=
  match parseDifficultyQuery req with
  | .error e => return writeError 400 e.what
  | .ok difficulty =>
    let filters : ProblemFilters :=
      { difficulty, tag := (req.param? "tag").filter fun tag => !tag.isEmpty }
    Program.tryCatch (do
      let summaries ← listProblems filters
      return writeJson 200 (.array (summaries.map Dto.ofSummary)))
      fun e => return databaseError e

/-- The value and the length of the digits that `std::stoull` reads. -/
def readDigits (value count : Nat) : Bytes → Nat × Nat
  | [] => (value, count)
  | b :: bs =>
    if Auth.isDigit b then readDigits (value * 10 + (b.toNat - 48)) (count + 1) bs
    else (value, count)

/-- `std::stoull`, if it does not throw and uses the whole text. -/
def stoull (raw : Bytes) : Option Nat :=
  let text := raw.dropWhile isSpace
  let negative := text.head? == some 45
  let digits := if negative || text.head? == some 43 then text.drop 1 else text
  let (value, count) := readDigits 0 0 digits
  if count = 0 || count < digits.length || 2 ^ 64 ≤ value then none
  else some (if negative then (2 ^ 64 - value) % 2 ^ 64 else value)

/-- `parseProblemId` of the value of the path parameter. -/
def parseProblemId (raw : Bytes) : Option Nat := if raw.isEmpty then none else stoull raw

/-- `getProblemHandler`: the public page of a problem. -/
def getProblemHandler (id : Bytes) : Handler Response :=
  match parseProblemId id with
  | none => return writeError 400 (utf8 "invalid problem id")
  | some id =>
    Program.tryCatch (do
      match ← getProblemDetail id with
      | none => return writeError 404 (utf8 "problem not found")
      | some detail => return writeJson 200 (Dto.ofDetail detail))
      fun e => return databaseError e

/-- `buildPipelineInput`: the limits of the problem in the units of the judge. -/
def buildPipelineInput (problem : AdminProblemDetail) (submission : SubmissionInput) :
    PipelineInput where
  sourceCode := submission.sourceCode
  testcases := problem.testcases.map fun c =>
    ⟨c.id, c.problemId, c.input, c.expectedOutput, c.isSample⟩
  runTimeoutMs := problem.timeLimitMs
  memoryLimitBytes := problem.memoryLimitMb.toNat * 1024 * 1024

/-- `submitHandler`: the problem is read, and the submission judged. -/
def submitHandler (cfg : Config) (req : Request) : Handler Response :=
  match parseSubmissionInput cfg.readJson req.body with
  | .error e => refuseInvalid e
  | .ok submission => do
    match ← attempt (ofDao (getFullProblem submission.problemId.toNat)) databaseError with
    | .error res => return res
    | .ok none => return writeError 404 (utf8 "problem not found")
    | .ok (some full) =>
      if full.testcases.isEmpty then return writeError 400 (utf8 "problem has no testcases")
      else
        .call (.judge (buildPipelineInput full submission)) fun
          | .ok result => return writeJson 200 (Dto.ofSubmission result)
          | .error error => return writeError 500 (utf8 "judge error: " ++ error)

/-! ## Administration -/

/-- `listAdminProblemsHandler`: all problems in full. -/
def listAdminProblemsHandler : Handler Response :=
  Program.tryCatch (do
    let problems ← listFullProblems
    return writeJson 200 (.array (problems.map Dto.ofAdminDetail)))
    fun e => return databaseError e

/-- `getAdminProblemHandler`: a problem in full. -/
def getAdminProblemHandler (id : Bytes) : Handler Response :=
  match parseProblemId id with
  | none => return writeError 400 (utf8 "invalid problem id")
  | some id =>
    Program.tryCatch (do
      match ← ofDao (getFullProblem id) with
      | none => return writeError 404 (utf8 "problem not found")
      | some detail => return writeJson 200 (Dto.ofAdminDetail detail))
      fun e => return databaseError e

/-- The two `catch` clauses of the handlers that read a problem. -/
def problemError (e : Exn) : Response :=
  if e.kind = .invalidArgument then writeError 400 e.what else databaseError e

/-- The body of a request that creates or changes a problem. -/
def readProblem (cfg : Config) (req : Request) : Handler Admin.ProblemInput := do
  let body ← ofExcept (parseJsonBody cfg.readJson req.body)
  ofExcept (Admin.parseProblemInput body)

/-- `createProblemHandler`: 201 with the new id. -/
def createProblemHandler (cfg : Config) (req : Request) : Handler Response :=
  Program.tryCatch (do
    let input ← readProblem cfg req
    let id ← ofDao (createProblem input)
    return writeJson 201 (.object [(utf8 "id", Dto.id id)]))
    fun e => return problemError e

/-- `updateProblemHandler`: 204, or 404 when there is no such problem. -/
def updateProblemHandler (cfg : Config) (req : Request) (id : Bytes) : Handler Response :=
  match parseProblemId id with
  | none => return writeError 400 (utf8 "invalid problem id")
  | some id =>
    Program.tryCatch (do
      let input ← readProblem cfg req
      if ← ofDao (updateProblem id input) then return { status := 204 }
      else return writeError 404 (utf8 "problem not found"))
      fun e => return problemError e

/-- `deleteProblemHandler`: 204, or 404 when there is no such problem. -/
def deleteProblemHandler (id : Bytes) : Handler Response :=
  match parseProblemId id with
  | none => return writeError 400 (utf8 "invalid problem id")
  | some id =>
    Program.tryCatch (do
      if ← ofDao (deleteProblem id) then return { status := 204 }
      else return writeError 404 (utf8 "problem not found"))
      fun e => return databaseError e

/-- `resetProblemBankHandler`: the seed file is read again. -/
def resetProblemBankHandler (cfg : Config) : Handler Response :=
  Program.tryCatch (do
    ofDao (resetProblemBank cfg.readJson cfg.seed)
    return writeJson 200 (.object [
      (utf8 "message", .string (utf8 "problem bank reset to seed data")),
      (utf8 "seed", .string cfg.seed.path)]))
    fun e => return writeError 500 (utf8 "reset failed: " ++ e.what)

end MiniOj.Http
