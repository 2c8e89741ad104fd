import Mathlib.Data.List.Infix
import MiniOj.Http.Handlers

/-!
# Routes

`registerAllRoutes` (`http/router.cpp`) with the tables of the three `register…Routes`,
`checkAdminAuth` (`http/admin_auth.cpp`), and the way httplib finds the handler of a request.
-/

namespace MiniOj.Http

open Infra Db

/-! ## Patterns -/

/-- The static fragments and the parameter names of a pattern. -/
structure PathParamsMatcher where
  staticFragments : List Bytes
  paramNames : List Bytes
  deriving DecidableEq, Repr

/-- The rest of a pattern, when `current` has been read of a fragment or (`inName`) of a name. -/
def parsePattern : Bool → Bytes → Bytes → PathParamsMatcher
  | false, current, [] => ⟨if current.isEmpty then [] else [current], []⟩
  | false, current, 47 :: 58 :: rest =>
    let m := parsePattern true [] rest
    { m with staticFragments := (current ++ [47]) :: m.staticFragments }
  | false, current, b :: rest => parsePattern false (current ++ [b]) rest
  | true, current, [] => ⟨[], [current]⟩
  | true, current, 47 :: 58 :: rest =>
    let m := parsePattern true [] rest
    ⟨[] :: m.staticFragments, current :: m.paramNames⟩
  | true, current, b :: rest =>
    if b = 47 then
      let m := parsePattern false [] rest
      { m with paramNames := current :: m.paramNames }
    else parsePattern true (current ++ [b]) rest

/-- The constructor of the matcher. -/
def PathParamsMatcher.ofPattern (pattern : Bytes) : PathParamsMatcher :=
  parsePattern false [] pattern

/-- The rest of `match`, with the part of the path from `starting_pos` on, which is `none` one
past the end. -/
def matchFragments : List Bytes → List Bytes → Option Bytes → Option (List (Bytes × Bytes))
  | [], _, none => some []
  | [], _, some rest => if rest.isEmpty then some [] else none
  | _ :: _, _, none => none
  | fragment :: fragments, names, some rest =>
    if fragment.isPrefixOf rest then
      let rest := rest.drop fragment.length
      match names with
      | [] => matchFragments fragments [] (some rest)
      | name :: names =>
        let after := match rest.dropWhile (· != 47) with
          | [] => none
          | _ :: tail => some tail
        (matchFragments fragments names after).map ((name, rest.takeWhile (· != 47)) :: ·)
    else none

/-- `make_matcher(pattern)->match(request)`: the path parameters. A pattern without parameters
is a regular expression, and those used here have no special characters. -/
def matchPattern (pattern path : Bytes) : Option (List (Bytes × Bytes)) :=
  if [47, 58] <:+: pattern then
    let m := PathParamsMatcher.ofPattern pattern
    matchFragments m.staticFragments m.paramNames (some path)
  else if path = pattern then some [] else none

/-! ## The tables -/

/-- The parameters of a path, by name. -/
abbrev PathParams := List (Bytes × Bytes)

/-- `req.path_params.at("id")`. -/
def PathParams.id (params : PathParams) : Bytes :=
  ((params.find? fun p => p.1 == utf8 "id").map Prod.snd).getD []

/-- A pattern and what `Get`, `Post`, `Put` or `Delete` registers for it. -/
structure Route where
  pattern : Bytes
  handler : Request → PathParams → Handler Response

/-- The handlers of each method, in the order of registration. -/
structure Routes where
  get : List Route
  post : List Route
  put : List Route
  delete : List Route

/-- `registerAuthRoutes`. -/
def authRoutes (cfg : Config) : Routes where
  get := [⟨utf8 "/api/auth/me", fun req _ => meHandler req⟩]
  post := [
    ⟨utf8 "/api/auth/register", fun req _ => registerHandler cfg req⟩,
    ⟨utf8 "/api/auth/login", fun req _ => loginHandler cfg req⟩,
    ⟨utf8 "/api/auth/logout", fun req _ => logoutHandler cfg req⟩]
  put := []
  delete := []

/-- `registerPublicRoutes`. -/
def publicRoutes (cfg : Config) : Routes where
  get := [
    ⟨utf8 "/api/problems", fun req _ => listProblemsHandler req⟩,
    ⟨utf8 "/api/problems/:id", fun _ params => getProblemHandler params.id⟩]
  post := [⟨utf8 "/api/submissions", fun req _ => submitHandler cfg req⟩]
  put := []
  delete := []

/-- `registerAdminRoutes`. -/
def adminRoutes (cfg : Config) : Routes where
  get := [
    ⟨utf8 "/api/admin/problems", fun _ _ => listAdminProblemsHandler⟩,
    ⟨utf8 "/api/admin/problems/:id", fun _ params => getAdminProblemHandler params.id⟩]
  post := [
    ⟨utf8 "/api/admin/problems", fun req _ => createProblemHandler cfg req⟩,
    ⟨utf8 "/api/admin/reset", fun _ _ => resetProblemBankHandler cfg⟩]
  put := [
    ⟨utf8 "/api/admin/problems/:id", fun req params => updateProblemHandler cfg req params.id⟩]
  delete := [⟨utf8 "/api/admin/problems/:id", fun _ params => deleteProblemHandler params.id⟩]

/-- Routes registered after others. -/
def Routes.append (r r' : Routes) : Routes :=
  ⟨r.get ++ r'.get, r.post ++ r'.post, r.put ++ r'.put, r.delete ++ r'.delete⟩

/-- All routes, in the order of registration. -/
def allRoutes (cfg : Config) : Routes :=
  ((authRoutes cfg).append (publicRoutes cfg)).append (adminRoutes cfg)

/-! ## Guards -/

/-- The paths that only administrators may ask for. -/
def isAdminPath (path : Bytes) : Bool := 11 ≤ path.length && path.take 11 == utf8 "/api/admin/"

/-- The response when the request is handled, `none` when it goes on. -/
def checkAdminAuth (req : Request) : Handler (Option Response) :=
  if !isAdminPath req.path then return none
  else
    match parseSessionId req with
    | none => return some (writeError 401 (utf8 "not logged in"))
    | some sessionId => do
      match ← attempt (findUserByValidSessionId sessionId) fun e =>
          writeError 500 (utf8 "auth error: " ++ e.what) with
      | .error res => return some res
      | .ok none => return some (writeError 401 (utf8 "session expired or invalid"))
      | .ok (some user) =>
        if user.role ≠ .admin then return some (writeError 403 (utf8 "admin role required"))
        else return none

/-- The handler that `registerAllRoutes` sets. -/
def preRouting (cfg : Config) (req : Request) : Handler (Option Response) :=
  .call (.rateLimit req) fun
    | some refused => return some refused
    | none =>
      match checkCsrf cfg.trustedOrigins cfg.http req with
      | some refused => return some refused
      | none => checkAdminAuth req

/-! ## Routing -/

/-- The handlers of `dispatch_request` for a method; `none` for a method that httplib does not
know. No handlers are registered for the last two. -/
def Routes.table (routes : Routes) (method : Bytes) : Option (List Route) :=
  if method = utf8 "GET" ∨ method = utf8 "HEAD" then some routes.get
  else if method = utf8 "POST" then some routes.post
  else if method = utf8 "PUT" then some routes.put
  else if method = utf8 "DELETE" then some routes.delete
  else if method = utf8 "OPTIONS" ∨ method = utf8 "PATCH" then some []
  else none

/-- `dispatch_request`: the first route that matches. -/
def dispatch (table : List Route) (req : Request) : Option (Handler Response) :=
  table.findSome? fun route =>
    (matchPattern route.pattern req.path).map fun params => route.handler req params

/-- The handler of a request after the guards. -/
def handlerOf (cfg : Config) (req : Request) : Option (Handler Response) :=
  ((allRoutes cfg).table req.method).bind fun table => dispatch table req

/-- `Server::routing`. Without a handler the answer is 404, and 400 for an unknown method. -/
def routing (cfg : Config) (req : Request) : Handler Response := do
  match ← preRouting cfg req with
  | some handled => return handled
  | none =>
    match handlerOf cfg req with
    | some handler => handler
    | none => return { status := if ((allRoutes cfg).table req.method).isSome then 404 else 400 }

end MiniOj.Http
