import MiniOj.Db.SeedLoader
import MiniOj.Http.AdminRequest

/-!
# Bodies of requests

`parseJsonBody` (`http/admin_request.cpp`), `parseSubmissionInput`
(`http/submission_request.cpp`) and `parseAuthPayload` (`http/handlers_auth.cpp`).
-/

namespace MiniOj.Http

open Infra Admin

/-- The value of the body, whatever kind it has. -/
def parseJsonBody (read : Db.JsonReader) (raw : Bytes) : Except Exn Json :=
  if raw.isEmpty then invalid "request body is empty"
  else
    match read raw with
    | .error (.thrown what) => .error (Db.jsonRuntimeError what)
    | .error (.invalid errors) => .error (invalidArgument (utf8 "invalid JSON body: " ++ errors))
    | .ok root => .ok root

/-! ## Submissions -/

/-- A submission as the handler gets it. -/
structure SubmissionInput where
  problemId : UInt64
  language : Bytes
  sourceCode : Bytes
  deriving DecidableEq, Repr

/-- A positive integer. One that is no `Int64` throws what jsoncpp throws. -/
def requireId (body : Json) (key : String) : Except Exn UInt64 :=
  match body.member? key with
  | none => invalid (key ++ " is required")
  | some field => do
    if !field.isIntegral then
      invalid (key ++ " must be a positive integer")
    if (← field.asInt64) ≤ 0 then
      invalid (key ++ " must be a positive integer")
    field.asUInt64

/-- The checks are made in this order, and the first that fails is reported. -/
def parseSubmissionInput (read : Db.JsonReader) (raw : Bytes) : Except Exn SubmissionInput := do
  let body ← parseJsonBody read raw
  if !body.isObject then
    invalid "body must be a JSON object"
  let problemId ← requireId body "problem_id"
  let language ← requireString body "lang"
  if language ≠ utf8 "cpp" ∧ language ≠ utf8 "c" then
    invalid "lang must be \"cpp\" or \"c\""
  let sourceCode ← requireString body "code"
  if sourceCode.isEmpty then
    invalid "code must not be empty"
  if sourceCode.length > 256 * 1024 then
    invalid "code must not exceed 256 KiB"
  return { problemId, language, sourceCode }

/-! ## Credentials -/

/-- What `register` and `login` are sent. -/
structure AuthPayload where
  username : Bytes
  password : Bytes
  deriving DecidableEq, Repr

/-- A member that is a string, also an empty one. -/
def requireCredential (root : Json) (key : String) : Except Exn Bytes :=
  match root.member? key with
  | some (.string value) => .ok value
  | _ => invalid ("missing or invalid '" ++ key ++ "'")

/-- What is wrong with the JSON is not said here. -/
def parseAuthPayload (read : Db.JsonReader) (body : Bytes) : Except Exn AuthPayload :=
  match read body with
  | .error (.thrown what) => .error (Db.jsonRuntimeError what)
  | .error (.invalid _) => invalid "invalid JSON body"
  | .ok root => do
    if !root.isObject then
      invalid "JSON body must be an object"
    let username ← requireCredential root "username"
    let password ← requireCredential root "password"
    return { username, password }

end MiniOj.Http
