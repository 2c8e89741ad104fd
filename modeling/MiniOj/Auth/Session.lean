import MiniOj.Auth.Password

/-!
# Session ids and cookies

`auth/session.cpp`.
-/

namespace MiniOj.Auth

open Infra

/-- `std::isxdigit` in the C locale. -/
def isXDigit (b : UInt8) : Bool := isDigit b || (65 ≤ b && b ≤ 70) || (97 ≤ b && b ≤ 102)

/-- `isSessionIdShape`, and `isShapeSessionId` of the DAO. -/
def isSessionIdShape (value : Bytes) : Bool := value.length == 64 && value.all isXDigit

/-- The loop of `randomHex` over what the calls of `read` deliver, none of them more than it is
asked for. One that fails, or finds the end of the file, delivers nothing. -/
def readRandom (bytes : Nat) : Bytes → List Bytes → Except Exn Bytes
  | buffer, [] =>
    if buffer.length < bytes then .error (runtimeError (utf8 "failed to read random source"))
    else .ok buffer
  | buffer, read :: reads =>
    if buffer.length < bytes then
      if read.isEmpty then .error (runtimeError (utf8 "failed to read random source"))
      else readRandom bytes (buffer ++ read.take (bytes - buffer.length)) reads
    else .ok buffer

/-- `source` is what the calls of `read` deliver, if the random source can be opened. -/
def randomHex (bytes : Nat) (source : Option (List Bytes)) : Except Exn Bytes :=
  if bytes = 0 ∨ 32 < bytes then
    .error (invalidArgument (utf8 "session id entropy out of range"))
  else
    match source with
    | none => .error (runtimeError (utf8 "failed to open random source"))
    | some reads =>
      match readRandom bytes [] reads with
      | .ok buffer => .ok (toHex buffer)
      | .error e => .error e

/-- `kSessionIdBytes`. -/
def sessionIdBytes : Nat := 32

/-- 64 hexadecimal digits. -/
def generateSessionId (source : Option (List Bytes)) : Except Exn Bytes :=
  randomHex sessionIdBytes source

/-- `generateSessionId` once it has its 32 random bytes. -/
def sessionIdOf (random : Bytes) : Bytes := toHex random

/-- `kSessionCookieName`. -/
def sessionCookieName : Bytes := utf8 "minioj_sid"

/-- What every session cookie ends with. -/
def cookieAttributes : Bytes := utf8 "; Path=/; HttpOnly; SameSite=Lax"

/-- `ttl` is in seconds. -/
def formatSessionCookie (sessionId : Bytes) (ttl : Nat) (secure : Bool) : Bytes :=
  sessionCookieName ++ utf8 "=" ++ sessionId ++ cookieAttributes ++
    (if 0 < ttl then utf8 ("; Max-Age=" ++ toString ttl) else []) ++
    if secure then utf8 "; Secure" else []

/-- An empty value that is over at once. -/
def formatClearSessionCookie (secure : Bool) : Bytes :=
  sessionCookieName ++ utf8 "=" ++ cookieAttributes ++ utf8 "; Max-Age=0" ++
    if secure then utf8 "; Secure" else []

end MiniOj.Auth
