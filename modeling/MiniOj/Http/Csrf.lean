import MiniOj.Http.Request

/-!
# The CSRF guard

`checkCsrf` (`http/csrf.cpp`). The environment variable `CSRF_TRUSTED_ORIGINS` is a parameter,
`none` when it is not set.
-/

namespace MiniOj.Http

open Infra

/-- Where the server listens. -/
structure HttpConfig where
  host : Bytes := utf8 "0.0.0.0"
  port : UInt16 := 8080
  deriving DecidableEq, Repr

/-- The methods that are guarded. -/
def isStateChanging (method : Bytes) : Bool :=
  iequals method (utf8 "POST") || iequals method (utf8 "PUT") ||
    iequals method (utf8 "DELETE") || iequals method (utf8 "PATCH")

/-- `std::isspace` in the C locale. -/
def isSpace (b : UInt8) : Bool := b == 32 || (9 ≤ b && b ≤ 13)

/-- The words of the variable. -/
def parseTrustedOrigins (env : Option Bytes) : List Bytes :=
  ((env.getD []).splitOnP isSpace).filter fun token => !token.isEmpty

/-- The origins of the listening host, none of them with a port. -/
def defaultOrigins (cfg : HttpConfig) : List Bytes :=
  let host := if cfg.host.isEmpty then utf8 "localhost" else cfg.host
  [utf8 "http://" ++ host, utf8 "https://" ++ host] ++
    if host = utf8 "0.0.0.0" then [utf8 "http://localhost", utf8 "http://127.0.0.1"] else []

/-- The effective list of trusted origins. -/
def trustedOrigins (env : Option Bytes) (cfg : HttpConfig) : List Bytes :=
  let trusted := parseTrustedOrigins env
  if trusted.isEmpty then defaultOrigins cfg else trusted

/-- The comparison is byte by byte. -/
def originAllowed (origin : Bytes) (trusted : List Bytes) : Bool := trusted.any (origin == ·)

/-- The response when the request is handled, `none` when it goes on. -/
def checkCsrf (env : Option Bytes) (cfg : HttpConfig) (req : Request) : Option Response :=
  if !isStateChanging req.method then none
  else
    let origin := req.getHeaderValue "Origin"
    if origin.isEmpty then none
    else if originAllowed origin (trustedOrigins env cfg) then none
    else some (writeError 403 (utf8 "cross-origin request rejected by CSRF guard"))

end MiniOj.Http
