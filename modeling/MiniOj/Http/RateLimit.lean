import MiniOj.Http.RateLimiter
import MiniOj.Http.Request

/-!
# Rate limiting of requests

`clientKey` and `checkRateLimit` (`http/rate_limit.cpp`), and the headers that
`frontend/nginx.conf` makes nginx send to the backend.
-/

namespace MiniOj.Http

open Infra

/-- The first element of `X-Forwarded-For`, or the address of the peer. -/
def clientKey (req : Request) : Bytes :=
  let forwarded := req.getHeaderValue "X-Forwarded-For"
  let first := trimBlanks (forwarded.takeWhile (· != 44))
  if !forwarded.isEmpty && !first.isEmpty then first else req.remoteAddr

/-- The response when the request is refused, and the limiter afterwards. A request that is let
through gets `X-RateLimit-Remaining`. -/
def checkRateLimit (limiter : RateLimiter) (now : ℚ) (req : Request) :
    Option Response × RateLimiter :=
  let (decision, limiter) := limiter.check (clientKey req) now
  if decision.allowed then (none, limiter)
  else
    let refusal := writeError 429 (utf8 "rate limit exceeded")
    (some { refusal with
      headers := [("Retry-After", utf8 (toString decision.retryAfter))] }, limiter)

/-! ## Behind nginx -/

/-- An address as nginx prints it in `$remote_addr`. -/
structure Address where
  text : Bytes
  nonempty : text ≠ []
  /-- digits, letters, `.` and `:` -/
  plain : ∀ b ∈ text, 46 ≤ b ∧ b ≤ 122

/-- `$proxy_add_x_forwarded_for`, for a client that sends the given header or none. -/
def proxyAddXForwardedFor (remoteAddr : Address) : Option Bytes → Bytes
  | none => remoteAddr.text
  | some value => value ++ utf8 ", " ++ remoteAddr.text

/-- The request that reaches the backend when nginx, at the address `proxy`, forwards `req` for
a client at `remoteAddr`; `none` when httplib does not accept the header. -/
def behindNginx (proxy remoteAddr : Address) (req : Request) (value : Option Bytes) :
    Option Request :=
  (parseHeaderValue (proxyAddXForwardedFor remoteAddr value)).map fun forwarded =>
    { req with
      headers :=
        (utf8 "X-Forwarded-For", forwarded) ::
        (utf8 "X-Real-IP", remoteAddr.text) ::
        req.headers.filter fun h =>
          !iequals h.1 (utf8 "X-Forwarded-For") && !iequals h.1 (utf8 "X-Real-IP")
      remoteAddr := proxy.text }

end MiniOj.Http
