import MiniOj.Auth.Session
import MiniOj.Http.Request

/-!
# Session cookies of requests

`http/middleware.cpp`.
-/

namespace MiniOj.Http

open Infra

/-- The settings of sessions. -/
structure SessionConfig where
  /-- in seconds -/
  ttl : Nat := 604800
  secureCookie : Bool := false
  deriving DecidableEq, Repr

/-- `find(ch, pos)`. -/
def findByte (s : Bytes) (ch : UInt8) (pos : Nat) : Option Nat :=
  ((s.drop pos).idxOf? ch).map (pos + ·)

/-- `while (index < s.size() && isWhitespace(s[index])) ++index;` -/
def skipBlanks (s : Bytes) (index : Nat) : Nat := index + ((s.drop index).takeWhile isBlank).length

/-- The value of `name=value` when the name, without the blanks around it, is this one. -/
def pairValue (pair name : Bytes) : Option Bytes :=
  match findByte pair 61 0 with
  | none => none
  | some eq =>
    if iequals (trimBlanks (pair.take eq)) name then some (pair.drop (eq + 1)) else none

/-- So many turns of the loop, from `index` on. -/
def readCookieValueFrom (cookies name : Bytes) : Nat → Nat → Option Bytes
  | 0, _ => none
  | turns + 1, index =>
    if cookies.length ≤ index then none
    else
      let pairBegin := skipBlanks cookies index
      if cookies.length ≤ pairBegin then none
      else
        let pairEnd := (findByte cookies 59 pairBegin).getD cookies.length
        match pairValue ((cookies.drop pairBegin).take (pairEnd - pairBegin)) name with
        | some value => some value
        | none => readCookieValueFrom cookies name turns (pairEnd + 1)

/-- The value of the first cookie with this name. Every turn moves the index on. -/
def readCookieValue (cookies name : Bytes) : Option Bytes :=
  readCookieValueFrom cookies name cookies.length 0

/-- The value of the session cookie, of whatever shape. -/
def parseSessionCookie (req : Request) : Option Bytes :=
  (req.header? "Cookie").bind fun raw => readCookieValue raw Auth.sessionCookieName

/-- The session cookie, when it has the shape of an id. -/
def parseSessionId (req : Request) : Option Bytes :=
  (parseSessionCookie req).filter Auth.isSessionIdShape

/-- The cookie is set. -/
def attachSessionCookie (res : Response) (sessionId : Bytes) (config : SessionConfig) : Response :=
  { res with headers := res.headers ++
      [("Set-Cookie", Auth.formatSessionCookie sessionId config.ttl config.secureCookie)] }

/-- The cookie is taken back. -/
def clearSessionCookie (res : Response) (config : SessionConfig) : Response :=
  { res with headers := res.headers ++
      [("Set-Cookie", Auth.formatClearSessionCookie config.secureCookie)] }

end MiniOj.Http
