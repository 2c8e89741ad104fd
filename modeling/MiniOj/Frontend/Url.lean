import MiniOj.Frontend.JsString

/-!
# Resolving an address

The parser of the URL standard, for an address that does not begin with a letter and a page of
`http` or `https`, as far as the origin depends on it: neither the path nor the query nor the
fragment can make it fail or change the origin. The definitions have the names of the states.

Parsing a host is a parameter, with hosts in any type.
-/

namespace MiniOj.Frontend

open Infra

/-- Scheme, host and port of a page, and its origin. -/
structure Origin (η : Type) where
  https : Bool
  host : η
  /-- `none` for the default port of the scheme -/
  port : Option Nat
  deriving DecidableEq, Repr

namespace Url

variable {η : Type}

/-- What is removed at the ends. -/
def isC0ControlOrSpace (c : Char) : Bool := c.toNat ≤ 32

/-- What is removed everywhere. -/
def isTabOrNewline (c : Char) : Bool := c == '\t' || c == '\n' || c == '\r'

/-- What is removed before the first state. -/
def prepare (address : JsString) : JsString :=
  (Infra.trim isC0ControlOrSpace address).filter fun c => !isTabOrNewline c

/-- For a special scheme a backslash is a slash. -/
def isSlash (c : Char) : Bool := c == '/' || c == '\\'

/-- What comes after host and port. -/
def endsAuthority (c : Char) : Bool := isSlash c || c == '?' || c == '#'

/-- No digits stand for the default port. -/
def portState (https : Bool) (buffer : JsString) : Option (Option Nat) :=
  let port := buffer.foldl (fun n c => 10 * n + (c.toNat - 48)) 0
  if !buffer.all Char.isDigit then none
  else if buffer = [] then some none
  else if 65535 < port then none
  else some (if port = if https then 443 else 80 then none else some port)

/-- The text of the host, and of the port behind a colon that is not in brackets. -/
def hostState (insideBrackets : Bool) : JsString → JsString × JsString
  | [] => ([], [])
  | c :: rest =>
    if c = ':' ∧ insideBrackets = false then ([], rest)
    else
      let (host, port) := hostState (c = '[' || (insideBrackets && c ≠ ']')) rest
      (c :: host, port)

variable (hostParser : JsString → Option η) (page : Origin η)

/-- The credentials, the last `@` included, are passed over. -/
def authorityState (text : JsString) : Option (Origin η) :=
  let authority := text.takeWhile fun c => !endsAuthority c
  let (host, port) := hostState false (authority.rtakeWhile (· ≠ '@'))
  if host = [] then none
  else do
    let host ← hostParser host
    let port ← portState page.https port
    return { https := page.https, host, port }

/-- Any number of slashes may come before the host. -/
def specialAuthorityIgnoreSlashesState (text : JsString) : Option (Origin η) :=
  authorityState hostParser page (text.dropWhile isSlash)

/-- A second slash: the address has a host of its own. -/
def relativeSlashState : JsString → Option (Origin η)
  | [] => some page
  | c :: rest =>
    if isSlash c then specialAuthorityIgnoreSlashesState hostParser page rest else some page

/-- Without a slash at the front the address stays on the host of the page. -/
def relativeState : JsString → Option (Origin η)
  | [] => some page
  | c :: rest => if isSlash c then relativeSlashState hostParser page rest else some page

/-- The origin of the address; `none` when the parser fails. -/
def resolve (address : JsString) : Option (Origin η) :=
  relativeState hostParser page (prepare address)

end Url

/-! ## The submit handlers -/

/-- What `login.js` and `register.js` assign to `window.location.href`. -/
def locationHref (next : Option JsString) : JsString :=
  match next with
  | some ('/' :: rest) => '/' :: rest
  | _ => "/problems.html".toList

end MiniOj.Frontend
