import MiniOj.Frontend.JsString
import MiniOj.Infra.Percent

/-!
# What the pages ask the server for

The query that `problem_list.js` builds, the paths with the id of a problem, and how the browser
makes the target of a request out of an address of the site.
-/

namespace MiniOj.Frontend

open Infra

/-! ## Encoding -/

/-- What `encodeURIComponent` leaves as it is. -/
def isComponentSafe (b : UInt8) : Bool :=
  isAlphanumeric b || (utf8 "-_.!~*'()").contains b

/-- The escapes are those of the bytes in UTF-8. -/
def encodeURIComponent (s : JsString) : Bytes := percentEncode isComponentSafe (encode s)

/-- What `buildQuery` sets with these values in the fields. -/
def listParams (difficulty tag : JsString) : List (Bytes × Bytes) :=
  (if difficulty = [] then [] else [(utf8 "difficulty", encode difficulty)]) ++
    if tag = [] then [] else [(utf8 "tag", encode tag)]

/-- An empty filter is left out. -/
def buildQuery (difficulty tag : JsString) : Bytes :=
  let query := serializeForm (listParams difficulty tag)
  if query = [] then [] else 63 :: query

/-- The address from which `problem_list.js` fetches the list. -/
def listAddress (difficulty tag : JsString) : Bytes :=
  utf8 "/api/problems" ++ buildQuery difficulty tag

/-- The address of a problem that `admin_edit.js` and `admin_list.js` use. -/
def adminProblemAddress (problemId : JsString) : Bytes :=
  utf8 "/api/admin/problems/" ++ encodeURIComponent problemId

/-- `params.get(name)` of the query of the page. -/
def searchParam (search : Bytes) (name : String) : Option Bytes :=
  ((parseForm search).find? fun p => p.1 == utf8 name).map Prod.snd

/-! ## The path of an address -/

/-- ASCII letters without their case. -/
def lower (b : UInt8) : UInt8 := if 65 ≤ b ∧ b ≤ 90 then b + 32 else b

/-- A segment that the parser leaves out. -/
def isSingleDot (segment : Bytes) : Bool :=
  segment.map lower == utf8 "." || segment.map lower == utf8 "%2e"

/-- A segment that takes the one before it away. -/
def isDoubleDot (segment : Bytes) : Bool :=
  segment.map lower == utf8 ".." || segment.map lower == utf8 ".%2e" ||
    segment.map lower == utf8 "%2e." || segment.map lower == utf8 "%2e%2e"

/-- The path state of the URL parser on the segments of a path, after those in `done`. -/
def pathState (done : List Bytes) : List Bytes → List Bytes
  | [] => done
  | segment :: rest =>
    let last := if rest = [] then [[]] else []
    if isDoubleDot segment then pathState (done.dropLast ++ last) rest
    else if isSingleDot segment then pathState (done ++ last) rest
    else pathState (done ++ [segment]) rest

/-- The target of a request for an address that begins with a slash and is made of characters
that no part of an address has to be encoded for. -/
def requestTarget (address : Bytes) : Bytes :=
  let path := address.takeWhile (· != 63)
  (pathState [] ((path.drop 1).splitOn 47)).flatMap (47 :: ·) ++ address.dropWhile (· != 63)

example : requestTarget (utf8 "/api/problems/..?id=1") = utf8 "/api/?id=1" := by decide

end MiniOj.Frontend
