import MiniOj.Http.Request
import MiniOj.Infra.Separator

/-!
# Request targets

How httplib takes the path and the parameters out of the target of a request line
(`parse_request_line`, `parse_query_text`).
-/

namespace MiniOj.Http

open Infra

/-- The rest of `decode_url(s, true)` when `skip` bytes belong to an escape already decoded. -/
def decodeQueryFrom : Nat → Bytes → Bytes
  | _, [] => []
  | skip + 1, _ :: rest => decodeQueryFrom skip rest
  | 0, b :: rest =>
    if b = 37 then
      match escape rest with
      | some (bytes, length) => bytes ++ decodeQueryFrom length rest
      | none => b :: decodeQueryFrom 0 rest
    else if b = 43 then 32 :: decodeQueryFrom 0 rest
    else b :: decodeQueryFrom 0 rest

/-- `decode_url(s, true)`. -/
def decodeQuery (s : Bytes) : Bytes := decodeQueryFrom 0 s

/-- `split(s, d, fn)`: the pieces that `fn` is called with. -/
def split (d : UInt8) (s : Bytes) : List Bytes :=
  ((s.splitOn d).map trimBlanks).filter fun piece => !piece.isEmpty

/-- `divide(s, d, fn)`: what stands before the first separator and after it. -/
def divide (d : UInt8) (s : Bytes) : Bytes × Bytes :=
  (s.takeWhile (· != d), (s.dropWhile (· != d)).drop 1)

/-- A piece of a query. -/
def parsePair (kv : Bytes) : Option (Bytes × Bytes) :=
  let (key, val) := divide 61 kv
  if key.isEmpty then none else some (decodeQuery key, decodeQuery val)

/-- `parse_query_text`: the parameters in the order in which they are put into the multimap. A
piece that has been there already is left out. -/
def parseQueryText (s : Bytes) : List (Bytes × Bytes) :=
  (split 38 s).eraseDups.filterMap parsePair

/-- The path and the parameters; the fragment is cut off. -/
def parseTarget (target : Bytes) : Bytes × List (Bytes × Bytes) :=
  let (path, query) := divide 63 (target.takeWhile (· != 35))
  (decodeUrl path, parseQueryText query)

example : parseTarget (utf8 "/api/problems?tag=a%2Bb+c&difficulty=easy") =
    (utf8 "/api/problems", [(utf8 "tag", utf8 "a+b c"), (utf8 "difficulty", utf8 "easy")]) := by
  decide

end MiniOj.Http
