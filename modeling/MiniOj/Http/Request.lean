import MiniOj.Http.Json

/-!
# Requests and responses

What the handlers read of `httplib::Request` and write to `httplib::Response`, and how httplib
makes a header value out of the text on the wire.
-/

namespace MiniOj.Http

open Infra

/-! ## Letters -/

/-- `std::tolower` in the C locale. -/
def toLower (b : UInt8) : UInt8 := if 65 ≤ b ∧ b ≤ 90 then b + 32 else b

/-- `iequals`, `equalsIgnoreCase` and the comparison of header names. -/
def iequals (a b : Bytes) : Bool := a.map toLower == b.map toLower

/-- A blank or a tab. -/
def isBlank (b : UInt8) : Bool := b == 32 || b == 9

/-- Without the blanks at the front. -/
def dropBlanks (s : Bytes) : Bytes := s.dropWhile isBlank

/-- Without the blanks at both ends. -/
def trimBlanks (s : Bytes) : Bytes := (dropBlanks (dropBlanks s).reverse).reverse

/-! ## Percent escapes -/

/-- `is_hex`. -/
def hexDigit (b : UInt8) : Option Nat :=
  if 48 ≤ b ∧ b ≤ 57 then some (b.toNat - 48)
  else if 65 ≤ b ∧ b ≤ 70 then some (b.toNat - 55)
  else if 97 ≤ b ∧ b ≤ 102 then some (b.toNat - 87)
  else none

/-- `from_hex_to_i`: the value of the first `count` digits. -/
def fromHex : Nat → Nat → Bytes → Option Nat
  | 0, value, _ => some value
  | _ + 1, _, [] => none
  | count + 1, value, b :: rest => (hexDigit b).bind fun v => fromHex count (value * 16 + v) rest

/-- `to_utf8` of a code of four digits. -/
def toUtf8 (code : Nat) : Bytes :=
  let continuation (n : Nat) : UInt8 := .ofNat (0x80 + n % 64)
  if code < 0x80 then [.ofNat code]
  else if code < 0x800 then [.ofNat (0xC0 + code / 64), continuation code]
  else if 0xD800 ≤ code ∧ code < 0xE000 then []
  else [.ofNat (0xE0 + code / 4096), continuation (code / 64), continuation code]

/-- What the text after a `%` stands for, and how much of it belongs to the escape. -/
def escape : Bytes → Option (Bytes × Nat)
  | 117 :: digits => (fromHex 4 0 digits).map fun code => (toUtf8 code, 5)
  | digits => (fromHex 2 0 digits).map fun code => ([.ofNat code], 2)

/-- The rest of `decode_url(s, false)` when `skip` bytes belong to an escape already decoded. -/
def decodeUrlFrom : Nat → Bytes → Bytes
  | _, [] => []
  | skip + 1, _ :: rest => decodeUrlFrom skip rest
  | 0, b :: rest =>
    if b = 37 then
      match escape rest with
      | some (bytes, length) => bytes ++ decodeUrlFrom length rest
      | none => b :: decodeUrlFrom 0 rest
    else b :: decodeUrlFrom 0 rest

/-- `decode_url(s, false)`. -/
def decodeUrl (s : Bytes) : Bytes := decodeUrlFrom 0 s

example : decodeUrl (utf8 "%41%zz%u00e9%2") = utf8 "A%zzé%2" := by decide

/-- `parse_header`: the value of a header line that has `text` after the colon. A request with a
CR, LF or NUL in a value is answered with 400. -/
def parseHeaderValue (text : Bytes) : Option Bytes :=
  let value := decodeUrl (trimBlanks text)
  if value.any fun b => b == 13 || b == 10 || b == 0 then none else some value

/-! ## Requests -/

/-- `httplib::Request`. -/
structure Request where
  method : Bytes
  /-- decoded, without the query -/
  path : Bytes
  params : List (Bytes × Bytes) := []
  /-- names and values; of headers with one name the one found by `find` is listed first -/
  headers : List (Bytes × Bytes) := []
  body : Bytes := []
  remoteAddr : Bytes
  deriving DecidableEq, Repr

namespace Request

variable (req : Request)

/-- The value of a header, whose name is found without regard to case. -/
def header? (name : String) : Option Bytes :=
  (req.headers.find? fun h => iequals h.1 (utf8 name)).map Prod.snd

/-- `get_header_value(name)`. -/
def getHeaderValue (name : String) : Bytes := (req.header? name).getD []

theorem getHeaderValue_of_head {req : Request} {name : String} {n value : Bytes}
    {rest : List (Bytes × Bytes)} (h : req.headers = (n, value) :: rest)
    (hn : iequals n (utf8 name) = true) : req.getHeaderValue name = value := by
  unfold getHeaderValue header?
  rw [h, List.find?_cons]
  dsimp only
  rw [hn]
  rfl

/-- The value of a parameter of the query. -/
def param? (name : String) : Option Bytes :=
  (req.params.find? fun p => p.1 == utf8 name).map Prod.snd

end Request

/-! ## Responses -/

/-- `httplib::Response`. -/
structure Response where
  status : Nat
  headers : List (String × Bytes) := []
  /-- `serializeJson` of this value -/
  body : Option Json := none
  deriving Repr

/-- `writeJson(res, status, body)`. -/
def writeJson (status : Nat) (body : Json) : Response := { status, body := some body }

/-- `writeError(res, status, message)`. -/
def writeError (status : Nat) (message : Bytes) : Response :=
  writeJson status (.object [(utf8 "error", .string message)])

end MiniOj.Http
