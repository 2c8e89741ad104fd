import MiniOj.Types

/-!
# Names and passwords

`auth/validator.cpp` and `auth/password.cpp`. `crypt(3)` is a parameter.
-/

namespace MiniOj.Auth

open Infra

/-- `std::isalpha`, `std::isdigit` in the C locale. -/
def isAlpha (b : UInt8) : Bool := (65 ≤ b && b ≤ 90) || (97 ≤ b && b ≤ 122)

/-- `std::isdigit` in the C locale. -/
def isDigit (b : UInt8) : Bool := 48 ≤ b && b ≤ 57

/-! ## Validators -/

/-- `throw std::invalid_argument(message)`. -/
def reject {α : Type} (message : String) : Except Exn α := .error (invalidArgument (utf8 message))

/-- The length is checked first. -/
def validateUsername (username : Bytes) : Except Exn Unit :=
  if username.length < 3 || 20 < username.length then
    reject "username must be 3 to 20 characters long"
  else if username.all fun b => isAlpha b || isDigit b || b == 95 then .ok ()
  else reject "username may only contain letters, digits, and underscores"

/-- The length is checked first, and in bytes. -/
def validatePassword (password : Bytes) : Except Exn Unit :=
  if password.length < 8 || 64 < password.length then
    reject "password must be 8 to 64 characters long"
  else if password.any isAlpha && password.any isDigit then .ok ()
  else reject "password must contain at least one letter and one digit"

/-! ## Hashes -/

/-- The library that hashes. -/
structure Crypt where
  /-- `crypt(key, setting)` of two C strings; `none` for a null pointer -/
  crypt : Bytes → Bytes → Option Bytes
  /-- `strerror(errno)` after it -/
  error : Bytes → Bytes → Bytes

/-- What a C function reads of `c_str()`. -/
def cString (s : Bytes) : Bytes := s.takeWhile (· != 0)

/-- `isAcceptableCryptResult`: the result when it is not one of failure. -/
def acceptable : Option Bytes → Option Bytes
  | some (b :: bs) => if b = 42 then none else some (b :: bs)
  | _ => none

/-- Whether hashing the password again gives the hash. -/
def verifyPassword (crypt : Crypt) (password hash : Bytes) : Bool :=
  if hash.isEmpty || 256 < hash.length then false
  else
    match acceptable (crypt.crypt (cString password) (cString hash)) with
    | none => false
    | some result => result == hash

/-- The digits of `toHex`. -/
def hexDigits : Bytes := utf8 "0123456789abcdef"

/-- Two digits for each byte. -/
def toHex (bytes : Bytes) : Bytes :=
  bytes.flatMap fun b => [hexDigits.getD (b.toNat / 16) 0, hexDigits.getD (b.toNat % 16) 0]

theorem length_toHex (bytes : Bytes) : (toHex bytes).length = 2 * bytes.length := by
  induction bytes with
  | nil => rfl
  | cons b bytes ih =>
    have hcons : (toHex (b :: bytes)).length = (toHex bytes).length + 2 := by
      simp [toHex]
    rw [hcons, ih, List.length_cons]
    omega

/-- The setting for 12 rounds of bcrypt, from 16 random bytes. -/
def buildSalt (random : Bytes) : Bytes := utf8 "$2b$12$" ++ toHex random

/-- `hashPassword` once it has its random bytes. -/
def hashPassword (crypt : Crypt) (password random : Bytes) : Except Exn Bytes :=
  let salt := buildSalt random
  match acceptable (crypt.crypt (cString password) salt) with
  | none => .error (runtimeError
      (utf8 "crypt(hash) failed: " ++ crypt.error (cString password) salt))
  | some hash => .ok hash

end MiniOj.Auth
