import Mathlib.Algebra.Group.Nat.Defs
import Mathlib.Data.Rat.Defs
import MiniOj.Types

/-!
# JSON values

`Json::Value` as the request parsers use it: its kinds, member access and integer conversions.
A number that fits is held as `Int64` or `UInt64`, any other as a double, which is a rational
number here.
-/

namespace MiniOj

open Infra

/-- A value as jsoncpp holds it. -/
inductive Json where
  | null
  | bool (value : Bool)
  | int (value : Int64)
  | uint (value : UInt64)
  | real (value : Rat)
  | string (value : Bytes)
  | array (items : List Json)
  /-- one entry for each key -/
  | object (members : List (Bytes × Json))
  deriving Repr

namespace Json

/-- `isMember(key)` and `operator[](key)` on an object. -/
def member? (body : Json) (key : String) : Option Json :=
  match body with
  | object members => (members.find? fun m => m.1 == utf8 key).map Prod.snd
  | _ => none

/-- Only an object has members. -/
def isObject : Json → Bool
  | object _ => true
  | _ => false

/-- Integers, and doubles with an integral value in the range of the 64-bit types. -/
def isIntegral : Json → Bool
  | int _ => true
  | uint _ => true
  | real x => x.den == 1 && -2 ^ 63 ≤ x && x < 2 ^ 64
  | _ => false

/-- `Json::LogicError`. -/
def logicError (message : String) : Exn := ⟨.jsonLogicError, utf8 message⟩

/-- A double loses what is behind the point. -/
def asInt64 : Json → Except Exn Int
  | null => .ok 0
  | bool b => .ok b.toInt
  | int n => .ok n.toInt
  | uint n =>
    if n.toNat < 2 ^ 63 then .ok n.toNat else .error (logicError "LargestUInt out of Int64 range")
  | real x =>
    if -2 ^ 63 ≤ x ∧ x < 2 ^ 63 then .ok (x.num.tdiv x.den)
    else .error (logicError "double out of Int64 range")
  | _ => .error (logicError "Value is not convertible to Int64.")

/-- The same for numbers without a sign. -/
def asUInt64 : Json → Except Exn UInt64
  | null => .ok 0
  | bool b => .ok b.toUInt64
  | int n =>
    if 0 ≤ n.toInt then .ok (.ofNat n.toInt.toNat)
    else .error (logicError "LargestInt out of UInt64 range")
  | uint n => .ok n
  | real x =>
    if 0 ≤ x ∧ x < 2 ^ 64 then .ok (.ofNat (x.num.tdiv x.den).toNat)
    else .error (logicError "double out of UInt64 range")
  | _ => .error (logicError "Value is not convertible to UInt64.")

end Json

end MiniOj
