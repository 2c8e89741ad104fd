import MiniOj.Http.Handlers
import MiniOj.Infra.Double
import MiniOj.Infra.Transition

/-!
# The rate limiter in machine arithmetic

`http/rate_limit.cpp` and `http/rate_limiter.cpp` once more, with the numbers they compute with:
the settings as they are read from the environment, `double` tokens, 64-bit clock readings, and
the casts to `size_t`, `long` and `int`. A check that divides by zero or casts a number that does
not fit is `none`.
-/

namespace MiniOj.Http

open Infra

/-- `double`. -/
abbrev Float64 := Double binary64

/-! ## Settings -/

/-- `std::stoi`; `none` when it throws. What follows the digits is not looked at. -/
def stoi (text : Bytes) : Option Int32 :=
  let text := text.dropWhile isSpace
  let negative := text.head? == some 45
  let digits := if negative || text.head? == some 43 then text.drop 1 else text
  let (value, count) := readDigits 0 0 digits
  let n : ℤ := if negative then -value else value
  if count = 0 ∨ n < -2 ^ 31 ∨ 2 ^ 31 ≤ n then none else some (.ofInt n)

/-- The value and the number of the digits at the beginning of a text. -/
def readBase (base : Nat) (digit : UInt8 → Option Nat) (value count : Nat) : Bytes → Nat × Nat
  | [] => (value, count)
  | b :: rest =>
    match digit b with
    | some d => readBase base digit (value * base + d) (count + 1) rest
    | none => (value, count)

/-- The value of a decimal digit. -/
def decDigit (b : UInt8) : Option Nat := if Auth.isDigit b then some (b.toNat - 48) else none

/-- Digits that may have a point among them: their value as an integer, the number of those
behind the point, and the rest of the text. -/
def readSignificand (base : Nat) (digit : UInt8 → Option Nat) (text : Bytes) :
    Option (Nat × Nat × Bytes) :=
  let (whole, count) := readBase base digit 0 0 text
  let rest := text.drop count
  let (value, places) :=
    if rest.head? = some 46 then readBase base digit whole 0 (rest.drop 1) else (whole, 0)
  if count + places = 0 then none
  else some (value, places, if rest.head? = some 46 then rest.drop (places + 1) else rest)

/-- The exponent after the letter, which is read only when it has digits. -/
def readExponent (letter : UInt8) (rest : Bytes) : ℤ :=
  if rest.head?.map toLower = some letter then
    let rest := rest.drop 1
    let negative := rest.head? == some 45
    let digits := if negative || rest.head? == some 43 then rest.drop 1 else rest
    let (value, _) := readBase 10 decDigit 0 0 digits
    if negative then -value else value
  else 0

/-- The number that `strtod` reads after white space and a sign. -/
def readNumber (text : Bytes) : Option ℚ :=
  let hex := if (text.take 2).map toLower = utf8 "0x" then
    readSignificand 16 hexDigit (text.drop 2) else none
  match hex with
  | some (value, places, rest) => some (value * 2 ^ (readExponent 112 rest - 4 * places))
  | none =>
    (readSignificand 10 decDigit text).map fun (value, places, rest) =>
      value * 10 ^ (readExponent 101 rest - places)

/-- `std::stod`; `none` when it throws, which it does for an overflow and for a result that is
too small to be exact. -/
def stod (text : Bytes) : Option Float64 :=
  let text := text.dropWhile isSpace
  let negative := text.head? == some 45
  let text := if negative || text.head? == some 43 then text.drop 1 else text
  if (text.take 3).map toLower = utf8 "inf" then some (.inf negative)
  else if (text.take 3).map toLower = utf8 "nan" then some .nan
  else
    (readNumber text).bind fun q =>
      match (Double.ofRat (if negative then -q else q) : Float64) with
      | .finite v grid bound =>
        if |v| ≠ q ∧ |v| < 2 ^ (-1022 : ℤ) then none else some (.finite v grid bound)
      | _ => none

/-- `value` is what `std::getenv` returns. -/
def envInt (value : Option Bytes) (fallback : Int32) : Int32 :=
  match value with
  | none | some [] => fallback
  | some text => (stoi text).getD fallback

/-- As `envInt`, for a `double`. -/
def envDouble (value : Option Bytes) (fallback : Float64) : Float64 :=
  match value with
  | none | some [] => fallback
  | some text => (stod text).getD fallback

/-! ## The limiter -/

namespace MachineLimiter

/-- The settings of the limiter. -/
structure Config where
  capacity : UInt64
  refillPerSec : Float64

/-- The configuration of `limiter()`: `RATE_LIMIT_CAPACITY`, cast to `size_t`, and
`RATE_LIMIT_REFILL_PER_SEC`. -/
def limiterConfig (capacity refill : Option Bytes) : Config where
  capacity := (envInt capacity 60).toInt64.toUInt64
  refillPerSec := envDouble refill (.ofRat 1)

/-- A reading of `steady_clock`: nanoseconds since the machine was started. -/
abbrev Reading := Fin (2 ^ 63)

/-- The answer of a check. -/
structure Decision where
  allowed : Bool
  remaining : Float64
  /-- in seconds -/
  retryAfter : ℤ

/-- The tokens left, and the last reading of the clock. -/
structure Bucket where
  tokens : Float64
  last : Reading

/-- The bucket of a key that is not known yet. -/
def Bucket.full (config : Config) (now : Reading) : Bucket := ⟨.ofRat config.capacity.toNat, now⟩

/-- `std::chrono::duration<double>(now - last).count()`. -/
def elapsedSec (last now : Reading) : Float64 :=
  (Double.ofRat ((now.val : ℤ) - last.val : ℤ)).div (.ofRat 1000000000)

/-- Credit the time since `last`. -/
def Bucket.refill (config : Config) (bucket : Bucket) (now : Reading) : Bucket :=
  let elapsed := elapsedSec bucket.last now
  { tokens :=
      if (Double.ofRat 0).lt elapsed then
        (Double.ofRat config.capacity.toNat).min
          (bucket.tokens.add (elapsed.mul config.refillPerSec))
      else bucket.tokens
    last := now }

/-- Divide the deficit and round it up. -/
def waitSec (config : Config) (tokens : Float64) : Option ℤ :=
  let deficit := (Double.ofRat 1).sub tokens
  if config.refillPerSec.isZero then none
  else (deficit.div config.refillPerSec).ceil.toSigned 64

/-- Take one token if there is one; `none` when the wait does not fit. -/
def Bucket.take (config : Config) (bucket : Bucket) : Option (Decision × Bucket) :=
  if (Double.ofRat 1).le bucket.tokens then
    let bucket := { bucket with tokens := bucket.tokens.sub (.ofRat 1) }
    some (⟨true, bucket.tokens, 0⟩, bucket)
  else
    (waitSec config bucket.tokens).map fun wait => (⟨false, bucket.tokens, max 1 wait⟩, bucket)

/-- The header that `checkRateLimit` sets, and its number. -/
def Decision.header (decision : Decision) : Option (String × ℤ) :=
  if decision.allowed then (decision.remaining.toSigned 32).map ("X-RateLimit-Remaining", ·)
  else some ("Retry-After", decision.retryAfter)

end MachineLimiter

/-- The limiter; a key that was never checked has no bucket. -/
structure MachineLimiter where
  config : MachineLimiter.Config
  buckets : Bytes → Option MachineLimiter.Bucket

namespace MachineLimiter

/-- The constructor. -/
def create (config : Config) : MachineLimiter := ⟨config, fun _ => none⟩

/-- The bucket that a check of the key finds or inserts. -/
def bucket (s : MachineLimiter) (key : Bytes) (now : Reading) : Bucket :=
  (s.buckets key).getD (.full s.config now)

/-- A check and the header for its decision. As `check` reads the clock before it takes the
mutex, checks come in the order of the mutex and their readings in any order. -/
def step (s : MachineLimiter) : Bytes × Reading → Option MachineLimiter
  | (key, now) => do
    let (decision, bucket) ← ((s.bucket key now).refill s.config now).take s.config
    let _ ← decision.header
    return { s with buckets := Function.update s.buckets key (some bucket) }

end MachineLimiter

end MiniOj.Http
