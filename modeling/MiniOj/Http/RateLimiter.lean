import Mathlib.Algebra.Order.Field.Rat
import Mathlib.Data.Rat.Floor
import Mathlib.Logic.Function.Basic
import MiniOj.Infra.Bytes

/-!
# The rate limiter

`RateLimiter` (`http/rate_limiter.cpp`): one token bucket for each key, refilled lazily by the
next `check`. Numbers and times are exact; a time is a reading of `steady_clock` in seconds.

`check` reads the clock before it takes the mutex. `SharedLimiter` keeps the two apart: any
number of threads are inside `check` on one key.
-/

namespace MiniOj.Http

open Infra

namespace RateLimiter

/-- The size of the buckets, and the tokens they get back in a second. -/
structure Config where
  capacity : Nat := 30
  refillPerSec : ℚ := 1 / 2
  deriving DecidableEq, Repr

/-- The answer of `check`. -/
structure Decision where
  allowed : Bool
  remaining : ℚ
  /-- in seconds -/
  retryAfter : Int
  deriving DecidableEq, Repr

/-- The tokens left, and the last reading of the clock. -/
structure Bucket where
  tokens : ℚ
  last : ℚ
  deriving DecidableEq, Repr

/-- The bucket of a key that is not known yet. -/
def Bucket.full (config : Config) (now : ℚ) : Bucket := ⟨config.capacity, now⟩

/-- Credit the time since `last`. A reading older than `last` credits nothing but is kept. -/
def Bucket.refill (config : Config) (bucket : Bucket) (now : ℚ) : Bucket :=
  let elapsed := now - bucket.last
  { tokens :=
      if 0 < elapsed then min (config.capacity : ℚ) (bucket.tokens + elapsed * config.refillPerSec)
      else bucket.tokens
    last := now }

/-- Take one token if there is one. Without any refill the wait is infinite, and the cast to
`long` undefined; it is 1 here. -/
def Bucket.take (config : Config) (bucket : Bucket) : Decision × Bucket :=
  if 1 ≤ bucket.tokens then
    let bucket := { bucket with tokens := bucket.tokens - 1 }
    (⟨true, bucket.tokens, 0⟩, bucket)
  else
    let deficit := 1 - bucket.tokens
    (⟨false, bucket.tokens, max 1 (Rat.ceil (deficit / config.refillPerSec))⟩, bucket)

/-- What `check` does to the bucket it finds or inserts. -/
def Bucket.check (config : Config) (found : Option Bucket) (now : ℚ) : Decision × Bucket :=
  ((found.getD (.full config now)).refill config now).take config

end RateLimiter

open RateLimiter

/-- The limiter; a key that was never checked has no bucket. -/
structure RateLimiter where
  config : Config
  buckets : Bytes → Option Bucket

namespace RateLimiter

/-- The constructor. -/
def create (config : Config) : RateLimiter := ⟨config, fun _ => none⟩

/-- The part of `check` under the mutex, for a call that has read the clock at `now`. -/
def check (s : RateLimiter) (key : Bytes) (now : ℚ) : Decision × RateLimiter :=
  let (decision, bucket) := Bucket.check s.config (s.buckets key) now
  (decision, { s with buckets := Function.update s.buckets key (some bucket) })

/-- All buckets are forgotten. -/
def reset (s : RateLimiter) : RateLimiter := { s with buckets := fun _ => none }

/-! ## Calls one after another -/

/-- A call of `check`, with the reading of the clock it makes. -/
structure Check where
  key : Bytes
  now : ℚ
  deriving DecidableEq, Repr

/-- The answers to a list of checks. -/
def decisions : RateLimiter → List Check → List Decision
  | _, [] => []
  | s, c :: checks => (s.check c.key c.now).1 :: decisions (s.check c.key c.now).2 checks

/-- The limiter after a list of checks. -/
def after : RateLimiter → List Check → RateLimiter
  | s, [] => s
  | s, c :: checks => after (s.check c.key c.now).2 checks

end RateLimiter

/-! ## Calls at the same time -/

/-- A call of `check` that has read the clock, and its decision when it has returned. -/
structure CheckCall where
  now : ℚ
  decision : Option Decision := none
  deriving DecidableEq, Repr

/-- A limiter shared by threads that all check one key. -/
structure SharedLimiter where
  clock : ℚ
  limiter : RateLimiter
  /-- every call ever made, in the order in which they read the clock -/
  calls : List CheckCall

/-- A step of the clock or of one of the threads. -/
inductive CheckAction where
  /-- time passes -/
  | tick (elapsed : ℚ)
  /-- a call begins: `steady_clock::now()` -/
  | readClock
  /-- a call takes the mutex, decides and returns -/
  | enter (call : Nat)
  deriving DecidableEq, Repr

namespace SharedLimiter

/-- A limiter that nobody has called yet. -/
def create (config : Config) (clock : ℚ) : SharedLimiter := ⟨clock, .create config, []⟩

/-- A step; `enter` is for a call that has not returned. -/
def step (key : Bytes) (s : SharedLimiter) : CheckAction → Option SharedLimiter
  | .tick elapsed => if 0 ≤ elapsed then some { s with clock := s.clock + elapsed } else none
  | .readClock => some { s with calls := s.calls ++ [{ now := s.clock }] }
  | .enter i =>
    match s.calls[i]? with
    | some ⟨now, none⟩ =>
      let (decision, limiter) := s.limiter.check key now
      some { s with limiter, calls := s.calls.set i ⟨now, some decision⟩ }
    | _ => none

/-- The tokens that an action credits to the key. A new bucket starts full and is credited
nothing. -/
def credit (key : Bytes) (s : SharedLimiter) : CheckAction → ℚ
  | .enter i =>
    match s.calls[i]?, s.limiter.buckets key with
    | some ⟨now, none⟩, some bucket =>
      (bucket.refill s.limiter.config now).tokens - bucket.tokens
    | _, _ => 0
  | _ => 0

/-- The readings of the clock, the oldest first. -/
def readings (s : SharedLimiter) : List ℚ := s.calls.map CheckCall.now

/-- The time between the first reading of the clock and the latest. -/
def span (s : SharedLimiter) : ℚ :=
  match s.readings.head?, s.readings.getLast? with
  | some first, some latest => latest - first
  | _, _ => 0

end SharedLimiter

end MiniOj.Http
