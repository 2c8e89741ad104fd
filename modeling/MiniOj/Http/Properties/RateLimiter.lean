import MiniOj.Http.RateLimiter
import MiniOj.Infra.Meter
import MiniOj.Infra.Transition

/-!
# What the rate limiter allows

A bucket is a meter: its capacity fills at `refill_per_sec`, and an allowed check draws one
token. With the clock read in the order in which checks take the mutex this bounds every
window of time; a check that takes the mutex late lets the same time be credited again.

* `decisions_filter` — a key's decisions are those of a limiter that sees no other key
* `rate_limited` — the bounds on buckets and on every window
* `credited_once_iff` — with concurrent checks, no time is credited twice exactly when no check
  is overtaken by one with a later reading
-/

namespace MiniOj.Http

open Infra RateLimiter

variable {config : Config}

/-! ## One bucket -/

namespace RateLimiter

/-- The settings as those of a meter. -/
def Config.meter (config : Config) : Meter ℚ := ⟨config.capacity, config.refillPerSec⟩

/-- What a check draws. -/
def Decision.drawn (d : Decision) : ℚ := if d.allowed then 1 else 0

/-- Between empty and full. -/
structure Bucket.Within (config : Config) (b : Bucket) : Prop where
  nonneg : 0 ≤ b.tokens
  capped : b.tokens ≤ config.capacity

/-- A new bucket is full. -/
theorem Bucket.full_within (now : ℚ) : (Bucket.full config now).Within config :=
  ⟨Nat.cast_nonneg _, le_refl _⟩

theorem Decision.drawn_nonneg (d : Decision) : 0 ≤ d.drawn := by
  unfold Decision.drawn
  split <;> norm_num

/-- A refill credits no less than nothing and no more than has flowed in. -/
theorem Bucket.refill_spec (hrate : 0 ≤ config.refillPerSec) {b : Bucket} (hb : b.Within config)
    {now : ℚ} (hnow : b.last ≤ now) :
    b.tokens ≤ (b.refill config now).tokens ∧ (b.refill config now).tokens ≤ config.capacity ∧
      (b.refill config now).tokens ≤ b.tokens + config.refillPerSec * (now - b.last) := by
  have hflow : 0 ≤ config.refillPerSec * (now - b.last) :=
    mul_nonneg hrate (sub_nonneg.mpr hnow)
  have hcapped := hb.capped
  unfold Bucket.refill
  dsimp only
  split
  · rw [mul_comm (now - b.last)]
    exact ⟨le_min hcapped (by linarith), min_le_left _ _, min_le_right _ _⟩
  · exact ⟨le_refl _, hcapped, by linarith⟩

/-- A token is taken or it is not. -/
theorem Bucket.take_spec (config : Config) (b : Bucket) (hb : 0 ≤ b.tokens) :
    0 ≤ (b.take config).2.tokens ∧ (b.take config).2.last = b.last ∧
      (b.take config).2.tokens + (b.take config).1.drawn = b.tokens := by
  unfold Bucket.take Decision.drawn
  split
  · next h =>
    refine ⟨sub_nonneg.mpr h, rfl, ?_⟩
    show b.tokens - 1 + (if true then 1 else 0) = b.tokens
    rw [if_pos rfl]
    exact sub_add_cancel b.tokens 1
  · refine ⟨hb, rfl, ?_⟩
    show b.tokens + (if false then 1 else 0) = b.tokens
    rw [if_neg Bool.false_ne_true, add_zero]

/-- The level of a bucket and the time it is of. -/
def Bucket.gauge (b : Bucket) : Gauge ℚ := ⟨b.tokens, b.last⟩

/-- **A check is a draw** from the bucket it finds, or from a full one. -/
theorem Bucket.check_draw (hrate : 0 ≤ config.refillPerSec) (found : Option Bucket) {now : ℚ}
    (hb : (found.getD (.full config now)).Within config)
    (hnow : (found.getD (.full config now)).last ≤ now) :
    config.meter.Draw (found.getD (.full config now)).gauge (Bucket.check config found now).1.drawn
      (Bucket.check config found now).2.gauge ∧ (Bucket.check config found now).2.last = now := by
  obtain ⟨hle, hcap, hflow⟩ := Bucket.refill_spec hrate hb hnow
  obtain ⟨hnonneg, hlast, hsum⟩ := Bucket.take_spec config
    ((found.getD (.full config now)).refill config now) (le_trans hb.nonneg hle)
  have hat : (Bucket.check config found now).2.last = now := hlast
  refine ⟨⟨?_, Decision.drawn_nonneg _, hnonneg, ?_, ?_⟩, hat⟩
  · exact hnow.trans_eq hat.symm
  · exact (le_of_eq hsum).trans hcap
  · refine (le_of_eq hsum).trans ?_
    show _ ≤ _ + config.refillPerSec * ((Bucket.check config found now).2.last - _)
    rw [hat]
    exact hflow

/-- The checks of a single bucket. -/
def Bucket.decisions (config : Config) : Option Bucket → List ℚ → List Decision
  | _, [] => []
  | found, now :: times =>
    (Bucket.check config found now).1 ::
      Bucket.decisions config (some (Bucket.check config found now).2) times

/-- The draws behind decisions made at the given times. -/
def draws (times : List ℚ) (ds : List Decision) : List (ℚ × ℚ) :=
  (times.zip ds).map fun p => (p.1, p.2.drawn)

/-- Checks in the order of their times are draws one after another. -/
theorem Bucket.run_decisions (hrate : 0 ≤ config.refillPerSec) : ∀ {times : List ℚ} {b : Bucket},
    b.Within config → (b.last :: times).Pairwise (· ≤ ·) →
      config.meter.Run b.gauge (draws times (Bucket.decisions config (some b) times))
  | [], b, _, _ => .nil b.gauge
  | now :: times, b, hb, hsorted => by
    obtain ⟨hhead, htail⟩ := List.pairwise_cons.mp hsorted
    obtain ⟨hd, hat⟩ := Bucket.check_draw hrate (some b) hb (hhead now List.mem_cons_self)
    have hb' : (Bucket.check config (some b) now).2.Within config := by
      refine ⟨hd.level_nonneg, le_trans ?_ hd.capped⟩
      exact le_add_of_nonneg_right hd.drawn_nonneg
    have hrest := Bucket.run_decisions hrate hb'
      (show ((Bucket.check config (some b) now).2.last :: times).Pairwise (· ≤ ·) by
        rw [hat]; exact htail)
    have hcons := Meter.Run.cons hd hrest
    rw [show (Bucket.check config (some b) now).2.gauge.time = now from hat] at hcons
    exact hcons

/-- A bucket that is not known yet starts full, so it may as well be there. -/
theorem Bucket.decisions_none (now : ℚ) (times : List ℚ) :
    Bucket.decisions config none (now :: times) =
      Bucket.decisions config (some (.full config now)) (now :: times) := rfl

/-- **In any window, at most the capacity and what has been refilled.** -/
theorem Bucket.drawn_le (hrate : 0 ≤ config.refillPerSec) {times : List ℚ}
    (hsorted : times.Pairwise (· ≤ ·)) {t₁ t₂ : ℚ} (ht : t₁ ≤ t₂) :
    Infra.drawn t₁ t₂ (draws times (Bucket.decisions config none times)) ≤
      config.capacity + config.refillPerSec * (t₂ - t₁) := by
  cases times with
  | nil => exact add_nonneg (Nat.cast_nonneg _) (mul_nonneg hrate (sub_nonneg.mpr ht))
  | cons now times =>
    rw [Bucket.decisions_none]
    have hsorted' : ((Bucket.full config now).last :: now :: times).Pairwise (· ≤ ·) := by
      refine List.pairwise_cons.mpr ⟨fun t hin => ?_, hsorted⟩
      rcases List.mem_cons.mp hin with rfl | hin
      · exact le_refl _
      · exact (List.pairwise_cons.mp hsorted).1 t hin
    exact (Bucket.run_decisions hrate (Bucket.full_within now) hsorted').drawn_le hrate
      (Nat.cast_nonneg _) ht

/-! ## All buckets -/

variable {s : RateLimiter}

/-- Only the bucket of the key changes. -/
theorem check_buckets (s : RateLimiter) (key : Bytes) (now : ℚ) :
    (s.check key now).2.buckets =
      Function.update s.buckets key (some (Bucket.check s.config (s.buckets key) now).2) := rfl

/-- The decisions made for a key. -/
def decisionsFor (key : Bytes) (checks : List Check) (ds : List Decision) : List Decision :=
  ((checks.zip ds).filter fun p => p.1.key = key).map Prod.snd

/-- How many checks of a key are allowed between `t₁` and `t₂`. -/
def allowedIn (key : Bytes) (t₁ t₂ : ℚ) (checks : List Check) (ds : List Decision) : Nat :=
  (checks.zip ds).countP fun p => p.1.key = key ∧ t₁ ≤ p.1.now ∧ p.1.now ≤ t₂ ∧ p.2.allowed

/-- The times at which a key is checked. -/
def timesOf (key : Bytes) (checks : List Check) : List ℚ :=
  (checks.filter fun c => c.key = key).map Check.now

/-- The first decision, and then those after it. -/
theorem decisions_cons (s : RateLimiter) (c : Check) (checks : List Check) :
    s.decisions (c :: checks) = (Bucket.check s.config (s.buckets c.key) c.now).1 ::
      (s.check c.key c.now).2.decisions checks := rfl

/-- **A key sees only its own bucket.** -/
theorem decisionsFor_eq (key : Bytes) : ∀ (s : RateLimiter) (checks : List Check),
    decisionsFor key checks (s.decisions checks) =
      Bucket.decisions s.config (s.buckets key) (timesOf key checks)
  | _, [] => rfl
  | s, c :: checks => by
    have ih := decisionsFor_eq key (s.check c.key c.now).2 checks
    rw [check_buckets] at ih
    unfold decisionsFor timesOf at *
    rw [decisions_cons, List.zip_cons_cons, List.filter_cons, List.filter_cons]
    by_cases hkey : c.key = key
    · subst hkey
      rw [Function.update_self] at ih
      simp only [decide_true, if_true, List.map_cons, Bucket.decisions]
      exact congrArg (_ :: ·) ih
    · rw [Function.update_of_ne (Ne.symm hkey)] at ih
      simp only [hkey, decide_false, Bool.false_eq_true, if_false]
      exact ih

/-- The decisions for a key are those of a limiter that sees no other key. -/
theorem decisions_filter (key : Bytes) (s : RateLimiter) (checks : List Check) :
    decisionsFor key checks (s.decisions checks) =
      s.decisions (checks.filter fun c => c.key = key) := by
  have halone : ∀ (l : List Check) (s : RateLimiter), (∀ c ∈ l, c.key = key) →
      s.decisions l = Bucket.decisions s.config (s.buckets key) (l.map Check.now) := by
    intro l
    induction l with
    | nil => exact fun _ _ => rfl
    | cons c l ih =>
      intro s hl
      have hkey := hl c List.mem_cons_self
      have hrest := ih (s.check c.key c.now).2 fun d hd => hl d (List.mem_cons_of_mem _ hd)
      rw [check_buckets, hkey, Function.update_self] at hrest
      rw [decisions_cons, hkey]
      exact congrArg (_ :: ·) hrest
  rw [decisionsFor_eq, halone _ s fun c hc => of_decide_eq_true (List.mem_filter.mp hc).2]
  rfl

/-- Allowed checks are the tokens drawn. -/
theorem allowedIn_eq (key : Bytes) (t₁ t₂ : ℚ) : ∀ (checks : List Check) (ds : List Decision),
    checks.length = ds.length → (allowedIn key t₁ t₂ checks ds : ℚ) =
      Infra.drawn t₁ t₂ (draws (timesOf key checks) (decisionsFor key checks ds))
  | [], [], _ => rfl
  | c :: checks, d :: ds, h => by
    have ih := allowedIn_eq key t₁ t₂ checks ds (Nat.succ.inj h)
    unfold allowedIn timesOf decisionsFor draws at *
    rw [List.zip_cons_cons, List.countP_cons, List.filter_cons, List.filter_cons, Nat.cast_add, ih]
    by_cases hkey : c.key = key
    · simp only [hkey, decide_true, if_true, List.map_cons, List.zip_cons_cons, Infra.drawn,
        Decision.drawn, true_and]
      rw [add_comm]
      congr 1
      cases d.allowed <;> simp
    · simp [hkey]

/-- Every check is decided. -/
theorem length_decisions : ∀ (s : RateLimiter) (checks : List Check),
    (s.decisions checks).length = checks.length
  | _, [] => rfl
  | s, c :: checks => congrArg (· + 1) (length_decisions (s.check c.key c.now).2 checks)

/-- What holds of every bucket when the next reading is `now` or later. -/
structure Bounded (s : RateLimiter) (checks : List Check) : Prop where
  rate : 0 ≤ s.config.refillPerSec
  within : ∀ key b, s.buckets key = some b → b.Within s.config
  past : ∀ key b, s.buckets key = some b → ∀ c ∈ checks, b.last ≤ c.now
  sorted : checks.Pairwise fun c d => c.now ≤ d.now

/-- What was assumed of the checks holds of those that are left. -/
theorem bounded_check {c : Check} {checks : List Check} (h : Bounded s (c :: checks)) :
    Bounded (s.check c.key c.now).2 checks := by
  obtain ⟨hhead, htail⟩ := List.pairwise_cons.mp h.sorted
  have hfound : ((s.buckets c.key).getD (.full s.config c.now)).Within s.config ∧
      ((s.buckets c.key).getD (.full s.config c.now)).last ≤ c.now := by
    cases hb : s.buckets c.key with
    | none => exact ⟨Bucket.full_within _, le_refl _⟩
    | some b => exact ⟨h.within _ b hb, h.past _ b hb c List.mem_cons_self⟩
  obtain ⟨hd, hat⟩ := Bucket.check_draw h.rate _ hfound.1 hfound.2
  have hkeep : ∀ key b, (s.check c.key c.now).2.buckets key = some b →
      s.buckets key = some b ∨ b = (Bucket.check s.config (s.buckets c.key) c.now).2 := by
    intro key b hb
    rw [check_buckets] at hb
    by_cases hkey : key = c.key
    · subst hkey
      rw [Function.update_self] at hb
      exact Or.inr (Option.some.inj hb).symm
    · rw [Function.update_of_ne hkey] at hb
      exact Or.inl hb
  refine ⟨h.rate, fun key b hb => ?_, fun key b hb d hin => ?_, htail⟩
  · rcases hkeep key b hb with hb | rfl
    · exact h.within key b hb
    · exact ⟨hd.level_nonneg, (le_add_of_nonneg_right hd.drawn_nonneg).trans hd.capped⟩
  · rcases hkeep key b hb with hb | rfl
    · exact h.past key b hb d (List.mem_cons_of_mem _ hin)
    · exact hat.trans_le (hhead d hin)

/-- The buckets stay within their bounds. -/
theorem bounded_after : ∀ {checks : List Check} {s : RateLimiter}, Bounded s checks →
    Bounded (s.after checks) [] ∧ (s.after checks).config = s.config
  | [], s, h => ⟨h, rfl⟩
  | c :: checks, s, h => by
    have hrest := bounded_after (bounded_check h)
    exact hrest

/-- A new limiter has no buckets. -/
theorem bounded_create (hrate : 0 ≤ config.refillPerSec) {checks : List Check}
    (hsorted : checks.Pairwise fun c d => c.now ≤ d.now) : Bounded (create config) checks :=
  ⟨hrate, fun _ _ h => (nomatch h), fun _ _ h => (nomatch h), hsorted⟩

/--
**The limiter holds its bounds.**

Whatever keys are checked, while the readings of the clock do not go back: every bucket stays
between nothing and the capacity, the decisions for a key are those made without the checks of
other keys, and in no window are more checks of a key allowed than the capacity and the refill
of that window.
-/
theorem rate_limited (config : Config) (hrate : 0 ≤ config.refillPerSec) (checks : List Check)
    (hsorted : checks.Pairwise fun c d => c.now ≤ d.now) :
    (∀ key b, ((create config).after checks).buckets key = some b →
      0 ≤ b.tokens ∧ b.tokens ≤ config.capacity) ∧
    (∀ key, decisionsFor key checks ((create config).decisions checks) =
      (create config).decisions (checks.filter fun c => c.key = key)) ∧
    ∀ key t₁ t₂, t₁ ≤ t₂ → (allowedIn key t₁ t₂ checks ((create config).decisions checks) : ℚ) ≤
      config.capacity + config.refillPerSec * (t₂ - t₁) := by
  refine ⟨fun key b hb => ?_, fun key => decisions_filter key _ checks, fun key t₁ t₂ ht => ?_⟩
  · obtain ⟨hbound, hconfig⟩ := bounded_after (bounded_create hrate hsorted)
    obtain ⟨hnonneg, hcapped⟩ := hbound.within key b hb
    rw [hconfig] at hcapped
    exact ⟨hnonneg, hcapped⟩
  · rw [allowedIn_eq key t₁ t₂ checks _ (length_decisions _ checks).symm, decisionsFor_eq]
    refine Bucket.drawn_le hrate ?_ ht
    exact List.pairwise_map.mpr (hsorted.sublist List.filter_sublist)

/-- A bucket of one that fills in two seconds. -/
theorem rate_limited_two_keys :
    let config : Config := ⟨1, 1 / 2⟩
    let checks : List Check := [⟨[97], 0⟩, ⟨[98], 0⟩, ⟨[97], 1⟩, ⟨[97], 2⟩]
    (∀ key b, ((create config).after checks).buckets key = some b →
      0 ≤ b.tokens ∧ b.tokens ≤ config.capacity) ∧
    (∀ key, decisionsFor key checks ((create config).decisions checks) =
      (create config).decisions (checks.filter fun c => c.key = key)) ∧
    ∀ key t₁ t₂, t₁ ≤ t₂ → (allowedIn key t₁ t₂ checks ((create config).decisions checks) : ℚ) ≤
      config.capacity + config.refillPerSec * (t₂ - t₁) :=
  rate_limited ⟨1, 1 / 2⟩ (by norm_num) _ (by simp)

end RateLimiter

/-! ## Concurrent checks -/

namespace SharedLimiter

variable {key : Bytes} {s s' : SharedLimiter}

/-- The tokens credited to the key by the steps of a run. -/
def credited (key : Bytes) : List (SharedLimiter × CheckAction × SharedLimiter) → ℚ
  | [] => 0
  | (s, a, _) :: steps => s.credit key a + credited key steps

/-- `bucket.last` does not move backwards. -/
def LastKept (key : Bytes) (s s' : SharedLimiter) : Prop :=
  ∀ b, s.limiter.buckets key = some b →
    ∃ b', s'.limiter.buckets key = some b' ∧ b.last ≤ b'.last

/-- A check that takes the mutex has a reading no older than the one taken into account last. -/
def InOrder (key : Bytes) (s : SharedLimiter) : CheckAction → Prop
  | .enter i => ∀ now b, s.calls[i]? = some ⟨now, none⟩ → s.limiter.buckets key = some b →
    b.last ≤ now
  | _ => True

/-- A check that enters the lock with the reading it has. -/
theorem step_enter {i : Nat} (h : step key s (.enter i) = some s') :
    ∃ now d, s.calls[i]? = some ⟨now, none⟩ ∧ s'.readings = s.readings ∧ s'.clock = s.clock ∧
      s'.limiter = (s.limiter.check key now).2 ∧ s'.calls = s.calls.set i ⟨now, some d⟩ := by
  simp only [step] at h
  split at h
  · next now hi =>
    cases h
    refine ⟨now, _, hi, ?_, rfl, rfl, rfl⟩
    unfold readings
    rw [List.map_set]
    refine List.ext_getElem? fun j => ?_
    rw [List.getElem?_set, List.length_map, List.getElem?_map]
    split
    · next hj =>
      subst hj
      rw [if_pos (List.getElem?_eq_some_iff.mp hi).1, hi]
      rfl
    · rfl
  · cases h

/-- The bucket of the key after a check with the reading `now`. -/
theorem check_self (l : RateLimiter) (now : ℚ) : (l.check key now).2.buckets key =
    some (Bucket.check l.config (l.buckets key) now).2 := by
  rw [check_buckets, Function.update_self]

/-- A bucket is of the time of its last check, also when that is earlier. -/
theorem last_check (config : Config) (found : Option Bucket) (now : ℚ) :
    (Bucket.check config found now).2.last = now := by
  unfold Bucket.check Bucket.take Bucket.refill
  split <;> rfl

/-- `last` is kept by a check that takes the mutex in order, and by no other. -/
theorem lastKept_iff {a : CheckAction} (h : step key s a = some s') :
    LastKept key s s' ↔ InOrder key s a := by
  cases a with
  | tick elapsed =>
    obtain ⟨-, hs⟩ := Option.ite_none_right_eq_some.mp h
    cases hs
    exact ⟨fun _ => trivial, fun _ b hb => ⟨b, hb, le_refl _⟩⟩
  | readClock =>
    cases h
    exact ⟨fun _ => trivial, fun _ b hb => ⟨b, hb, le_refl _⟩⟩
  | enter i =>
    obtain ⟨now, d, hi, -, -, hlim, -⟩ := step_enter h
    have hlast := last_check s.limiter.config (s.limiter.buckets key) now
    constructor
    · intro hkept now' b hi' hb
      rw [hi] at hi'
      cases hi'
      obtain ⟨b', hb', hle⟩ := hkept b hb
      rw [hlim, check_self, Option.some.injEq] at hb'
      rw [← hb', hlast] at hle
      exact hle
    · intro hord b hb
      refine ⟨_, by rw [hlim, check_self], ?_⟩
      rw [hlast]
      exact hord now b hi hb

/-- What `c` tokens credited so far amount to while checks take the mutex in order: the time
from the first reading to `last`, which is one of the readings. -/
structure Credited (config : Config) (key : Bytes) (c : ℚ) (s : SharedLimiter) : Prop where
  config_eq : s.limiter.config = config
  sorted : s.readings.Pairwise (· ≤ ·)
  past : ∀ t ∈ s.readings, t ≤ s.clock
  fresh : s.limiter.buckets key = none → c = 0
  within : ∀ b, s.limiter.buckets key = some b → b.Within config
  last_mem : ∀ b, s.limiter.buckets key = some b → b.last ∈ s.readings
  bounded : ∀ b first, s.limiter.buckets key = some b → s.readings.head? = some first →
    c ≤ config.refillPerSec * (b.last - first)

/-- The first of a sorted list. -/
theorem head_le {l : List ℚ} (h : l.Pairwise (· ≤ ·)) {first t : ℚ} (hf : l.head? = some first)
    (ht : t ∈ l) : first ≤ t := by
  cases l with
  | nil => cases hf
  | cons a l =>
    cases hf
    rcases List.mem_cons.mp ht with rfl | ht
    · exact le_refl _
    · exact (List.pairwise_cons.mp h).1 t ht

/-- And the last. -/
theorem le_getLast {l : List ℚ} (h : l.Pairwise (· ≤ ·)) {latest t : ℚ}
    (hl : l.getLast? = some latest) (ht : t ∈ l) : t ≤ latest := by
  obtain ⟨l', rfl⟩ := List.getLast?_eq_some_iff.mp hl
  rcases List.mem_append.mp ht with ht | ht
  · exact (List.pairwise_append.mp h).2.2 t ht latest (List.mem_singleton_self _)
  · rw [List.mem_singleton.mp ht]

/-- Reading the clock credits nothing. -/
theorem credited_readClock {c : ℚ} (hI : Credited config key c s)
    (h : step key s .readClock = some s') : Credited config key c s' := by
  cases h
  have hreadings : readings { s with calls := s.calls ++ [{ now := s.clock }] } =
      s.readings ++ [s.clock] := List.map_append
  refine ⟨hI.config_eq, ?_, ?_, hI.fresh, hI.within, ?_, ?_⟩
  · rw [hreadings]
    refine List.pairwise_append.mpr ⟨hI.sorted, List.pairwise_singleton _ _, ?_⟩
    intro t ht u hu
    rw [List.mem_singleton.mp hu]
    exact hI.past t ht
  · rw [hreadings]
    intro t ht
    rcases List.mem_append.mp ht with ht | ht
    · exact hI.past t ht
    · rw [List.mem_singleton.mp ht]
  · intro b hb
    rw [hreadings]
    exact List.mem_append_left _ (hI.last_mem b hb)
  · intro b first hb hf
    -- there was a first reading before, since `last` is one
    have hne := List.ne_nil_of_mem (hI.last_mem b hb)
    rw [hreadings, List.head?_append_of_ne_nil _ hne] at hf
    exact hI.bounded b first hb hf

/-- **A check in order credits what has passed since the last.** -/
theorem credited_enter (hrate : 0 ≤ config.refillPerSec) {c : ℚ} {i : Nat}
    (hI : Credited config key c s) (ha : InOrder key s (.enter i))
    (h : step key s (.enter i) = some s') :
    Credited config key (c + s.credit key (.enter i)) s' := by
  obtain ⟨now, d, hi, hreadings, hclock, hlim, -⟩ := step_enter h
  have hin : now ∈ s.readings := List.mem_map.mpr ⟨_, List.mem_of_getElem? hi, rfl⟩
  have hbucket : s'.limiter.buckets key =
      some (Bucket.check config (s.limiter.buckets key) now).2 := by
    rw [hlim, check_self, hI.config_eq]
  have hfound : ((s.limiter.buckets key).getD (.full config now)).Within config ∧
      ((s.limiter.buckets key).getD (.full config now)).last ≤ now := by
    cases hb : s.limiter.buckets key with
    | none => exact ⟨Bucket.full_within _, le_refl _⟩
    | some b => exact ⟨hI.within b hb, ha now b hi hb⟩
  obtain ⟨hd, hat⟩ := Bucket.check_draw hrate _ hfound.1 hfound.2
  refine ⟨by rw [hlim]; exact hI.config_eq, hreadings ▸ hI.sorted, ?_, ?_, ?_, ?_, ?_⟩
  · rw [hreadings, hclock]
    exact hI.past
  · intro hnone
    rw [hbucket] at hnone
    cases hnone
  · intro b hb
    rw [hbucket, Option.some.injEq] at hb
    subst hb
    exact ⟨hd.level_nonneg, (le_add_of_nonneg_right hd.drawn_nonneg).trans hd.capped⟩
  · intro b hb
    rw [hbucket, Option.some.injEq] at hb
    rw [← hb, hat, hreadings]
    exact hin
  · intro b first hb hf
    rw [hbucket, Option.some.injEq] at hb
    rw [← hb, hat]
    rw [hreadings] at hf
    simp only [credit, hi]
    cases hb : s.limiter.buckets key with
    | none =>
      rw [hI.fresh hb]
      exact (le_of_eq (add_zero 0)).trans
        (mul_nonneg hrate (sub_nonneg.mpr (head_le hI.sorted hf hin)))
    | some b =>
      have hflow := (Bucket.refill_spec hrate (hI.within b hb) (ha now b hi hb)).2.2
      have hbound := hI.bounded b first hb hf
      rw [← hI.config_eq] at hflow hbound ⊢
      dsimp only
      linarith

/-- Every step keeps the account. -/
theorem credited_step (hrate : 0 ≤ config.refillPerSec) {c : ℚ} {a : CheckAction}
    (hI : Credited config key c s) (ha : InOrder key s a) (h : step key s a = some s') :
    Credited config key (c + s.credit key a) s' := by
  cases a with
  | tick elapsed =>
    obtain ⟨hpos, hs⟩ := Option.ite_none_right_eq_some.mp h
    cases hs
    rw [show s.credit key (.tick elapsed) = 0 from rfl, add_zero]
    exact { hI with past := fun t ht => (hI.past t ht).trans (le_add_of_nonneg_right hpos) }
  | readClock =>
    rw [show s.credit key .readClock = 0 from rfl, add_zero]
    exact credited_readClock hI h
  | enter i => exact credited_enter hrate hI ha h

/-- And so does every run. -/
theorem credited_run (hrate : 0 ≤ config.refillPerSec) {as : List CheckAction} : ∀ {c : ℚ}
    {s s' : SharedLimiter}, Credited config key c s → run (step key) s as = some s' →
      (∀ x ∈ history (step key) s as, InOrder key x.1 x.2.1) →
        Credited config key (c + credited key (history (step key) s as)) s' := by
  induction as with
  | nil =>
    intro c s s' hI hr _
    cases hr
    rw [history, credited, add_zero]
    exact hI
  | cons a as ih =>
    intro c s s' hI hr hord
    obtain ⟨t, ht, hr⟩ := run_cons_some.mp hr
    rw [history_cons ht] at hord ⊢
    obtain ⟨ha, hord⟩ := List.forall_mem_cons.mp hord
    have hrest := ih (credited_step hrate hI ha ht) hr hord
    rw [credited, ← add_assoc]
    exact hrest

/-- At the start nothing is credited. -/
theorem credited_create (config : Config) (clock : ℚ) :
    Credited config key 0 (create config clock) :=
  ⟨rfl, List.Pairwise.nil, fun _ h => (nomatch h), fun _ => rfl, fun _ h => (nomatch h),
    fun _ h => (nomatch h), fun _ _ h => (nomatch h)⟩

/-- The credit is that of the time between the first reading and the last. -/
theorem le_span (hrate : 0 ≤ config.refillPerSec) {c : ℚ} (hI : Credited config key c s) :
    c ≤ config.refillPerSec * s.span := by
  unfold span
  split
  · next first latest hf hl =>
    have hmem : latest ∈ s.readings := List.mem_of_getLast? hl
    cases hb : s.limiter.buckets key with
    | none =>
      rw [hI.fresh hb]
      exact mul_nonneg hrate (sub_nonneg.mpr (head_le hI.sorted hf hmem))
    | some b =>
      refine (hI.bounded b first hb hf).trans (mul_le_mul_of_nonneg_left ?_ hrate)
      exact sub_le_sub_right (le_getLast hI.sorted hl (hI.last_mem b hb)) first
  · next hnone =>
    have hnil : s.readings = [] := by
      cases hr : s.readings with
      | nil => rfl
      | cons t l =>
        rw [hr] at hnone
        have hlast := List.getLast?_eq_some_getLast (List.cons_ne_nil t l)
        exact absurd hlast (hnone t ((t :: l).getLast (List.cons_ne_nil t l)) rfl)
    have hfresh : s.limiter.buckets key = none := by
      cases hb : s.limiter.buckets key with
      | none => rfl
      | some b =>
        have := hI.last_mem b hb
        rw [hnil] at this
        cases this
    rw [hI.fresh hfresh, mul_zero]

/-- The steps of a run are steps. -/
theorem step_of_history {as : List CheckAction} : ∀ {s : SharedLimiter},
    ∀ x ∈ history (step key) s as, step key x.1 x.2.1 = some x.2.2 := by
  induction as with
  | nil => exact fun _ hx => (nomatch hx)
  | cons a as ih =>
    intro s x hx
    cases h : step key s a with
    | none =>
      rw [history, h] at hx
      cases hx
    | some s' =>
      rw [history_cons h] at hx
      rcases List.mem_cons.mp hx with rfl | hx
      · exact h
      · exact ih x hx

/--
**No time is credited twice exactly when no check is overtaken.**

For every interleaving of checks on one key: `bucket.last` never moves backwards and the tokens
credited are bounded by the time between the first and the latest reading of the clock, if and
only if each check that takes the mutex has read the clock no earlier than the one before it.
-/
theorem credited_once_iff (config : Config) (hrate : 0 ≤ config.refillPerSec) (key : Bytes)
    (clock : ℚ) (as : List CheckAction) (s : SharedLimiter)
    (h : run (step key) (create config clock) as = some s) :
    ((∀ x ∈ history (step key) (create config clock) as, LastKept key x.1 x.2.2) ∧
      credited key (history (step key) (create config clock) as) ≤
        config.refillPerSec * s.span) ↔
    ∀ x ∈ history (step key) (create config clock) as, InOrder key x.1 x.2.1 := by
  constructor
  · rintro ⟨hkept, -⟩ x hx
    exact (lastKept_iff (step_of_history x hx)).mp (hkept x hx)
  · intro hord
    refine ⟨fun x hx => (lastKept_iff (step_of_history x hx)).mpr (hord x hx), ?_⟩
    have hI := credited_run hrate (credited_create config clock) h hord
    rw [zero_add] at hI
    exact le_span hrate hI

/-- Two checks a second apart, each at once. -/
theorem credited_once_in_order : ∃ s,
    let as : List CheckAction := [.readClock, .enter 0, .tick 1, .readClock, .enter 1]
    run (step [97]) (create ⟨1, 1⟩ 0) as = some s ∧
      (((∀ x ∈ history (step [97]) (create ⟨1, 1⟩ 0) as, LastKept [97] x.1 x.2.2) ∧
        credited [97] (history (step [97]) (create ⟨1, 1⟩ 0) as) ≤ 1 * s.span) ↔
      ∀ x ∈ history (step [97]) (create ⟨1, 1⟩ 0) as, InOrder [97] x.1 x.2.1) :=
  ⟨_, rfl, credited_once_iff ⟨1, 1⟩ (by norm_num) [97] 0 _ _ rfl⟩

/-- Two checks read the clock, a second passes, two more read it. The second check enters after
the third, so that the fourth is credited the same second again: `last` moves back and two
tokens are credited for one second. -/
theorem credited_twice : ¬ ∀ (config : Config) (key : Bytes) (clock : ℚ) (as : List CheckAction)
    (s : SharedLimiter), 0 ≤ config.refillPerSec →
      run (step key) (create config clock) as = some s →
        (∀ x ∈ history (step key) (create config clock) as, LastKept key x.1 x.2.2) ∧
          credited key (history (step key) (create config clock) as) ≤
            config.refillPerSec * s.span := by
  intro h
  obtain ⟨-, hle⟩ := h ⟨1, 1⟩ [97] 0 [.readClock, .readClock, .tick 1, .readClock, .readClock,
    .enter 0, .enter 2, .enter 1, .enter 3] _ (by norm_num) rfl
  exact absurd hle (by decide +kernel)

end SharedLimiter

end MiniOj.Http
