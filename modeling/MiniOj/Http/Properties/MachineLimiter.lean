import MiniOj.Http.MachineLimiter

/-!
# When the arithmetic of the rate limiter is defined

Neither setting of the limiter is tested. A negative capacity becomes a number near `2 ^ 64`, and
a check that is denied divides by the refill rate. With which settings that can go wrong depends on
how few tokens a bucket can have: between none and the capacity for a positive rate, and any
negative number for a negative one.

* `safe_checks` — with a capacity from 0 and a rate above `2 ^ -63` every check is defined
* `drained` — a bucket can be emptied at one instant
* `drains` — with a negative rate it falls as low as one likes
* `arithmeticDefined_iff` — the settings with which nothing goes wrong
-/

namespace MiniOj.Http.MachineLimiter

open Infra

/-- Infinite, or greater than `2 ^ -63`. -/
def Safe (refill : Float64) : Prop :=
  refill = .inf false ∨ ∃ v grid bound, refill = .finite v grid bound ∧ 2 ^ (-63 : ℤ) < v

/-- The limiter computes with the capacity it is given, and every check in every state that it
can get to is defined. -/
structure ArithmeticDefined (capacity refill : Option Bytes) : Prop where
  kept : ((limiterConfig capacity refill).capacity.toNat : ℤ) = (envInt capacity 60).toInt
  checks : ∀ s, Reachable step (· = create (limiterConfig capacity refill)) s →
    ∀ check, ∃ s', step s check = some s'

/-! ## Small integers -/

/-- Numbers up to 2^64 are far from overflow. -/
theorem lt_maxExponent {q : ℚ} (h : q ≤ 2 ^ (64 : ℕ)) : q < 2 ^ binary64.maxExponent := by
  refine lt_of_le_of_lt h ?_
  rw [← zpow_natCast]
  exact zpow_lt_zpow_right₀ one_lt_two (by decide)

theorem lt_maxExponent_of_neg {q : ℚ} (h : q < 0) : q < 2 ^ binary64.maxExponent :=
  lt_maxExponent (h.le.trans (by positivity))

/-- A number of the grid is not rounded. -/
theorem exists_ofRat_eq {q : ℚ} (grid : binary64.Grid q) (h : |q| ≤ 2 ^ (64 : ℕ)) :
    ∃ bound, (Double.ofRat q : Float64) = .finite q grid bound :=
  ⟨lt_maxExponent h, Double.ofRat_of_grid grid (lt_maxExponent h)⟩

/-- Integers up to 2^53 are exact. -/
theorem grid_of_lt {n : ℕ} (h : n ≤ 2 ^ 53) : binary64.Grid n :=
  Double.grid_natCast (by decide) h

theorem grid_one : binary64.Grid 1 := by simpa using grid_of_lt (n := 1) (by decide)

/-- Small integers are what they are. -/
theorem exists_ofNat_eq {n : ℕ} (h : n ≤ 2 ^ 53) :
    ∃ grid bound, (Double.ofRat n : Float64) = .finite n grid bound := by
  refine ⟨grid_of_lt h, exists_ofRat_eq _ ?_⟩
  rw [abs_of_nonneg (by positivity)]
  exact_mod_cast h.trans (by decide)

theorem one_eq : ∃ grid bound, (Double.ofRat 1 : Float64) = .finite 1 grid bound := by
  simpa using exists_ofNat_eq (n := 1) (by decide)

theorem zero_eq : ∃ grid bound, (Double.ofRat 0 : Float64) = .finite 0 grid bound := by
  simpa using exists_ofNat_eq (n := 0) (by decide)

/-! ## One check -/

variable {s s' : MachineLimiter} {key : Bytes} {now : Reading} {config : Config} {b : Bucket}

/-- **A check is defined when each of its conversions is.** -/
theorem step_eq_some : step s (key, now) = some s' ↔ ∃ decision b n,
    ((s.bucket key now).refill s.config now).take s.config = some (decision, b) ∧
    decision.header = some n ∧
    s' = { s with buckets := Function.update s.buckets key (some b) } := by
  simp only [step, Option.bind_eq_bind, Option.bind_eq_some_iff, Prod.exists, Option.pure_def,
    Option.some.injEq, @eq_comm _ _ s']
  tauto

/-- A whole token is there, and is taken. -/
theorem take_allowed (h : (Double.ofRat 1).le b.tokens = true) : b.take config =
    some (⟨true, b.tokens.sub (.ofRat 1), 0⟩, ⟨b.tokens.sub (.ofRat 1), b.last⟩) := if_pos h

/-- The wait for it is told instead. -/
theorem take_denied (h : (Double.ofRat 1).le b.tokens = false) : b.take config =
    (waitSec config b.tokens).map fun wait => (⟨false, b.tokens, max 1 wait⟩, b) :=
  if_neg (by rw [h]; exact Bool.false_ne_true)

/-- What a check does to a bucket with a token. -/
theorem step_allowed (hb : (s.bucket key now).refill s.config now = b)
    (h : (Double.ofRat 1).le b.tokens = true) (hs : step s (key, now) = some s') :
    s'.config = s.config ∧ s'.buckets key = some ⟨b.tokens.sub (.ofRat 1), b.last⟩ := by
  obtain ⟨decision, b', n, htake, -, rfl⟩ := step_eq_some.mp hs
  rw [hb, take_allowed h] at htake
  cases htake
  exact ⟨rfl, Function.update_self ..⟩

/-- What a check does to a bucket without one: the wait is computed, and the bucket refilled. -/
theorem step_denied (hb : (s.bucket key now).refill s.config now = b)
    (h : (Double.ofRat 1).le b.tokens = false) (hs : step s (key, now) = some s') :
    s'.config = s.config ∧ s'.buckets key = some b ∧
      ∃ wait, waitSec s.config b.tokens = some wait := by
  obtain ⟨decision, b', n, htake, -, rfl⟩ := step_eq_some.mp hs
  rw [hb, take_denied h] at htake
  obtain ⟨wait, hwait, heq⟩ := Option.map_eq_some_iff.mp htake
  cases heq
  exact ⟨rfl, Function.update_self .., wait, hwait⟩

theorem bucket_of_some (h : s.buckets key = some b) : s.bucket key now = b := by
  unfold bucket
  rw [h, Option.getD_some]

/-! ## A positive rate -/

theorem Safe.pos {r : Float64} (h : Safe r) : r.Pos := by
  obtain rfl | ⟨v, grid, bound, rfl, hv⟩ := h
  · exact .inl rfl
  · exact .inr ⟨v, grid, bound, rfl, lt_trans (by positivity) hv⟩

theorem Safe.isZero {r : Float64} (h : Safe r) : r.isZero = false := by
  obtain rfl | ⟨v, _, _, rfl, hv⟩ := h
  · rfl
  · exact decide_eq_false (lt_trans (by positivity) hv).ne'

/-- The number of the format that follows `2 ^ -63`. -/
theorem le_of_grid {v : ℚ} (grid : binary64.Grid v) (h : 2 ^ (-63 : ℤ) < v) :
    2 ^ (-63 : ℤ) + 2 ^ (-115 : ℤ) ≤ v := by
  obtain ⟨m, e, rfl, hm, -⟩ := grid
  have hm' : (m : ℚ) < 2 ^ (53 : ℕ) := by exact_mod_cast lt_of_abs_lt hm
  have he : -115 ≤ e := by
    by_contra hlt
    have hpow : (2 : ℚ) ^ e ≤ 2 ^ (-116 : ℤ) := zpow_le_zpow_right₀ one_le_two (by omega)
    have hprod : (m * 2 ^ e : ℚ) ≤ 2 ^ (53 : ℕ) * 2 ^ (-116 : ℤ) :=
      mul_le_mul hm'.le hpow (by positivity) (by positivity)
    rw [← zpow_natCast, ← zpow_add₀ two_ne_zero] at hprod
    exact absurd h (not_lt.mpr hprod)
  -- both are multiples of the last place
  obtain ⟨k, hk⟩ := Int.eq_ofNat_of_zero_le (by omega : 0 ≤ e + 115)
  have hunits : (m * 2 ^ e : ℚ) = ((m * 2 ^ k : ℤ) : ℚ) * 2 ^ (-115 : ℤ) := by
    rw [show e = (k : ℤ) + (-115) by omega, zpow_add₀ two_ne_zero, zpow_natCast]
    push_cast
    ring
  have hunit : (2 : ℚ) ^ (-63 : ℤ) = ((2 ^ 52 : ℤ) : ℚ) * 2 ^ (-115 : ℤ) := by norm_num
  rw [hunits, hunit] at h ⊢
  have hlt : (2 ^ 52 : ℤ) < m * 2 ^ k := by
    exact_mod_cast lt_of_mul_lt_mul_right h (by positivity)
  have hle : ((2 ^ 52 + 1 : ℤ) : ℚ) ≤ ((m * 2 ^ k : ℤ) : ℚ) := by exact_mod_cast hlt
  calc ((2 ^ 52 : ℤ) : ℚ) * 2 ^ (-115 : ℤ) + 2 ^ (-115 : ℤ)
      = ((2 ^ 52 + 1 : ℤ) : ℚ) * 2 ^ (-115 : ℤ) := by push_cast; ring
    _ ≤ _ := mul_le_mul_of_nonneg_right hle (by positivity)

/-- The largest number of the format below `2 ^ 63`. -/
def maxWait : ℤ := 2 ^ 63 - 2 ^ 10

theorem grid_maxWait : binary64.Grid maxWait :=
  ⟨2 ^ 53 - 1, 10, by norm_num [maxWait], by norm_num [binary64], by decide⟩

theorem maxWait_lt : (maxWait : ℚ) < 2 ^ binary64.maxExponent :=
  lt_maxExponent (by norm_num [maxWait])

theorem neg_maxExponent_lt : -(2 : ℚ) ^ binary64.maxExponent < 0 :=
  neg_neg_of_pos (zpow_pos two_pos _)

/-- With a safe rate no deficit of at most one token takes too long. -/
theorem div_bounds {d r : Float64} (hr : Safe r) (h0 : d.Ge 0) (h1 : d.Le 1) :
    (d.div r).Ge 0 ∧ (d.div r).Le maxWait := by
  obtain ⟨v, _, _, rfl, hv, hv'⟩ := Double.eq_finite_of_bounds h1 h0
  have hwait : (0 : ℚ) ≤ maxWait := by norm_num [maxWait]
  obtain rfl | ⟨w, grid, bound, rfl, hw⟩ := hr
  · exact ⟨Double.ofRat_ge FloatFormat.grid_zero neg_maxExponent_lt le_rfl,
      Double.ofRat_le grid_maxWait maxWait_lt hwait⟩
  · have hpos : 0 < w := lt_trans (by positivity) hw
    have hle := le_of_grid grid hw
    have hquot : v / w ≤ maxWait := by
      rw [div_le_iff₀ hpos]
      calc v ≤ 1 := hv'
        _ ≤ (maxWait : ℚ) * (2 ^ (-63 : ℤ) + 2 ^ (-115 : ℤ)) := by norm_num [maxWait]
        _ ≤ maxWait * w := mul_le_mul_of_nonneg_left hle hwait
    unfold Double.div
    dsimp only
    rw [if_neg hpos.ne']
    exact ⟨Double.ofRat_ge FloatFormat.grid_zero neg_maxExponent_lt (div_nonneg hv hpos.le),
      Double.ofRat_le grid_maxWait maxWait_lt hquot⟩

/-- The tokens of a bucket are between none and the capacity. -/
def Within (c : ℕ) (tokens : Float64) : Prop := tokens.Ge 0 ∧ tokens.Le c

theorem one_bounds : (Double.ofRat 1 : Float64).Ge 1 ∧ (Double.ofRat 1 : Float64).Le 1 := by
  obtain ⟨grid, bound, hone⟩ := one_eq
  rw [hone]
  exact ⟨Double.finite_ge le_rfl, Double.finite_le le_rfl⟩

/-- With a safe rate the wait is within the range of the conversion. -/
theorem exists_waitSec {tokens : Float64} (hr : Safe config.refillPerSec) (h0 : tokens.Ge 0)
    (h1 : tokens.Le 1) : ∃ wait, waitSec config tokens = some wait := by
  have hdeficit := Double.add_ge FloatFormat.grid_zero neg_maxExponent_lt one_bounds.1 h1.neg
    (by norm_num)
  have hdeficit' := Double.add_le (r := 1) grid_one (lt_maxExponent (by norm_num)) one_bounds.2
    h0.neg (by norm_num)
  obtain ⟨hge, hle⟩ := div_bounds hr hdeficit hdeficit'
  obtain ⟨v, grid, bound, hceil, hv, hv'⟩ := Double.eq_finite_of_bounds
    (Double.ceil_le grid_maxWait maxWait_lt hle)
    (Double.ceil_ge FloatFormat.grid_zero neg_maxExponent_lt hge)
  have hlt : v < 2 ^ (64 - 1) := lt_of_le_of_lt hv' (by norm_num [maxWait])
  unfold waitSec
  dsimp only [Double.sub]
  rw [if_neg (by rw [hr.isZero]; exact Bool.false_ne_true), hceil]
  exact Double.toSigned_isSome grid bound hv hlt

/-- A refill stays between 0 and the capacity. -/
theorem refill_within (now : Reading) {c : ℕ} (hc : config.capacity.toNat = c) (hcle : c ≤ 2 ^ 53)
    (hr : Safe config.refillPerSec) (ht : Within c b.tokens) :
    Within c (b.refill config now).tokens := by
  obtain ⟨grid, bound, hcap⟩ := exists_ofNat_eq hcle
  obtain ⟨_, _, hzero⟩ := zero_eq
  unfold Bucket.refill
  dsimp only
  rw [hc, hcap]
  split
  · next hlt =>
    rw [hzero] at hlt
    have hpos := Double.mul_ge_zero (Double.pos_of_lt le_rfl hlt) hr.pos
    have hsum := Double.add_ge FloatFormat.grid_zero neg_maxExponent_lt ht.1 hpos (by norm_num)
    have hnonneg : (0 : ℚ) ≤ c := Nat.cast_nonneg c
    exact ⟨Double.min_ge (Double.finite_ge hnonneg) hsum,
      Double.min_le_left (Double.finite_le le_rfl)⟩
  · exact ht

/-- A check of a bucket within its capacity is defined, and leaves it there. -/
theorem exists_take {c : ℕ} (hc : c < 2 ^ 31) (hr : Safe config.refillPerSec)
    (ht : Within c b.tokens) : ∃ decision b' n, b.take config = some (decision, b') ∧
      decision.header = some n ∧ Within c b'.tokens := by
  obtain ⟨v, grid, bound, hb, hv, hv'⟩ := Double.eq_finite_of_bounds ht.2 ht.1
  obtain ⟨_, _, hone⟩ := one_eq
  cases hle : (Double.ofRat 1).le b.tokens with
  | true =>
    have hle' := hle
    rw [hone, hb] at hle'
    have h1 : 1 ≤ v := of_decide_eq_true hle'
    have hge := Double.add_ge FloatFormat.grid_zero neg_maxExponent_lt
      (show b.tokens.Ge 1 by rw [hb]; exact Double.finite_ge h1) one_bounds.2.neg (by norm_num)
    have hle := Double.add_le (r := c) (grid_of_lt (hc.le.trans (by norm_num)))
      (lt_maxExponent (by exact_mod_cast hc.le.trans (by norm_num))) ht.2 one_bounds.1.neg
      (by norm_num)
    obtain ⟨w, grid, bound, hw, h0, hw'⟩ := Double.eq_finite_of_bounds hle hge
    have hlt : w < 2 ^ (32 - 1) := lt_of_le_of_lt hw' (by exact_mod_cast hc)
    obtain ⟨n, hn⟩ := Double.toSigned_isSome grid bound h0 hlt
    refine ⟨_, _, ("X-RateLimit-Remaining", n), take_allowed ‹_›, ?_, hge, hle⟩
    unfold Decision.header Double.sub
    rw [if_pos rfl, hw, hn]
    rfl
  | false =>
    have h1 : b.tokens.Le 1 := by
      rw [hone, hb] at hle
      rw [hb]
      exact Double.finite_le (not_le.mp (of_decide_eq_false hle)).le
    obtain ⟨wait, hwait⟩ := exists_waitSec hr ht.1 h1
    refine ⟨⟨false, b.tokens, max 1 wait⟩, b, ("Retry-After", max 1 wait), ?_, rfl, ht⟩
    rw [take_denied hle, hwait, Option.map_some]

/-- Every bucket is within the capacity. -/
structure Inv (config : Config) (s : MachineLimiter) : Prop where
  config_eq : s.config = config
  within : ∀ key b, s.buckets key = some b → Within config.capacity.toNat b.tokens

/-- A new limiter is within its bounds. -/
theorem inv_create (config : Config) : Inv config (create config) :=
  ⟨rfl, fun _ _ h => nomatch h⟩

/-- **With a safe rate every check is defined and keeps the bounds.** -/
theorem Inv.exists_step (hc : config.capacity.toNat < 2 ^ 31) (hr : Safe config.refillPerSec)
    (h : Inv config s) (check : Bytes × Reading) :
    ∃ s', step s check = some s' ∧ Inv config s' := by
  obtain ⟨key, now⟩ := check
  have hfound : Within config.capacity.toNat (s.bucket key now).tokens := by
    cases hb : s.buckets key with
    | some b =>
      rw [bucket_of_some hb]
      exact h.within key b hb
    | none =>
      obtain ⟨_, _, hcap⟩ := exists_ofNat_eq (n := config.capacity.toNat) (by omega)
      unfold bucket Bucket.full
      rw [hb, h.config_eq, Option.getD_none]
      rw [hcap]
      exact ⟨Double.finite_ge (Nat.cast_nonneg _), Double.finite_le le_rfl⟩
  obtain ⟨decision, b', n, htake, hheader, hwithin⟩ :=
    exists_take hc hr (refill_within now rfl (by omega) hr hfound)
  refine ⟨_, step_eq_some.mpr ⟨decision, b', n, ?_, hheader, rfl⟩, h.config_eq, ?_⟩
  · rw [h.config_eq]
    exact htake
  · intro key' b'' hb''
    by_cases hkey : key' = key
    · subst hkey
      dsimp only at hb''
      rw [Function.update_self] at hb''
      cases hb''
      exact hwithin
    · dsimp only at hb''
      rw [Function.update_of_ne hkey] at hb''
      exact h.within key' b'' hb''

/-- **With a capacity from 0 and a safe rate every check is defined.** -/
theorem safe_checks (hc : config.capacity.toNat < 2 ^ 31) (hr : Safe config.refillPerSec)
    (h : Reachable step (· = create config) s) (check : Bytes × Reading) :
    ∃ s', step s check = some s' := by
  have hinv : Inv config s := by
    refine h.invariant (I := Inv config) ?_ ?_
    · rintro _ rfl
      exact inv_create config
    · intro s check s' hs _ hstep
      obtain ⟨t, ht, hinv⟩ := hs.exists_step hc hr check
      rw [hstep] at ht
      cases ht
      exact hinv
  obtain ⟨s', hs', -⟩ := hinv.exists_step hc hr check
  exact ⟨s', hs'⟩

/-! ## Readings -/

/-- `2 ^ 33` seconds. -/
def late : Reading := ⟨2 ^ 33 * 10 ^ 9, by norm_num⟩

/-- Whole multiples of that time are measured exactly. -/
theorem elapsedSec_eq {last now : Reading} {q : ℚ} (m : ℤ) (hm : |m| ≤ 1)
    (h : (now.val : ℤ) - last.val = m * (2 ^ 33 * 10 ^ 9)) (hq : q = m * 2 ^ 33) :
    ∃ grid bound, elapsedSec last now = .finite q grid bound := by
  subst hq
  have hsmall (a : ℚ) (h0 : 0 ≤ a) (ha : a ≤ 2 ^ (64 : ℕ)) : |m * a| ≤ 2 ^ (64 : ℕ) := by
    have hm' : |(m : ℚ)| ≤ 1 := by exact_mod_cast hm
    rw [abs_mul, abs_of_nonneg h0]
    exact (mul_le_of_le_one_left h0 hm').trans ha
  have hnanos : binary64.Grid ((m * (2 ^ 33 * 10 ^ 9) : ℤ) : ℚ) := by
    refine ⟨m * 5 ^ 9, 42, by push_cast; ring, ?_, by decide⟩
    rw [abs_mul]
    calc |m| * |5 ^ 9| ≤ 1 * |5 ^ 9| := mul_le_mul_of_nonneg_right hm (abs_nonneg _)
      _ < 2 ^ binary64.precision := by decide
  have hsecs : binary64.Grid (m * 2 ^ 33 : ℚ) :=
    ⟨m, 33, by norm_cast, lt_of_le_of_lt hm (by decide), by decide⟩
  obtain ⟨hbound, hn⟩ := exists_ofRat_eq hnanos (by
    rw [Int.cast_mul]
    exact hsmall _ (by positivity) (by norm_num))
  obtain ⟨hbound', hs⟩ := exists_ofRat_eq hsecs (hsmall _ (by positivity) (by norm_num))
  obtain ⟨_, _, hbillion⟩ := exists_ofNat_eq (n := 1000000000) (by decide)
  have hquot : ((m * (2 ^ 33 * 10 ^ 9) : ℤ) : ℚ) / (1000000000 : ℕ) = m * 2 ^ 33 := by
    push_cast
    ring
  refine ⟨hsecs, hbound', ?_⟩
  unfold elapsedSec
  rw [h, hn, show (1000000000 : ℚ) = (1000000000 : ℕ) by norm_num, hbillion]
  unfold Double.div
  dsimp only
  rw [if_neg (by norm_num), hquot, hs]

/-- A bucket is not refilled by a reading that is not later. -/
theorem refill_of_le (m : ℤ) (hm : |m| ≤ 1) (hneg : m ≤ 0)
    (h : (now.val : ℤ) - b.last.val = m * (2 ^ 33 * 10 ^ 9)) :
    b.refill config now = ⟨b.tokens, now⟩ := by
  obtain ⟨grid, bound, helapsed⟩ := elapsedSec_eq m hm h rfl
  obtain ⟨_, _, hzero⟩ := zero_eq
  have hle : (m * 2 ^ 33 : ℚ) ≤ 0 :=
    mul_nonpos_of_nonpos_of_nonneg (by exact_mod_cast hneg) (by positivity)
  unfold Bucket.refill
  dsimp only
  rw [helapsed, hzero, Double.not_lt_of_le (Double.finite_le hle), if_neg Bool.false_ne_true]

/-! ## Emptying a bucket -/

/-- Every check of every run is defined. -/
def AllDefined (config : Config) : Prop :=
  ∀ s, Reachable step (· = create config) s → ∀ check, ∃ s', step s check = some s'

/-- A state of a run whose bucket for the empty key has been refilled at the first reading. -/
structure AtStart (config : Config) (tokens : Float64) (s : MachineLimiter) : Prop where
  reachable : Reachable step (· = create config) s
  config_eq : s.config = config
  bucket_eq : s.bucket [] 0 = ⟨tokens, 0⟩

/-- At the same reading nothing is refilled. -/
theorem AtStart.refill {tokens : Float64} (h : AtStart config tokens s) :
    (s.bucket [] 0).refill s.config 0 = ⟨tokens, 0⟩ := by
  rw [h.bucket_eq]
  exact refill_of_le 0 (by decide) le_rfl (by norm_num)

/-- As many checks at one instant as there are tokens leave none. -/
theorem drained (hall : AllDefined config) (hc : config.capacity.toNat ≤ 2 ^ 53) :
    ∀ n ≤ config.capacity.toNat,
      ∃ s, AtStart config (.ofRat (config.capacity.toNat - n : ℕ)) s := by
  intro n
  induction n with
  | zero => exact fun _ => ⟨create config, .init rfl, rfl, rfl⟩
  | succ n ih =>
    intro hn
    obtain ⟨s, hs⟩ := ih (by omega)
    obtain ⟨m, hm⟩ : ∃ m, config.capacity.toNat - n = m + 1 :=
      ⟨config.capacity.toNat - (n + 1), by omega⟩
    obtain ⟨_, _, htokens⟩ := exists_ofNat_eq (n := m + 1) (by omega)
    obtain ⟨_, _, hone⟩ := one_eq
    have hle : (Double.ofRat 1 : Float64).le (.ofRat (m + 1 : ℕ)) = true := by
      rw [hone, htokens]
      exact decide_eq_true (by push_cast; linarith [Nat.cast_nonneg (α := ℚ) m])
    have hsub : (Double.ofRat (m + 1 : ℕ) : Float64).sub (.ofRat 1) = .ofRat m := by
      rw [hone, htokens]
      exact congrArg Double.ofRat (by push_cast; ring)
    obtain ⟨s', hs'⟩ := hall s hs.reachable ([], 0)
    have hrefill := hs.refill
    rw [hm] at hrefill
    obtain ⟨hconfig, hbucket⟩ := step_allowed hrefill hle hs'
    refine ⟨s', .step _ hs.reachable trivial hs', hconfig.trans hs.config_eq, ?_⟩
    rw [bucket_of_some hbucket, hsub, show config.capacity.toNat - (n + 1) = m by omega]

/-- A check of a bucket without a token, at the first reading. -/
theorem AtStart.denied (hall : AllDefined config) {tokens : Float64} (hs : AtStart config tokens s)
    (h : (Double.ofRat 1).le tokens = false) : (∃ wait, waitSec config tokens = some wait) ∧
      ∃ s', AtStart config tokens s' ∧ s'.buckets [] = some ⟨tokens, 0⟩ := by
  obtain ⟨s', hs'⟩ := hall s hs.reachable ([], 0)
  obtain ⟨hconfig, hbucket, hwait⟩ := step_denied hs.refill h hs'
  rw [hs.config_eq] at hwait hconfig
  exact ⟨hwait, s', ⟨.step _ hs.reachable trivial hs', hconfig, bucket_of_some hbucket⟩, hbucket⟩

/-- Of two more checks without a token the later one refills the bucket, and the other puts its
clock back. -/
theorem AtStart.refilled (hall : AllDefined config) {tokens : Float64}
    (hs : AtStart config tokens s) (h : (Double.ofRat 1).le tokens = false)
    (hrefill : (Bucket.mk tokens 0).refill config late = b)
    (hb : (Double.ofRat 1).le b.tokens = false) : ∃ s', AtStart config b.tokens s' := by
  obtain ⟨-, s₀, hs₀, hstored⟩ := hs.denied hall h
  have hfound : (s₀.bucket [] late).refill s₀.config late = b := by
    rw [bucket_of_some hstored, hs₀.config_eq, hrefill]
  obtain ⟨s₁, hs₁⟩ := hall s₀ hs₀.reachable ([], late)
  obtain ⟨hconfig, hbucket, -⟩ := step_denied hfound hb hs₁
  have hreach : Reachable step (· = create config) s₁ := .step _ hs₀.reachable trivial hs₁
  have hback : (s₁.bucket [] 0).refill s₁.config 0 = ⟨b.tokens, 0⟩ := by
    rw [bucket_of_some hbucket]
    refine refill_of_le (-1) (by decide) (by decide) ?_
    rw [← hrefill]
    rfl
  obtain ⟨s₂, hs₂⟩ := hall s₁ hreach ([], 0)
  obtain ⟨hconfig', hbucket', -⟩ := step_denied hback hb hs₂
  exact ⟨s₂, .step _ hreach trivial hs₂, hconfig'.trans (hconfig.trans hs₀.config_eq),
    bucket_of_some hbucket'⟩

/-! ## Rates that are not safe -/

/-- Below one token nothing is taken. -/
theorem not_le_of_neg {tokens : Float64} {a : ℚ} (h : tokens.Le a) (ha : a ≤ 0) :
    (Double.ofRat 1).le tokens = false := by
  obtain ⟨_, _, hone⟩ := one_eq
  rw [hone]
  exact Double.not_le_of_le h (by linarith)

theorem secs_eq :
    ∃ grid bound, (Double.ofRat (2 ^ 33) : Float64) = .finite (2 ^ 33) grid bound := by
  have hgrid : binary64.Grid (2 ^ 33) := ⟨1, 33, by norm_num, by decide, by decide⟩
  exact ⟨hgrid, exists_ofRat_eq hgrid (by norm_num)⟩

/-- The tokens after `2 ^ 33` seconds. -/
theorem refill_late {tokens : Float64} : ((Bucket.mk tokens 0).refill config late).tokens =
    (Double.ofRat config.capacity.toNat).min
      (tokens.add ((Double.ofRat (2 ^ 33)).mul config.refillPerSec)) := by
  obtain ⟨grid, bound, helapsed⟩ : ∃ grid bound, elapsedSec 0 late = .finite (2 ^ 33) grid bound :=
    elapsedSec_eq 1 (by decide) rfl (by simp)
  obtain ⟨_, _, hsecs⟩ := secs_eq
  obtain ⟨_, _, hzero⟩ := zero_eq
  have hpos : (0 : ℚ) < 2 ^ 33 := by positivity
  unfold Bucket.refill
  dsimp only
  rw [helapsed, hzero, hsecs, Double.lt_of_pos (Double.finite_ge le_rfl) hpos, if_pos rfl]

/-- What that time takes away with a negative rate. -/
theorem mul_late {r : Float64} {k : ℤ} (hk : -1107 ≤ k) (hr : r.Le (-2 ^ k)) :
    ((Double.ofRat (2 ^ 33)).mul r).Le (-2 ^ (33 + k)) := by
  obtain ⟨_, _, hsecs⟩ := secs_eq
  rw [hsecs]
  obtain rfl | ⟨v, _, _, rfl, hv⟩ := hr.cases
  · simp [Double.mul, Double.Le]
  · have hneg : -(2 : ℚ) ^ (33 + k) < 0 := neg_neg_of_pos (by positivity)
    have he : -1074 ≤ 33 + k := by omega
    have hgrid : binary64.Grid (2 ^ (33 + k)) := FloatFormat.grid_zpow he
    refine Double.ofRat_le hgrid.neg (lt_maxExponent_of_neg hneg) ?_
    rw [zpow_add₀ two_ne_zero]
    calc (2 ^ 33 : ℚ) * v ≤ 2 ^ 33 * -2 ^ k := mul_le_mul_of_nonneg_left hv (by positivity)
      _ = -(2 ^ (33 : ℤ) * 2 ^ k) := by rw [mul_neg]; rfl

/-- Small integers are exact at every scale. -/
theorem grid_mul_zpow {n : ℕ} {e : ℤ} (hn : n ≤ 2 ^ 53) (he : -1074 ≤ e) :
    binary64.Grid (n * 2 ^ e) := by
  have hgrid := FloatFormat.grid_of_le (f := binary64) (m := n) (e := e)
    (by rw [Nat.abs_cast]; exact_mod_cast hn) he
  rwa [Int.cast_natCast] at hgrid

/-- With a negative rate a bucket gets as far below zero as one likes. -/
theorem drains (hall : AllDefined config) (hc : config.capacity.toNat ≤ 2 ^ 53) {k : ℤ}
    (hk : -1107 ≤ k) (hr : config.refillPerSec.Le (-2 ^ k)) : ∀ n : ℕ, n ≤ 2 ^ 32 →
      ∃ s tokens, AtStart config tokens s ∧ tokens.Le (-(n * 2 ^ (33 + k))) := by
  intro n
  induction n with
  | zero =>
    intro _
    obtain ⟨s, hs⟩ := drained hall hc _ le_rfl
    rw [Nat.sub_self] at hs
    obtain ⟨_, _, hzero⟩ := exists_ofNat_eq (n := 0) (by decide)
    refine ⟨s, _, hs, ?_⟩
    rw [hzero]
    exact Double.finite_le (by simp)
  | succ n ih =>
    intro hn
    obtain ⟨s, tokens, hs, htokens⟩ := ih (by omega)
    obtain ⟨_, _, hcap⟩ := exists_ofNat_eq hc
    have hq : (0 : ℚ) < 2 ^ (33 + k) := by positivity
    have hgrid := grid_mul_zpow (n := n + 1) (e := 33 + k) (hn.trans (by decide)) (by omega)
    have hneg : -(((n + 1 : ℕ) : ℚ) * 2 ^ (33 + k)) < 0 := neg_neg_of_pos (by positivity)
    have hstep : -(n * 2 ^ (33 + k)) + -2 ^ (33 + k) ≤ -(((n + 1 : ℕ) : ℚ) * 2 ^ (33 + k)) := by
      rw [Nat.cast_succ, add_one_mul, neg_add]
    have hsum := Double.add_le hgrid.neg (lt_maxExponent_of_neg hneg) htokens (mul_late hk hr) hstep
    have hle : ((Bucket.mk tokens 0).refill config late).tokens.Le
        (-(((n + 1 : ℕ) : ℚ) * 2 ^ (33 + k))) := by
      rw [refill_late, hcap]
      exact Double.min_le_right (Double.finite_ge (Nat.cast_nonneg _)) hsum hneg
    have hnonneg : (0 : ℚ) ≤ n * 2 ^ (33 + k) := mul_nonneg (Nat.cast_nonneg n) hq.le
    have hdenied := not_le_of_neg htokens (neg_nonpos.mpr hnonneg)
    have hdenied' := not_le_of_neg hle hneg.le
    obtain ⟨s', hs'⟩ := hs.refilled (b := (Bucket.mk tokens 0).refill config late) hall hdenied rfl
      hdenied'
    exact ⟨s', _, hs', hle⟩

/-- A wait that no `long` can hold. -/
theorem waitSec_eq_none {tokens : Float64} {k : ℤ} {v : ℚ} {grid bound} (hk : -1107 ≤ k)
    (hr : config.refillPerSec = .finite v grid bound) (hneg : v < 0) (hv : -2 ^ (k + 1) < v)
    (ht : tokens.Le (-((2 ^ 32 : ℕ) * 2 ^ (33 + k)))) : waitSec config tokens = none := by
  have hgrid := grid_mul_zpow (n := 2 ^ 32) (e := 33 + k) (by decide) (by omega)
  have hpos : (0 : ℚ) < (2 ^ 32 : ℕ) * 2 ^ (33 + k) := by positivity
  have hdeficit := Double.add_ge hgrid (neg_maxExponent_lt.trans hpos) one_bounds.1 ht.neg
    (by linarith)
  have hgrid64 : binary64.Grid (2 ^ 64) := ⟨1, 64, by norm_num, by decide, by decide⟩
  have hratio : 2 ^ 64 * -v ≤ (2 ^ 32 : ℕ) * 2 ^ (33 + k) := by
    rw [show 33 + k = 32 + (k + 1) by ring, zpow_add₀ two_ne_zero]
    norm_num
    linarith
  have hquot := Double.div_le_neg grid bound hgrid64 (by positivity) hdeficit hneg hratio
  have hceil := Double.ceil_le (n := -2 ^ 64) ⟨-1, 64, by norm_num, by decide, by decide⟩
    (lt_maxExponent (by norm_num)) (by push_cast; exact hquot)
  unfold waitSec
  dsimp only [Double.sub]
  rw [hr]
  split
  · rfl
  · exact Double.toSigned_of_le (hceil.trans (by norm_num))

/-- A conversion out of range leaves the wait undefined. -/
theorem waitSec_of_toSigned {tokens : Float64}
    (h : (((Double.ofRat 1).sub tokens).div config.refillPerSec).ceil.toSigned 64 = none) :
    waitSec config tokens = none := by
  unfold waitSec
  dsimp only
  rw [h, ite_self]

/-- **When every check is defined, checks at one moment empty a bucket.** -/
theorem exists_empty (hall : AllDefined config) (hc : config.capacity.toNat ≤ 2 ^ 53) :
    ∃ s tokens, AtStart config tokens s ∧ ∃ grid bound, tokens = .finite 0 grid bound := by
  obtain ⟨s, hs⟩ := drained hall hc _ le_rfl
  rw [Nat.sub_self] at hs
  exact ⟨s, _, hs, by simpa using zero_eq⟩

/-- With an empty bucket the next check needs the wait. -/
theorem AtStart.waitSec_ne_none (hall : AllDefined config) {tokens : Float64} {a : ℚ}
    (hs : AtStart config tokens s) (h : tokens.Le a) (ha : a ≤ 0) :
    waitSec config tokens ≠ none := by
  obtain ⟨⟨wait, hwait⟩, -⟩ := hs.denied hall (not_le_of_neg h ha)
  rw [hwait]
  exact Option.some_ne_none wait

/-- The rate has to be a number. -/
theorem refillPerSec_ne_nan (hall : AllDefined config) (hc : config.capacity.toNat ≤ 2 ^ 53) :
    config.refillPerSec ≠ .nan := by
  intro hr
  obtain ⟨s, _, hs, _, _, rfl⟩ := exists_empty hall hc
  refine hs.waitSec_ne_none hall (Double.finite_le le_rfl) le_rfl (waitSec_of_toSigned ?_)
  rw [hr, Double.div_nan]
  rfl

/-- An infinite negative rate leaves an infinite deficit, and the wait is `NaN`. -/
theorem refillPerSec_ne_inf (hall : AllDefined config) (hc : config.capacity.toNat ≤ 2 ^ 53) :
    config.refillPerSec ≠ .inf true := by
  intro hr
  obtain ⟨s, tokens, hs, grid, bound, rfl⟩ := exists_empty hall hc
  obtain ⟨_, _, hsecs⟩ := secs_eq
  obtain ⟨_, _, hcap⟩ := exists_ofNat_eq hc
  obtain ⟨_, _, hone⟩ := one_eq
  have hempty : (Double.finite 0 grid bound : Float64).Le 0 := Double.finite_le le_rfl
  obtain ⟨b, hb⟩ : ∃ b, (Bucket.mk (.finite 0 grid bound) 0).refill config late = b := ⟨_, rfl⟩
  have hlost : b.tokens = .inf true := by
    rw [← hb, refill_late, hr, hsecs, hcap]
    simp [Double.mul, Double.add, Double.min, Double.lt]
  have hinf : b.tokens.Le 0 := by
    rw [hlost]
    exact rfl
  obtain ⟨s', hs'⟩ := hs.refilled hall (not_le_of_neg hempty le_rfl) hb (not_le_of_neg hinf le_rfl)
  refine hs'.waitSec_ne_none hall hinf le_rfl (waitSec_of_toSigned ?_)
  rw [hr, hlost, hone]
  rfl

/-- It has to be one that is not negative. -/
theorem refillPerSec_nonneg (hall : AllDefined config) (hc : config.capacity.toNat ≤ 2 ^ 53)
    {v : ℚ} {grid bound} (hr : config.refillPerSec = .finite v grid bound) : 0 ≤ v := by
  by_contra hneg
  have hpos : 0 < -v := by linarith
  -- the rate is between a power of two and its double
  have hlow := Int.zpow_log_le_self (b := 2) one_lt_two hpos
  have hhigh := Int.lt_zpow_succ_log_self (b := 2) one_lt_two (-v)
  push_cast at hlow hhigh
  have hk : -1107 ≤ Int.log 2 (-v) := by
    have hleast := grid.neg.zpow_le hpos
    have hlog : -1074 ≤ Int.log 2 (-v) :=
      (Int.zpow_le_iff_le_log (b := 2) one_lt_two hpos).mp (by exact_mod_cast hleast)
    exact le_trans (by decide) hlog
  have hrate : config.refillPerSec.Le (-2 ^ Int.log 2 (-v)) := by
    rw [hr]
    exact Double.finite_le (by linarith)
  obtain ⟨s, tokens, hs, htokens⟩ := drains hall hc hk hrate (2 ^ 32) le_rfl
  have hbelow : -(((2 ^ 32 : ℕ) : ℚ) * 2 ^ (33 + Int.log 2 (-v))) ≤ 0 :=
    neg_nonpos.mpr (mul_nonneg (Nat.cast_nonneg _) (zpow_nonneg zero_le_two _))
  exact hs.waitSec_ne_none hall htokens hbelow
    (waitSec_eq_none hk hr (by linarith) (by linarith) htokens)

/-- When it is positive it is above 2^-63: below, the wait is out of range. -/
theorem refillPerSec_gt (hall : AllDefined config) (hc : config.capacity.toNat ≤ 2 ^ 53)
    {v : ℚ} {grid bound} (hr : config.refillPerSec = .finite v grid bound) (hv : 0 < v) :
    2 ^ (-63 : ℤ) < v := by
  by_contra hsmall
  obtain ⟨s, tokens, hs, grid', bound', rfl⟩ := exists_empty hall hc
  have hempty : (Double.finite 0 grid' bound' : Float64).Le 0 := Double.finite_le le_rfl
  have hdeficit := Double.add_ge grid_one (neg_maxExponent_lt.trans one_pos) one_bounds.1
    hempty.neg (by norm_num)
  have hgrid : binary64.Grid (2 ^ 63) := ⟨1, 63, by norm_num, by decide, by decide⟩
  have hpow : (0 : ℚ) ≤ 2 ^ 63 := by positivity
  have hratio : 2 ^ 63 * v ≤ 1 := by
    calc (2 : ℚ) ^ 63 * v ≤ 2 ^ 63 * 2 ^ (-63 : ℤ) :=
          mul_le_mul_of_nonneg_left (not_lt.mp hsmall) hpow
      _ ≤ 1 := by norm_num
  have hquot := Double.div_ge grid bound hgrid hpow hdeficit hv hratio
  have hceil := Double.ceil_ge hgrid (neg_maxExponent_lt.trans_le hpow) hquot
  refine hs.waitSec_ne_none hall hempty le_rfl (waitSec_of_toSigned ?_)
  rw [hr]
  exact Double.toSigned_of_ge hceil

/-- **Where every check is defined the rate is safe.** -/
theorem safe_of_allDefined (hall : AllDefined config) (hc : config.capacity.toNat ≤ 2 ^ 53) :
    Safe config.refillPerSec := by
  cases hr : config.refillPerSec with
  | nan => exact absurd hr (refillPerSec_ne_nan hall hc)
  | inf negative =>
    cases negative with
    | false => exact .inl rfl
    | true => exact absurd hr (refillPerSec_ne_inf hall hc)
  | finite v grid bound =>
    rcases (refillPerSec_nonneg hall hc hr).lt_or_eq with hpos | rfl
    · exact .inr ⟨v, grid, bound, rfl, refillPerSec_gt hall hc hr hpos⟩
    · obtain ⟨s, tokens, hs, _, _, rfl⟩ := exists_empty hall hc
      refine absurd ?_ (hs.waitSec_ne_none hall (Double.finite_le le_rfl) le_rfl)
      simp [waitSec, hr, Double.isZero]

/-! ## The settings -/

/-- The capacity of the settings is kept when it is not negative. -/
theorem capacity_eq_iff (n : Int32) : (n.toInt64.toUInt64.toNat : ℤ) = n.toInt ↔ 0 ≤ n.toInt := by
  constructor
  · intro h
    omega
  · intro h
    have hle : 0 ≤ n.toInt64 := by
      rw [Int64.le_iff_toInt_le, Int32.toInt_toInt64]
      exact h
    rw [Int64.toNat_toUInt64_of_le hle, Int64.toNatClampNeg, Int32.toInt_toInt64]
    exact Int.toNat_of_nonneg h

/-- **The arithmetic of the limiter is defined when the capacity is not negative and the rate is
safe, and with no other settings.** -/
theorem arithmeticDefined_iff (capacity refill : Option Bytes) :
    ArithmeticDefined capacity refill ↔
      0 ≤ (envInt capacity 60).toInt ∧ Safe (envDouble refill (.ofRat 1)) := by
  have hbound (h : 0 ≤ (envInt capacity 60).toInt) :
      (limiterConfig capacity refill).capacity.toNat < 2 ^ 31 := by
    have hkept : ((limiterConfig capacity refill).capacity.toNat : ℤ) =
        (envInt capacity 60).toInt := (capacity_eq_iff _).mpr h
    have hlt := (envInt capacity 60).toInt_lt
    omega
  constructor
  · intro h
    have hcapacity := (capacity_eq_iff _).mp h.kept
    have hlt := hbound hcapacity
    exact ⟨hcapacity, safe_of_allDefined h.checks (by omega)⟩
  · rintro ⟨hcapacity, hrefill⟩
    exact ⟨(capacity_eq_iff _).mpr hcapacity, fun s hs check =>
      safe_checks (hbound hcapacity) hrefill hs check⟩

/-- A capacity of `-1` is taken for `2 ^ 64 - 1`. -/
theorem arithmeticDefined_fails : ¬ ArithmeticDefined (some (utf8 "-1")) none := by
  intro h
  have hcapacity := (capacity_eq_iff _).mp h.kept
  revert hcapacity
  decide

end MiniOj.Http.MachineLimiter
