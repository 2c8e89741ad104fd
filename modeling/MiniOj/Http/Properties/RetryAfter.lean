import MiniOj.Http.Properties.RateLimiter

/-!
# When a refused client may come back

A bucket that nobody draws from fills in a straight line. A denied check brings the bucket up to
date and leaves it on the same line; an allowed one moves it to a lower line. So the wait that
the denial announced is right, whatever is checked in between.

* `Bucket.allowed_iff` — a check is allowed when the line has reached one token
* `retry_after_kept` — the wait is long enough, and without its last second it is too short
-/

namespace MiniOj.Http

open Infra RateLimiter

variable {config : Config}

namespace RateLimiter

/-! ## The line of a bucket -/

/-- What the bucket would hold at a time, without any cap, if nothing was taken from it. -/
def Bucket.filled (config : Config) (b : Bucket) (t : ℚ) : ℚ :=
  b.tokens + config.refillPerSec * (t - b.last)

/-- A refill moves the bucket along its line, up to the capacity. -/
theorem Bucket.refill_tokens (config : Config) {b : Bucket} {now : ℚ} (hnow : b.last ≤ now) :
    (b.refill config now).tokens = min (config.capacity : ℚ) (b.filled config now) ∨
      (b.refill config now).tokens = b.filled config now := by
  unfold Bucket.refill Bucket.filled
  dsimp only
  split
  · exact Or.inl (by rw [mul_comm])
  · next hpos =>
    have hzero : now - b.last = 0 := le_antisymm (not_lt.mp hpos) (sub_nonneg.mpr hnow)
    exact Or.inr (by rw [hzero, mul_zero, add_zero])

theorem Bucket.refill_le_filled {b : Bucket} {now : ℚ} (hnow : b.last ≤ now) :
    (b.refill config now).tokens ≤ b.filled config now := by
  rcases Bucket.refill_tokens config hnow with h | h
  · exact h.trans_le (min_le_right _ _)
  · exact h.le

/-- Up to one token the cap does not matter. -/
theorem Bucket.one_le_refill_iff (hcap : 1 ≤ config.capacity) {b : Bucket} {now : ℚ}
    (hnow : b.last ≤ now) : 1 ≤ (b.refill config now).tokens ↔ 1 ≤ b.filled config now := by
  rcases Bucket.refill_tokens config hnow with h | h
  · rw [h, le_min_iff]
    exact ⟨fun hle => hle.2, fun hle => ⟨Nat.one_le_cast.mpr hcap, hle⟩⟩
  · rw [h]

/-- Short of one token a refill lands on the line. -/
theorem Bucket.refill_eq_filled (hcap : 1 ≤ config.capacity) {b : Bucket} {now : ℚ}
    (hnow : b.last ≤ now) (hlt : (b.refill config now).tokens < 1) :
    (b.refill config now).tokens = b.filled config now := by
  rcases Bucket.refill_tokens config hnow with h | h
  · have hle : b.filled config now < 1 :=
      not_le.mp fun hle => absurd ((Bucket.one_le_refill_iff hcap hnow).mpr hle) (not_le.mpr hlt)
    rw [h]
    exact min_eq_right (hle.le.trans (Nat.one_le_cast.mpr hcap))
  · exact h

theorem Bucket.take_allowed (config : Config) (b : Bucket) :
    (b.take config).1.allowed = true ↔ 1 ≤ b.tokens := by
  unfold Bucket.take
  split
  · next h => exact ⟨fun _ => h, fun _ => rfl⟩
  · next h => exact ⟨fun h' => absurd h' Bool.false_ne_true, fun h' => absurd h' h⟩

theorem Bucket.take_le (config : Config) (b : Bucket) : (b.take config).2.tokens ≤ b.tokens := by
  unfold Bucket.take
  split
  · exact sub_le_self _ zero_le_one
  · exact le_refl _

/-- A denial takes nothing, and waits for what is missing. -/
theorem Bucket.take_denied {b : Bucket} (h : (b.take config).1.allowed = false) :
    b.tokens < 1 ∧ (b.take config).2 = b ∧ (b.take config).1.retryAfter =
      max 1 (Rat.ceil ((1 - (b.take config).2.tokens) / config.refillPerSec)) := by
  have hlt : b.tokens < 1 :=
    not_le.mp fun hle => absurd ((Bucket.take_allowed config b).mpr hle) (by rw [h]; decide)
  unfold Bucket.take
  rw [if_neg (not_le.mpr hlt)]
  exact ⟨hlt, rfl, rfl⟩

/-- **A check is allowed when the line has reached one token.** -/
theorem Bucket.allowed_iff (hcap : 1 ≤ config.capacity) {b : Bucket} {now : ℚ}
    (hnow : b.last ≤ now) :
    (Bucket.check config (some b) now).1.allowed = true ↔ 1 ≤ b.filled config now :=
  (Bucket.take_allowed config _).trans (Bucket.one_le_refill_iff hcap hnow)

/-! ## Checks move a bucket down, or along its line -/

theorem Bucket.filled_of_last (b : Bucket) (config : Config) {now : ℚ} (t : ℚ)
    (hlast : b.last = now) : b.filled config t = b.tokens + config.refillPerSec * (t - now) := by
  rw [Bucket.filled, hlast]

theorem Bucket.check_filled_le {b : Bucket} {now : ℚ} (hnow : b.last ≤ now) (t : ℚ) :
    (Bucket.check config (some b) now).2.filled config t ≤ b.filled config t := by
  have hle : (Bucket.check config (some b) now).2.tokens ≤ b.filled config now :=
    (Bucket.take_le config _).trans (Bucket.refill_le_filled hnow)
  rw [Bucket.filled_of_last _ config t (SharedLimiter.last_check config (some b) now)]
  unfold Bucket.filled at hle ⊢
  linarith

theorem Bucket.check_filled_denied (hcap : 1 ≤ config.capacity) {b : Bucket} {now : ℚ}
    (hnow : b.last ≤ now) (hdenied : (Bucket.check config (some b) now).1.allowed = false)
    (t : ℚ) : (Bucket.check config (some b) now).2.filled config t = b.filled config t := by
  obtain ⟨hlt, hsame, -⟩ := Bucket.take_denied hdenied
  have heq : (Bucket.check config (some b) now).2.tokens = b.filled config now := by
    rw [← Bucket.refill_eq_filled hcap hnow hlt]
    exact congrArg Bucket.tokens hsame
  rw [Bucket.filled_of_last _ config t (SharedLimiter.last_check config (some b) now), heq]
  unfold Bucket.filled
  linarith

/-- The bucket after checks at the given times. -/
def Bucket.after (config : Config) : Bucket → List ℚ → Bucket
  | b, [] => b
  | b, now :: times => Bucket.after config (Bucket.check config (some b) now).2 times

theorem Bucket.after_last (config : Config) : ∀ {times : List ℚ} {b : Bucket} {t : ℚ}, b.last ≤ t →
    (∀ u ∈ times, u ≤ t) → (b.after config times).last ≤ t
  | [], _, _, hb, _ => hb
  | now :: times, b, t, _, htimes => by
    obtain ⟨hnow, hrest⟩ := List.forall_mem_cons.mp htimes
    have hlast := SharedLimiter.last_check config (some b) now
    have ih := Bucket.after_last config (hlast.trans_le hnow) hrest
    exact ih

theorem Bucket.after_filled_le (t : ℚ) : ∀ {times : List ℚ} {b : Bucket},
    (b.last :: times).Pairwise (· ≤ ·) → (b.after config times).filled config t ≤ b.filled config t
  | [], _, _ => le_refl _
  | now :: times, b, hsorted => by
    obtain ⟨hhead, htail⟩ := List.pairwise_cons.mp hsorted
    rw [← SharedLimiter.last_check config (some b) now] at htail
    exact (Bucket.after_filled_le t htail).trans
      (Bucket.check_filled_le (hhead now List.mem_cons_self) t)

theorem Bucket.after_filled_denied (hcap : 1 ≤ config.capacity) (t : ℚ) :
    ∀ {times : List ℚ} {b : Bucket}, (b.last :: times).Pairwise (· ≤ ·) →
      (∀ d ∈ Bucket.decisions config (some b) times, d.allowed = false) →
        (b.after config times).filled config t = b.filled config t
  | [], _, _, _ => rfl
  | now :: times, b, hsorted, hdenied => by
    obtain ⟨hhead, htail⟩ := List.pairwise_cons.mp hsorted
    obtain ⟨hfirst, hrest⟩ := List.forall_mem_cons.mp hdenied
    rw [← SharedLimiter.last_check config (some b) now] at htail
    exact (Bucket.after_filled_denied hcap t htail hrest).trans
      (Bucket.check_filled_denied hcap (hhead now List.mem_cons_self) hfirst t)

/-- Checks of other keys do not touch the bucket. -/
theorem after_buckets (key : Bytes) : ∀ {s : RateLimiter} {b : Bucket} (checks : List Check),
    s.buckets key = some b →
      (s.after checks).buckets key = some (b.after s.config (timesOf key checks))
  | _, _, [], hb => hb
  | s, b, c :: checks, hb => by
    unfold timesOf
    rw [List.filter_cons]
    by_cases hkey : c.key = key
    · subst hkey
      rw [if_pos (decide_eq_true rfl)]
      have hself : (s.check c.key c.now).2.buckets c.key =
          some (Bucket.check s.config (some b) c.now).2 := by
        rw [check_buckets, Function.update_self, hb]
      exact after_buckets c.key checks hself
    · rw [if_neg (by simp [hkey])]
      have hother : (s.check c.key c.now).2.buckets key = some b := by
        rw [check_buckets, Function.update_of_ne (Ne.symm hkey), hb]
      exact after_buckets key checks hother

theorem config_after : ∀ (s : RateLimiter) (checks : List Check), (s.after checks).config = s.config
  | _, [] => rfl
  | s, c :: checks => config_after (s.check c.key c.now).2 checks

/-! ## The promise -/

/-- The time at which the line reaches one token. -/
theorem Bucket.one_le_filled_iff (hrate : 0 < config.refillPerSec) (b : Bucket) (t : ℚ) :
    1 ≤ b.filled config t ↔ (1 - b.tokens) / config.refillPerSec ≤ t - b.last := by
  unfold Bucket.filled
  rw [div_le_iff₀ hrate, mul_comm, sub_le_iff_le_add']

/-- The announced wait covers the real one, and no full second more unless it is one second. -/
theorem le_wait (x : ℚ) : x ≤ (max 1 (Rat.ceil x) : ℤ) :=
  Rat.ceil_le_iff.mp (le_max_right 1 (Rat.ceil x))

theorem wait_sub_one_lt {x : ℚ} (hlong : 1 < max 1 (Rat.ceil x)) :
    ((max 1 (Rat.ceil x) : ℤ) : ℚ) - 1 < x := by
  have hceil : 1 < Rat.ceil x := (lt_max_iff.mp hlong).resolve_left (lt_irrefl 1)
  have hlt : ((Rat.ceil x - 1 : ℤ) : ℚ) < x := Rat.lt_ceil_iff.mp (sub_one_lt (Rat.ceil x))
  rw [max_eq_right hceil.le]
  rwa [Int.cast_sub, Int.cast_one] at hlt

/-- What a denial says of the line it leaves behind. -/
theorem Bucket.denied_filled (hrate : 0 < config.refillPerSec) {found : Option Bucket} {now : ℚ}
    (hdenied : (Bucket.check config found now).1.allowed = false) (t : ℚ) :
    (now + (Bucket.check config found now).1.retryAfter ≤ t →
      1 ≤ (Bucket.check config found now).2.filled config t) ∧
    (1 < (Bucket.check config found now).1.retryAfter →
      t < now + (Bucket.check config found now).1.retryAfter - 1 →
        ¬ 1 ≤ (Bucket.check config found now).2.filled config t) := by
  obtain ⟨-, -, hwait⟩ := Bucket.take_denied hdenied
  change (Bucket.check config found now).1.retryAfter =
    max 1 (Rat.ceil ((1 - (Bucket.check config found now).2.tokens) / config.refillPerSec)) at hwait
  rw [Bucket.one_le_filled_iff hrate, SharedLimiter.last_check, hwait]
  constructor
  · intro hlater
    have hle := le_wait ((1 - (Bucket.check config found now).2.tokens) / config.refillPerSec)
    linarith
  · intro hlong hsooner hle
    have hlt := wait_sub_one_lt hlong
    linarith

/-- The promise for a single bucket, checked at `times` after the denial. -/
theorem Bucket.retry_kept (hcap : 1 ≤ config.capacity) (hrate : 0 < config.refillPerSec)
    {found : Option Bucket} {t t' : ℚ} {times : List ℚ} (hsorted : (t :: times).Pairwise (· ≤ ·))
    (ht : t ≤ t') (hlast : ∀ u ∈ times, u ≤ t') {r : ℤ} {b : Bucket}
    (hr : (Bucket.check config found t).1.retryAfter = r)
    (hb : (Bucket.check config found t).2 = b)
    (hdenied : (Bucket.check config found t).1.allowed = false) :
    ((∀ d ∈ Bucket.decisions config (some b) times, d.allowed = false) → t + r ≤ t' →
      (Bucket.check config (some (b.after config times)) t').1.allowed = true) ∧
    (1 < r → t' < t + r - 1 →
      (Bucket.check config (some (b.after config times)) t').1.allowed = false) := by
  obtain ⟨henough, hshort⟩ := Bucket.denied_filled hrate hdenied t'
  have hbt : b.last = t := hb ▸ SharedLimiter.last_check config found t
  rw [hr, hb] at henough hshort
  rw [← hbt] at hsorted
  have hallowed := Bucket.allowed_iff hcap (Bucket.after_last config (hbt.trans_le ht) hlast)
  constructor
  · intro hbetween hlater
    rw [hallowed, Bucket.after_filled_denied hcap t' hsorted hbetween]
    exact henough hlater
  · intro hlong hsooner
    rw [← Bool.not_eq_true, hallowed]
    intro hle
    exact hshort hlong hsooner (hle.trans (Bucket.after_filled_le t' hsorted))

/-- The readings of a key that follow a reading `t` and come before `t'`. -/
theorem timesOf_between {before between : List Check} {key : Bytes} {t t' : ℚ}
    (hsorted : (before ++ Check.mk key t :: between ++ [Check.mk key t']).Pairwise
      fun c d => c.now ≤ d.now) :
    (t :: timesOf key between).Pairwise (· ≤ ·) ∧ t ≤ t' ∧
      ∀ u ∈ timesOf key between, u ≤ t' := by
  have hsince : (Check.mk key t :: (between ++ [Check.mk key t'])).Pairwise
      fun c d => c.now ≤ d.now := by
    refine hsorted.sublist ?_
    rw [List.append_assoc]
    exact List.sublist_append_right before _
  obtain ⟨hfirst, hrest⟩ := List.pairwise_cons.mp hsince
  obtain ⟨hbetween, -, hlast⟩ := List.pairwise_append.mp hrest
  refine ⟨List.pairwise_cons.mpr ⟨fun u hu => ?_, ?_⟩, ?_, fun u hu => ?_⟩
  · obtain ⟨c, hc, rfl⟩ := List.mem_map.mp hu
    exact hfirst c (List.mem_append_left _ (List.mem_filter.mp hc).1)
  · exact List.pairwise_map.mpr (hbetween.sublist List.filter_sublist)
  · exact hfirst _ (List.mem_append_right _ (List.mem_singleton_self _))
  · obtain ⟨c, hc, rfl⟩ := List.mem_map.mp hu
    exact hlast c (List.mem_filter.mp hc).1 _ (List.mem_singleton_self _)

/--
**A denied client is told when to come back.**

The readings of the clock do not go back, and a check of a key is denied at `t`. Whatever other
keys are checked, and however often this one is denied in between, a check of it at
`t + retry_after` or later is allowed. If `retry_after` is more than a second, every check of the
key up to a second before that time is denied.
-/
theorem retry_after_kept (config : Config) (hcap : 1 ≤ config.capacity)
    (hrate : 0 < config.refillPerSec) (before between : List Check) (key : Bytes) (t t' : ℚ)
    (hsorted : (before ++ Check.mk key t :: between ++ [Check.mk key t']).Pairwise
      fun c d => c.now ≤ d.now)
    (hdenied : (((create config).after before).check key t).1.allowed = false) :
    let denied := ((create config).after before).check key t
    let decision := ((denied.2.after between).check key t').1
    ((∀ d ∈ decisionsFor key between (denied.2.decisions between), d.allowed = false) →
      t + denied.1.retryAfter ≤ t' → decision.allowed = true) ∧
    (1 < denied.1.retryAfter → t' < t + denied.1.retryAfter - 1 → decision.allowed = false) := by
  intro denied decision
  obtain ⟨s, hs⟩ : ∃ s, s = (create config).after before := ⟨_, rfl⟩
  have hconfig : s.config = config := hs ▸ config_after (create config) before
  rw [← hs] at hdenied
  simp only [denied, decision, ← hs]
  obtain ⟨htimes, ht, hlast⟩ := timesOf_between hsorted
  have hbucket : (s.check key t).2.buckets key =
      some (Bucket.check config (s.buckets key) t).2 := hconfig ▸ SharedLimiter.check_self s t
  have hafter : ((s.check key t).2.after between).buckets key =
      some ((Bucket.check config (s.buckets key) t).2.after config (timesOf key between)) := by
    rw [after_buckets key between hbucket]
    exact congrArg (fun c => some (Bucket.after c _ _)) hconfig
  have hdecision : (((s.check key t).2.after between).check key t').1 =
      (Bucket.check config (((s.check key t).2.after between).buckets key) t').1 := by
    have hconfig' := (config_after (s.check key t).2 between).trans hconfig
    exact congrArg (fun c => (Bucket.check c _ t').1) hconfig'
  have hfirst : (s.check key t).1 = (Bucket.check config (s.buckets key) t).1 :=
    congrArg (fun c => (Bucket.check c _ t).1) hconfig
  rw [decisionsFor_eq, hbucket, hdecision, hafter, hfirst,
    show (s.check key t).2.config = config from hconfig]
  rw [hfirst] at hdenied
  exact Bucket.retry_kept hcap hrate htimes ht hlast rfl rfl hdenied

/-- A bucket of one that fills in three seconds: a second check at once is denied and told to
wait three seconds, one after a second is still denied, one after three is allowed. -/
theorem retry_after_three :
    let config : Config := ⟨1, 1 / 3⟩
    let denied := ((create config).after [⟨[97], 0⟩]).check [97] 0
    let decision := ((denied.2.after [⟨[98], 1⟩, ⟨[97], 1⟩]).check [97] 3).1
    ((∀ d ∈ decisionsFor [97] [⟨[98], 1⟩, ⟨[97], 1⟩]
        (denied.2.decisions [⟨[98], 1⟩, ⟨[97], 1⟩]), d.allowed = false) →
      0 + denied.1.retryAfter ≤ (3 : ℚ) → decision.allowed = true) ∧
    (1 < denied.1.retryAfter → 3 < (0 : ℚ) + denied.1.retryAfter - 1 →
      decision.allowed = false) :=
  retry_after_kept ⟨1, 1 / 3⟩ (by decide) (by norm_num) [⟨[97], 0⟩] [⟨[98], 1⟩, ⟨[97], 1⟩] [97]
    0 3 (by simp) (by decide +kernel)

end RateLimiter

end MiniOj.Http
