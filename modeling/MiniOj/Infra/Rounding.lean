import Mathlib.Algebra.Order.Field.Power
import Mathlib.Algebra.Order.Floor.Ring
import Mathlib.Algebra.Ring.Int.Parity
import Mathlib.Data.Int.Log
import Mathlib.Data.Rat.Floor
import Mathlib.Tactic.FieldSimp
import Mathlib.Tactic.Linarith
import Mathlib.Tactic.Positivity

/-!
# Rounding to floating-point numbers

A binary format with a precision and a smallest exponent, the numbers it can represent, and the
rounding of IEEE 754 to the nearest of them, ties to even. Overflow is left to those who use it:
exponents have no upper bound here.

All that is used of rounding later is that it is monotone (`round_mono`) and leaves numbers of
the format alone (`round_of_grid`).
-/

namespace MiniOj.Infra

/-- A format: digits of the mantissa, and the range of exponents. -/
structure FloatFormat where
  /-- bits of a significand -/
  precision : Nat
  /-- the exponent of the smallest positive number -/
  minExponent : Int
  /-- finite numbers are below `2 ^ maxExponent` -/
  maxExponent : Int
  precision_pos : 0 < precision

/-- `double`. -/
def binary64 : FloatFormat := ⟨53, -1074, 1024, by decide⟩

/-! ## Integers -/

/-- The integer nearest to `x`, of two the even one. -/
def roundEven (x : ℚ) : ℤ :=
  if x - ⌊x⌋ < 1 / 2 then ⌊x⌋
  else if 1 / 2 < x - ⌊x⌋ then ⌊x⌋ + 1
  else if Even ⌊x⌋ then ⌊x⌋
  else ⌊x⌋ + 1

/-- An integer is not rounded. -/
theorem roundEven_intCast (n : ℤ) : roundEven n = n := by
  unfold roundEven
  rw [Int.floor_intCast, sub_self, if_pos (by norm_num)]

/-- Rounding does not go below the floor. -/
theorem floor_le_roundEven (x : ℚ) : ⌊x⌋ ≤ roundEven x := by
  unfold roundEven
  split_ifs <;> omega

/-- Nor above the next integer. -/
theorem roundEven_le (x : ℚ) : roundEven x ≤ ⌊x⌋ + 1 := by
  unfold roundEven
  split_ifs <;> omega

/-- Rounding keeps the order. -/
theorem roundEven_mono {x y : ℚ} (h : x ≤ y) : roundEven x ≤ roundEven y := by
  rcases (Int.floor_mono h).lt_or_eq with hlt | heq
  · have hx := roundEven_le x
    have hy := floor_le_roundEven y
    omega
  · -- between the same two integers the larger number is rounded up first
    have hxy : x - ⌊x⌋ ≤ y - ⌊y⌋ := by
      rw [heq]
      linarith
    unfold roundEven
    rw [heq] at hxy ⊢
    split_ifs <;> first | omega | (exfalso; linarith)

namespace FloatFormat

variable (f : FloatFormat) {q r : ℚ}

/-! ## Numbers of a format -/

/-- The numbers of the format, up to any size. -/
def Grid (q : ℚ) : Prop :=
  ∃ m e : ℤ, q = m * 2 ^ e ∧ |m| < 2 ^ f.precision ∧ f.minExponent ≤ e

variable {f}

/-- The grid is symmetric. -/
theorem Grid.neg (h : f.Grid q) : f.Grid (-q) := by
  obtain ⟨m, e, rfl, hm, he⟩ := h
  exact ⟨-m, e, by push_cast; ring, by rwa [abs_neg], he⟩

/-- Powers of two are on the grid. -/
theorem grid_zpow {e : ℤ} (he : f.minExponent ≤ e) : f.Grid (2 ^ e) :=
  ⟨1, e, by simp, by simpa using one_lt_pow₀ one_lt_two f.precision_pos.ne', he⟩

theorem grid_zero : f.Grid 0 := ⟨0, f.minExponent, by simp, by simp, le_rfl⟩

/-- No positive number of the format is smaller. -/
theorem Grid.zpow_le (h : f.Grid q) (hq : 0 < q) : 2 ^ f.minExponent ≤ q := by
  obtain ⟨m, e, rfl, -, he⟩ := h
  have hm : 0 < (m : ℚ) := pos_of_mul_pos_left hq (by positivity)
  have hm' : (1 : ℚ) ≤ m := by exact_mod_cast hm
  calc (2 : ℚ) ^ f.minExponent ≤ 2 ^ e := zpow_le_zpow_right₀ one_le_two he
    _ ≤ m * 2 ^ e := le_mul_of_one_le_left (by positivity) hm'

/-- A significand may also be the power of two that is just too large for one. -/
theorem grid_of_le {m e : ℤ} (hm : |m| ≤ 2 ^ f.precision) (he : f.minExponent ≤ e) :
    f.Grid (m * 2 ^ e) := by
  rcases hm.lt_or_eq with hlt | heq
  · exact ⟨m, e, rfl, hlt, he⟩
  · have hpow : f.Grid (2 ^ (f.precision + e)) := grid_zpow (by omega)
    rw [zpow_add₀ two_ne_zero, zpow_natCast] at hpow
    rcases abs_eq (by positivity) |>.mp heq with rfl | rfl
    · simpa using hpow
    · simpa using hpow.neg

/-! ## Rounding -/

variable (f)

/-- The exponent at which a positive number is cut off. -/
def exponent (q : ℚ) : ℤ := max f.minExponent (Int.log 2 q + 1 - f.precision)

/-- The number of the format nearest to a positive number. -/
def roundPos (q : ℚ) : ℚ := roundEven (q / 2 ^ f.exponent q) * 2 ^ f.exponent q

/-- The number of the format nearest to `q`. -/
def round (q : ℚ) : ℚ := if q < 0 then -f.roundPos (-q) else f.roundPos q

variable {f}

/-- The exponent is large enough for the number. -/
theorem lt_zpow_exponent (h : 0 < q) : q < 2 ^ (f.precision + f.exponent q) := by
  have hlog : Int.log 2 q < f.precision + f.exponent q := by
    unfold exponent
    omega
  exact_mod_cast (Int.lt_zpow_iff_log_lt one_lt_two h).mpr hlog

/-- Scaled by it the number has as many digits as the mantissa. -/
theorem scaled_le (h : 0 < q) : q / 2 ^ f.exponent q ≤ (2 ^ f.precision : ℤ) := by
  have hlt := lt_zpow_exponent (f := f) h
  rw [zpow_add₀ two_ne_zero, zpow_natCast] at hlt
  rw [div_le_iff₀ (by positivity)]
  push_cast
  exact hlt.le

theorem roundPos_nonneg (h : 0 ≤ q) : 0 ≤ f.roundPos q := by
  have hn : (0 : ℤ) ≤ roundEven (q / 2 ^ f.exponent q) := by
    have h0 := roundEven_intCast 0
    rw [← h0]
    exact roundEven_mono (by push_cast; positivity)
  unfold roundPos
  positivity

/-- Rounding up may reach the next power of two. -/
theorem roundPos_le (h : 0 < q) : f.roundPos q ≤ 2 ^ (f.precision + f.exponent q) := by
  have hn := roundEven_mono (scaled_le (f := f) h)
  rw [roundEven_intCast] at hn
  have hn' : (roundEven (q / 2 ^ f.exponent q) : ℚ) ≤ 2 ^ f.precision := by exact_mod_cast hn
  unfold roundPos
  rw [zpow_add₀ two_ne_zero, zpow_natCast]
  exact mul_le_mul_of_nonneg_right hn' (by positivity)

/-- **What is rounded is on the grid.** -/
theorem grid_roundPos (h : 0 ≤ q) : f.Grid (f.roundPos q) := by
  rcases h.lt_or_eq with hpos | rfl
  · have hn := roundEven_mono (scaled_le (f := f) hpos)
    rw [roundEven_intCast] at hn
    have hn' : (0 : ℤ) ≤ roundEven (q / 2 ^ f.exponent q) := by
      rw [← roundEven_intCast 0]
      exact roundEven_mono (by push_cast; positivity)
    exact grid_of_le (by rwa [abs_of_nonneg hn']) (le_max_left _ _)
  · unfold roundPos
    rw [zero_div, ← Int.cast_zero, roundEven_intCast]
    simpa using grid_zero

/-- Rounding keeps the order also across powers of two. -/
theorem roundPos_mono (hq : 0 < q) (h : q ≤ r) : f.roundPos q ≤ f.roundPos r := by
  have hlog := Int.log_mono_right (b := 2) hq h
  have he : f.exponent q ≤ f.exponent r := by
    unfold exponent
    omega
  rcases he.lt_or_eq with hlt | heq
  · -- a power of two of the format lies between the two
    have hr : f.exponent r = Int.log 2 r + 1 - f.precision := by
      unfold exponent at hlt ⊢
      omega
    have hstep : ((2 ^ (f.precision - 1) : ℤ) : ℚ) ≤ r / 2 ^ f.exponent r := by
      have hself := Int.zpow_log_le_self (b := 2) one_lt_two (hq.trans_le h)
      rw [le_div_iff₀ (by positivity)]
      push_cast at hself ⊢
      rw [← zpow_natCast, ← zpow_add₀ two_ne_zero]
      refine le_trans (zpow_le_zpow_right₀ one_le_two ?_) hself
      have := f.precision_pos
      omega
    have hn := roundEven_mono hstep
    rw [roundEven_intCast] at hn
    have hn' : ((2 : ℚ) ^ (f.precision - 1)) ≤ roundEven (r / 2 ^ f.exponent r) := by
      exact_mod_cast hn
    calc f.roundPos q ≤ 2 ^ (f.precision + f.exponent q) := roundPos_le hq
      _ ≤ 2 ^ ((f.precision - 1 : ℕ) + f.exponent r) := by
        refine zpow_le_zpow_right₀ one_le_two ?_
        have := f.precision_pos
        omega
      _ = 2 ^ (f.precision - 1) * 2 ^ f.exponent r := by
        rw [zpow_add₀ two_ne_zero, zpow_natCast]
      _ ≤ f.roundPos r := mul_le_mul_of_nonneg_right hn' (by positivity)
  · unfold roundPos
    rw [heq]
    refine mul_le_mul_of_nonneg_right ?_ (by positivity)
    exact_mod_cast roundEven_mono (div_le_div_of_nonneg_right h (by positivity))

/-- Numbers of the format are not changed. -/
theorem roundPos_of_grid (hq : 0 ≤ q) (h : f.Grid q) : f.roundPos q = q := by
  rcases hq.lt_or_eq with hpos | rfl
  · obtain ⟨m, e, rfl, hm, he⟩ := h
    have hlt : (m * 2 ^ e : ℚ) < 2 ^ (f.precision + e) := by
      rw [zpow_add₀ two_ne_zero, zpow_natCast]
      refine mul_lt_mul_of_pos_right ?_ (by positivity)
      exact_mod_cast lt_of_abs_lt hm
    have hlog := (Int.lt_zpow_iff_log_lt (b := 2) one_lt_two hpos).mp (by exact_mod_cast hlt)
    have hexp : f.exponent (m * 2 ^ e) ≤ e := by
      unfold exponent
      omega
    -- in units of the exponent it is an integer
    obtain ⟨k, hk⟩ := Int.eq_ofNat_of_zero_le (sub_nonneg.mpr hexp)
    have hint : (m * 2 ^ e : ℚ) / 2 ^ f.exponent (m * 2 ^ e) = ((m * 2 ^ k : ℤ) : ℚ) := by
      rw [mul_div_assoc, ← zpow_sub₀ two_ne_zero, hk]
      push_cast
      rfl
    unfold roundPos
    rw [hint, roundEven_intCast, ← hint]
    exact div_mul_cancel₀ _ (by positivity)
  · unfold roundPos
    rw [zero_div, ← Int.cast_zero, roundEven_intCast]
    simp

/-- The sign is set aside. -/
theorem round_of_nonneg (h : 0 ≤ q) : f.round q = f.roundPos q := if_neg h.not_gt

/-- Rounding is symmetric. -/
theorem round_neg (q : ℚ) : f.round (-q) = -f.round q := by
  rcases lt_trichotomy q 0 with hq | rfl | hq
  · rw [round_of_nonneg (by linarith), round, if_pos hq, neg_neg]
  · rw [neg_zero, round_of_nonneg le_rfl, roundPos_of_grid le_rfl grid_zero, neg_zero]
  · rw [round, if_pos (by linarith), neg_neg, round_of_nonneg hq.le]

/-- **What is on the grid is not rounded.** -/
theorem round_of_grid (h : f.Grid q) : f.round q = q := by
  rcases le_total 0 q with hq | hq
  · rw [round_of_nonneg hq, roundPos_of_grid hq h]
  · have hneg := roundPos_of_grid (by linarith) h.neg
    rw [← neg_neg q, round_neg, round_of_nonneg (by linarith), hneg]

/-- What is rounded is on the grid. -/
theorem grid_round (q : ℚ) : f.Grid (f.round q) := by
  rcases le_total 0 q with hq | hq
  · rw [round_of_nonneg hq]
    exact grid_roundPos hq
  · rw [← neg_neg q, round_neg, round_of_nonneg (by linarith)]
    exact (grid_roundPos (by linarith)).neg

/-- Rounding does not change the sign. -/
theorem round_nonneg (h : 0 ≤ q) : 0 ≤ f.round q := by
  rw [round_of_nonneg h]
  exact roundPos_nonneg h

/-- **Rounding keeps the order.** -/
theorem round_mono (h : q ≤ r) : f.round q ≤ f.round r := by
  rcases lt_trichotomy q 0 with hq | rfl | hq
  · rcases lt_or_ge r 0 with hr | hr
    · have hmono := roundPos_mono (f := f) (q := -r) (r := -q) (by linarith) (by linarith)
      rw [round, if_pos hq, round, if_pos hr]
      linarith
    · have hneg := roundPos_nonneg (f := f) (q := -q) (by linarith)
      have hpos := round_nonneg (f := f) hr
      rw [round, if_pos hq]
      linarith
  · rw [round_of_grid grid_zero]
    exact round_nonneg h
  · rw [round_of_nonneg hq.le, round_of_nonneg (hq.le.trans h)]
    exact roundPos_mono hq h

/-- A bound in the format is a bound after rounding. -/
theorem round_le (hr : f.Grid r) (h : q ≤ r) : f.round q ≤ r := by
  rw [← round_of_grid hr]
  exact round_mono h

/-- **Rounding does not get past the grid.** -/
theorem le_round (hq : f.Grid q) (h : q ≤ r) : q ≤ f.round r := by
  rw [← round_of_grid hq]
  exact round_mono h

end FloatFormat

end MiniOj.Infra
