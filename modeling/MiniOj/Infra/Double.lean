import MiniOj.Infra.Rounding

/-!
# Floating-point numbers

The numbers of a format with the infinities and `NaN`, and the operations of C++ on them. There
is one zero: what `-0.0` does differently is a division by zero, which has no result in C++.

`Le d q` and `Ge d q` compare a number that may be infinite with a rational one. They carry bounds
through the operations, as rounding is monotone.
-/

namespace MiniOj.Infra

/-- A floating-point number, without the sign of zero. -/
inductive Double (f : FloatFormat) where
  | nan
  | inf (negative : Bool)
  | finite (value : ℚ) (grid : f.Grid value) (bound : |value| < 2 ^ f.maxExponent)

namespace Double

variable {f : FloatFormat}

/-- The result of an operation whose exact result is `q`. -/
def ofRat (q : ℚ) : Double f :=
  if h : |f.round q| < 2 ^ f.maxExponent then .finite (f.round q) (FloatFormat.grid_round q) h
  else .inf (decide (q < 0))

/-! ## Operations -/

/-- The other sign. -/
def neg : Double f → Double f
  | nan => nan
  | inf s => inf !s
  | finite x grid bound => finite (-x) grid.neg (by rwa [abs_neg])

/-- The sum, rounded. -/
def add : Double f → Double f → Double f
  | nan, _ | _, nan => nan
  | inf s, inf t => if s = t then inf s else nan
  | inf s, finite .. | finite .., inf s => inf s
  | finite x .., finite y .. => ofRat (x + y)

/-- The difference, rounded once. -/
def sub (x y : Double f) : Double f := x.add y.neg

/-- The product, rounded. -/
def mul : Double f → Double f → Double f
  | nan, _ | _, nan => nan
  | inf s, inf t => inf (s != t)
  | inf s, finite x .. | finite x .., inf s => if x = 0 then nan else inf (s != decide (x < 0))
  | finite x .., finite y .. => ofRat (x * y)

/-- A division by zero is `NaN` here. -/
def div : Double f → Double f → Double f
  | nan, _ | _, nan => nan
  | inf _, inf _ => nan
  | inf s, finite y .. => if y = 0 then nan else inf (s != decide (y < 0))
  | finite .., inf _ => ofRat 0
  | finite x .., finite y .. => if y = 0 then nan else ofRat (x / y)

/-- `x < y`; `NaN` is not comparable. -/
def lt : Double f → Double f → Bool
  | nan, _ | _, nan => false
  | inf s, inf t => s && !t
  | inf s, finite .. => s
  | finite .., inf s => !s
  | finite x .., finite y .. => decide (x < y)

/-- `x <= y`. -/
def le : Double f → Double f → Bool
  | nan, _ | _, nan => false
  | inf s, inf t => s || !t
  | inf s, finite .. => s
  | finite .., inf s => !s
  | finite x .., finite y .. => decide (x ≤ y)

/-- `std::min(x, y)`. -/
def min (x y : Double f) : Double f := if y.lt x then y else x

/-- `std::ceil(x)`. -/
def ceil : Double f → Double f
  | finite x .. => ofRat ⌈x⌉
  | x => x

/-- The fraction is cut off. -/
def truncate (q : ℚ) : ℤ := q.num.tdiv q.den

/-- The cast to a signed integer of so many bits; it is not defined for what does not fit. -/
def toSigned (bits : Nat) : Double f → Option ℤ
  | finite x .. =>
    if -2 ^ (bits - 1) ≤ truncate x ∧ truncate x < 2 ^ (bits - 1) then some (truncate x) else none
  | _ => none

/-- Equality with 0. -/
def isZero : Double f → Bool
  | finite x .. => x = 0
  | _ => false

/-! ## Bounds -/

/-- Below a rational bound. NaN is below none. -/
def Le : Double f → ℚ → Prop
  | nan, _ => False
  | inf s, _ => s = true
  | finite x .., q => x ≤ q

/-- Above a rational bound. NaN is above none. -/
def Ge : Double f → ℚ → Prop
  | nan, _ => False
  | inf s, _ => s = false
  | finite x .., q => q ≤ x

variable {x y : Double f} {a b q r : ℚ}

/-- Rounding does not get past a number of the grid. -/
theorem ofRat_le (hr : f.Grid r) (hlt : r < 2 ^ f.maxExponent) (h : q ≤ r) :
    (ofRat q : Double f).Le r := by
  have hround := FloatFormat.round_le hr h
  unfold ofRat
  split
  · exact hround
  · next hbig =>
    refine decide_eq_true (lt_of_not_ge fun hq => hbig ?_)
    rw [abs_of_nonneg (FloatFormat.round_nonneg hq)]
    exact hround.trans_lt hlt

/-- Nor below one. -/
theorem ofRat_ge (hr : f.Grid r) (hlt : -2 ^ f.maxExponent < r) (h : r ≤ q) :
    (ofRat q : Double f).Ge r := by
  have hround := FloatFormat.le_round hr h
  unfold ofRat
  split
  · exact hround
  · next hbig =>
    refine decide_eq_false fun hq => hbig ?_
    have hneg : f.round q ≤ 0 := FloatFormat.round_le FloatFormat.grid_zero hq.le
    rw [abs_of_nonpos hneg]
    linarith

/-- Bounds on both sides leave a finite number. -/
theorem eq_finite_of_bounds (hle : x.Le b) (hge : x.Ge a) :
    ∃ v grid bound, x = finite v grid bound ∧ a ≤ v ∧ v ≤ b := by
  cases x with
  | nan => cases hle
  | inf s =>
    rw [show s = true from hle] at hge
    cases hge
  | finite v grid bound => exact ⟨v, grid, bound, rfl, hge, hle⟩

/-- A result that needs no rounding. -/
theorem ofRat_of_grid (grid : f.Grid q) (bound : |q| < 2 ^ f.maxExponent) :
    ofRat q = finite q grid bound := by
  have hq := FloatFormat.round_of_grid grid
  unfold ofRat
  rw [dif_pos (by rwa [hq])]
  congr 1

/-- A bound from above becomes one from below. -/
theorem Le.neg (h : x.Le b) : x.neg.Ge (-b) := by
  cases x with
  | nan => cases h
  | inf s =>
    have hs : s = true := h
    subst hs
    exact rfl
  | finite v grid bound => exact neg_le_neg (show v ≤ b from h)

/-- A bound from below becomes one from above. -/
theorem Ge.neg (h : x.Ge a) : x.neg.Le (-a) := by
  cases x with
  | nan => cases h
  | inf s =>
    have hs : s = false := h
    subst hs
    exact rfl
  | finite v grid bound => exact neg_le_neg (show a ≤ v from h)

theorem finite_le {v : ℚ} {grid bound} (h : v ≤ b) : (finite v grid bound : Double f).Le b := h

theorem finite_ge {v : ℚ} {grid bound} (h : a ≤ v) : (finite v grid bound : Double f).Ge a := h

theorem Le.trans (hx : x.Le a) (h : a ≤ b) : x.Le b := by
  cases x with
  | nan => exact hx
  | inf s => exact hx
  | finite v grid bound => exact le_trans (b := a) hx h

/-- What is below a bound is a number below it or negative infinity. -/
theorem Le.cases (h : x.Le b) : x = inf true ∨ ∃ v grid bound, x = finite v grid bound ∧ v ≤ b := by
  cases x with
  | nan => cases h
  | inf s => exact .inl (congrArg inf h)
  | finite v grid bound => exact .inr ⟨v, grid, bound, rfl, h⟩

/-- What is above a bound is a number above it or infinity. -/
theorem Ge.cases (h : x.Ge a) :
    x = inf false ∨ ∃ v grid bound, x = finite v grid bound ∧ a ≤ v := by
  cases x with
  | nan => cases h
  | inf s => exact .inl (congrArg inf h)
  | finite v grid bound => exact .inr ⟨v, grid, bound, rfl, h⟩

/-- **A sum is above every number of the grid that its exact value is above.** -/
theorem add_ge (hr : f.Grid r) (hlt : -2 ^ f.maxExponent < r) (hx : x.Ge a) (hy : y.Ge b)
    (h : r ≤ a + b) : (x.add y).Ge r := by
  obtain rfl | ⟨v, _, _, rfl, hv⟩ := hx.cases
  · obtain rfl | ⟨w, _, _, rfl, hw⟩ := hy.cases
    · exact rfl
    · exact rfl
  · obtain rfl | ⟨w, _, _, rfl, hw⟩ := hy.cases
    · exact rfl
    · exact ofRat_ge hr hlt (by linarith)

/-- And below every one that its exact value is below. -/
theorem add_le (hr : f.Grid r) (hlt : r < 2 ^ f.maxExponent) (hx : x.Le a) (hy : y.Le b)
    (h : a + b ≤ r) : (x.add y).Le r := by
  obtain rfl | ⟨v, _, _, rfl, hv⟩ := hx.cases
  · obtain rfl | ⟨w, _, _, rfl, hw⟩ := hy.cases
    · exact rfl
    · exact rfl
  · obtain rfl | ⟨w, _, _, rfl, hw⟩ := hy.cases
    · exact rfl
    · exact ofRat_le hr hlt (by linarith)

/-- The minimum is above what both are above. -/
theorem min_ge (hx : x.Ge a) (hy : y.Ge a) : (x.min y).Ge a := by
  unfold min
  split
  · exact hy
  · exact hx

theorem min_le_left (hx : x.Le b) : (x.min y).Le b := by
  unfold min
  split
  · next hlt =>
    obtain rfl | ⟨v, _, _, rfl, hv⟩ := hx.cases
    · cases y with
      | nan => cases hlt
      | inf t => cases (Bool.and_eq_true_iff.mp hlt).2
      | finite w grid bound => cases hlt
    · cases y with
      | nan => cases hlt
      | inf t => exact hlt
      | finite w grid bound => exact (of_decide_eq_true hlt).le.trans hv
  · exact hx

/-- The smaller number is taken. -/
theorem min_le_right (hx : x.Ge a) (hy : y.Le b) (h : b < a) : (x.min y).Le b := by
  have hlt : y.lt x = true := by
    obtain rfl | ⟨v, _, _, rfl, hv⟩ := hx.cases
    · obtain rfl | ⟨w, _, _, rfl, hw⟩ := hy.cases
      · rfl
      · rfl
    · obtain rfl | ⟨w, _, _, rfl, hw⟩ := hy.cases
      · rfl
      · exact decide_eq_true (by linarith)
  unfold min
  rwa [if_pos hlt]

/-- A positive number. -/
def Pos (x : Double f) : Prop := x = inf false ∨ ∃ v grid bound, x = finite v grid bound ∧ 0 < v

/-- A product of positive numbers may be rounded to 0, not below. -/
theorem mul_ge_zero (hx : x.Pos) (hy : y.Pos) : (x.mul y).Ge 0 := by
  have hlt : -(2 : ℚ) ^ f.maxExponent < 0 := neg_neg_of_pos (by positivity)
  obtain rfl | ⟨v, _, _, rfl, hv⟩ := hx
  · obtain rfl | ⟨w, _, _, rfl, hw⟩ := hy
    · exact rfl
    · simp [mul, hw.ne', hw.not_gt, Ge]
  · obtain rfl | ⟨w, _, _, rfl, hw⟩ := hy
    · simp [mul, hv.ne', hv.not_gt, Ge]
    · exact ofRat_ge FloatFormat.grid_zero hlt (mul_pos hv hw).le

/-- Above a number that is not negative is what is positive. -/
theorem pos_of_lt {v : ℚ} {grid bound} (hv : 0 ≤ v)
    (h : (finite v grid bound : Double f).lt x = true) : x.Pos := by
  cases x with
  | nan => cases h
  | inf s =>
    have hs : (!s) = true := h
    exact .inl (congrArg inf (by simpa using hs))
  | finite w grid' bound' =>
    exact .inr ⟨w, grid', bound', rfl, lt_of_le_of_lt hv (of_decide_eq_true h)⟩

/-- The comparison of the machine agrees with the bound. -/
theorem not_lt_of_le {v : ℚ} {grid bound} (h : x.Le v) :
    (finite v grid bound : Double f).lt x = false := by
  obtain rfl | ⟨w, _, _, rfl, hw⟩ := h.cases
  · rfl
  · exact decide_eq_false (not_lt.mpr hw)

/-- And so does the one with equality. -/
theorem not_le_of_le {v : ℚ} {grid bound} (h : x.Le b) (hb : b < v) :
    (finite v grid bound : Double f).le x = false := by
  obtain rfl | ⟨w, _, _, rfl, hw⟩ := h.cases
  · rfl
  · exact decide_eq_false (not_le.mpr (lt_of_le_of_lt hw hb))

theorem lt_of_pos {v : ℚ} {grid bound} (hx : x.Ge a) (h : v < a) :
    (finite v grid bound : Double f).lt x = true := by
  obtain rfl | ⟨w, _, _, rfl, hw⟩ := hx.cases
  · rfl
  · exact decide_eq_true (lt_of_lt_of_le h hw)

/-- Dividing by what is no number gives none. -/
theorem div_nan (x : Double f) : x.div nan = nan := by
  cases x <;> rfl

/-- A number divided by a small positive one. -/
theorem div_ge {v : ℚ} (grid bound) (hr : f.Grid r) (h0 : 0 ≤ r) (hx : x.Ge a) (hv : 0 < v)
    (h : r * v ≤ a) : (x.div (finite v grid bound)).Ge r := by
  obtain rfl | ⟨w, _, _, rfl, hw⟩ := hx.cases
  · simp [div, hv.ne', hv.not_gt, Ge]
  · have hquot : r ≤ w / v := by
      rw [le_div_iff₀ hv]
      linarith
    have hlt : -2 ^ f.maxExponent < r := lt_of_lt_of_le (neg_neg_of_pos (by positivity)) h0
    unfold div
    dsimp only
    rw [if_neg hv.ne']
    exact ofRat_ge hr hlt hquot

/-- A large number divided by a negative one is far below zero. -/
theorem div_le_neg {v : ℚ} (grid bound) (hr : f.Grid r) (h0 : 0 ≤ r) (hx : x.Ge a) (hv : v < 0)
    (h : r * -v ≤ a) : (x.div (finite v grid bound)).Le (-r) := by
  obtain rfl | ⟨w, _, _, rfl, hw⟩ := hx.cases
  · simp [div, hv.ne, hv, Le]
  · have hquot : w / v ≤ -r := by
      rw [div_le_iff_of_neg hv]
      linarith
    have hlt : -r < 2 ^ f.maxExponent := lt_of_le_of_lt (neg_nonpos.mpr h0) (by positivity)
    unfold div
    dsimp only
    rw [if_neg hv.ne]
    exact ofRat_le hr.neg hlt hquot

/-! ## Integers -/

/-- Integers up to 2^precision are exact. -/
theorem grid_natCast {n : ℕ} (he : f.minExponent ≤ 0) (hn : n ≤ 2 ^ f.precision) :
    f.Grid n := by
  have hgrid := FloatFormat.grid_of_le (f := f) (m := n) (e := 0) (by exact_mod_cast hn) he
  simpa using hgrid

/-- Rounding up stays below an integer. -/
theorem ceil_le {n : ℤ} (hn : f.Grid n) (hlt : (n : ℚ) < 2 ^ f.maxExponent) (h : x.Le n) :
    x.ceil.Le n := by
  obtain rfl | ⟨v, _, _, rfl, hv⟩ := h.cases
  · exact rfl
  · exact ofRat_le hn hlt (by exact_mod_cast Int.ceil_le.mpr hv)

/-- Rounding up does not go down. -/
theorem ceil_ge (ha : f.Grid a) (hlt : -2 ^ f.maxExponent < a) (h : x.Ge a) : x.ceil.Ge a := by
  obtain rfl | ⟨v, _, _, rfl, hv⟩ := h.cases
  · exact rfl
  · exact ofRat_ge ha hlt (hv.trans (Int.le_ceil v))

/-- Towards 0 is downwards for what is not negative. -/
theorem truncate_of_nonneg (h : 0 ≤ q) : truncate q = ⌊q⌋ := by
  unfold truncate
  rw [Int.tdiv_eq_ediv_of_nonneg (Rat.num_nonneg.mpr h), Rat.floor_def']

theorem truncate_neg (q : ℚ) : truncate (-q) = -truncate q := by
  unfold truncate
  rw [Rat.neg_num, Rat.neg_den, Int.neg_tdiv]

/-- **In the range, the conversion to an integer is defined.** -/
theorem toSigned_isSome {v : ℚ} {bits : ℕ} (grid bound) (h0 : 0 ≤ v)
    (hlt : v < 2 ^ (bits - 1)) : ∃ n, (finite v grid bound : Double f).toSigned bits = some n := by
  have hfloor : ⌊v⌋ < 2 ^ (bits - 1) := Int.floor_lt.mpr (by exact_mod_cast hlt)
  have hnonneg : 0 ≤ ⌊v⌋ := Int.floor_nonneg.mpr h0
  have hpow : (0 : ℤ) ≤ 2 ^ (bits - 1) := by positivity
  unfold toSigned
  dsimp only
  rw [truncate_of_nonneg h0, if_pos ⟨by omega, hfloor⟩]
  exact ⟨_, rfl⟩

/-- Too large a number has no conversion. -/
theorem toSigned_of_ge {bits : ℕ} (h : x.Ge (2 ^ (bits - 1))) : x.toSigned bits = none := by
  obtain rfl | ⟨v, _, _, rfl, hv⟩ := h.cases
  · rfl
  · have h0 : 0 ≤ v := le_trans (by positivity) hv
    have hfloor : (2 : ℤ) ^ (bits - 1) ≤ ⌊v⌋ := Int.le_floor.mpr (by exact_mod_cast hv)
    unfold toSigned
    dsimp only
    rw [truncate_of_nonneg h0]
    exact if_neg fun hn => absurd hn.2 (not_lt.mpr hfloor)

/-- Nor has one too small. -/
theorem toSigned_of_le {bits : ℕ} (h : x.Le (-2 ^ (bits - 1) - 1)) : x.toSigned bits = none := by
  obtain rfl | ⟨v, _, _, rfl, hv⟩ := h.cases
  · rfl
  · have hpow : (0 : ℚ) ≤ 2 ^ (bits - 1) := by positivity
    have hfloor : (2 : ℤ) ^ (bits - 1) + 1 ≤ ⌊-v⌋ := Int.le_floor.mpr (by push_cast; linarith)
    have htrunc : truncate v = -⌊-v⌋ := by
      rw [← truncate_of_nonneg (by linarith), truncate_neg, neg_neg]
    unfold toSigned
    dsimp only
    rw [htrunc]
    exact if_neg fun hn => by omega

end Double

end MiniOj.Infra
