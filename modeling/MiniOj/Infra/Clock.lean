import Mathlib.Algebra.Group.Int.Defs
import Mathlib.Algebra.Group.Nat.Defs
import MiniOj.Infra.Bytes

/-!
# Clocks of 64 bits

Time points and durations of `std::chrono`: signed 64-bit counts, a clock counting nanoseconds. A
result that does not fit is undefined.
-/

namespace MiniOj.Infra

/-- The result of a signed computation; `none` when it overflows. -/
def signed (x : Int) : Option Int64 := if -2 ^ 63 ≤ x ∧ x < 2 ^ 63 then some (.ofInt x) else none

/-- A duration of `count` units of `unit` nanoseconds each, in nanoseconds. -/
def nanoseconds (unit : Int) (count : Int64) : Option Int64 := signed (count.toInt * unit)

/-- The time point `now + count`. -/
def later (now : Int64) (unit : Int) (count : Int64) : Option Int64 :=
  (nanoseconds unit count).bind fun d => signed (now.toInt + d.toInt)

theorem signed_eq_some {x : Int} {y : Int64} : signed x = some y ↔ y.toInt = x := by
  unfold signed
  constructor
  · intro h
    split at h
    · next hx =>
      cases h
      exact Int64.toInt_ofInt_of_le hx.1 hx.2
    · cases h
  · rintro rfl
    rw [if_pos ⟨y.le_toInt, y.toInt_lt⟩, Int64.ofInt_toInt]

theorem signed_isSome {x : Int} : (∃ y, signed x = some y) ↔ -2 ^ 63 ≤ x ∧ x < 2 ^ 63 := by
  constructor
  · rintro ⟨y, hy⟩
    rw [← signed_eq_some.mp hy]
    exact ⟨y.le_toInt, y.toInt_lt⟩
  · exact fun h => ⟨_, if_pos h⟩

/-- A time point that can be represented is the one meant. -/
theorem later_eq_some {now t : Int64} {unit : Int} {count : Int64}
    (h : later now unit count = some t) : t.toInt = now.toInt + count.toInt * unit := by
  obtain ⟨d, hd, ht⟩ := Option.bind_eq_some_iff.mp h
  rw [signed_eq_some.mp ht, signed_eq_some.mp hd]

/-- **A time point ahead can be represented exactly when neither the duration nor the sum is
beyond the clock.** -/
theorem later_isSome {count : Int64} {unit : Int} (now : Int64) (hunit : 0 < unit)
    (hcount : 0 < count.toInt) :
    (∃ t, later now unit count = some t) ↔ max 0 now.toInt + count.toInt * unit < 2 ^ 63 := by
  have hd : 0 < count.toInt * unit := Int.mul_pos hcount hunit
  have hnow := now.le_toInt
  constructor
  · rintro ⟨t, ht⟩
    obtain ⟨d, hnanos, -⟩ := Option.bind_eq_some_iff.mp ht
    have hlt := t.toInt_lt
    have hlt' := d.toInt_lt
    rw [later_eq_some ht] at hlt
    rw [signed_eq_some.mp hnanos] at hlt'
    omega
  · intro h
    obtain ⟨d, hnanos⟩ := signed_isSome.mpr ⟨by omega, (by omega : count.toInt * unit < 2 ^ 63)⟩
    have hd' := signed_eq_some.mp hnanos
    obtain ⟨t, ht⟩ := signed_isSome.mpr ⟨by omega, (by omega : now.toInt + d.toInt < 2 ^ 63)⟩
    exact ⟨t, Option.bind_eq_some_iff.mpr ⟨d, hnanos, ht⟩⟩

/-- The signed value of an unsigned one, when it is positive. -/
theorem toInt_toInt64_of_pos {n : Nat} (h : n < 2 ^ 64)
    (hpos : 0 < (UInt64.ofNat n).toInt64.toInt) : (UInt64.ofNat n).toInt64.toInt = n := by
  rw [UInt64.toInt64_ofNat', Int64.toInt_ofNat'] at hpos ⊢
  simp only [Int64.size, Int.bmod_def] at hpos ⊢
  split at hpos <;> omega

end MiniOj.Infra
