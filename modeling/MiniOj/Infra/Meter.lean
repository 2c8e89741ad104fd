import Mathlib.Algebra.Order.Ring.Defs
import Mathlib.Tactic.Linarith

/-!
# Metered draws

A level that fills no faster than a rate and never above a capacity, and draws that lower it.
What is drawn in any stretch of time is bounded by the capacity and by what can flow in.

* `Meter.Draw` — one draw, with the gauge before and after it
* `Meter.Run` — draws one after another
* `Meter.Run.drawn_le` — the bound for every window of time
-/

namespace MiniOj.Infra

variable {K : Type} [CommRing K] [LinearOrder K]

structure Meter (K : Type) where
  capacity : K
  rate : K

/-- A level, and the time it was last brought up to date. -/
structure Gauge (K : Type) where
  level : K
  time : K

/-- An amount is drawn from what was there and what has flowed in since. -/
structure Meter.Draw (m : Meter K) (g : Gauge K) (amount : K) (g' : Gauge K) : Prop where
  forward : g.time ≤ g'.time
  drawn_nonneg : 0 ≤ amount
  level_nonneg : 0 ≤ g'.level
  capped : g'.level + amount ≤ m.capacity
  filled : g'.level + amount ≤ g.level + m.rate * (g'.time - g.time)

/-- Draws one after another; each is listed with its time. -/
inductive Meter.Run (m : Meter K) : Gauge K → List (K × K) → Prop
  | nil (g : Gauge K) : m.Run g []
  | cons {g g' : Gauge K} {amount : K} {draws : List (K × K)} (h : m.Draw g amount g')
      (rest : m.Run g' draws) : m.Run g ((g'.time, amount) :: draws)

/-- What is drawn between `t₁` and `t₂`, both included. -/
def drawn (t₁ t₂ : K) : List (K × K) → K
  | [] => 0
  | (t, amount) :: draws => (if t₁ ≤ t ∧ t ≤ t₂ then amount else 0) + drawn t₁ t₂ draws

namespace Meter

variable {m : Meter K} {g : Gauge K} {draws : List (K × K)} {t₁ t₂ : K}

/-- Later draws lie outside a window that is over. -/
theorem Run.drawn_eq_zero (h : m.Run g draws) (ht : t₂ < g.time) : drawn t₁ t₂ draws = 0 := by
  induction h with
  | nil g => rfl
  | cons hd hrest ih =>
    have hlt := lt_of_lt_of_le ht hd.forward
    unfold drawn
    rw [if_neg fun hw => absurd hw.2 (not_le.mpr hlt), ih hlt, add_zero]

variable [IsStrictOrderedRing K]

/-- From now on no more is drawn than is there and flows in. -/
theorem Run.drawn_le_level (t₁ : K) (hrate : 0 ≤ m.rate) (h : m.Run g draws) (hg : 0 ≤ g.level)
    (ht : g.time ≤ t₂) : drawn t₁ t₂ draws ≤ g.level + m.rate * (t₂ - g.time) := by
  induction h with
  | nil g => exact add_nonneg hg (mul_nonneg hrate (sub_nonneg.mpr ht))
  | @cons g g' amount draws hd hrest ih =>
    unfold drawn
    by_cases hin : g'.time ≤ t₂
    · have hle := ih hd.level_nonneg hin
      have hsum : m.rate * (g'.time - g.time) + m.rate * (t₂ - g'.time) =
          m.rate * (t₂ - g.time) := by
        rw [← mul_add, add_comm, sub_add_sub_cancel]
      have hamount : (if t₁ ≤ g'.time ∧ g'.time ≤ t₂ then amount else 0) ≤ amount := by
        split
        · exact le_refl amount
        · exact hd.drawn_nonneg
      have hfilled := hd.filled
      linarith
    · rw [hrest.drawn_eq_zero (not_le.mp hin), if_neg fun hw => hin hw.2, add_zero]
      exact add_nonneg hg (mul_nonneg hrate (sub_nonneg.mpr ht))

/--
**The bound for every window.**

Before the window nothing counts; the first draw inside it leaves at most the capacity, and
from there on `drawn_le_level` applies.
-/
theorem Run.drawn_le (hrate : 0 ≤ m.rate) (hcap : 0 ≤ m.capacity) (h : m.Run g draws)
    (ht : t₁ ≤ t₂) : drawn t₁ t₂ draws ≤ m.capacity + m.rate * (t₂ - t₁) := by
  have hpos : 0 ≤ m.capacity + m.rate * (t₂ - t₁) :=
    add_nonneg hcap (mul_nonneg hrate (sub_nonneg.mpr ht))
  induction h with
  | nil g => exact hpos
  | @cons g g' amount draws hd hrest ih =>
    unfold drawn
    by_cases hin : t₁ ≤ g'.time ∧ g'.time ≤ t₂
    · rw [if_pos hin]
      have hle := hrest.drawn_le_level t₁ hrate hd.level_nonneg hin.2
      have hlate : m.rate * (t₂ - g'.time) ≤ m.rate * (t₂ - t₁) :=
        mul_le_mul_of_nonneg_left (sub_le_sub_left hin.1 t₂) hrate
      have hcapped := hd.capped
      linarith
    · rw [if_neg hin, zero_add]
      exact ih

end Meter

end MiniOj.Infra
