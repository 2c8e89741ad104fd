import Mathlib.Algebra.Order.Ring.Nat
import Mathlib.Order.Monotone.Basic

/-!
# The calendar of UTC

A second since 1970 as year, month, day, hour, minute and second of the Gregorian calendar, and
back. Years and months are blocks of different lengths one after the other; what is needed of them
is proved for blocks of any lengths.

* `start_locate` — a position is a block and a position in it
* `start_add_lt_iff` — positions compare by their blocks first
* `timegm_gmtime` — the moment of a second is that second
* `timegm_lt_iff` — and they compare field by field
-/

namespace MiniOj.Infra.Calendar

/-! ## Blocks -/

section Blocks

variable {len : Nat → Nat}

/-- Where a block starts. -/
def start (len : Nat → Nat) : Nat → Nat
  | 0 => 0
  | n + 1 => start len n + len n

/-- Go on from unit `n` by the lengths of the units, at most `fuel` of them. -/
def locateFrom (len : Nat → Nat) : Nat → Nat → Nat → Nat × Nat
  | 0, n, t => (n, t)
  | fuel + 1, n, t => if t < len n then (n, t) else locateFrom len fuel (n + 1) (t - len n)

/-- The block of a position, and the position in it. -/
def locate (len : Nat → Nat) (t : Nat) : Nat × Nat := locateFrom len t 0 t

theorem start_mono (len : Nat → Nat) : Monotone (start len) :=
  monotone_nat_of_le_succ fun _ => Nat.le_add_right _ _

theorem locateFrom_spec (hlen : ∀ n, 0 < len n) : ∀ {fuel n t : Nat}, t ≤ fuel →
    start len (locateFrom len fuel n t).1 + (locateFrom len fuel n t).2 = start len n + t ∧
      (locateFrom len fuel n t).2 < len (locateFrom len fuel n t).1
  | 0, n, t, h => by
    obtain rfl := Nat.le_zero.mp h
    exact ⟨rfl, hlen n⟩
  | fuel + 1, n, t, h => by
    rw [locateFrom]
    split
    · next hlt => exact ⟨rfl, hlt⟩
    · next hge =>
      have hpos := hlen n
      obtain ⟨hsum, hlt⟩ := locateFrom_spec (n := n + 1) hlen (by omega : t - len n ≤ fuel)
      refine ⟨hsum.trans ?_, hlt⟩
      rw [start]
      omega

theorem start_locate (hlen : ∀ n, 0 < len n) (t : Nat) :
    start len (locate len t).1 + (locate len t).2 = t :=
  (locateFrom_spec hlen (Nat.le_refl t)).1.trans (Nat.zero_add t)

theorem locate_lt (hlen : ∀ n, 0 < len n) (t : Nat) : (locate len t).2 < len (locate len t).1 :=
  (locateFrom_spec hlen (Nat.le_refl t)).2

/-- A position in an earlier block is before all of the later block. -/
theorem start_add_lt {n m o : Nat} (ho : o < len n) (hnm : n < m) :
    start len n + o < start len m :=
  calc start len n + o
    _ < start len (n + 1) := Nat.add_lt_add_left ho _
    _ ≤ start len m := start_mono len hnm

/-- **Positions compare by their blocks first.** -/
theorem start_add_lt_iff {n m o p : Nat} (ho : o < len n) (hp : p < len m) :
    start len n + o < start len m + p ↔ n < m ∨ n = m ∧ o < p := by
  rcases Nat.lt_trichotomy n m with hlt | rfl | hgt
  · have h := start_add_lt ho hlt
    exact ⟨fun _ => .inl hlt, fun _ => by omega⟩
  · omega
  · have h := start_add_lt hp hgt
    omega

/-- The blocks before `m` hold the positions before its start. -/
theorem locate_fst_lt (hlen : ∀ n, 0 < len n) {t m : Nat} (h : t < start len m) :
    (locate len t).1 < m := by
  by_contra hle
  have hmono := start_mono len (Nat.le_of_not_lt hle)
  have hsum := start_locate hlen t
  omega

end Blocks

/-- Positions in blocks of one length. -/
theorem mul_add_lt_iff {k n m o p : Nat} (ho : o < k) (hp : p < k) :
    n * k + o < m * k + p ↔ n < m ∨ n = m ∧ o < p := by
  rcases Nat.lt_trichotomy n m with hlt | rfl | hgt
  · have hmul : (n + 1) * k ≤ m * k := Nat.mul_le_mul_right k hlt
    rw [Nat.succ_mul] at hmul
    omega
  · omega
  · have hmul : (m + 1) * k ≤ n * k := Nat.mul_le_mul_right k hgt
    rw [Nat.succ_mul] at hmul
    omega

/-! ## Years and months -/

/-- The Gregorian rule. -/
def isLeap (year : Nat) : Bool := year % 4 == 0 && (year % 100 != 0 || year % 400 == 0)

/-- The days of a year. -/
def yearLength (year : Nat) : Nat := if isLeap year then 366 else 365

/-- The days of a month, which is counted from 1. -/
def monthLength (year month : Nat) : Nat :=
  match month with
  | 2 => if isLeap year then 29 else 28
  | 4 | 6 | 9 | 11 => 30
  | _ => 31

/-- The years from 1970 on. -/
abbrev years (n : Nat) : Nat := yearLength (1970 + n)

/-- The months of a year. -/
abbrev months (year n : Nat) : Nat := monthLength year (n + 1)

theorem years_pos (n : Nat) : 0 < years n := by
  unfold years yearLength
  split <;> decide

theorem months_pos (year n : Nat) : 0 < months year n := by
  unfold months monthLength
  split
  · split <;> decide
  all_goals decide

/-- The months make up the year. -/
theorem start_months (year : Nat) : start (months year) 12 = yearLength year := by
  simp only [start, months, monthLength, yearLength]
  split <;> rfl

/-! ## Moments -/

/-- A moment of the calendar, like `struct tm`. -/
structure Moment where
  year : Nat
  month : Nat
  day : Nat
  hour : Nat
  minute : Nat
  second : Nat
  month_mem : 1 ≤ month ∧ month ≤ 12
  day_mem : 1 ≤ day ∧ day ≤ monthLength year month
  hour_lt : hour < 24
  minute_lt : minute < 60
  second_lt : second < 60
  deriving DecidableEq, Repr

/-- The fields, the one that counts most first. -/
def Moment.fields (m : Moment) : List Nat := [m.year, m.month, m.day, m.hour, m.minute, m.second]

/-- Days since the first of 1970. -/
def Moment.days (m : Moment) : Nat :=
  start years (m.year - 1970) + (start (months m.year) (m.month - 1) + (m.day - 1))

/-- Seconds since the beginning of 1970. -/
def timegm (m : Moment) : Nat :=
  ((m.days * 24 + m.hour) * 60 + m.minute) * 60 + m.second

/-- The moment of a second since the beginning of 1970. -/
def gmtime (t : Nat) : Moment :=
  let year := locate years (t / 86400)
  let month := locate (months (1970 + year.1)) year.2
  { year := 1970 + year.1
    month := month.1 + 1
    day := month.2 + 1
    hour := t / 3600 % 24
    minute := t / 60 % 60
    second := t % 60
    month_mem := by
      refine ⟨Nat.le_add_left 1 _, locate_fst_lt (months_pos _) ?_⟩
      rw [start_months]
      exact locate_lt years_pos _
    day_mem := ⟨Nat.le_add_left 1 _, locate_lt (months_pos _) _⟩
    hour_lt := Nat.mod_lt _ (by decide)
    minute_lt := Nat.mod_lt _ (by decide)
    second_lt := Nat.mod_lt _ (by decide) }

example : (gmtime 951827696).fields = [2000, 2, 29, 12, 34, 56] := by decide

/-! ## Seconds and moments -/

theorem Moment.day_of_month (m : Moment) : m.day - 1 < months m.year (m.month - 1) := by
  obtain ⟨hday, hlength⟩ := m.day_mem
  unfold months
  rw [Nat.sub_add_cancel m.month_mem.1]
  omega

theorem Moment.day_of_year (m : Moment) :
    start (months m.year) (m.month - 1) + (m.day - 1) < yearLength m.year := by
  rw [← start_months]
  have hmonth := m.month_mem
  exact start_add_lt m.day_of_month (by omega)

theorem Moment.day_of_epoch {m : Moment} (h : 1970 ≤ m.year) :
    start (months m.year) (m.month - 1) + (m.day - 1) < years (m.year - 1970) := by
  unfold years
  rw [Nat.add_sub_cancel' h]
  exact m.day_of_year

theorem days_gmtime (t : Nat) : (gmtime t).days = t / 86400 := by
  have hmonth := start_locate (months_pos (1970 + (locate years (t / 86400)).1))
    (locate years (t / 86400)).2
  have hyear := start_locate years_pos (t / 86400)
  unfold Moment.days gmtime
  simp only [Nat.add_sub_cancel_left, Nat.add_sub_cancel]
  rw [hmonth, hyear]

/-- **The moment of a second is that second.** -/
theorem timegm_gmtime (t : Nat) : timegm (gmtime t) = t := by
  unfold timegm
  rw [days_gmtime]
  show ((t / 86400 * 24 + t / 3600 % 24) * 60 + t / 60 % 60) * 60 + t % 60 = t
  omega

theorem days_lt_iff {m n : Moment} (hm : 1970 ≤ m.year) (hn : 1970 ≤ n.year) :
    m.days < n.days ↔ [m.year, m.month, m.day] < [n.year, n.month, n.day] := by
  have hyears := start_add_lt_iff (Moment.day_of_epoch hm) (Moment.day_of_epoch hn)
  have hmonth := m.month_mem.1
  have hmonth' := n.month_mem.1
  have hday := m.day_mem.1
  have hday' := n.day_mem.1
  have hsame : m.year = n.year →
      (start (months m.year) (m.month - 1) + (m.day - 1) <
          start (months n.year) (n.month - 1) + (n.day - 1) ↔
        m.month - 1 < n.month - 1 ∨ m.month - 1 = n.month - 1 ∧ m.day - 1 < n.day - 1) := by
    intro heq
    have hlast := n.day_of_month
    rw [← heq] at hlast ⊢
    exact start_add_lt_iff m.day_of_month hlast
  unfold Moment.days
  rw [hyears]
  simp only [List.cons_lt_cons_iff, List.not_lt_nil, and_false, or_false]
  by_cases heq : m.year = n.year
  · have hmonths := hsame heq
    omega
  · omega

/-- **Seconds compare like the fields of their moments.** -/
theorem timegm_lt_iff {m n : Moment} (hm : 1970 ≤ m.year) (hn : 1970 ≤ n.year) :
    timegm m < timegm n ↔ m.fields < n.fields := by
  have hdays := days_lt_iff hm hn
  have hdays' := days_lt_iff hn hm
  have hhour := m.hour_lt
  have hhour' := n.hour_lt
  have hminute := m.minute_lt
  have hminute' := n.minute_lt
  unfold timegm
  rw [mul_add_lt_iff m.second_lt n.second_lt, mul_add_lt_iff m.minute_lt n.minute_lt,
    mul_add_lt_iff m.hour_lt n.hour_lt, hdays]
  simp only [Moment.fields, List.cons_lt_cons_iff, List.not_lt_nil, and_false, or_false] at *
  omega

end MiniOj.Infra.Calendar
