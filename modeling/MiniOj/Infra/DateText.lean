import Mathlib.Data.List.Basic
import MiniOj.Infra.Calendar
import MiniOj.Infra.SqlLexer

/-!
# Moments as text

What `strftime` and `std::put_time` write for `%Y-%m-%d`, a separator and `%H:%M:%S`, and reading
it back. A year has four digits from 1000 to 9999.

* `readMoment_strftime` — the text is read as the moment
* `strftime_lt_iff` — texts compare byte by byte like the seconds
-/

namespace MiniOj.Infra.Calendar

open Sql

/-! ## Digits -/

/-- The last `width` digits of a number. -/
def digits : Nat → Nat → Bytes
  | 0, _ => []
  | width + 1, n => digits width (n / 10) ++ [digit (n % 10)]

def digitsValue (s : Bytes) : Nat := s.foldl (fun n b => 10 * n + (b.toNat - 48)) 0

/-- The number in the first `width` bytes, and the rest. -/
def readDigits (width : Nat) (s : Bytes) : Option (Nat × Bytes) :=
  if width ≤ s.length ∧ (s.take width).all isDigit = true then
    some (digitsValue (s.take width), s.drop width)
  else none

theorem length_digits : ∀ width n : Nat, (digits width n).length = width
  | 0, _ => rfl
  | width + 1, n => by
    rw [digits, List.length_append, length_digits width, List.length_singleton]

theorem all_digits : ∀ width n : Nat, (digits width n).all isDigit = true
  | 0, _ => rfl
  | width + 1, n => by
    rw [digits, List.all_append, all_digits width, Bool.true_and, List.all_cons, List.all_nil,
      Bool.and_true]
    exact (digit_spec (n % 10) (Nat.mod_lt n (by decide))).1

theorem digitsValue_digits : ∀ {width n : Nat}, n < 10 ^ width → digitsValue (digits width n) = n
  | 0, n, h => by
    obtain rfl := Nat.lt_one_iff.mp h
    rfl
  | width + 1, n, h => by
    have hdiv : n / 10 < 10 ^ width := Nat.div_lt_of_lt_mul (Nat.pow_succ' ▸ h)
    have hvalue := (digit_spec (n % 10) (Nat.mod_lt n (by decide))).2.2.2.2.1
    have ih : (digits width (n / 10)).foldl (fun n b => 10 * n + (b.toNat - 48)) 0 = n / 10 :=
      digitsValue_digits hdiv
    rw [digitsValue, digits, List.foldl_append, ih, List.foldl_cons, List.foldl_nil, hvalue]
    exact Nat.div_add_mod n 10

theorem readDigits_digits {width n : Nat} (h : n < 10 ^ width) (rest : Bytes) :
    readDigits width (digits width n ++ rest) = some (n, rest) := by
  have hlength := length_digits width n
  have htake : (digits width n ++ rest).take width = digits width n := List.take_left' hlength
  unfold readDigits
  rw [htake, List.drop_left' hlength, digitsValue_digits h, if_pos]
  refine ⟨?_, all_digits width n⟩
  rw [List.length_append, hlength]
  exact Nat.le_add_right _ _

/-- A numeral of `width` digits. -/
theorem decimal_eq_digits : ∀ {width n : Nat}, 10 ^ width ≤ n → n < 10 ^ (width + 1) →
    decimal n = digits (width + 1) n
  | 0, n, _, h => by
    have hten : n < 10 := h
    have hmod : n % 10 = n := Nat.mod_eq_of_lt hten
    rw [decimal, if_pos hten, digits, digits, hmod, List.nil_append]
  | width + 1, n, hle, h => by
    have hten : ¬ n < 10 := by
      have hpow : 10 ^ 1 ≤ 10 ^ (width + 1) := Nat.pow_le_pow_right (by decide) (by omega)
      omega
    have hlow : 10 ^ width ≤ n / 10 := (Nat.le_div_iff_mul_le (by decide)).mpr hle
    have hhigh : n / 10 < 10 ^ (width + 1) := Nat.div_lt_of_lt_mul (Nat.pow_succ' ▸ h)
    rw [decimal, if_neg hten, decimal_eq_digits hlow hhigh]
    rfl

/-! ## Order -/

/-- Texts whose beginnings are equally long compare by the beginnings first. -/
theorem append_lt_append_iff {α : Type} [LT α] [Std.Irrefl (α := α) (· < ·)] :
    ∀ {a b x y : List α}, a.length = b.length → (a ++ x < b ++ y ↔ a < b ∨ a = b ∧ x < y)
  | [], [], x, y, _ => by simp
  | c :: a, d :: b, x, y, h => by
    have ih := append_lt_append_iff (x := x) (y := y) (Nat.succ.inj h)
    rw [List.cons_append, List.cons_append, List.cons_lt_cons_iff, List.cons_lt_cons_iff, ih,
      List.cons.injEq]
    tauto

theorem digit_lt_iff {m n : Nat} (hm : m < 10) (hn : n < 10) : digit m < digit n ↔ m < n := by
  unfold digit
  rw [UInt8.lt_iff_toNat_lt, UInt8.toNat_ofNat', UInt8.toNat_ofNat']
  omega

theorem digits_inj {width m n : Nat} (hm : m < 10 ^ width) (hn : n < 10 ^ width) :
    digits width m = digits width n ↔ m = n :=
  ⟨fun h => by rw [← digitsValue_digits hm, h, digitsValue_digits hn], fun h => h ▸ rfl⟩

theorem digits_lt_iff : ∀ {width m n : Nat}, m < 10 ^ width → n < 10 ^ width →
    (digits width m < digits width n ↔ m < n)
  | 0, m, n, hm, hn => by
    obtain rfl := Nat.lt_one_iff.mp hm
    obtain rfl := Nat.lt_one_iff.mp hn
    exact iff_of_false (List.lt_irrefl _) (Nat.lt_irrefl _)
  | width + 1, m, n, hm, hn => by
    have hm' : m / 10 < 10 ^ width := Nat.div_lt_of_lt_mul (Nat.pow_succ' ▸ hm)
    have hn' : n / 10 < 10 ^ width := Nat.div_lt_of_lt_mul (Nat.pow_succ' ▸ hn)
    have hlength : (digits width (m / 10)).length = (digits width (n / 10)).length := by
      rw [length_digits, length_digits]
    rw [digits, digits, append_lt_append_iff hlength, digits_lt_iff hm' hn', digits_inj hm' hn',
      List.cons_lt_cons_iff, digit_lt_iff (Nat.mod_lt m (by decide)) (Nat.mod_lt n (by decide))]
    simp only [List.not_lt_nil, and_false, or_false]
    omega

/-! ## Moments -/

/-- `sep` stands between the date and the time. -/
def strftime (sep : UInt8) (m : Moment) : Bytes :=
  decimal m.year ++ 45 :: (digits 2 m.month ++ 45 :: (digits 2 m.day ++ sep :: (digits 2 m.hour ++
    58 :: (digits 2 m.minute ++ 58 :: digits 2 m.second))))

/-- The number of two digits after `sep`, and the rest. -/
def readField (sep : UInt8) : Bytes → Option (Nat × Bytes)
  | [] => none
  | b :: s => if b = sep then readDigits 2 s else none

/-- The moment with these fields, if there is one. -/
def Moment.ofFields (year month day hour minute second : Nat) : Option Moment :=
  if h : (1 ≤ month ∧ month ≤ 12) ∧ (1 ≤ day ∧ day ≤ monthLength year month) ∧ hour < 24 ∧
      minute < 60 ∧ second < 60 then
    some ⟨year, month, day, hour, minute, second, h.1, h.2.1, h.2.2.1, h.2.2.2.1, h.2.2.2.2⟩
  else none

/-- The moment at the beginning of a text, and the rest. -/
def readMoment (sep : UInt8) (s : Bytes) : Option (Moment × Bytes) := do
  let (year, s) ← readDigits 4 s
  let (month, s) ← readField 45 s
  let (day, s) ← readField 45 s
  let (hour, s) ← readField sep s
  let (minute, s) ← readField 58 s
  let (second, s) ← readField 58 s
  let m ← Moment.ofFields year month day hour minute second
  return (m, s)

variable {sep : UInt8} {m n : Moment}

theorem Moment.ofFields_self (m : Moment) :
    ofFields m.year m.month m.day m.hour m.minute m.second = some m :=
  dif_pos ⟨m.month_mem, m.day_mem, m.hour_lt, m.minute_lt, m.second_lt⟩

theorem monthLength_le (year month : Nat) : monthLength year month ≤ 31 := by
  unfold monthLength
  split
  · split <;> decide
  all_goals decide

/-- Every field but the year has two digits. -/
theorem Moment.two_digits (m : Moment) : m.month < 10 ^ 2 ∧ m.day < 10 ^ 2 ∧ m.hour < 10 ^ 2 ∧
    m.minute < 10 ^ 2 ∧ m.second < 10 ^ 2 := by
  obtain ⟨-, hmonth⟩ := m.month_mem
  obtain ⟨-, hday⟩ := m.day_mem
  have hlength := monthLength_le m.year m.month
  have hhour := m.hour_lt
  have hminute := m.minute_lt
  have hsecond := m.second_lt
  omega

/-- The text of a moment with a year of four digits. -/
theorem strftime_eq (hlow : 1000 ≤ m.year) (hhigh : m.year < 10000) :
    strftime sep m = digits 4 m.year ++ 45 :: (digits 2 m.month ++ 45 :: (digits 2 m.day ++
      sep :: (digits 2 m.hour ++ 58 :: (digits 2 m.minute ++ 58 :: digits 2 m.second)))) := by
  have hthree : 10 ^ 3 ≤ m.year := hlow
  rw [strftime, decimal_eq_digits hthree hhigh]

theorem readField_digits {n : Nat} (h : n < 10 ^ 2) (rest : Bytes) :
    readField sep (sep :: (digits 2 n ++ rest)) = some (n, rest) := by
  rw [readField, if_pos rfl, readDigits_digits h]

/-- **The text of a moment is read as the moment**, whatever comes after it. -/
theorem readMoment_strftime (hlow : 1000 ≤ m.year) (hhigh : m.year < 10000) (rest : Bytes) :
    readMoment sep (strftime sep m ++ rest) = some (m, rest) := by
  obtain ⟨hmonth, hday, hhour, hminute, hsecond⟩ := m.two_digits
  rw [strftime_eq hlow hhigh]
  simp only [List.append_assoc, List.cons_append]
  unfold readMoment
  rw [readDigits_digits (by omega : m.year < 10 ^ 4)]
  simp only [Option.bind_eq_bind, Option.bind_some, readField_digits hmonth, readField_digits hday,
    readField_digits hhour, readField_digits hminute, readField_digits hsecond,
    Moment.ofFields_self]
  rfl

theorem all_decimal (n : Nat) : (decimal n).all isDigit = true := by
  induction n using decimal.induct with
  | case1 n hn =>
    rw [decimal, if_pos hn, List.all_cons, (digit_spec n hn).1]
    rfl
  | case2 n hn ih =>
    rw [decimal, if_neg hn, List.all_append, ih, List.all_cons,
      (digit_spec (n % 10) (Nat.mod_lt n (by decide))).1]
    rfl

theorem lt_length_decimal : ∀ {width n : Nat}, 10 ^ width ≤ n → width < (decimal n).length
  | 0, n, _ => by
    rw [decimal]
    split
    · exact Nat.one_pos
    · rw [List.length_append]
      exact Nat.succ_pos _
  | width + 1, n, h => by
    have hten : ¬ n < 10 := by
      have hpow : 10 ^ 1 ≤ 10 ^ (width + 1) := Nat.pow_le_pow_right (by decide) (by omega)
      omega
    have hlow : 10 ^ width ≤ n / 10 := (Nat.le_div_iff_mul_le (by decide)).mpr h
    rw [decimal, if_neg hten, List.length_append]
    exact Nat.succ_lt_succ (lt_length_decimal hlow)

/-- **A year of more than four digits is not read.** -/
theorem readMoment_late (h : 10000 ≤ m.year) (rest : Bytes) :
    readMoment sep (strftime sep m ++ rest) = none := by
  have hfour : 10 ^ 4 ≤ m.year := h
  have hlength := lt_length_decimal hfour
  have hsplit := List.take_append_drop 4 (decimal m.year)
  obtain ⟨b, more, hdrop⟩ := List.exists_cons_of_length_pos
    (by rw [List.length_drop]; omega : 0 < ((decimal m.year).drop 4).length)
  have hb : isDigit b = true := by
    refine List.all_eq_true.mp (all_decimal m.year) b (List.mem_of_mem_drop (i := 4) ?_)
    rw [hdrop]
    exact List.mem_cons_self
  have hne : b ≠ 45 := by
    rintro rfl
    cases hb
  unfold readMoment readDigits strftime
  split
  · rw [List.append_assoc, List.drop_append_of_le_length hlength.le, hdrop]
    simp only [Option.bind_eq_bind, Option.bind_some, List.cons_append, readField, if_neg hne,
      Option.bind_none]
  · rfl

/-- **Texts compare byte by byte like the fields.** -/
theorem strftime_lt_iff (hm : 1000 ≤ m.year) (hm' : m.year < 10000) (hn : 1000 ≤ n.year)
    (hn' : n.year < 10000) : strftime sep m < strftime sep n ↔ m.fields < n.fields := by
  obtain ⟨hmonth, hday, hhour, hminute, hsecond⟩ := m.two_digits
  obtain ⟨nmonth, nday, nhour, nminute, nsecond⟩ := n.two_digits
  have hlength : ∀ width a b, (digits width a).length = (digits width b).length :=
    fun width a b => by rw [length_digits, length_digits]
  have hyear : m.year < 10 ^ 4 := hm'
  have nyear : n.year < 10 ^ 4 := hn'
  rw [strftime_eq hm hm', strftime_eq hn hn', Moment.fields, Moment.fields]
  simp only [append_lt_append_iff (hlength _ _ _), List.cons_lt_cons_iff, UInt8.lt_irrefl, false_or,
    true_and, List.not_lt_nil, and_false, or_false, digits_lt_iff hyear nyear,
    digits_inj hyear nyear, digits_lt_iff hmonth nmonth, digits_inj hmonth nmonth,
    digits_lt_iff hday nday, digits_inj hday nday, digits_lt_iff hhour nhour,
    digits_inj hhour nhour, digits_lt_iff hminute nminute, digits_inj hminute nminute,
    digits_lt_iff hsecond nsecond]

/-! ## Seconds -/

theorem year_gmtime (t : Nat) : 1970 ≤ (gmtime t).year := Nat.le_add_right 1970 _

/-- Years have four digits until the end of 9999. -/
theorem year_gmtime_lt_iff (t : Nat) : (gmtime t).year < 10000 ↔ t < 253402300800 := by
  have hdays : start years 8030 = 2932897 := by decide +kernel
  have hsum := start_locate years_pos (t / 86400)
  have hlt := locate_lt years_pos (t / 86400)
  have hyear : (gmtime t).year < 10000 ↔ (locate years (t / 86400)).1 < 8030 := by
    show 1970 + (locate years (t / 86400)).1 < 10000 ↔ _
    omega
  rw [hyear]
  constructor
  · intro h
    have hstart := start_add_lt hlt h
    omega
  · intro h
    exact locate_fst_lt years_pos (by omega)

/-- **Texts compare byte by byte like the seconds that they name.** -/
theorem strftime_gmtime_lt_iff {t u : Nat} (ht : t < 253402300800) (hu : u < 253402300800) :
    strftime sep (gmtime t) < strftime sep (gmtime u) ↔ t < u := by
  have ht' := (year_gmtime_lt_iff t).mpr ht
  have hu' := (year_gmtime_lt_iff u).mpr hu
  have hlow := year_gmtime t
  have hlow' := year_gmtime u
  rw [strftime_lt_iff (by omega) ht' (by omega) hu', ← timegm_lt_iff hlow hlow', timegm_gmtime,
    timegm_gmtime]

end MiniOj.Infra.Calendar
