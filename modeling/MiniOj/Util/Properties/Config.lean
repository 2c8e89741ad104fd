import Mathlib.Data.List.TakeWhile
import Mathlib.Data.Nat.Digits.Defs
import MiniOj.Util.Config

/-!
# Which texts are numbers

Ids in paths and numbers in the configuration are read with `std::stoull`, which skips white
space and takes a sign. Both go unnoticed, because the rest of the text is used up.

* `decimal` — the number that a text of digits stands for
* `stoull_eq` — what `stoull` makes of a text
* `decimal_parsers_iff` — the texts that are read as they should be
* `plus_is_read` — a `+` in front of an id
-/

namespace MiniOj.Util

open Infra Auth Http

variable {s s' : Bytes} {n : Nat}

/-! ## Digits -/

/-- The number that the digits stand for. -/
def decimalValue (s : Bytes) : Nat := s.foldl (fun n b => 10 * n + (b.toNat - 48)) 0

/-- The number that a text stands for, if it consists of digits and fits 64 bits. -/
def decimal (s : Bytes) : Option Nat :=
  if s ≠ [] ∧ s.all isDigit = true ∧ decimalValue s < 2 ^ 64 then some (decimalValue s) else none

/-- A text without its leading zeros. -/
def significant (s : Bytes) : Bytes := s.dropWhile (· == 48)

theorem isDigit_bounds {b : UInt8} (h : isDigit b = true) : 48 ≤ b.toNat ∧ b.toNat ≤ 57 := by
  unfold isDigit at h
  simp only [Bool.and_eq_true, decide_eq_true_eq] at h
  exact ⟨UInt8.le_iff_toNat_le.mp h.1, UInt8.le_iff_toNat_le.mp h.2⟩

theorem decimal_eq_some_iff :
    decimal s = some n ↔ s ≠ [] ∧ s.all isDigit = true ∧ n < 2 ^ 64 ∧ decimalValue s = n := by
  unfold decimal
  constructor
  · intro h
    split at h
    · next hs =>
      cases h
      exact ⟨hs.1, hs.2.1, hs.2.2, rfl⟩
    · cases h
  · rintro ⟨hne, hdigits, hlt, rfl⟩
    exact if_pos ⟨hne, hdigits, hlt⟩

/-! ## `stoull` -/

/-- The digits of a text up to the first other byte. -/
theorem readDigits_eq : ∀ (value count : Nat) (s : Bytes), readDigits value count s =
    ((s.takeWhile isDigit).foldl (fun n b => 10 * n + (b.toNat - 48)) value,
      count + (s.takeWhile isDigit).length)
  | _, _, [] => rfl
  | value, count, b :: s => by
    rw [readDigits, List.takeWhile_cons]
    split
    · rw [readDigits_eq, List.foldl_cons, List.length_cons, Nat.mul_comm value 10]
      congr 1
      omega
    · rfl

/-- What is left after white space and a sign. -/
def afterSign (s : Bytes) : Bytes :=
  let text := s.dropWhile isSpace
  if text.head? == some 45 || text.head? == some 43 then text.drop 1 else text

/-- Something is left behind the digits when not all of a text is digits. -/
theorem length_takeWhile_lt {p : UInt8 → Bool} (h : s.all p = false) :
    (s.takeWhile p).length < s.length := by
  have hp := List.takeWhile_prefix p (l := s)
  refine Nat.lt_of_le_of_ne hp.length_le fun hlen => ?_
  rw [List.all_eq_true.mpr (List.takeWhile_eq_self_iff.mp (hp.eq_of_length hlen))] at h
  cases h

/-- `stoull` reads what comes after white space and a sign, and negates it after a `-`. -/
theorem stoull_eq (s : Bytes) : stoull s = (decimal (afterSign s)).map fun n =>
    if (s.dropWhile isSpace).head? == some 45 then (2 ^ 64 - n) % 2 ^ 64 else n := by
  unfold stoull
  dsimp only
  rw [show (if (s.dropWhile isSpace).head? == some 45 || (s.dropWhile isSpace).head? == some 43 then
    (s.dropWhile isSpace).drop 1 else s.dropWhile isSpace) = afterSign s from rfl, readDigits_eq]
  cases hdigits : (afterSign s).all isDigit with
  | false =>
    have hlt := length_takeWhile_lt hdigits
    have hnone : decimal (afterSign s) = none := if_neg fun h => by
      rw [hdigits] at h
      exact Bool.false_ne_true h.2.1
    rw [hnone]
    simp [hlt]
  | true =>
    rw [List.takeWhile_eq_self_iff.mpr (List.all_eq_true.mp hdigits)]
    unfold decimal decimalValue
    by_cases hne : afterSign s = []
    · simp [hne]
    · obtain ⟨n, hn⟩ : ∃ n, (afterSign s).foldl (fun n b => 10 * n + (b.toNat - 48)) 0 = n :=
        ⟨_, rfl⟩
      rw [hn]
      by_cases hlt : n < 18446744073709551616
      · simp [hdigits, hne, hlt, Nat.not_le.mpr hlt]
      · simp [hdigits, hlt, Nat.not_lt.mp hlt]

/-! ## White space and signs -/

/-- White space or a sign, or both, before digits that fit. -/
def Misread (s : Bytes) : Prop :=
  ∃ spaces sign digits, s = spaces ++ sign ++ digits ∧ (∀ b ∈ spaces, isSpace b = true) ∧
    (sign = [] ∨ sign = [43] ∨ sign = [45]) ∧ spaces ++ sign ≠ [] ∧ (decimal digits).isSome

/-- A text is what `stoull` skips, and what is left. -/
theorem eq_append_afterSign (s : Bytes) : ∃ spaces sign, s = spaces ++ sign ++ afterSign s ∧
    (∀ b ∈ spaces, isSpace b = true) ∧ (sign = [] ∨ sign = [43] ∨ sign = [45]) := by
  have hs := (List.takeWhile_append_dropWhile (p := isSpace) (l := s)).symm
  have hspaces : ∀ b ∈ s.takeWhile isSpace, isSpace b = true := fun b hb =>
    List.mem_takeWhile_imp hb
  unfold afterSign
  dsimp only
  cases htext : s.dropWhile isSpace with
  | nil =>
    rw [htext] at hs
    exact ⟨_, [], by simpa using hs, hspaces, .inl rfl⟩
  | cons b text =>
    rw [htext] at hs
    by_cases hsign : b = 45 ∨ b = 43
    · refine ⟨_, [b], ?_, hspaces, ?_⟩
      · rcases hsign with rfl | rfl <;> simpa using hs
      · rcases hsign with rfl | rfl
        · exact .inr (.inr rfl)
        · exact .inr (.inl rfl)
    · refine ⟨_, [], ?_, hspaces, .inl rfl⟩
      obtain ⟨hminus, hplus⟩ := not_or.mp hsign
      simpa [hminus, hplus] using hs

theorem not_isDigit_of_isSpace {b : UInt8} (h : isSpace b = true) : isDigit b = false := by
  cases hd : isDigit b with
  | false => rfl
  | true =>
    obtain ⟨hle, -⟩ := isDigit_bounds hd
    unfold isSpace at h
    simp only [Bool.or_eq_true, beq_iff_eq, Bool.and_eq_true, decide_eq_true_eq] at h
    rcases h with rfl | ⟨-, h⟩
    · cases hd
    · have hsmall : b.toNat ≤ 13 := UInt8.le_iff_toNat_le.mp h
      omega

/-- With white space or a sign in front a text does not stand for a number. -/
theorem decimal_prefixed {spaces sign : Bytes} (hspaces : ∀ b ∈ spaces, isSpace b = true)
    (hsign : sign = [] ∨ sign = [43] ∨ sign = [45]) (hne : spaces ++ sign ≠ []) (digits : Bytes) :
    decimal (spaces ++ sign ++ digits) = none := by
  refine if_neg fun h => ?_
  have hall := List.all_eq_true.mp h.2.1
  cases spaces with
  | cons b spaces =>
    have hdigit := hall b List.mem_cons_self
    rw [not_isDigit_of_isSpace (hspaces b List.mem_cons_self)] at hdigit
    cases hdigit
  | nil =>
    rcases hsign with rfl | rfl | rfl
    · exact hne rfl
    · exact absurd (hall 43 List.mem_cons_self) (by decide)
    · exact absurd (hall 45 List.mem_cons_self) (by decide)

/-- The digits that follow white space and a sign are what is left after them. -/
theorem afterSign_append {spaces sign digits : Bytes} (hspaces : ∀ b ∈ spaces, isSpace b = true)
    (hsign : sign = [] ∨ sign = [43] ∨ sign = [45]) (hdigits : (decimal digits).isSome) :
    afterSign (spaces ++ sign ++ digits) = digits := by
  obtain ⟨n, hn⟩ := Option.isSome_iff_exists.mp hdigits
  obtain ⟨hne, hall, -, -⟩ := decimal_eq_some_iff.mp hn
  obtain ⟨d, rest, rfl⟩ := List.exists_cons_of_ne_nil hne
  have hd : isDigit d = true := List.all_eq_true.mp hall d List.mem_cons_self
  have hspace : isSpace d = false := by
    cases h : isSpace d with
    | false => rfl
    | true =>
      rw [not_isDigit_of_isSpace h] at hd
      cases hd
  have hsigns : d ≠ 45 ∧ d ≠ 43 := by
    constructor <;> rintro rfl <;> cases hd
  unfold afterSign
  rw [List.append_assoc, List.dropWhile_append_of_pos hspaces]
  rcases hsign with rfl | rfl | rfl
  · rw [List.nil_append, List.dropWhile_cons_of_neg (by simp [hspace])]
    simp [hsigns]
  · rfl
  · rfl

/-! ## The parsers -/

/-- A text that `stoull` skips nothing of has no minus. -/
theorem head_ne_minus (h : afterSign s = s) : (s.dropWhile isSpace).head? ≠ some 45 := by
  intro hminus
  unfold afterSign at h
  dsimp only at h
  rw [hminus, if_pos (by decide)] at h
  have hlen := congrArg List.length h
  rw [List.length_drop] at hlen
  have hle := (List.dropWhile_suffix isSpace (l := s)).length_le
  have hpos : 0 < (s.dropWhile isSpace).length :=
    List.length_pos_of_mem (List.mem_of_mem_head? hminus)
  omega

/-- `stoull` agrees with the digits except on the texts that it misreads. -/
theorem stoull_eq_decimal_iff (s : Bytes) : stoull s = decimal s ↔ ¬ Misread s := by
  constructor
  · rintro heq ⟨spaces, sign, digits, rfl, hspaces, hsign, hne, hdigits⟩
    rw [decimal_prefixed hspaces hsign hne, stoull_eq, afterSign_append hspaces hsign hdigits,
      Option.map_eq_none_iff] at heq
    rw [heq] at hdigits
    cases hdigits
  · intro hnot
    obtain ⟨spaces, sign, hs, hspaces, hsign⟩ := eq_append_afterSign s
    by_cases hne : spaces ++ sign = []
    · rw [hne, List.nil_append] at hs
      rw [stoull_eq, ← hs]
      simp [head_ne_minus hs.symm]
    · have hnone : decimal (afterSign s) = none := by
        cases hdigits : decimal (afterSign s) with
        | none => rfl
        | some n =>
          exact absurd ⟨spaces, sign, _, hs, hspaces, hsign, hne, by rw [hdigits]; rfl⟩ hnot
      have hnone' : decimal s = none := by
        rw [hs]
        exact decimal_prefixed hspaces hsign hne _
      rw [stoull_eq, hnone, hnone', Option.map_none]

theorem parseProblemId_iff (s : Bytes) : parseProblemId s = decimal s ↔ ¬ Misread s := by
  rw [← stoull_eq_decimal_iff]
  cases s <;> rfl

/-- The number, or the exception of `parseUnsigned`. -/
def orInvalid (key : Bytes) (number : Option Nat) : Except Exn Nat :=
  number.elim (.error (invalidUnsigned key)) .ok

theorem orInvalid_inj {key : Bytes} {x y : Option Nat} :
    orInvalid key x = orInvalid key y ↔ x = y := by
  cases x <;> cases y <;> simp [orInvalid]

theorem parseUnsigned_eq (key : Bytes) (h : s.head? ≠ some 45) :
    parseUnsigned key s = orInvalid key (stoull s) := by
  unfold parseUnsigned
  rw [beq_eq_false_iff_ne.mpr h, Bool.or_false]
  cases s with
  | nil => rfl
  | cons b rest =>
    rw [if_neg (by simp)]
    cases stoull (b :: rest) <;> rfl

/-- `parseUnsigned` looks at the first byte: it misreads what does not begin with a `-`. -/
theorem parseUnsigned_iff (key s : Bytes) : parseUnsigned key s = orInvalid key (decimal s) ↔
    ¬ (s.head? ≠ some 45 ∧ Misread s) := by
  by_cases hminus : s.head? = some 45
  · obtain ⟨rest, rfl⟩ := List.head?_eq_some_iff.mp hminus
    have hnone : decimal (45 :: rest) = none :=
      @decimal_prefixed [] [45] (fun _ h => nomatch h) (by simp) (by simp) rest
    rw [hnone]
    exact ⟨fun _ h => h.1 hminus, fun _ => rfl⟩
  · rw [parseUnsigned_eq key hminus, orInvalid_inj, stoull_eq_decimal_iff, not_and]
    exact ⟨fun h _ => h, fun h => h hminus⟩

theorem stoull_lt (h : stoull s = some n) : n < 2 ^ 64 := by
  rw [stoull_eq] at h
  obtain ⟨v, hv, rfl⟩ := Option.map_eq_some_iff.mp h
  split
  · exact Nat.mod_lt _ (by decide)
  · exact (decimal_eq_some_iff.mp hv).2.2.1

/-- The range check of `parseSize` has nothing to refuse. -/
theorem parseSize_eq (key s : Bytes) : parseSize key s = parseUnsigned key s := by
  unfold parseSize
  cases hp : parseUnsigned key s with
  | error e => rfl
  | ok n =>
    have hn : stoull s = some n := by
      unfold parseUnsigned at hp
      split at hp
      · cases hp
      · split at hp
        · cases hp
        · next hs =>
          cases hp
          exact hs
    have hle : ¬ 2 ^ 64 - 1 < n := by
      have hlt := stoull_lt hn
      omega
    exact if_neg hle

/-- A port is a number other than 0 that fits 16 bits. -/
theorem parsePort_eq_ok_iff {key : Bytes} {port : UInt16} : parsePort key s = .ok port ↔
    parseUnsigned key s = .ok port.toNat ∧ port ≠ 0 := by
  unfold parsePort
  cases parseUnsigned key s with
  | error e => simp [bind, Except.bind]
  | ok n =>
    show (if n = 0 ∨ 65535 < n then
      (Except.error (runtimeError (utf8 "port out of range for " ++ key)) : Except Exn UInt16)
      else .ok (.ofNat n)) = .ok port ↔ _
    have hport : port.toNat < 65536 := UInt16.toNat_lt_size port
    have hzero : port ≠ 0 ↔ port.toNat ≠ 0 := not_congr UInt16.toNat_inj.symm
    rw [hzero]
    split
    · next hrange =>
      constructor
      · intro h
        cases h
      · rintro ⟨h, hpos⟩
        cases h
        omega
    · next hrange =>
      have hn : (UInt16.ofNat n).toNat = n := UInt16.toNat_ofNat_of_lt' (show n < 65536 by omega)
      simp only [Except.ok.injEq]
      constructor
      · rintro rfl
        exact ⟨hn.symm, by omega⟩
      · rintro ⟨rfl, -⟩
        exact UInt16.ofNat_toNat

/-! ## Leading zeros -/

theorem decimalValue_significant (s : Bytes) : decimalValue (significant s) = decimalValue s := by
  unfold significant decimalValue
  induction s with
  | nil => rfl
  | cons b s ih =>
    rw [List.dropWhile_cons]
    split
    · next hb =>
      rw [ih, eq_of_beq hb]
      rfl
    · rfl

/-- The digits of a text, the last one first. -/
def digitsOf (s : Bytes) : List Nat := s.reverse.map fun b => b.toNat - 48

theorem decimalValue_eq (s : Bytes) : decimalValue s = Nat.ofDigits 10 (digitsOf s) := by
  unfold decimalValue digitsOf
  rw [Nat.ofDigits_eq_foldr, List.foldr_map, List.foldr_reverse]
  refine congrArg (fun f => s.foldl f 0) (funext fun n => funext fun b => ?_)
  rw [Nat.cast_id, Nat.add_comm]

/-- The digits of a number are those of its text without leading zeros. -/
theorem digits_decimalValue (h : s.all isDigit = true) :
    Nat.digits 10 (decimalValue s) = digitsOf (significant s) := by
  have hall : ∀ b ∈ significant s, isDigit b = true := fun b hb =>
    List.all_eq_true.mp h b ((List.dropWhile_suffix _).subset hb)
  rw [← decimalValue_significant, decimalValue_eq]
  refine Nat.digits_ofDigits 10 (by decide) _ (fun d hd => ?_) fun hne => ?_
  · obtain ⟨b, hb, rfl⟩ := List.mem_map.mp hd
    have hb' := isDigit_bounds (hall b (List.mem_reverse.mp hb))
    omega
  · -- the last digit of the list is the first of the text
    have hcons : significant s ≠ [] := fun h => hne (by rw [h]; rfl)
    obtain ⟨b, rest, hs⟩ := List.exists_cons_of_ne_nil hcons
    have hb : b ≠ 48 := by
      have hhead := List.head?_dropWhile_not (· == 48) s
      rw [show s.dropWhile (· == 48) = b :: rest from hs] at hhead
      simpa using hhead
    have hb' := isDigit_bounds (hall b (hs ▸ List.mem_cons_self))
    have hne' : b.toNat ≠ 48 := fun heq => hb (UInt8.toNat_inj.mp heq)
    have hlast : digitsOf (significant s) = digitsOf rest ++ [b.toNat - 48] := by
      simp [digitsOf, hs]
    simp only [hlast, List.getLast_concat]
    omega

theorem digitsOf_inj (h : ∀ b ∈ s, isDigit b = true) (h' : ∀ b ∈ s', isDigit b = true)
    (heq : digitsOf s = digitsOf s') : s = s' := by
  unfold digitsOf at heq
  rw [List.map_reverse, List.map_reverse, List.reverse_inj] at heq
  induction s generalizing s' with
  | nil => exact (List.map_eq_nil_iff.mp heq.symm).symm
  | cons b s ih =>
    cases s' with
    | nil => cases heq
    | cons b' s' =>
      obtain ⟨hb, hs⟩ := List.forall_mem_cons.mp h
      obtain ⟨hb', hs'⟩ := List.forall_mem_cons.mp h'
      obtain ⟨hfirst, hrest⟩ := List.cons_eq_cons.mp heq
      change b.toNat - 48 = b'.toNat - 48 at hfirst
      have hbounds := isDigit_bounds hb
      have hbounds' := isDigit_bounds hb'
      rw [UInt8.toNat_inj.mp (show b.toNat = b'.toNat by omega), ih hs hs' hrest]

/-- **A number has one text without leading zeros.** -/
theorem significant_inj (h : s.all isDigit = true) (h' : s'.all isDigit = true)
    (heq : decimalValue s = decimalValue s') : significant s = significant s' := by
  have hdigits : digitsOf (significant s) = digitsOf (significant s') := by
    rw [← digits_decimalValue h, heq, digits_decimalValue h']
  refine digitsOf_inj (fun b hb => ?_) (fun b hb => ?_) hdigits
  · exact List.all_eq_true.mp h b ((List.dropWhile_suffix _).subset hb)
  · exact List.all_eq_true.mp h' b ((List.dropWhile_suffix _).subset hb)

/-! ## The law of decimal numbers -/

/--
**Which texts are read as the numbers they stand for.**

An id in a path is read right, that is as `decimal` reads it, unless it is white space or a sign
before a number; `parseUnsigned` misreads the same texts except those that begin with a `-`.
Of the ids that are read right, those that name one problem differ in leading zeros only.
-/
theorem decimal_parsers_iff (key s : Bytes) :
    (parseProblemId s = decimal s ↔ ¬ Misread s) ∧
    (parseUnsigned key s = orInvalid key (decimal s) ↔ ¬ (s.head? ≠ some 45 ∧ Misread s)) ∧
    ∀ s' n, ¬ Misread s → ¬ Misread s' → parseProblemId s = some n → parseProblemId s' = some n →
      significant s = significant s' := by
  refine ⟨parseProblemId_iff s, parseUnsigned_iff key s, fun s' n hs hs' hn hn' => ?_⟩
  rw [(parseProblemId_iff s).mpr hs] at hn
  rw [(parseProblemId_iff s').mpr hs'] at hn'
  obtain ⟨-, hall, -, hvalue⟩ := decimal_eq_some_iff.mp hn
  obtain ⟨-, hall', -, hvalue'⟩ := decimal_eq_some_iff.mp hn'
  exact significant_inj hall hall' (hvalue.trans hvalue'.symm)

/-- `+7` is read as 7 by all of them, and so names the problem that `7` names. -/
theorem plus_is_read : ¬ ∀ key s : Bytes, parseProblemId s = decimal s ∧
    parseUnsigned key s = orInvalid key (decimal s) ∧
    ∀ s' n, parseProblemId s = some n → parseProblemId s' = some n →
      significant s = significant s' := by
  intro h
  have hread := (h [] (utf8 "+7")).1
  exact absurd hread (by decide)

end MiniOj.Util
