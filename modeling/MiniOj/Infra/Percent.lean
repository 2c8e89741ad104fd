import MiniOj.Infra.Bytes
import MiniOj.Infra.Separator

/-!
# Percent-encoding

Bytes as `%` and two digits, and lists of names and values as `application/x-www-form-urlencoded`.
Which bytes stand for themselves is a parameter.

* `percentDecode_percentEncode` — what is encoded is decoded again
* `notMem_formEncode` — encoded names and values have no separators in them
* `parseForm_serializeForm` — a list of names and values is read as it was written
-/

namespace MiniOj.Infra

variable {keep : UInt8 → Bool} {b : UInt8} {s rest : Bytes}

/-! ## Encoding -/

/-- A digit in upper case. -/
def hexDigitUpper (n : Nat) : UInt8 := .ofNat (if n < 10 then 48 + n else 55 + n)

/-- `%` and two digits. -/
def percentEscape (b : UInt8) : Bytes :=
  [37, hexDigitUpper (b.toNat / 16), hexDigitUpper (b.toNat % 16)]

/-- All bytes but those kept are escaped. -/
def percentEncode (keep : UInt8 → Bool) (s : Bytes) : Bytes :=
  s.flatMap fun b => if keep b then [b] else percentEscape b

/-- A letter or a digit of ASCII. -/
def isAlphanumeric (b : UInt8) : Bool :=
  (48 ≤ b && b ≤ 57) || (65 ≤ b && b ≤ 90) || (97 ≤ b && b ≤ 122)

/-- What a form does not encode: letters, digits and `*-._`. -/
def isFormSafe (b : UInt8) : Bool := isAlphanumeric b || b == 42 || b == 45 || b == 46 || b == 95

/-- A blank is written as a plus. -/
def formEncode (s : Bytes) : Bytes :=
  s.flatMap fun b => if b = 32 then [43] else if isFormSafe b then [b] else percentEscape b

/-- `name=value&…`. -/
def serializeForm (pairs : List (Bytes × Bytes)) : Bytes :=
  [38].intercalate (pairs.map fun p => formEncode p.1 ++ 61 :: formEncode p.2)

/-! ## Decoding -/

/-- A digit of either case. -/
def hexValue (b : UInt8) : Option Nat :=
  if 48 ≤ b ∧ b ≤ 57 then some (b.toNat - 48)
  else if 65 ≤ b ∧ b ≤ 70 then some (b.toNat - 55)
  else if 97 ≤ b ∧ b ≤ 102 then some (b.toNat - 87)
  else none

/-- The byte of an escape, behind its `%`. -/
def escapedByte : Bytes → Option UInt8
  | high :: low :: _ =>
    match hexValue high, hexValue low with
    | some high, some low => some (.ofNat (16 * high + low))
    | _, _ => none
  | _ => none

/-- The rest of `percentDecode` when `skip` bytes belong to an escape that has been read. -/
def percentDecodeFrom : Nat → Bytes → Bytes
  | _, [] => []
  | skip + 1, _ :: rest => percentDecodeFrom skip rest
  | 0, b :: rest =>
    if b = 37 then
      match escapedByte rest with
      | some c => c :: percentDecodeFrom 2 rest
      | none => b :: percentDecodeFrom 0 rest
    else b :: percentDecodeFrom 0 rest

/-- An escape is one byte, and what is none stays. -/
def percentDecode (s : Bytes) : Bytes := percentDecodeFrom 0 s

/-- A plus is a blank in a form. -/
def plusToSpace (b : UInt8) : UInt8 := if b = 43 then 32 else b

/-- The decoding of names and values. -/
def formDecode (s : Bytes) : Bytes := percentDecode (s.map plusToSpace)

/-- The part before the first equals sign and the part after it. -/
def splitPair (piece : Bytes) : Bytes × Bytes :=
  (piece.takeWhile (· != 61), (piece.dropWhile (· != 61)).drop 1)

/-- The pairs of a form. -/
def parseForm (s : Bytes) : List (Bytes × Bytes) :=
  ((s.splitOn 38).filter fun piece => !piece.isEmpty).map fun piece =>
    (formDecode (splitPair piece).1, formDecode (splitPair piece).2)

/-! ## Escapes -/

/-- A digit is read back. -/
theorem hexValue_hexDigitUpper {n : Nat} (h : n < 16) : hexValue (hexDigitUpper n) = some n := by
  have hall : ∀ n < 16, hexValue (hexDigitUpper n) = some n := by decide
  exact hall n h

/-- The digits of an escape are digits and capital letters. -/
theorem isAlphanumeric_hexDigitUpper {n : Nat} (h : n < 16) :
    isAlphanumeric (hexDigitUpper n) = true ∧ hexDigitUpper n ≤ 90 := by
  have hall : ∀ n < 16, isAlphanumeric (hexDigitUpper n) = true ∧ hexDigitUpper n ≤ 90 := by decide
  exact hall n h

/-- A byte has two digits. -/
theorem digits_lt (b : UInt8) : b.toNat / 16 < 16 ∧ b.toNat % 16 < 16 := by
  have := b.toNat_lt
  omega

/-- They are the byte. -/
theorem ofNat_digits (b : UInt8) : UInt8.ofNat (16 * (b.toNat / 16) + b.toNat % 16) = b := by
  rw [Nat.div_add_mod, UInt8.ofNat_toNat]

/-- An escape is read back as its byte. -/
theorem percentDecode_percentEscape (b : UInt8) (rest : Bytes) :
    percentDecode (percentEscape b ++ rest) = b :: percentDecode rest := by
  obtain ⟨hhigh, hlow⟩ := digits_lt b
  have hescaped : escapedByte (hexDigitUpper (b.toNat / 16) :: hexDigitUpper (b.toNat % 16) ::
      rest) = some b := by
    unfold escapedByte
    dsimp only
    rw [hexValue_hexDigitUpper hhigh, hexValue_hexDigitUpper hlow]
    exact congrArg some (ofNat_digits b)
  show percentDecodeFrom 0 (37 :: hexDigitUpper (b.toNat / 16) ::
    hexDigitUpper (b.toNat % 16) :: rest) = _
  rw [percentDecodeFrom, if_pos rfl, hescaped]
  rfl

/-- What is not escaped stays. -/
theorem percentDecode_cons (h : b ≠ 37) (rest : Bytes) :
    percentDecode (b :: rest) = b :: percentDecode rest :=
  if_neg h

/-- **Escaping is undone**, as long as the percent sign is escaped. -/
theorem percentDecode_percentEncode (hkeep : keep 37 = false) (s : Bytes) :
    percentDecode (percentEncode keep s) = s := by
  induction s with
  | nil => rfl
  | cons b s ih =>
    show percentDecode ((if keep b then [b] else percentEscape b) ++ percentEncode keep s) = _
    split
    · next hb =>
      have hne : b ≠ 37 := by
        rintro rfl
        rw [hkeep] at hb
        cases hb
      rw [List.singleton_append, percentDecode_cons hne, ih]
    · rw [percentDecode_percentEscape, ih]

/-- An encoded text has the bytes that stand for themselves, percent signs, digits and capital
letters. -/
theorem of_mem_percentEncode (h : b ∈ percentEncode keep s) :
    keep b = true ∨ b = 37 ∨ isAlphanumeric b = true := by
  obtain ⟨c, -, hb⟩ := List.mem_flatMap.mp h
  split at hb
  · next hc =>
    cases List.mem_singleton.mp hb
    exact .inl hc
  · obtain ⟨hhigh, hlow⟩ := digits_lt c
    simp only [percentEscape, List.mem_cons, List.not_mem_nil, or_false] at hb
    obtain rfl | rfl | rfl := hb
    · exact .inr (.inl rfl)
    · exact .inr (.inr (isAlphanumeric_hexDigitUpper hhigh).1)
    · exact .inr (.inr (isAlphanumeric_hexDigitUpper hlow).1)

/-! ## Forms -/

theorem plusToSpace_of_ne (h : b ≠ 43) : plusToSpace b = b := if_neg h

/-- An escape has no plus. -/
theorem map_plusToSpace_percentEscape (b : UInt8) :
    (percentEscape b).map plusToSpace = percentEscape b := by
  have hall : ∀ n < 16, plusToSpace (hexDigitUpper n) = hexDigitUpper n := by decide
  obtain ⟨hhigh, hlow⟩ := digits_lt b
  simp only [percentEscape, List.map_cons, List.map_nil, hall _ hhigh, hall _ hlow]
  rfl

/-- **A name or a value is read back.** -/
theorem formDecode_formEncode (s : Bytes) : formDecode (formEncode s) = s := by
  induction s with
  | nil => rfl
  | cons b s ih =>
    show percentDecode (((if b = 32 then [43] else if isFormSafe b then [b] else percentEscape b) ++
      formEncode s).map plusToSpace) = _
    rw [List.map_append]
    split
    · next hspace =>
      have hrest : percentDecode (32 :: (formEncode s).map plusToSpace) =
          32 :: percentDecode ((formEncode s).map plusToSpace) := percentDecode_cons (by decide) _
      rw [hspace]
      exact hrest.trans (congrArg (32 :: ·) ih)
    · split
      · next hsafe =>
        have hplus : b ≠ 43 := by
          rintro rfl
          exact absurd hsafe (by decide)
        have hpercent : b ≠ 37 := by
          rintro rfl
          exact absurd hsafe (by decide)
        rw [List.map_singleton, plusToSpace_of_ne hplus, List.singleton_append,
          percentDecode_cons hpercent]
        exact congrArg (b :: ·) ih
      · rw [map_plusToSpace_percentEscape, percentDecode_percentEscape]
        exact congrArg (b :: ·) ih

/-- The bytes of an encoded name. -/
theorem of_mem_formEncode (h : b ∈ formEncode s) : b = 43 ∨ b = 37 ∨ isFormSafe b = true := by
  obtain ⟨c, -, hb⟩ := List.mem_flatMap.mp h
  split at hb
  · exact .inl (List.mem_singleton.mp hb)
  · split at hb
    · next hc =>
      cases List.mem_singleton.mp hb
      exact .inr (.inr hc)
    · have hsafe : ∀ n < 16, isFormSafe (hexDigitUpper n) = true := by decide
      obtain ⟨hhigh, hlow⟩ := digits_lt c
      simp only [percentEscape, List.mem_cons, List.not_mem_nil, or_false] at hb
      obtain rfl | rfl | rfl := hb
      · exact .inr (.inl rfl)
      · exact .inr (.inr (hsafe _ hhigh))
      · exact .inr (.inr (hsafe _ hlow))

/-- Separators and blanks are encoded. -/
theorem notMem_formEncode (h : isFormSafe b = false) (hplus : b ≠ 43) (hpercent : b ≠ 37) :
    b ∉ formEncode s := by
  intro hb
  rcases of_mem_formEncode hb with heq | heq | hsafe
  · exact hplus heq
  · exact hpercent heq
  · rw [h] at hsafe
    cases hsafe

/-- Safe bytes are not escaped. -/
theorem formEncode_of_safe (h : ∀ b ∈ s, isFormSafe b = true) : formEncode s = s := by
  induction s with
  | nil => rfl
  | cons b s ih =>
    obtain ⟨hb, hs⟩ := List.forall_mem_cons.mp h
    have hspace : b ≠ 32 := by
      rintro rfl
      exact absurd hb (by decide)
    show (if b = 32 then [43] else if isFormSafe b then [b] else percentEscape b) ++
      formEncode s = _
    rw [if_neg hspace, if_pos hb, ih hs]
    rfl

/-- Nothing is encoded as nothing. -/
theorem formEncode_ne_nil (h : s ≠ []) : formEncode s ≠ [] := by
  intro hnil
  have hdecode := formDecode_formEncode s
  rw [hnil] at hdecode
  exact h hdecode.symm

/-- The first `=` separates. -/
theorem splitPair_append (h : 61 ∉ s) (rest : Bytes) : splitPair (s ++ 61 :: rest) = (s, rest) := by
  unfold splitPair
  rw [takeWhile_ne_append, takeWhile_ne_eq_self h, List.dropWhile_append_of_pos (ne_of_notMem h),
    List.dropWhile_cons_of_neg (by simp)]
  rfl

/-- What the text of a list is cut into. -/
theorem splitOn_serializeForm {pairs : List (Bytes × Bytes)} (h : pairs ≠ []) :
    (serializeForm pairs).splitOn 38 =
      pairs.map fun p => formEncode p.1 ++ 61 :: formEncode p.2 := by
  refine List.splitOn_intercalate 38 ?_ (by simpa using h)
  intro piece hpiece
  obtain ⟨p, -, rfl⟩ := List.mem_map.mp hpiece
  rw [List.mem_append, List.mem_cons, not_or, not_or]
  exact ⟨notMem_formEncode (by decide) (by decide) (by decide), by decide,
    notMem_formEncode (by decide) (by decide) (by decide)⟩

/-- A joined list has the separator and the elements. -/
theorem mem_intercalate_singleton {α : Type} {x a : α} {ls : List (List α)}
    (h : a ∈ [x].intercalate ls) : a = x ∨ ∃ l ∈ ls, a ∈ l := by
  induction ls with
  | nil => simp at h
  | cons l ls ih =>
    cases ls with
    | nil => exact .inr ⟨l, List.mem_cons_self, by simpa using h⟩
    | cons l' ls =>
      rw [List.intercalate_cons_cons, List.mem_append, List.mem_append, List.mem_singleton] at h
      rcases h with (h | h) | h
      · exact .inr ⟨l, List.mem_cons_self, h⟩
      · exact .inl h
      · rcases ih h with heq | ⟨m, hm, ha⟩
        · exact .inl heq
        · exact .inr ⟨m, List.mem_cons_of_mem _ hm, ha⟩

/-- The bytes of a form. -/
theorem of_mem_serializeForm {pairs : List (Bytes × Bytes)} (h : b ∈ serializeForm pairs) :
    b = 38 ∨ b = 61 ∨ b = 43 ∨ b = 37 ∨ isFormSafe b = true := by
  rcases mem_intercalate_singleton h with heq | ⟨piece, hpiece, hb⟩
  · exact .inl heq
  · obtain ⟨p, -, rfl⟩ := List.mem_map.mp hpiece
    rw [List.mem_append, List.mem_cons] at hb
    rcases hb with hb | heq | hb
    · exact .inr (.inr (of_mem_formEncode hb))
    · exact .inr (.inl heq)
    · exact .inr (.inr (of_mem_formEncode hb))

/-- An encoded pair is taken apart at its `=`. -/
theorem splitPair_formEncode (p : Bytes × Bytes) :
    splitPair (formEncode p.1 ++ 61 :: formEncode p.2) = (formEncode p.1, formEncode p.2) :=
  splitPair_append (notMem_formEncode (by decide) (by decide) (by decide)) _

/-- **A form is read back**, pair by pair. -/
theorem parseForm_serializeForm (pairs : List (Bytes × Bytes)) :
    parseForm (serializeForm pairs) = pairs := by
  cases pairs with
  | nil => rfl
  | cons p pairs =>
    have hkeep : ∀ piece ∈ ((p :: pairs).map fun p => formEncode p.1 ++ 61 :: formEncode p.2),
        (!piece.isEmpty) = true := by
      intro piece hpiece
      obtain ⟨q, -, rfl⟩ := List.mem_map.mp hpiece
      simp
    unfold parseForm
    rw [splitOn_serializeForm (List.cons_ne_nil _ _), List.filter_eq_self.mpr hkeep, List.map_map]
    refine List.map_id'' (fun q => ?_) _
    show (formDecode (splitPair (formEncode q.1 ++ 61 :: formEncode q.2)).1,
      formDecode (splitPair (formEncode q.1 ++ 61 :: formEncode q.2)).2) = q
    rw [splitPair_formEncode, formDecode_formEncode, formDecode_formEncode]

end MiniOj.Infra
