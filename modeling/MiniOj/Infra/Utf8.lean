import MiniOj.Infra.Unicode

/-!
# Reading UTF-8

* `utf8Length_encode`, `exists_encode` — `utf8Length` accepts the encodings of texts and nothing
  else
* `decode` — the text that a byte string encodes
-/

namespace MiniOj.Infra

variable {s : List Char} {b : UInt8} {bs : Bytes} {owed n k : Nat} {low high : UInt8}

/-! ## First bytes -/

/-- The lead bytes of two. -/
theorem utf8Lead_two (hlow : 2 ≤ k) (h : k < 32) :
    utf8Lead (.ofNat (k + 192)) = some (1, 0x80, 0xBF) := by
  have hall : ∀ k < 32, 2 ≤ k → utf8Lead (.ofNat (k + 192)) = some (1, 0x80, 0xBF) := by decide
  exact hall k h hlow

/-- The lead bytes of three, without overlong forms and surrogates. -/
theorem utf8Lead_three (h : k < 16) : utf8Lead (.ofNat (k + 224)) =
    some (2, if k = 0 then 0xA0 else 0x80, if k = 13 then 0x9F else 0xBF) := by
  have hall : ∀ k < 16, utf8Lead (.ofNat (k + 224)) =
      some (2, if k = 0 then 0xA0 else 0x80, if k = 13 then 0x9F else 0xBF) := by decide
  exact hall k h

/-- The lead bytes of four, up to U+10FFFF. -/
theorem utf8Lead_four (h : k < 5) : utf8Lead (.ofNat (k + 240)) =
    some (3, if k = 0 then 0x90 else 0x80, if k = 4 then 0x8F else 0xBF) := by
  have hall : ∀ k < 5, utf8Lead (.ofNat (k + 240)) =
      some (3, if k = 0 then 0x90 else 0x80, if k = 4 then 0x8F else 0xBF) := by decide
  exact hall k h

/-- No other byte begins a character. -/
theorem utf8Lead_cases (h : utf8Lead b ≠ none) :
    b.toNat < 128 ∨ (∃ k, 2 ≤ k ∧ k < 32 ∧ b = .ofNat (k + 192)) ∨
      (∃ k < 16, b = .ofNat (k + 224)) ∨ ∃ k < 5, b = .ofNat (k + 240) := by
  have hall : ∀ n < 256, utf8Lead (.ofNat n) ≠ none → n < 128 ∨ (194 ≤ n ∧ n < 245) := by
    decide +kernel
  have hofNat (d : Nat) (hd : d ≤ b.toNat) : b = .ofNat (b.toNat - d + d) := by
    rw [Nat.sub_add_cancel hd, UInt8.ofNat_toNat]
  rcases hall b.toNat b.toNat_lt (by rwa [UInt8.ofNat_toNat]) with hascii | ⟨hlow, hhigh⟩
  · exact .inl hascii
  · by_cases htwo : b.toNat < 224
    · exact .inr (.inl ⟨b.toNat - 192, by omega, by omega, hofNat 192 (by omega)⟩)
    · by_cases hthree : b.toNat < 240
      · exact .inr (.inr (.inl ⟨b.toNat - 224, by omega, hofNat 224 (by omega)⟩))
      · exact .inr (.inr (.inr ⟨b.toNat - 240, by omega, hofNat 240 (by omega)⟩))

/-! ## The bytes that follow -/

/-- A continuation byte has six bits of the code. -/
theorem toNat_continuation (n : Nat) : (UInt8.ofNat (n % 64 + 128)).toNat = n % 64 + 128 := by
  rw [UInt8.toNat_ofNat']
  omega

/-- A continuation byte in its range is skipped. -/
theorem utf8LengthFrom_continuation (hlow : low.toNat ≤ n % 64 + 128)
    (hhigh : n % 64 + 128 ≤ high.toNat) :
    utf8LengthFrom (owed + 1) low high (.ofNat (n % 64 + 128) :: bs) =
      utf8LengthFrom owed 0x80 0xBF bs := by
  have hin : low ≤ .ofNat (n % 64 + 128) ∧ .ofNat (n % 64 + 128) ≤ high := by
    rw [UInt8.le_iff_toNat_le, UInt8.le_iff_toNat_le, toNat_continuation]
    exact ⟨hlow, hhigh⟩
  exact if_pos hin

/-- A character that is not finished goes on with one of these bytes. -/
theorem exists_continuation (h : utf8LengthFrom (owed + 1) low high bs = some n) :
    ∃ x rest, bs = x :: rest ∧ low.toNat ≤ x.toNat ∧ x.toNat ≤ high.toNat ∧
      utf8LengthFrom owed 0x80 0xBF rest = some n := by
  cases bs with
  | nil => cases h
  | cons x rest =>
    rw [utf8LengthFrom] at h
    split at h
    · next hin => exact ⟨x, rest, rfl, UInt8.le_iff_toNat_le.mp hin.1,
        UInt8.le_iff_toNat_le.mp hin.2, h⟩
    · cases h

/-- A lead byte says how many follow. -/
theorem utf8Length_cons (b : UInt8) (bs : Bytes) : utf8Length (b :: bs) =
    (utf8Lead b).bind fun (owed, low, high) => (utf8LengthFrom owed low high bs).map (· + 1) := rfl

/-- The second byte is never ASCII. -/
theorem utf8Lead_low {r : Nat × UInt8 × UInt8} (h : utf8Lead b = some r) : 0x80 ≤ r.2.1 := by
  unfold utf8Lead at h
  split_ifs at h <;> cases h <;> decide

/-- ASCII that follows belongs to no character before. -/
theorem utf8LengthFrom_of_append {rest : Bytes} (hrest : ∀ x ∈ rest, x < 0x80)
    (hlow : 0x80 ≤ low) (h : utf8LengthFrom owed low high (bs ++ rest) = some n) :
    ∃ k, utf8LengthFrom owed low high bs = some k := by
  induction bs generalizing owed low high n with
  | nil =>
    cases owed with
    | zero => exact ⟨0, rfl⟩
    | succ owed =>
      -- a character goes on over the cut, with an ASCII byte
      obtain ⟨x, rest, rfl, hx, -, -⟩ := exists_continuation h
      have hascii := UInt8.lt_iff_toNat_lt.mp (hrest x List.mem_cons_self)
      have hlow' := UInt8.le_iff_toNat_le.mp hlow
      omega
  | cons b bs ih =>
    cases owed with
    | zero =>
      obtain ⟨r, hlead, h⟩ := Option.bind_eq_some_iff.mp h
      obtain ⟨k, hk, -⟩ := Option.map_eq_some_iff.mp h
      obtain ⟨l, hl⟩ := ih (utf8Lead_low hlead) hk
      refine ⟨l + 1, ?_⟩
      rw [utf8LengthFrom, hlead, Option.bind_some]
      dsimp only
      rw [hl, Option.map_some]
    | succ owed =>
      rw [List.cons_append, utf8LengthFrom] at h
      rw [utf8LengthFrom]
      split at h
      · next hin =>
        rw [if_pos hin]
        exact ih (UInt8.le_refl _) h
      · cases h

/-- A text can be cut in front of an ASCII character. -/
theorem utf8Length_of_append (rest : Bytes) (hrest : ∀ x ∈ rest, x < 0x80)
    (h : (utf8Length (bs ++ rest)).isSome) : (utf8Length bs).isSome := by
  obtain ⟨n, hn⟩ := Option.isSome_iff_exists.mp h
  obtain ⟨k, hk⟩ := utf8LengthFrom_of_append hrest (UInt8.le_refl _) hn
  exact Option.isSome_of_eq_some hk

/-! ## Texts -/

/-- A character counts as one. -/
theorem utf8Length_encodeChar (c : Char) (bs : Bytes) :
    utf8Length (String.utf8EncodeChar c ++ bs) = (utf8Length bs).map (· + 1) := by
  have hvalid : c.val.toNat < 0xD800 ∨ (0xDFFF < c.val.toNat ∧ c.val.toNat < 0x110000) := c.valid
  have hlow : (0x80 : UInt8).toNat = 128 := rfl
  have hhigh : (0xBF : UInt8).toNat = 191 := rfl
  unfold String.utf8EncodeChar
  dsimp only
  generalize c.val.toNat = v at hvalid
  split_ifs with hone htwo hthree
  · have hlead : utf8Lead (.ofNat v) = some (0, 0x80, 0xBF) := by
      refine if_pos (UInt8.lt_iff_toNat_lt.mpr ?_)
      rw [UInt8.toNat_ofNat']
      show v % 256 < 128
      omega
    rw [List.singleton_append, utf8Length_cons, hlead]
    rfl
  · rw [List.cons_append, utf8Length_cons, utf8Lead_two (by omega) (by omega), Option.bind_some]
    dsimp only
    rw [List.singleton_append, utf8LengthFrom_continuation (by omega) (by omega)]
    rfl
  · rw [List.cons_append, utf8Length_cons, utf8Lead_three (by omega), Option.bind_some]
    dsimp only
    rw [List.cons_append, List.singleton_append, utf8LengthFrom_continuation,
      utf8LengthFrom_continuation (by omega) (by omega)]
    · rfl
    · split_ifs
      · show 160 ≤ _
        omega
      · omega
    · split_ifs
      · show _ ≤ 159
        omega
      · omega
  · rw [List.cons_append, utf8Length_cons, utf8Lead_four (by omega), Option.bind_some]
    dsimp only
    rw [List.cons_append, List.cons_append, List.singleton_append, utf8LengthFrom_continuation,
      utf8LengthFrom_continuation (by omega) (by omega),
      utf8LengthFrom_continuation (by omega) (by omega)]
    · rfl
    · split_ifs
      · show 144 ≤ _
        omega
      · omega
    · split_ifs
      · show _ ≤ 143
        omega
      · omega

/-- A text has as many characters as it has. -/
theorem utf8Length_encode (s : List Char) : utf8Length (encode s) = some s.length := by
  induction s with
  | nil => rfl
  | cons c s ih => rw [encode_cons, utf8Length_encodeChar, ih, Option.map_some, List.length_cons]

/-- Spaces are bytes. -/
theorem encode_replicate_space (n : Nat) :
    encode (List.replicate n ' ') = List.replicate n 32 := by
  induction n with
  | zero => rfl
  | succ n ih =>
    rw [List.replicate_succ, encode_cons, ih]
    rfl

/-- A code that is a character. -/
theorem toNat_ofNat_valid (h : n < 0xD800 ∨ (0xDFFF < n ∧ n < 0x110000)) :
    (Char.ofNat n).val.toNat = n := by
  rw [Char.ofNat, dif_pos h]
  show (UInt32.ofNatLT n _).toNat = n
  exact UInt32.toNat_ofNatLT

theorem ofNat_of_eq_toNat {x : UInt8} (h : n = x.toNat) : UInt8.ofNat n = x := by
  rw [h, UInt8.ofNat_toNat]

variable {x y z : UInt8}

/-- Every valid form of two bytes is a character. -/
theorem exists_encodeChar_two (hlow : 2 ≤ k) (hk : k < 32) (hx : 128 ≤ x.toNat)
    (hx' : x.toNat ≤ 191) : ∃ c, String.utf8EncodeChar c = [.ofNat (k + 192), x] := by
  obtain ⟨v, hv⟩ : ∃ v, v = k * 64 + (x.toNat - 128) := ⟨_, rfl⟩
  have hfirst : v / 64 % 32 = k := by omega
  have hsecond : UInt8.ofNat (v % 64 + 128) = x := ofNat_of_eq_toNat (by omega)
  refine ⟨Char.ofNat v, ?_⟩
  unfold String.utf8EncodeChar
  dsimp only
  rw [toNat_ofNat_valid (n := v) (.inl (by omega)), if_neg (by omega), if_pos (by omega), hfirst,
    hsecond]

/-- Every valid form of three. -/
theorem exists_encodeChar_three (hk : k < 16) (hx : 128 ≤ x.toNat ∧ x.toNat ≤ 191)
    (hzero : k = 0 → 160 ≤ x.toNat) (hlast : k = 13 → x.toNat ≤ 159)
    (hy : 128 ≤ y.toNat ∧ y.toNat ≤ 191) :
    ∃ c, String.utf8EncodeChar c = [.ofNat (k + 224), x, y] := by
  obtain ⟨v, hv⟩ : ∃ v, v = k * 4096 + (x.toNat - 128) * 64 + (y.toNat - 128) := ⟨_, rfl⟩
  have hfirst : v / 4096 % 16 = k := by omega
  have hsecond : UInt8.ofNat (v / 64 % 64 + 128) = x := ofNat_of_eq_toNat (by omega)
  have hthird : UInt8.ofNat (v % 64 + 128) = y := ofNat_of_eq_toNat (by omega)
  refine ⟨Char.ofNat v, ?_⟩
  unfold String.utf8EncodeChar
  dsimp only
  rw [toNat_ofNat_valid (n := v) (by omega), if_neg (by omega), if_neg (by omega),
    if_pos (by omega), hfirst, hsecond, hthird]

/-- Every valid form of four. -/
theorem exists_encodeChar_four (hk : k < 5) (hx : 128 ≤ x.toNat ∧ x.toNat ≤ 191)
    (hzero : k = 0 → 144 ≤ x.toNat) (hlast : k = 4 → x.toNat ≤ 143)
    (hy : 128 ≤ y.toNat ∧ y.toNat ≤ 191) (hz : 128 ≤ z.toNat ∧ z.toNat ≤ 191) :
    ∃ c, String.utf8EncodeChar c = [.ofNat (k + 240), x, y, z] := by
  obtain ⟨v, hv⟩ : ∃ v, v = k * 262144 + (x.toNat - 128) * 4096 + (y.toNat - 128) * 64 +
    (z.toNat - 128) := ⟨_, rfl⟩
  have hfirst : v / 262144 % 8 = k := by omega
  have hsecond : UInt8.ofNat (v / 4096 % 64 + 128) = x := ofNat_of_eq_toNat (by omega)
  have hthird : UInt8.ofNat (v / 64 % 64 + 128) = y := ofNat_of_eq_toNat (by omega)
  have hfourth : UInt8.ofNat (v % 64 + 128) = z := ofNat_of_eq_toNat (by omega)
  refine ⟨Char.ofNat v, ?_⟩
  unfold String.utf8EncodeChar
  dsimp only
  rw [toNat_ofNat_valid (n := v) (by omega), if_neg (by omega), if_neg (by omega),
    if_neg (by omega), hfirst, hsecond, hthird, hfourth]

/-- What begins a character and is followed by enough bytes of the right kind is a character. -/
theorem exists_encodeChar (h : utf8Length (b :: bs) = some n) :
    ∃ c rest, b :: bs = String.utf8EncodeChar c ++ rest ∧ (utf8Length rest).isSome := by
  have hlow : (0x80 : UInt8).toNat = 128 := rfl
  have hhigh : (0xBF : UInt8).toNat = 191 := rfl
  rw [utf8Length_cons] at h
  have hlead : utf8Lead b ≠ none := by
    intro hnone
    rw [hnone] at h
    cases h
  rcases utf8Lead_cases hlead with hb | ⟨k, hk, hk', rfl⟩ | ⟨k, hk, rfl⟩ | ⟨k, hk, rfl⟩
  · have hascii : utf8Lead b = some (0, 0x80, 0xBF) := if_pos (UInt8.lt_iff_toNat_lt.mpr hb)
    rw [hascii, Option.bind_some] at h
    obtain ⟨m, hm, -⟩ := Option.map_eq_some_iff.mp h
    have hchar : (Char.ofNat b.toNat).toNat = b.toNat := toNat_ofNat_valid (.inl (by omega))
    refine ⟨Char.ofNat b.toNat, bs, ?_, Option.isSome_of_eq_some hm⟩
    rw [encodeChar_ascii (by omega), hchar, UInt8.ofNat_toNat]
    rfl
  · rw [utf8Lead_two hk hk', Option.bind_some] at h
    obtain ⟨m, hm, -⟩ := Option.map_eq_some_iff.mp h
    obtain ⟨x, rest, rfl, hx, hx', hrest⟩ := exists_continuation hm
    obtain ⟨c, hc⟩ := exists_encodeChar_two hk hk' hx hx'
    exact ⟨c, rest, by rw [hc]; rfl, Option.isSome_of_eq_some hrest⟩
  · rw [utf8Lead_three hk, Option.bind_some] at h
    obtain ⟨m, hm, -⟩ := Option.map_eq_some_iff.mp h
    obtain ⟨x, rest, rfl, hx, hx', hrest⟩ := exists_continuation hm
    obtain ⟨y, rest, rfl, hy, hy', hrest⟩ := exists_continuation hrest
    rw [apply_ite UInt8.toNat] at hx hx'
    have hrange : (128 ≤ x.toNat ∧ x.toNat ≤ 191) ∧ (k = 0 → 160 ≤ x.toNat) ∧
        (k = 13 → x.toNat ≤ 159) := by
      simp only [UInt8.reduceToNat] at hx hx'
      split_ifs at hx hx' <;> omega
    obtain ⟨c, hc⟩ := exists_encodeChar_three hk hrange.1 hrange.2.1 hrange.2.2 ⟨hy, hy'⟩
    exact ⟨c, rest, by rw [hc]; rfl, Option.isSome_of_eq_some hrest⟩
  · rw [utf8Lead_four hk, Option.bind_some] at h
    obtain ⟨m, hm, -⟩ := Option.map_eq_some_iff.mp h
    obtain ⟨x, rest, rfl, hx, hx', hrest⟩ := exists_continuation hm
    obtain ⟨y, rest, rfl, hy, hy', hrest⟩ := exists_continuation hrest
    obtain ⟨z, rest, rfl, hz, hz', hrest⟩ := exists_continuation hrest
    rw [apply_ite UInt8.toNat] at hx hx'
    have hrange : (128 ≤ x.toNat ∧ x.toNat ≤ 191) ∧ (k = 0 → 144 ≤ x.toNat) ∧
        (k = 4 → x.toNat ≤ 143) := by
      simp only [UInt8.reduceToNat] at hx hx'
      split_ifs at hx hx' <;> omega
    obtain ⟨c, hc⟩ :=
      exists_encodeChar_four hk hrange.1 hrange.2.1 hrange.2.2 ⟨hy, hy'⟩ ⟨hz, hz'⟩
    exact ⟨c, rest, by rw [hc]; rfl, Option.isSome_of_eq_some hrest⟩

/-- **What is UTF-8 encodes a text.** -/
theorem exists_encode (h : (utf8Length bs).isSome) : ∃ s, encode s = bs := by
  induction hn : bs.length using Nat.strongRecOn generalizing bs with
  | ind n ih =>
    cases bs with
    | nil => exact ⟨[], rfl⟩
    | cons b bs =>
      obtain ⟨m, hm⟩ := Option.isSome_iff_exists.mp h
      obtain ⟨c, rest, heq, hrest⟩ := exists_encodeChar hm
      have hlength : rest.length < n := by
        have hpos := List.length_pos_iff.mpr (String.utf8EncodeChar_ne_nil (c := c))
        rw [← hn, heq, List.length_append]
        omega
      obtain ⟨s, hs⟩ := ih rest.length hlength hrest rfl
      exact ⟨c :: s, by rw [encode_cons, hs, heq]⟩

/-! ## Decoding -/

/-- The text that the bytes encode. -/
def decode (bs : Bytes) : List Char := (bs.toByteArray.utf8Decode?.getD #[]).toList

/-- **Text is read back.** -/
@[simp] theorem decode_encode (s : List Char) : decode (encode s) = s := by
  have hbytes : (encode s).toByteArray = s.utf8Encode := rfl
  rw [decode, hbytes, List.utf8Decode?_utf8Encode, Option.getD_some]

/-- **Valid UTF-8 is written back.** -/
theorem encode_decode (h : (utf8Length bs).isSome) : encode (decode bs) = bs := by
  obtain ⟨s, rfl⟩ := exists_encode h
  rw [decode_encode]

end MiniOj.Infra
