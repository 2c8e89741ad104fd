import Mathlib.Algebra.GroupWithZero.Nat
import Mathlib.Tactic.SplitIfs
import MiniOj.Infra.Bytes

/-!
# Unicode texts

A text as the list of its characters, its UTF-8 encoding, and its length in UTF-16. In UTF-8 a
byte below 128 is an ASCII character, and every other character has bytes from 128 only
(`mem_encode_of_lt`), so that classes of ASCII characters can be looked up in the bytes.
-/

namespace MiniOj.Infra

variable {c : Char} {s t : List Char} {b : UInt8}

/-! ## UTF-8 -/

/-- The UTF-8 encoding. -/
def encode (s : List Char) : Bytes := s.flatMap String.utf8EncodeChar

@[simp] theorem encode_cons (c : Char) (s : List Char) :
    encode (c :: s) = String.utf8EncodeChar c ++ encode s := List.flatMap_cons ..

@[simp] theorem encode_append (s t : List Char) : encode (s ++ t) = encode s ++ encode t :=
  List.flatMap_append ..

theorem encodeChar_ascii (h : c.toNat < 128) : String.utf8EncodeChar c = [.ofNat c.toNat] := by
  have hle : c.val.toNat ≤ 127 := Nat.le_of_lt_succ h
  unfold String.utf8EncodeChar
  exact if_pos hle

theorem le_of_mem_encodeChar (h : 128 ≤ c.toNat) (hb : b ∈ String.utf8EncodeChar c) : 128 ≤ b := by
  have hlt : ¬ c.val.toNat ≤ 127 := Nat.not_le_of_lt h
  have hmore (n : Nat) : 128 ≤ UInt8.ofNat (n % 0x40 + 0x80) := by
    rw [UInt8.le_iff_toNat_le, UInt8.toNat_ofNat']
    simp only [UInt8.reduceToNat]
    omega
  have hlead (n k : Nat) (hk : 0x80 ≤ k) (h : n + k < 0x100) : 128 ≤ UInt8.ofNat (n + k) := by
    rw [UInt8.le_iff_toNat_le, UInt8.toNat_ofNat']
    simp only [UInt8.reduceToNat]
    omega
  unfold String.utf8EncodeChar at hb
  dsimp only at hb
  rw [if_neg hlt] at hb
  split at hb
  · simp only [List.mem_cons, List.not_mem_nil, or_false] at hb
    rcases hb with rfl | rfl
    · exact hlead _ _ (by omega) (by omega)
    · exact hmore _
  · split at hb
    · simp only [List.mem_cons, List.not_mem_nil, or_false] at hb
      rcases hb with rfl | rfl | rfl
      · exact hlead _ _ (by omega) (by omega)
      · exact hmore _
      · exact hmore _
    · simp only [List.mem_cons, List.not_mem_nil, or_false] at hb
      rcases hb with rfl | rfl | rfl | rfl
      · exact hlead _ _ (by omega) (by omega)
      · exact hmore _
      · exact hmore _
      · exact hmore _

/-- The bytes of ASCII characters. -/
theorem mem_encodeChar_of_lt (h : b < 128) :
    b ∈ String.utf8EncodeChar c ↔ c.toNat = b.toNat := by
  by_cases hc : c.toNat < 128
  · rw [encodeChar_ascii hc, List.mem_singleton, ← UInt8.toNat_inj, UInt8.toNat_ofNat',
      Nat.mod_eq_of_lt (by omega)]
    exact eq_comm
  · constructor
    · intro hb
      exact absurd (le_of_mem_encodeChar (Nat.le_of_not_lt hc) hb) (UInt8.not_le.mpr h)
    · intro heq
      exact absurd (heq ▸ UInt8.lt_iff_toNat_lt.mp h) hc

/-- **A byte below 128 is an ASCII character of the text.** -/
theorem mem_encode_of_lt (h : b < 128) : b ∈ encode s ↔ ∃ c ∈ s, c.toNat = b.toNat := by
  unfold encode
  rw [List.mem_flatMap]
  exact exists_congr fun c => and_congr_right fun _ => mem_encodeChar_of_lt h

/-- A class of ASCII characters, looked up in the bytes. -/
theorem any_encode {p : UInt8 → Bool} {q : Char → Bool} (hlt : ∀ b, p b = true → b < 128)
    (hpq : ∀ c : Char, q c = true ↔ ∃ b, p b = true ∧ c.toNat = b.toNat) :
    (encode s).any p = s.any q := by
  rw [Bool.eq_iff_iff, List.any_eq_true, List.any_eq_true]
  constructor
  · rintro ⟨b, hb, hp⟩
    obtain ⟨c, hc, heq⟩ := (mem_encode_of_lt (hlt b hp)).mp hb
    exact ⟨c, hc, (hpq c).mpr ⟨b, hp, heq⟩⟩
  · rintro ⟨c, hc, hq⟩
    obtain ⟨b, hp, heq⟩ := (hpq c).mp hq
    exact ⟨b, (mem_encode_of_lt (hlt b hp)).mpr ⟨c, hc, heq⟩, hp⟩

theorem all_encode {p : UInt8 → Bool} {q : Char → Bool} (hlt : ∀ b, p b = true → b < 128)
    (hpq : ∀ c : Char, q c = true ↔ ∃ b, p b = true ∧ c.toNat = b.toNat) :
    (encode s).all p = s.all q := by
  rw [Bool.eq_iff_iff, List.all_eq_true, List.all_eq_true]
  constructor
  · intro h c hc
    obtain ⟨b, hb⟩ := List.exists_mem_of_ne_nil _ (String.utf8EncodeChar_ne_nil (c := c))
    have hp := h b (List.mem_flatMap.mpr ⟨c, hc, hb⟩)
    exact (hpq c).mpr ⟨b, hp, (mem_encodeChar_of_lt (hlt b hp)).mp hb⟩
  · intro h b hb
    obtain ⟨c, hc, hb⟩ := List.mem_flatMap.mp hb
    obtain ⟨d, hp, heq⟩ := (hpq c).mp (h c hc)
    have hascii : c.toNat < 128 := heq ▸ UInt8.lt_iff_toNat_lt.mp (hlt d hp)
    rw [encodeChar_ascii hascii, List.mem_singleton, heq, UInt8.ofNat_toNat] at hb
    rwa [hb]

/-! ## UTF-16 -/

/-- Code units of a character. -/
def utf16Size (c : Char) : Nat := if c.toNat < 0x10000 then 1 else 2

/-- The length in code units. -/
def utf16Length (s : List Char) : Nat := (s.map utf16Size).sum

theorem length_encodeChar (c : Char) : utf16Size c ≤ (String.utf8EncodeChar c).length ∧
    (String.utf8EncodeChar c).length ≤ 3 * utf16Size c := by
  have hval : c.toNat = c.val.toNat := rfl
  unfold utf16Size String.utf8EncodeChar
  dsimp only
  rw [hval]
  split_ifs <;> simp only [List.length_cons, List.length_nil] <;> omega

/-- A text has up to three bytes for each code unit. -/
theorem length_encode (s : List Char) :
    utf16Length s ≤ (encode s).length ∧ (encode s).length ≤ 3 * utf16Length s := by
  induction s with
  | nil => exact ⟨Nat.le_refl 0, Nat.le_refl 0⟩
  | cons c s ih =>
    have hc := length_encodeChar c
    unfold utf16Length at ih ⊢
    rw [encode_cons, List.length_append, List.map_cons, List.sum_cons]
    omega

/-- ASCII characters are one byte and one code unit each. -/
theorem length_encode_ascii (h : ∀ c ∈ s, c.toNat < 128) :
    (encode s).length = s.length ∧ utf16Length s = s.length := by
  induction s with
  | nil => exact ⟨rfl, rfl⟩
  | cons c s ih =>
    obtain ⟨hbytes, hunits⟩ := ih fun d hd => h d (List.mem_cons_of_mem c hd)
    have hc := h c List.mem_cons_self
    have hunit : utf16Size c = 1 := if_pos (by omega)
    unfold utf16Length at hunits ⊢
    rw [encode_cons, encodeChar_ascii hc, List.map_cons, List.sum_cons, hunits, hunit]
    simp only [List.length_append, List.length_cons, List.length_nil, hbytes]
    omega

end MiniOj.Infra
