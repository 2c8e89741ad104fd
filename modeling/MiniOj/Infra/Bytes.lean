/-!
# Byte strings

`std::string` as a list of bytes, its length in UTF-8 characters, and the order of bytes that
`memcmp` computes.
-/

namespace MiniOj.Infra

/-- A `std::string`. -/
abbrev Bytes := List UInt8

/-- The bytes of a text in the source. -/
def utf8 (text : String) : Bytes := text.toUTF8.data.toList

/-! ## Characters -/

/-- What may follow the first byte of a character: how many bytes, and the range of the next. -/
def utf8Lead (b : UInt8) : Option (Nat × UInt8 × UInt8) :=
  if b < 0x80 then some (0, 0x80, 0xBF)
  else if b < 0xC2 then none
  else if b < 0xE0 then some (1, 0x80, 0xBF)
  else if b = 0xE0 then some (2, 0xA0, 0xBF)
  else if b = 0xED then some (2, 0x80, 0x9F)
  else if b < 0xF0 then some (2, 0x80, 0xBF)
  else if b = 0xF0 then some (3, 0x90, 0xBF)
  else if b < 0xF4 then some (3, 0x80, 0xBF)
  else if b = 0xF4 then some (3, 0x80, 0x8F)
  else none

/-- Characters that start in the rest of the string, when the one before it still owes bytes. -/
def utf8LengthFrom : Nat → UInt8 → UInt8 → Bytes → Option Nat
  | 0, _, _, [] => some 0
  | _ + 1, _, _, [] => none
  | 0, _, _, b :: rest =>
    (utf8Lead b).bind fun (owed, low, high) => (utf8LengthFrom owed low high rest).map (· + 1)
  | owed + 1, low, high, b :: rest =>
    if low ≤ b ∧ b ≤ high then utf8LengthFrom owed 0x80 0xBF rest else none

/-- The number of characters; `none` when the bytes are not UTF-8. -/
def utf8Length (s : Bytes) : Option Nat := utf8LengthFrom 0 0x80 0xBF s

example : utf8Length (utf8 "aé😀") = some 3 := by decide

theorem utf8LengthFrom_le {s : Bytes} : ∀ {owed n : Nat} {low high : UInt8},
    utf8LengthFrom owed low high s = some n → n ≤ s.length := by
  induction s with
  | nil =>
    rintro (_ | owed) n low high h <;> cases h
    exact Nat.le_refl 0
  | cons b rest ih =>
    rintro (_ | owed) n low high h
    · obtain ⟨⟨owed, low, high⟩, -, h⟩ := Option.bind_eq_some_iff.mp h
      obtain ⟨k, hk, rfl⟩ := Option.map_eq_some_iff.mp h
      exact Nat.succ_le_succ (ih hk)
    · rw [utf8LengthFrom] at h
      split at h
      · exact Nat.le_succ_of_le (ih h)
      · cases h

/-- A text has at most as many characters as bytes. -/
theorem utf8Length_le {s : Bytes} {n : Nat} (h : utf8Length s = some n) : n ≤ s.length :=
  utf8LengthFrom_le h

/-! ## Order -/

/-- `memcmp(a, b) <= 0`, a prefix before what it begins. -/
def Bytes.le : Bytes → Bytes → Bool
  | [], _ => true
  | _ :: _, [] => false
  | a :: as, b :: bs => a < b || (a == b && Bytes.le as bs)

end MiniOj.Infra
