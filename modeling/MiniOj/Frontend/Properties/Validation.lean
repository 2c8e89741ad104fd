import MiniOj.Auth.Password
import MiniOj.Frontend.Validation

/-!
# The registration form and the server

The form counts UTF-16 code units and the server counts bytes. A name that either of them accepts
is ASCII, where both are the same. A password need not be.

* `checksAgree_iff` — the texts that both judge alike
-/

namespace MiniOj.Frontend

open Infra

variable {text : JsString} {c : Char}

/-- The form and the server judge a text alike, as a name and as a password. -/
structure ChecksAgree (text : JsString) : Prop where
  username : text.trim ≠ [] → ((validateUsernameInput (some text)).ok = true ↔
    Auth.validateUsername (encode text.trim) = .ok ())
  password : (validatePasswordInput (some text)).ok = true ∧ text ≠ [] ↔
    Auth.validatePassword (encode text) = .ok ()

/-! ## Characters and bytes -/

theorem char_le_iff {a c : Char} : a ≤ c ↔ a.toNat ≤ c.toNat := UInt32.le_iff_toNat_le

/-- The letters of the page, by code. -/
theorem isLetter_eq_true : isLetter c = true ↔
    (97 ≤ c.toNat ∧ c.toNat ≤ 122) ∨ (65 ≤ c.toNat ∧ c.toNat ≤ 90) := by
  simp only [isLetter, Bool.or_eq_true, Bool.and_eq_true, decide_eq_true_eq, char_le_iff]
  rfl

/-- The digits of the page, by code. -/
theorem isDigit_eq_true : isDigit c = true ↔ 48 ≤ c.toNat ∧ c.toNat ≤ 57 := by
  simp only [isDigit, Bool.and_eq_true, decide_eq_true_eq, char_le_iff]
  rfl

/-- The letters of the server, by code. -/
theorem isAlpha_eq_true {b : UInt8} : Auth.isAlpha b = true ↔
    (65 ≤ b.toNat ∧ b.toNat ≤ 90) ∨ (97 ≤ b.toNat ∧ b.toNat ≤ 122) := by
  simp only [Auth.isAlpha, Bool.or_eq_true, Bool.and_eq_true, decide_eq_true_eq,
    UInt8.le_iff_toNat_le, UInt8.reduceToNat]

/-- The digits of the server, by code. -/
theorem authIsDigit_eq_true {b : UInt8} :
    Auth.isDigit b = true ↔ 48 ≤ b.toNat ∧ b.toNat ≤ 57 := by
  simp only [Auth.isDigit, Bool.and_eq_true, decide_eq_true_eq, UInt8.le_iff_toNat_le,
    UInt8.reduceToNat]

/-- The byte of an ASCII character. -/
theorem exists_byte (h : c.toNat < 128) : ∃ b : UInt8, c.toNat = b.toNat :=
  ⟨.ofNat c.toNat, by rw [UInt8.toNat_ofNat', Nat.mod_eq_of_lt (by omega)]⟩

/-- Page and server have the same letters. -/
theorem isLetter_iff : isLetter c = true ↔ ∃ b, Auth.isAlpha b = true ∧ c.toNat = b.toNat := by
  constructor
  · intro h
    have hc := isLetter_eq_true.mp h
    obtain ⟨b, hb⟩ := exists_byte (c := c) (by omega)
    exact ⟨b, isAlpha_eq_true.mpr (by omega), hb⟩
  · rintro ⟨b, hb, hc⟩
    have hb' := isAlpha_eq_true.mp hb
    exact isLetter_eq_true.mpr (by omega)

/-- And the same digits. -/
theorem isDigit_iff : isDigit c = true ↔ ∃ b, Auth.isDigit b = true ∧ c.toNat = b.toNat := by
  constructor
  · intro h
    have hc := isDigit_eq_true.mp h
    obtain ⟨b, hb⟩ := exists_byte (c := c) (by omega)
    exact ⟨b, authIsDigit_eq_true.mpr (by omega), hb⟩
  · rintro ⟨b, hb, hc⟩
    have hb' := authIsDigit_eq_true.mp hb
    exact isDigit_eq_true.mpr (by omega)

/-- A text has a letter when its encoding has one. -/
theorem any_isAlpha (v : JsString) : (encode v).any Auth.isAlpha = hasLetter v := by
  refine any_encode (fun b hb => ?_) fun _ => isLetter_iff
  have hb' := isAlpha_eq_true.mp hb
  exact UInt8.lt_iff_toNat_lt.mpr (by simp only [UInt8.reduceToNat]; omega)

/-- The same of digits. -/
theorem any_isDigit (v : JsString) : (encode v).any Auth.isDigit = hasDigit v := by
  refine any_encode (fun b hb => ?_) fun _ => isDigit_iff
  have hb' := authIsDigit_eq_true.mp hb
  exact UInt8.lt_iff_toNat_lt.mpr (by simp only [UInt8.reduceToNat]; omega)

/-- The test of a length, in both languages. -/
theorem outside_eq (lo hi n : Nat) : (n < lo || hi < n) = !decide (lo ≤ n ∧ n ≤ hi) := by
  rw [Bool.eq_iff_iff]
  simp only [Bool.or_eq_true, Bool.not_eq_true', decide_eq_true_eq, decide_eq_false_iff_not]
  omega

/-! ## Names -/

/-- The characters of a name, for the page. -/
def isNameChar (c : Char) : Bool := isLetter c || isDigit c || c == '_'

/-- The bytes of a name, for the server. -/
def isNameByte (b : UInt8) : Bool := Auth.isAlpha b || Auth.isDigit b || b == 95

/-- They are the same. -/
theorem isNameChar_iff : isNameChar c = true ↔ ∃ b, isNameByte b = true ∧ c.toNat = b.toNat := by
  have hunderscore : c = '_' ↔ c.toNat = (95 : UInt8).toNat :=
    (Char.toNat_inj (d := '_')).symm
  simp only [isNameChar, isNameByte, Bool.or_eq_true, isLetter_iff, isDigit_iff, beq_iff_eq,
    or_and_right, exists_or, exists_eq_left, hunderscore]

/-- They are ASCII. -/
theorem isNameByte_lt {b : UInt8} (h : isNameByte b = true) : b < 128 := by
  simp only [isNameByte, Bool.or_eq_true, isAlpha_eq_true, authIsDigit_eq_true, beq_iff_eq] at h
  rw [UInt8.lt_iff_toNat_lt]
  rcases h with (h | h) | rfl
  · simp only [UInt8.reduceToNat]
    omega
  · simp only [UInt8.reduceToNat]
    omega
  · decide

/-- On both sides. -/
theorem isNameChar_lt (h : isNameChar c = true) : c.toNat < 128 := by
  obtain ⟨b, hb, heq⟩ := isNameChar_iff.mp h
  exact heq ▸ UInt8.lt_iff_toNat_lt.mp (isNameByte_lt hb)

/-- **The names that the page accepts.** -/
theorem validateUsernameInput_iff (h : text.trim ≠ []) :
    (validateUsernameInput (some text)).ok = true ↔
      (3 ≤ text.trim.length ∧ text.trim.length ≤ 20) ∧ text.trim.all isNameChar = true := by
  have hre : usernameRe text.trim = (text.trim.all isNameChar &&
    decide (3 ≤ text.trim.length) && decide (text.trim.length ≤ 20)) := rfl
  unfold validateUsernameInput
  dsimp only [Option.getD_some]
  rw [if_neg h, hre, outside_eq]
  by_cases hlen : 3 ≤ text.trim.length ∧ text.trim.length ≤ 20
  · cases text.trim.all isNameChar <;> simp [hlen]
  · simp [hlen]

/-- **The names that the server accepts.** -/
theorem validateUsername_iff {name : Bytes} : Auth.validateUsername name = .ok () ↔
    (3 ≤ name.length ∧ name.length ≤ 20) ∧ name.all isNameByte = true := by
  unfold Auth.validateUsername
  rw [outside_eq, show (fun b => Auth.isAlpha b || Auth.isDigit b || b == 95) = isNameByte from rfl]
  by_cases hlen : 3 ≤ name.length ∧ name.length ≤ 20
  · cases name.all isNameByte <;> simp [hlen, Auth.reject]
  · simp [hlen, Auth.reject]

/-- **Names are judged alike.** -/
theorem username_agrees (h : text.trim ≠ []) : (validateUsernameInput (some text)).ok = true ↔
    Auth.validateUsername (encode text.trim) = .ok () := by
  rw [validateUsernameInput_iff h, validateUsername_iff,
    all_encode (fun _ => isNameByte_lt) fun _ => isNameChar_iff]
  refine and_congr_left fun hall => ?_
  -- an ASCII text is as long in code units as in bytes
  obtain ⟨hbytes, hunits⟩ := length_encode_ascii fun c hc =>
    isNameChar_lt (List.all_eq_true.mp hall c hc)
  rw [hbytes, JsString.length, hunits]

/-! ## Passwords -/

/-- **The passwords that the page accepts.** It counts UTF-16 units. -/
theorem validatePasswordInput_iff : (validatePasswordInput (some text)).ok = true ∧ text ≠ [] ↔
    (8 ≤ JsString.length text ∧ JsString.length text ≤ 64) ∧ hasLetter text = true ∧
      hasDigit text = true := by
  by_cases hempty : text = []
  · simp [hempty, hasLetter]
  unfold validatePasswordInput
  dsimp only [Option.getD_some]
  rw [if_neg hempty, outside_eq]
  by_cases hlen : 8 ≤ JsString.length text ∧ JsString.length text ≤ 64
  · cases hasLetter text <;> cases hasDigit text <;> simp [hlen, hempty]
  · simp [hlen]

/-- **The passwords that the server accepts.** It counts bytes. -/
theorem validatePassword_iff {password : Bytes} : Auth.validatePassword password = .ok () ↔
    (8 ≤ password.length ∧ password.length ≤ 64) ∧ password.any Auth.isAlpha = true ∧
      password.any Auth.isDigit = true := by
  unfold Auth.validatePassword
  rw [outside_eq]
  by_cases hlen : 8 ≤ password.length ∧ password.length ≤ 64
  · cases password.any Auth.isAlpha <;> cases password.any Auth.isDigit <;>
      simp [hlen, Auth.reject]
  · simp [hlen, Auth.reject]

/-- No text has fewer bytes than code units, so the two lengths differ in two ways. -/
theorem password_agrees_iff : ((validatePasswordInput (some text)).ok = true ∧ text ≠ [] ↔
      Auth.validatePassword (encode text) = .ok ()) ↔
    (hasLetter text = true → hasDigit text = true →
      ¬ (JsString.length text < 8 ∧ 8 ≤ (encode text).length) ∧
        ¬ (JsString.length text ≤ 64 ∧ 64 < (encode text).length)) := by
  obtain ⟨hle, hmore⟩ : JsString.length text ≤ (encode text).length ∧
    (encode text).length ≤ 3 * JsString.length text := length_encode text
  rw [validatePasswordInput_iff, validatePassword_iff, any_isAlpha, any_isDigit]
  cases hasLetter text with
  | false => simp
  | true =>
    cases hasDigit text with
    | false => simp
    | true =>
      simp only [and_true, true_imp_iff]
      omega

/-- **The form and the server judge a text alike** unless it is a password with a letter and a
digit that has fewer than 8 code units and at least 8 bytes, or at most 64 code units and more
than 64 bytes. -/
theorem checksAgree_iff (text : JsString) : ChecksAgree text ↔
    (hasLetter text = true → hasDigit text = true →
      ¬ (JsString.length text < 8 ∧ 8 ≤ (encode text).length) ∧
        ¬ (JsString.length text ≤ 64 ∧ 64 < (encode text).length)) := by
  constructor
  · intro h
    exact password_agrees_iff.mp h.password
  · intro h
    exact ⟨username_agrees, password_agrees_iff.mpr h⟩

/-- Seven characters in seventeen bytes. -/
theorem checksAgree_fails : ¬ ChecksAgree "密码是很强1a".toList := by
  intro h
  have hlengths := password_agrees_iff.mp h.password
  revert hlengths
  decide

end MiniOj.Frontend
