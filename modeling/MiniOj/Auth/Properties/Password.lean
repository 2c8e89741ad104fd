import MiniOj.Auth.Password
import MiniOj.Infra.Separator

/-!
# Which passwords a hash is verified for

A password is counted in bytes by the validator, and ends with its first NUL for `crypt`. So a
hash is verified for all passwords that agree up to there.

* `Bcrypt` — what is relied on of `crypt`
* `verify_iff` — the passwords that a hash is verified for
* `only_the_password_iff` — the pairs that are told apart
* `tail_is_ignored` — what stands behind a NUL
-/

namespace MiniOj.Auth

open Infra

variable {crypt : Crypt} {password hash random key key' p q : Bytes}

/-! ## C strings -/

/-- A C string has no null byte. -/
theorem zero_notMem_cString (s : Bytes) : 0 ∉ cString s := notMem_takeWhile_ne s 0

/-- It is not longer than the string. -/
theorem length_cString_le (s : Bytes) : (cString s).length ≤ s.length :=
  (List.takeWhile_sublist _).length_le

/-- It is the whole string when that has none. -/
theorem cString_eq_self {s : Bytes} (h : 0 ∉ s) : cString s = s := takeWhile_ne_eq_self h

/-- An accepted password has at most 64 bytes. -/
theorem length_of_validatePassword (h : validatePassword password = .ok ()) :
    password.length ≤ 64 := by
  unfold validatePassword at h
  split at h
  · cases h
  · next hlength =>
    rw [Bool.not_eq_true, Bool.or_eq_false_iff, decide_eq_false_iff_not,
      decide_eq_false_iff_not] at hlength
    exact Nat.le_of_not_lt hlength.2

/-! ## bcrypt -/

/-- A C string that bcrypt reads to its end. -/
def IsKey (key : Bytes) : Prop := 0 ∉ key ∧ key.length ≤ 72

/-- What `crypt` does with the settings of `buildSalt`. -/
structure Bcrypt (crypt : Crypt) : Prop where
  /-- different keys have different hashes -/
  injective : ∀ {random key key' hash}, random.length = 16 → IsKey key → IsKey key' →
    acceptable (crypt.crypt key (buildSalt random)) = some hash →
      acceptable (crypt.crypt key' (buildSalt random)) = some hash → key = key'
  /-- a hash as the setting stands for its own salt -/
  reuses : ∀ {random key key' hash}, random.length = 16 → IsKey key → IsKey key' →
    acceptable (crypt.crypt key (buildSalt random)) = some hash →
      crypt.crypt key' hash = crypt.crypt key' (buildSalt random)
  /-- the result is a C string -/
  text : ∀ {random key hash}, random.length = 16 → IsKey key →
    acceptable (crypt.crypt key (buildSalt random)) = some hash → 0 ∉ hash ∧ hash.length ≤ 256

/-- It is short enough to be a key of bcrypt. -/
theorem isKey_cString (h : validatePassword password = .ok ()) : IsKey (cString password) := by
  have hle := length_cString_le password
  have hlength := length_of_validatePassword h
  exact ⟨zero_notMem_cString password, by omega⟩

/-- A hash is what `crypt` makes of the C string. -/
theorem hashPassword_eq_ok (h : hashPassword crypt password random = .ok hash) :
    acceptable (crypt.crypt (cString password) (buildSalt random)) = some hash := by
  unfold hashPassword at h
  dsimp only at h
  split at h
  · cases h
  · next heq =>
    cases h
    exact heq

/-- A hash is not empty. -/
theorem ne_nil_of_acceptable {result : Option Bytes} (h : acceptable result = some hash) :
    hash ≠ [] := by
  unfold acceptable at h
  split at h
  · split at h
    · cases h
    · cases h
      exact List.cons_ne_nil _ _
  · cases h

/-- A hash is compared with what `crypt` makes of the password under the same salt. -/
theorem verifyPassword_iff (hc : Bcrypt crypt) (hrandom : random.length = 16) (hkey : IsKey key)
    (hp : IsKey (cString p))
    (h : acceptable (crypt.crypt key (buildSalt random)) = some hash) :
    verifyPassword crypt p hash = true ↔
      acceptable (crypt.crypt (cString p) (buildSalt random)) = some hash := by
  obtain ⟨hnul, hlength⟩ := hc.text hrandom hkey h
  have hnil : hash.isEmpty = false := List.isEmpty_eq_false_iff.mpr (ne_nil_of_acceptable h)
  unfold verifyPassword
  rw [hnil, decide_eq_false (Nat.not_lt.mpr hlength), Bool.or_false, if_neg Bool.false_ne_true,
    cString_eq_self hnul, hc.reuses hrandom hkey hp h]
  split
  · next hnone => rw [hnone]; exact ⟨nofun, nofun⟩
  · next result hresult => rw [hresult, beq_iff_eq, Option.some.injEq]

/-- **A hash is verified for the passwords with the same C string.** -/
theorem verify_iff (hc : Bcrypt crypt) (hrandom : random.length = 16)
    (hp : validatePassword p = .ok ()) (hq : validatePassword q = .ok ())
    (h : hashPassword crypt q random = .ok hash) :
    verifyPassword crypt p hash = true ↔ cString p = cString q := by
  have haccepted := hashPassword_eq_ok h
  rw [verifyPassword_iff hc hrandom (isKey_cString hq) (isKey_cString hp) haccepted]
  constructor
  · exact fun hsame => hc.injective hrandom (isKey_cString hp) (isKey_cString hq) hsame haccepted
  · intro heq
    rw [heq]
    exact haccepted

/-- **A hash is verified for its password alone, exactly when the two differ up to the first NUL
or not at all.** -/
theorem only_the_password_iff (hc : Bcrypt crypt) (hrandom : random.length = 16)
    (hp : validatePassword p = .ok ()) (hq : validatePassword q = .ok ())
    (h : hashPassword crypt q random = .ok hash) :
    (verifyPassword crypt p hash = true ↔ p = q) ↔ (cString p = cString q → p = q) := by
  rw [verify_iff hc hrandom hp hq h]
  exact ⟨fun hiff => hiff.mp, fun himp => ⟨himp, congrArg cString⟩⟩

/-! ## A password with a NUL -/

/-- An accepted password. -/
def samplePassword : Bytes := utf8 "correct1horse"

/-- Sixteen zeros. -/
def sampleRandom : Bytes := List.replicate 16 0

/-- The bcrypt hash of `samplePassword` from `sampleRandom`. -/
def sampleHash : Bytes := utf8 "$2b$12$000000000000000000000uQI6Ls3ZCvDaqBrpVq1aAAadPCH1ZEd2"

/-- What tells settings apart here. Of the digit behind it bcrypt uses two bits. -/
def saltOf (setting : Bytes) : Bytes := setting.take 28

/-- A result with the salt and the key. -/
def sampleResult (key setting : Bytes) : Bytes :=
  if key = samplePassword ∧ saltOf setting = saltOf sampleHash then sampleHash
  else saltOf setting ++ 33 :: key

/-- bcrypt for one password and its salt, and otherwise the key in clear. -/
def sampleCrypt : Crypt where
  crypt key setting := some (sampleResult key setting)
  error _ _ := []

/-- Only the salt of a setting matters. -/
theorem sampleResult_congr {setting setting' : Bytes} (h : saltOf setting = saltOf setting') :
    sampleResult key setting = sampleResult key setting' := by
  unfold sampleResult
  rw [h]

/-- The salt has a fixed length. -/
theorem length_saltOf (hrandom : random.length = 16) : (saltOf (buildSalt random)).length = 28 := by
  unfold saltOf buildSalt
  rw [List.length_take, List.length_append, length_toHex, hrandom]
  rfl

/-- A result is a setting with the same salt. -/
theorem saltOf_sampleResult (hrandom : random.length = 16) (key : Bytes) :
    saltOf (sampleResult key (buildSalt random)) = saltOf (buildSalt random) := by
  unfold sampleResult
  split
  · next h => exact h.2.symm
  · exact List.take_left' (length_saltOf hrandom)

/-- Different keys have different results. -/
theorem sampleResult_injective (h : sampleResult key (buildSalt random) =
    sampleResult key' (buildSalt random)) : key = key' := by
  have hother (key : Bytes) : saltOf sampleHash ++ 33 :: key ≠ sampleHash := fun heq => by
    have hdrop := congrArg (fun s => (s.drop 28).head?) heq
    simp only [List.drop_left' (show (saltOf sampleHash).length = 28 by decide +kernel),
      List.head?_cons] at hdrop
    exact absurd hdrop (by decide +kernel)
  unfold sampleResult at h
  split at h
  · next hs =>
    split at h
    · next hs' => rw [hs.1, hs'.1]
    · rw [hs.2] at h
      exact absurd h.symm (hother key')
  · split at h
    · next hs' =>
      rw [hs'.2] at h
      exact absurd h (hother key)
    · exact (List.cons.inj (List.append_cancel_left h)).2

theorem zero_notMem_toHex (bytes : Bytes) : 0 ∉ toHex bytes := by
  have hall : ∀ n ∈ List.range 16, hexDigits.getD n 0 ≠ 0 := by decide
  intro h
  obtain ⟨b, -, hb⟩ := List.mem_flatMap.mp h
  have hlt : b.toNat < 256 := UInt8.toNat_lt_size b
  rcases List.mem_cons.mp hb with hb | hb
  · exact hall _ (List.mem_range.mpr (by omega)) hb.symm
  · exact hall _ (List.mem_range.mpr (by omega)) (List.mem_singleton.mp hb).symm

/-- The function behaves as bcrypt does. -/
theorem bcrypt_sampleCrypt : Bcrypt sampleCrypt := by
  have haccepted {key hash setting : Bytes}
      (h : acceptable (sampleCrypt.crypt key setting) = some hash) :
      hash = sampleResult key setting := by
    unfold acceptable sampleCrypt at h
    split at h
    · next heq =>
      split at h
      · cases h
      · cases h
        exact (Option.some.inj heq).symm
    · cases h
  refine ⟨fun {random key key' hash} _ _ _ h h' => ?_, fun {random key key' hash} hr _ _ h => ?_,
    fun {random key hash} hr hkey h => ?_⟩
  · exact sampleResult_injective ((haccepted h).symm.trans (haccepted h'))
  · rw [haccepted h]
    exact congrArg some (sampleResult_congr (saltOf_sampleResult hr key))
  · rw [haccepted h]
    unfold sampleResult
    split
    · decide +kernel
    · have hlength := length_saltOf hr
      have hle := hkey.2
      refine ⟨fun hmem => ?_, by rw [List.length_append, List.length_cons]; omega⟩
      rcases List.mem_append.mp hmem with hmem | hmem
      · rcases List.mem_append.mp (List.mem_of_mem_take hmem) with hmem | hmem
        · exact absurd hmem (by decide)
        · exact zero_notMem_toHex random hmem
      · rcases List.mem_cons.mp hmem with heq | hmem
        · exact absurd heq (by decide)
        · exact hkey.1 hmem

theorem only_the_password_iff_sample :
    (verifyPassword sampleCrypt samplePassword sampleHash = true ↔
      samplePassword = samplePassword ++ [0, 97]) ↔
        (cString samplePassword = cString (samplePassword ++ [0, 97]) →
          samplePassword = samplePassword ++ [0, 97]) :=
  only_the_password_iff bcrypt_sampleCrypt (show sampleRandom.length = 16 from rfl)
    (by decide +kernel) (by decide +kernel) (by decide +kernel)

/-- What stands behind a NUL is ignored. -/
theorem tail_is_ignored :
    validatePassword (samplePassword ++ [0, 97]) = .ok () ∧
      validatePassword (samplePassword ++ [0, 98]) = .ok () ∧
      hashPassword sampleCrypt (samplePassword ++ [0, 97]) sampleRandom = .ok sampleHash ∧
      verifyPassword sampleCrypt (samplePassword ++ [0, 98]) sampleHash = true := by
  decide +kernel

end MiniOj.Auth
