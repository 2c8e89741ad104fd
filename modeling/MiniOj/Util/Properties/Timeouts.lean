import MiniOj.Util.Properties.Config

/-!
# Time spans in the configuration

`AppConfig::validate` tests that the three time spans are positive, in seconds and milliseconds.
They are used in nanoseconds and as an `unsigned int`, and not every positive one fits there.
-/

namespace MiniOj.Util

open Infra Http Admin

variable {environment : Values} {file : Option Bytes} {config : AppConfig} {n : Nat}

/-- What is computed from the configuration at these readings of the clocks is what is meant. -/
structure InRange (config : AppConfig) (systemNow steadyNow : Int64) : Prop where
  expires : ∃ t, expiresAt systemNow config = some t ∧ systemNow < t
  connect : ((mysqlConnectTimeout config).toNat : Int) = config.database.connectTimeout.toInt
  acquire : ∃ t, acquireDeadline steadyNow config = some t

/-- The number that the environment, the file or the default gives for a setting. -/
def settingOf (environment : Values) (file : Option Bytes) (key fallback : String) : Option Nat :=
  match loadDotenv file with
  | .error _ => none
  | .ok dotenv =>
    (parseUnsigned (utf8 key) (valueOf environment dotenv (utf8 key) (utf8 fallback))).toOption

/-- The settings are small enough for what is computed from them. -/
structure SettingsFit (environment : Values) (file : Option Bytes) (systemNow steadyNow : Int64) :
    Prop where
  ttl : ∀ n, settingOf environment file "SESSION_TTL_SECONDS" "604800" = some n →
    max 0 systemNow.toInt + n * 10 ^ 9 < 2 ^ 63
  connect : ∀ n, settingOf environment file "DB_CONNECT_TIMEOUT_SECONDS" "5" = some n → n < 2 ^ 32
  acquire : ∀ n, settingOf environment file "DB_ACQUIRE_TIMEOUT_MS" "2000" = some n →
    max 0 steadyNow.toInt + n * 10 ^ 6 < 2 ^ 63

/-! ## What is loaded -/

theorem parseUnsigned_lt {key value : Bytes} (h : parseUnsigned key value = .ok n) :
    n < 2 ^ 64 := by
  unfold parseUnsigned at h
  split at h
  · cases h
  · cases hs : stoull value with
    | none =>
      rw [hs] at h
      cases h
    | some m =>
      rw [hs] at h
      cases h
      exact stoull_lt hs

/-- A test of `validate` that has been passed. -/
theorem ok_of_else {c : Prop} [Decidable c] {e : Exn} {x : Except Exn Unit}
    (h : (if c then .error e else x) = .ok ()) : ¬ c ∧ x = .ok () := by
  by_cases hc : c
  · rw [if_pos hc] at h
    cases h
  · rw [if_neg hc] at h
    exact ⟨hc, h⟩

/-- The time spans that `validate` lets through. -/
structure Positive (config : AppConfig) : Prop where
  ttl : 0 < config.session.ttl.toInt
  connect : 0 < config.database.connectTimeout.toInt
  acquire : 0 < config.database.acquireTimeout.toInt

theorem positive_of_validate (h : config.validate = .ok ()) : Positive config := by
  unfold AppConfig.validate at h
  obtain ⟨-, h⟩ := ok_of_else h
  obtain ⟨-, h⟩ := ok_of_else h
  obtain ⟨-, h⟩ := ok_of_else h
  obtain ⟨htimeouts, h⟩ := ok_of_else h
  obtain ⟨-, h⟩ := ok_of_else h
  obtain ⟨httl, -⟩ := ok_of_else h
  rw [not_or, Int64.le_iff_toInt_le, Int64.le_iff_toInt_le, Int.not_le, Int.not_le] at htimeouts
  rw [Int64.le_iff_toInt_le, Int.not_le] at httl
  exact ⟨httl, htimeouts.1, htimeouts.2⟩

/-- The time spans of a configuration are the numbers given for them. -/
structure Loaded (environment : Values) (file : Option Bytes) (config : AppConfig) : Prop where
  ttl : ∃ n : Nat, settingOf environment file "SESSION_TTL_SECONDS" "604800" = some n ∧
    config.session.ttl.toInt = n ∧ 0 < n
  connect : ∃ n : Nat, settingOf environment file "DB_CONNECT_TIMEOUT_SECONDS" "5" = some n ∧
    config.database.connectTimeout.toInt = n
  acquire : ∃ n : Nat, settingOf environment file "DB_ACQUIRE_TIMEOUT_MS" "2000" = some n ∧
    config.database.acquireTimeout.toInt = n ∧ 0 < n

theorem settingOf_eq {dotenv : Values} {key fallback : String} (hd : loadDotenv file = .ok dotenv)
    (hn : parseUnsigned (utf8 key) (valueOf environment dotenv (utf8 key) (utf8 fallback)) =
      .ok n) : settingOf environment file key fallback = some n := by
  unfold settingOf
  rw [hd]
  dsimp only
  rw [hn]
  rfl

theorem loaded_of_load (h : AppConfig.load environment file = .ok config) :
    Loaded environment file config := by
  unfold AppConfig.load at h
  obtain ⟨dotenv, hdotenv, h⟩ := ok_of_bind h
  obtain ⟨port, -, h⟩ := ok_of_bind h
  obtain ⟨poolSize, -, h⟩ := ok_of_bind h
  obtain ⟨connect, hconnect, h⟩ := ok_of_bind h
  obtain ⟨acquire, hacquire, h⟩ := ok_of_bind h
  obtain ⟨httpPort, -, h⟩ := ok_of_bind h
  obtain ⟨ttl, httl, h⟩ := ok_of_bind h
  obtain ⟨secure, -, h⟩ := ok_of_bind h
  obtain ⟨⟨⟩, hvalid, h⟩ := ok_of_bind h
  cases h
  obtain ⟨hpos, hpos', hpos''⟩ := positive_of_validate hvalid
  have hn := toInt_toInt64_of_pos (parseUnsigned_lt httl) hpos
  have hn' := toInt_toInt64_of_pos (parseUnsigned_lt hconnect) hpos'
  have hn'' := toInt_toInt64_of_pos (parseUnsigned_lt hacquire) hpos''
  refine ⟨⟨ttl, settingOf_eq hdotenv httl, hn, ?_⟩, ⟨connect, settingOf_eq hdotenv hconnect, hn'⟩,
    ⟨acquire, settingOf_eq hdotenv hacquire, hn'', ?_⟩⟩
  · exact Int.natCast_pos.mp (hn ▸ hpos)
  · exact Int.natCast_pos.mp (hn'' ▸ hpos'')

/-! ## What is computed -/

theorem expires_iff {now : Int64} (hn : config.session.ttl.toInt = n) (hpos : 0 < n) :
    (∃ t, expiresAt now config = some t ∧ now < t) ↔ max 0 now.toInt + n * 10 ^ 9 < 2 ^ 63 := by
  have hspan : 0 < config.session.ttl.toInt := by omega
  have hunit : (0 : Int) < 10 ^ 9 := by decide
  have hlater := later_isSome now hunit hspan
  rw [← hn, ← hlater]
  refine ⟨fun ⟨t, ht, _⟩ => ⟨t, ht⟩, fun ⟨t, ht⟩ => ⟨t, ht, ?_⟩⟩
  -- the time point is the sum, and a positive number is added
  have hsum := later_eq_some ht
  rw [Int64.lt_iff_toInt_lt, hsum]
  omega

theorem connect_iff (hn : config.database.connectTimeout.toInt = n) :
    ((mysqlConnectTimeout config).toNat : Int) = config.database.connectTimeout.toInt ↔
      n < 2 ^ 32 := by
  have hlt := config.database.connectTimeout.toInt_lt
  have hnat : config.database.connectTimeout = Int64.ofNat n := by
    rw [← Int64.toInt_inj, hn, Int64.toInt_ofNat_of_lt (by omega)]
  have hcast : (mysqlConnectTimeout config).toNat = n % 2 ^ 64 % 2 ^ 32 := by
    unfold mysqlConnectTimeout
    rw [hnat, Int64.toUInt64_ofNat', UInt64.toNat_toUInt32, UInt64.toNat_ofNat']
  rw [hcast, hn]
  omega

theorem acquire_iff {now : Int64} (hn : config.database.acquireTimeout.toInt = n) (hpos : 0 < n) :
    (∃ t, acquireDeadline now config = some t) ↔ max 0 now.toInt + n * 10 ^ 6 < 2 ^ 63 := by
  rw [← hn]
  exact later_isSome now (by decide) (by omega)

theorem forall_setting {o : Option Nat} {P : Nat → Prop} (h : o = some n) :
    (∀ m, o = some m → P m) ↔ P n := by
  simp [h]

/-- **When the time spans of a configuration can be used**: exactly when none of the numbers
given for them, in the unit of the code that uses it, is beyond what that code can represent. -/
theorem time_spans_in_range_iff (systemNow steadyNow : Int64)
    (h : AppConfig.load environment file = .ok config) :
    InRange config systemNow steadyNow ↔ SettingsFit environment file systemNow steadyNow := by
  obtain ⟨⟨ttl, httl, hn, hpos⟩, ⟨connect, hconnect, hn'⟩, ⟨acquire, hacquire, hn'', hpos''⟩⟩ :=
    loaded_of_load h
  constructor
  · rintro ⟨hexpires, hcast, hwait⟩
    exact ⟨(forall_setting httl).mpr ((expires_iff hn hpos).mp hexpires),
      (forall_setting hconnect).mpr ((connect_iff hn').mp hcast),
      (forall_setting hacquire).mpr ((acquire_iff hn'' hpos'').mp hwait)⟩
  · rintro ⟨hexpires, hcast, hwait⟩
    exact ⟨(expires_iff hn hpos).mpr ((forall_setting httl).mp hexpires),
      (connect_iff hn').mpr ((forall_setting hconnect).mp hcast),
      (acquire_iff hn'' hpos'').mpr ((forall_setting hacquire).mp hwait)⟩

/-- The password, which has no default, and one more setting. -/
def withSetting (key value : String) : Values := fun k =>
  if k = utf8 "DB_PASSWORD" then some (utf8 "secret")
  else if k = utf8 key then some (utf8 value)
  else none

/-- An hour-long session, loaded in 2023 (in nanoseconds since 1970) a day after the start. -/
theorem time_spans_in_range_hour :
    InRange { database := { password := utf8 "secret" }, session := { ttl := 3600 } }
      1700000000000000000 86400000000000 := by
  have hload : AppConfig.load (withSetting "SESSION_TTL_SECONDS" "3600") none =
      .ok { database := { password := utf8 "secret" }, session := { ttl := 3600 } } := by
    decide
  exact (time_spans_in_range_iff 1700000000000000000 86400000000000 hload).mpr
    ⟨by decide, by decide, by decide⟩

/-- A connect timeout of `2 ^ 32` seconds is accepted, and is none for the MySQL client. -/
theorem connect_timeout_lost : ¬ ∀ (environment : Values) (file : Option Bytes)
    (config : AppConfig) (systemNow steadyNow : Int64),
    AppConfig.load environment file = .ok config → InRange config systemNow steadyNow := by
  intro h
  have hrange := h (withSetting "DB_CONNECT_TIMEOUT_SECONDS" "4294967296") none
    { database := { password := utf8 "secret", connectTimeout := 4294967296 } } 0 0 (by decide)
  exact absurd hrange.connect (by decide)

end MiniOj.Util
