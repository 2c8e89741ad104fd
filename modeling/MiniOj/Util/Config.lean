import MiniOj.Http.Handlers
import MiniOj.Infra.Clock
import MiniOj.Util.Dotenv

/-!
# The configuration

`AppConfig::load` and `AppConfig::validate` with the parsers of single settings
(`util/config.cpp`).
-/

namespace MiniOj.Util

open Infra

/-- What the parsers of numbers throw. -/
def invalidUnsigned (key : Bytes) : Exn := runtimeError (utf8 "invalid unsigned value for " ++ key)

/-- A number below `2 ^ 64`, as `std::stoull` reads it. -/
def parseUnsigned (key value : Bytes) : Except Exn Nat :=
  if value.isEmpty || value.head? == some 45 then .error (invalidUnsigned key)
  else
    match Http.stoull value with
    | none => .error (invalidUnsigned key)
    | some result => .ok result

/-- A port other than 0. -/
def parsePort (key value : Bytes) : Except Exn UInt16 := do
  let port ← parseUnsigned key value
  if port = 0 ∨ 65535 < port then .error (runtimeError (utf8 "port out of range for " ++ key))
  else return .ofNat port

/-- `size_t` has 64 bits. -/
def parseSize (key value : Bytes) : Except Exn Nat := do
  let parsed ← parseUnsigned key value
  if 2 ^ 64 - 1 < parsed then .error (runtimeError (utf8 "value out of range for " ++ key))
  else return parsed

/-- The words for true and for false. -/
def parseBoolean (key value : Bytes) : Except Exn Bool :=
  if value = utf8 "true" ∨ value = utf8 "1" ∨ value = utf8 "yes" then .ok true
  else if value = utf8 "false" ∨ value = utf8 "0" ∨ value = utf8 "no" then .ok false
  else .error (runtimeError (utf8 "invalid boolean value for " ++ key))

/-! ## The whole configuration -/

/-- The settings of the database. -/
structure DatabaseConfig where
  host : Bytes := utf8 "127.0.0.1"
  port : UInt16 := 3306
  name : Bytes := utf8 "minioj"
  user : Bytes := utf8 "minioj"
  password : Bytes := []
  poolSize : Nat := 10
  /-- in seconds -/
  connectTimeout : Int64 := 5
  /-- in milliseconds -/
  acquireTimeout : Int64 := 2000
  deriving DecidableEq, Repr

/-- `SessionConfig` as it is loaded. -/
structure LoadedSession where
  /-- in seconds -/
  ttl : Int64 := 604800
  secureCookie : Bool := false
  deriving DecidableEq, Repr

/-- All settings, each with its default. -/
structure AppConfig where
  database : DatabaseConfig := {}
  http : Http.HttpConfig := {}
  session : LoadedSession := {}
  loggingLevel : Bytes := utf8 "info"
  deriving DecidableEq, Repr

/-- `std::chrono::seconds` and `std::chrono::milliseconds` of an `unsigned long long`. -/
def duration (count : Nat) : Int64 := (UInt64.ofNat count).toInt64

namespace AppConfig

/-- The settings that the program refuses to start with. -/
def validate (config : AppConfig) : Except Exn Unit :=
  let reject (message : String) : Except Exn Unit := .error (runtimeError (utf8 message))
  if config.database.host = [] ∨ config.database.name = [] ∨ config.database.user = [] then
    reject "database host, name and user must not be empty"
  else if config.database.password = [] then
    reject "DB_PASSWORD must not be empty"
  else if config.database.poolSize = 0 ∨ 128 < config.database.poolSize then
    reject "DB_POOL_SIZE must be between 1 and 128"
  else if config.database.connectTimeout ≤ 0 ∨ config.database.acquireTimeout ≤ 0 then
    reject "database timeouts must be positive"
  else if config.http.host = [] then
    reject "HTTP_HOST must not be empty"
  else if config.session.ttl ≤ 0 then
    reject "SESSION_TTL_SECONDS must be positive"
  else if config.loggingLevel ≠ utf8 "debug" ∧ config.loggingLevel ≠ utf8 "info" ∧
      config.loggingLevel ≠ utf8 "warning" ∧ config.loggingLevel ≠ utf8 "error" then
    reject "LOG_LEVEL must be debug, info, warning or error"
  else .ok ()

/-- `environment` is `std::getenv`, `file` the dotenv file if it can be opened. -/
def load (environment : Values) (file : Option Bytes) : Except Exn AppConfig := do
  let dotenv ← loadDotenv file
  let value (key fallback : String) : Bytes :=
    valueOf environment dotenv (utf8 key) (utf8 fallback)
  let host := value "DB_HOST" "127.0.0.1"
  let port ← parsePort (utf8 "DB_PORT") (value "DB_PORT" "3306")
  let name := value "DB_NAME" "minioj"
  let user := value "DB_USER" "minioj"
  let password := value "DB_PASSWORD" ""
  let poolSize ← parseSize (utf8 "DB_POOL_SIZE") (value "DB_POOL_SIZE" "10")
  let connectTimeout ← parseUnsigned (utf8 "DB_CONNECT_TIMEOUT_SECONDS")
    (value "DB_CONNECT_TIMEOUT_SECONDS" "5")
  let acquireTimeout ← parseUnsigned (utf8 "DB_ACQUIRE_TIMEOUT_MS")
    (value "DB_ACQUIRE_TIMEOUT_MS" "2000")
  let httpHost := value "HTTP_HOST" "0.0.0.0"
  let httpPort ← parsePort (utf8 "HTTP_PORT") (value "HTTP_PORT" "8080")
  let ttl ← parseUnsigned (utf8 "SESSION_TTL_SECONDS") (value "SESSION_TTL_SECONDS" "604800")
  let secureCookie ← parseBoolean (utf8 "SESSION_COOKIE_SECURE")
    (value "SESSION_COOKIE_SECURE" "false")
  let loggingLevel := value "LOG_LEVEL" "info"
  let config : AppConfig := {
    database := {
      host, port, name, user, password, poolSize
      connectTimeout := duration connectTimeout
      acquireTimeout := duration acquireTimeout }
    http := { host := httpHost, port := httpPort }
    session := { ttl := duration ttl, secureCookie }
    loggingLevel }
  config.validate
  return config

end AppConfig

/-! ## What is computed from it -/

/-- `std::chrono::system_clock::now() + ttl` in `createSession`. -/
def expiresAt (now : Int64) (config : AppConfig) : Option Int64 :=
  later now (10 ^ 9) config.session.ttl

/-- `MYSQL_OPT_CONNECT_TIMEOUT` in `createConnection`: a cast to `unsigned int`. -/
def mysqlConnectTimeout (config : AppConfig) : UInt32 :=
  config.database.connectTimeout.toUInt64.toUInt32

/-- The end of the `wait_for` in `acquireFor`, which begins at the reading `now` of
`steady_clock`. -/
def acquireDeadline (now : Int64) (config : AppConfig) : Option Int64 :=
  later now (10 ^ 6) config.database.acquireTimeout

end MiniOj.Util
