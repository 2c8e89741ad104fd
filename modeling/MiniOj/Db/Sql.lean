import MiniOj.Http.Backend
import MiniOj.Infra.SqlText

/-!
# The SQL texts

The texts of `problem_dao.cpp`, `user_dao.cpp` and `seed_loader.cpp` as they are put together
there, operand by operand. `mysql_real_escape_string` and `formatMysqlTimestamp` are inputs.
-/

namespace MiniOj.Db

open Infra Infra.Sql Http

/-- The value of the `ENUM`. -/
def difficultyName : Difficulty → String
  | .easy => "easy"
  | .medium => "medium"
  | .hard => "hard"

/-- The table in `schema.sql`. -/
def Table.name : Table → String
  | .problems => "problems"
  | .testcases => "testcases"
  | .tags => "tags"
  | .problemTags => "problem_tags"

/-- The texts, by the function or the statement they are built for. -/
inductive Query where
  | tagNamesForProblem (problemId : Nat)
  | tagsWithIdForProblem (problemId : Nat)
  | sampleTestcases (problemId : Nat)
  | allTestcases (problemId : Nat)
  | startTransaction
  | rollback
  | commit
  | upsertTag (name : Bytes)
  | linkTag (problemId tagId : Nat)
  | insertTestcase (problemId : Nat) (input expectedOutput : Bytes) (isSample : Bool)
      (score : UInt32)
  | deleteProblemTags (problemId : Nat)
  | deleteTestcases (problemId : Nat)
  | problemExists (problemId : Nat)
  | listProblems (filters : ProblemFilters)
  /-- of `getProblemDetail` and `getFullProblem` -/
  | problemDetail (problemId : Nat)
  | listFullProblems
  | insertProblem (title descriptionMd : Bytes) (difficulty : Difficulty)
      (timeLimitMs memoryLimitMb : UInt32)
  | updateProblem (problemId : Nat) (title descriptionMd : Bytes) (difficulty : Difficulty)
      (timeLimitMs memoryLimitMb : UInt32)
  | deleteProblem (problemId : Nat)
  | findUserByUsername (username : Bytes)
  | findUserById (userId : Nat)
  | insertUser (username passwordHash role : Bytes)
  /-- `expiresAt` is what `formatMysqlTimestamp` returns -/
  | insertSession (sessionId : Bytes) (userId : Nat) (expiresAt : Bytes)
  | findUserByValidSessionId (sessionId : Bytes)
  | deleteSession (sessionId : Bytes)
  | deleteAll (t : Table)
  | resetAutoIncrement (t : Table)
  deriving DecidableEq, Repr

/-- `wheres` of `listProblems` -/
def wheres (filters : ProblemFilters) : List (List Piece) :=
  (match filters.difficulty with
    | some d => [[.lit "p.difficulty = '", .lit (difficultyName d), .lit "'"]]
    | none => []) ++
  (match filters.tag with
    | some tag => [[.lit "t.name = '", .escaped tag, .lit "'"]]
    | none => [])

/-- The text of the query, piece by piece. -/
def Query.sql : Query → List Piece
  | .tagNamesForProblem problemId =>
    [.lit "SELECT t.name FROM tags t ", .lit "INNER JOIN problem_tags pt ON pt.tag_id = t.id ",
      .lit "WHERE pt.problem_id = ", .number problemId, .lit " ", .lit "ORDER BY t.name ASC"]
  | .tagsWithIdForProblem problemId =>
    [.lit "SELECT t.id, t.name FROM tags t ",
      .lit "INNER JOIN problem_tags pt ON pt.tag_id = t.id ", .lit "WHERE pt.problem_id = ",
      .number problemId, .lit " ", .lit "ORDER BY t.name ASC"]
  | .sampleTestcases problemId =>
    [.lit "SELECT id, problem_id, input, expected_output FROM testcases ",
      .lit "WHERE problem_id = ", .number problemId, .lit " AND is_sample = TRUE ",
      .lit "ORDER BY id ASC"]
  | .allTestcases problemId =>
    [.lit "SELECT id, problem_id, input, expected_output, is_sample, score FROM testcases ",
      .lit "WHERE problem_id = ", .number problemId, .lit " ", .lit "ORDER BY id ASC"]
  | .startTransaction => [.lit "START TRANSACTION"]
  | .rollback => [.lit "ROLLBACK"]
  | .commit => [.lit "COMMIT"]
  | .upsertTag name =>
    [.lit "INSERT INTO tags (name) VALUES ('", .escaped name, .lit "') ",
      .lit "ON DUPLICATE KEY UPDATE id = LAST_INSERT_ID(id)"]
  | .linkTag problemId tagId =>
    [.lit "INSERT INTO problem_tags (problem_id, tag_id) VALUES (", .number problemId, .lit ",",
      .number tagId, .lit ")"]
  | .insertTestcase problemId input expectedOutput isSample score =>
    [.lit "INSERT INTO testcases (problem_id, input, expected_output, is_sample, score) VALUES (",
      .number problemId, .lit ",'", .escaped input, .lit "','", .escaped expectedOutput,
      .lit "',", .lit (if isSample then "TRUE" else "FALSE"), .lit ",", .number score.toNat,
      .lit ")"]
  | .deleteProblemTags problemId =>
    [.lit "DELETE FROM problem_tags WHERE problem_id = ", .number problemId]
  | .deleteTestcases problemId =>
    [.lit "DELETE FROM testcases WHERE problem_id = ", .number problemId]
  | .problemExists problemId =>
    [.lit "SELECT id FROM problems WHERE id = ", .number problemId, .lit " LIMIT 1"]
  | .listProblems filters =>
    [.lit "SELECT p.id, p.title, p.difficulty, p.time_limit_ms, p.memory_limit_mb ",
      .lit "FROM problems p "] ++
    (if filters.tag.isSome then
      [.lit "INNER JOIN problem_tags pt ON pt.problem_id = p.id ",
        .lit "INNER JOIN tags t ON t.id = pt.tag_id "]
    else []) ++
    (if (wheres filters).isEmpty then []
    else .lit "WHERE " :: [.lit " AND "].intercalate (wheres filters) ++ [.lit " "]) ++
    [.lit "ORDER BY p.id ASC"]
  | .problemDetail problemId =>
    [.lit "SELECT id, title, description_md, difficulty, time_limit_ms, memory_limit_mb ",
      .lit "FROM problems WHERE id = ", .number problemId, .lit " LIMIT 1"]
  | .listFullProblems =>
    [.lit "SELECT id, title, description_md, difficulty, time_limit_ms, memory_limit_mb ",
      .lit "FROM problems ORDER BY id ASC"]
  | .insertProblem title descriptionMd difficulty timeLimitMs memoryLimitMb =>
    [.lit "INSERT INTO problems (title, description_md, difficulty, time_limit_ms, ",
      .lit "memory_limit_mb) VALUES ('", .escaped title, .lit "','", .escaped descriptionMd,
      .lit "','", .lit (difficultyName difficulty), .lit "',", .number timeLimitMs.toNat,
      .lit ",", .number memoryLimitMb.toNat, .lit ")"]
  | .updateProblem problemId title descriptionMd difficulty timeLimitMs memoryLimitMb =>
    [.lit "UPDATE problems SET title='", .escaped title, .lit "', description_md='",
      .escaped descriptionMd, .lit "', difficulty='", .lit (difficultyName difficulty),
      .lit "', time_limit_ms=", .number timeLimitMs.toNat, .lit ", memory_limit_mb=",
      .number memoryLimitMb.toNat, .lit " WHERE id=", .number problemId]
  | .deleteProblem problemId => [.lit "DELETE FROM problems WHERE id = ", .number problemId]
  | .findUserByUsername username =>
    [.lit "SELECT id, username, role, password_hash FROM users WHERE username = '",
      .escaped username, .lit "' LIMIT 1"]
  | .findUserById userId =>
    [.lit "SELECT id, username, role, password_hash FROM users WHERE id = ", .number userId,
      .lit " LIMIT 1"]
  | .insertUser username passwordHash role =>
    [.lit "INSERT INTO users (username, password_hash, role) VALUES ('", .escaped username,
      .lit "', '", .escaped passwordHash, .lit "', '", .escaped role, .lit "')"]
  | .insertSession sessionId userId expiresAt =>
    [.lit "INSERT INTO sessions (id, user_id, expires_at) VALUES ('", .escaped sessionId,
      .lit "', ", .number userId, .lit ", '", .escaped expiresAt, .lit "')"]
  | .findUserByValidSessionId sessionId =>
    [.lit "SELECT u.id, u.username, u.role FROM users u ",
      .lit "INNER JOIN sessions s ON s.user_id = u.id ", .lit "WHERE s.id = '",
      .escaped sessionId, .lit "' AND s.expires_at > UTC_TIMESTAMP() ",
      .lit "ORDER BY s.expires_at DESC LIMIT 1"]
  | .deleteSession sessionId =>
    [.lit "DELETE FROM sessions WHERE id = '", .escaped sessionId, .lit "'"]
  | .deleteAll t => [.lit "DELETE FROM ", .lit t.name]
  | .resetAutoIncrement t => [.lit "ALTER TABLE ", .lit t.name, .lit " AUTO_INCREMENT = 1"]

/-! ## The statements that are sent -/

/-- The text of a call that sends one. -/
def Statement.query : Statement → Option Query
  | .startTransaction => some .startTransaction
  | .commit => some .commit
  | .rollback => some .rollback
  | .insertProblem title descriptionMd difficulty timeLimitMs memoryLimitMb =>
    some (.insertProblem title descriptionMd difficulty timeLimitMs memoryLimitMb)
  | .upsertTag name => some (.upsertTag name)
  | .linkTag problemId tagId => some (.linkTag problemId tagId)
  | .insertTestcase problemId input expectedOutput isSample score =>
    some (.insertTestcase problemId input expectedOutput isSample score)
  | .updateProblem id title descriptionMd difficulty timeLimitMs memoryLimitMb =>
    some (.updateProblem id title descriptionMd difficulty timeLimitMs memoryLimitMb)
  | .deleteProblem id => some (.deleteProblem id)
  | .deleteTestcases problemId => some (.deleteTestcases problemId)
  | .deleteProblemTags problemId => some (.deleteProblemTags problemId)
  | .deleteAll t => some (.deleteAll t)
  | .resetAutoIncrement t => some (.resetAutoIncrement t)
  | .selectExists id => some (.problemExists id)
  | .selectProblem id => some (.problemDetail id)
  -- for the list of problems the ids of the tags are left out
  | .selectTags problemId => some (.tagsWithIdForProblem problemId)
  | .selectTestcases problemId => some (.allTestcases problemId)
  | .acquire | .release | .storeResult | .freeResult _ => none

/-- The value of the `ENUM`. -/
def Role.name : Role → String
  | .user => "user"
  | .admin => "admin"

end MiniOj.Db

namespace MiniOj.Http

open Infra Db

/-- `timestamp` is `formatMysqlTimestamp` of a second. -/
def Call.query (timestamp : Nat → Bytes) : Call → Option Query
  | .bank st => st.query
  -- without filters also the text of `listFullProblems`
  | .selectProblems difficulty tag => some (.listProblems ⟨difficulty, tag⟩)
  | .selectSamples problemId => some (.sampleTestcases problemId)
  | .selectUser username => some (.findUserByUsername username)
  | .insertUser username passwordHash role =>
    some (.insertUser username passwordHash (utf8 role.name))
  | .insertSession id userId expiresAt => some (.insertSession id userId (timestamp expiresAt))
  | .selectSessionUser id => some (.findUserByValidSessionId id)
  | .deleteSession id => some (.deleteSession id)
  | .now | .random _ | .rateLimit _ | .judge _ => none

end MiniOj.Http
