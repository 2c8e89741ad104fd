import MiniOj.Db.Sql
import MiniOj.Infra.Relational

/-!
# No value breaks out of its literal

Each text is the statement that was meant: the tokens of a prepared statement with the values
for its placeholders, whatever bytes the values have.

* `Query.prepared`, `Query.arguments` — what was meant
* `checked` — the fixed text of each statement
* `sql_text_whole` — what is sent
-/

namespace MiniOj.Db

open Infra Infra.Sql Http

/-! ## What was meant -/

/-- The statement with a placeholder for each value, in parts. -/
def Query.parts : Query → List String
  | .tagNamesForProblem _ =>
    ["SELECT t.name FROM tags t INNER JOIN problem_tags pt ON pt.tag_id = t.id ",
      "WHERE pt.problem_id = ? ORDER BY t.name ASC"]
  | .tagsWithIdForProblem _ =>
    ["SELECT t.id, t.name FROM tags t INNER JOIN problem_tags pt ON pt.tag_id = t.id ",
      "WHERE pt.problem_id = ? ORDER BY t.name ASC"]
  | .sampleTestcases _ =>
    ["SELECT id, problem_id, input, expected_output FROM testcases ",
      "WHERE problem_id = ? AND is_sample = TRUE ORDER BY id ASC"]
  | .allTestcases _ =>
    ["SELECT id, problem_id, input, expected_output, is_sample, score FROM testcases ",
      "WHERE problem_id = ? ORDER BY id ASC"]
  | .startTransaction => ["START TRANSACTION"]
  | .rollback => ["ROLLBACK"]
  | .commit => ["COMMIT"]
  | .upsertTag _ =>
    ["INSERT INTO tags (name) VALUES (?) ", "ON DUPLICATE KEY UPDATE id = LAST_INSERT_ID(id)"]
  | .linkTag .. => ["INSERT INTO problem_tags (problem_id, tag_id) VALUES (?, ?)"]
  | .insertTestcase _ _ _ isSample _ =>
    ["INSERT INTO testcases (problem_id, input, expected_output, is_sample, score) ",
      "VALUES (?, ?, ?, ", if isSample then "TRUE" else "FALSE", ", ?)"]
  | .deleteProblemTags _ => ["DELETE FROM problem_tags WHERE problem_id = ?"]
  | .deleteTestcases _ => ["DELETE FROM testcases WHERE problem_id = ?"]
  | .problemExists _ => ["SELECT id FROM problems WHERE id = ? LIMIT 1"]
  | .listProblems ⟨difficulty, tag⟩ =>
    ["SELECT p.id, p.title, p.difficulty, p.time_limit_ms, p.memory_limit_mb ",
      "FROM problems p "] ++
    (if tag.isSome then ["INNER JOIN problem_tags pt ON pt.problem_id = p.id ",
      "INNER JOIN tags t ON t.id = pt.tag_id "] else []) ++
    (match difficulty, tag with
      | none, none => []
      | some d, none => ["WHERE p.difficulty = '", difficultyName d, "' "]
      | none, some _ => ["WHERE t.name = ? "]
      | some d, some _ => ["WHERE p.difficulty = '", difficultyName d, "' AND t.name = ? "]) ++
    ["ORDER BY p.id ASC"]
  | .problemDetail _ =>
    ["SELECT id, title, description_md, difficulty, time_limit_ms, memory_limit_mb ",
      "FROM problems WHERE id = ? LIMIT 1"]
  | .listFullProblems =>
    ["SELECT id, title, description_md, difficulty, time_limit_ms, memory_limit_mb ",
      "FROM problems ORDER BY id ASC"]
  | .insertProblem _ _ difficulty _ _ =>
    ["INSERT INTO problems (title, description_md, difficulty, time_limit_ms, ",
      "memory_limit_mb) VALUES (?, ?, '", difficultyName difficulty, "', ?, ?)"]
  | .updateProblem _ _ _ difficulty _ _ =>
    ["UPDATE problems SET title = ?, description_md = ?, difficulty = '",
      difficultyName difficulty, "', time_limit_ms = ?, memory_limit_mb = ? WHERE id = ?"]
  | .deleteProblem _ => ["DELETE FROM problems WHERE id = ?"]
  | .findUserByUsername _ =>
    ["SELECT id, username, role, password_hash FROM users WHERE username = ? LIMIT 1"]
  | .findUserById _ =>
    ["SELECT id, username, role, password_hash FROM users WHERE id = ? LIMIT 1"]
  | .insertUser .. => ["INSERT INTO users (username, password_hash, role) VALUES (?, ?, ?)"]
  | .insertSession .. => ["INSERT INTO sessions (id, user_id, expires_at) VALUES (?, ?, ?)"]
  | .findUserByValidSessionId _ =>
    ["SELECT u.id, u.username, u.role FROM users u ",
      "INNER JOIN sessions s ON s.user_id = u.id ",
      "WHERE s.id = ? AND s.expires_at > UTC_TIMESTAMP() ", "ORDER BY s.expires_at DESC LIMIT 1"]
  | .deleteSession _ => ["DELETE FROM sessions WHERE id = ?"]
  | .deleteAll t => ["DELETE FROM ", t.name]
  | .resetAutoIncrement t => ["ALTER TABLE ", t.name, " AUTO_INCREMENT = 1"]

def Query.prepared (q : Query) : Bytes := q.parts.flatMap utf8

/-- The values for the placeholders. -/
def Query.arguments : Query → List Token
  | .tagNamesForProblem n | .tagsWithIdForProblem n | .sampleTestcases n | .allTestcases n
  | .deleteProblemTags n | .deleteTestcases n | .problemExists n | .problemDetail n
  | .deleteProblem n | .findUserById n => [.number n]
  | .startTransaction | .rollback | .commit | .listFullProblems | .deleteAll _
  | .resetAutoIncrement _ => []
  | .upsertTag v | .findUserByUsername v | .findUserByValidSessionId v | .deleteSession v =>
    [.text v]
  | .linkTag problemId tagId => [.number problemId, .number tagId]
  | .insertTestcase problemId input expectedOutput _ score =>
    [.number problemId, .text input, .text expectedOutput, .number score.toNat]
  | .listProblems filters => filters.tag.toList.map .text
  | .insertProblem title descriptionMd _ timeLimitMs memoryLimitMb =>
    [.text title, .text descriptionMd, .number timeLimitMs.toNat, .number memoryLimitMb.toNat]
  | .updateProblem problemId title descriptionMd _ timeLimitMs memoryLimitMb =>
    [.text title, .text descriptionMd, .number timeLimitMs.toNat, .number memoryLimitMb.toNat,
      .number problemId]
  | .insertUser username passwordHash role => [.text username, .text passwordHash, .text role]
  | .insertSession sessionId userId expiresAt =>
    [.text sessionId, .number userId, .text expiresAt]

/-- The text that is sent is the statement that was meant, and `mysql_query`, which takes a C
string, sees all of it. -/
structure Query.Whole (escape : Bytes → Bytes) (q : Query) : Prop where
  noNul : 0 ∉ render escape q.sql
  tokens : ∃ ts, lex utf8mb4 q.prepared = some ts ∧
    ts.count .param = q.arguments.length ∧
    lex utf8mb4 (render escape q.sql) = some (fill ts q.arguments)

/-! ## The fixed text -/

/-- The statement with other values. -/
def Query.blank : Query → Query
  | .tagNamesForProblem _ => .tagNamesForProblem 0
  | .tagsWithIdForProblem _ => .tagsWithIdForProblem 0
  | .sampleTestcases _ => .sampleTestcases 0
  | .allTestcases _ => .allTestcases 0
  | .upsertTag _ => .upsertTag []
  | .linkTag .. => .linkTag 0 0
  | .insertTestcase _ _ _ isSample _ => .insertTestcase 0 [] [] isSample 0
  | .deleteProblemTags _ => .deleteProblemTags 0
  | .deleteTestcases _ => .deleteTestcases 0
  | .problemExists _ => .problemExists 0
  | .listProblems filters => .listProblems { filters with tag := filters.tag.map fun _ => [] }
  | .problemDetail _ => .problemDetail 0
  | .insertProblem _ _ difficulty _ _ => .insertProblem [] [] difficulty 0 0
  | .updateProblem _ _ _ difficulty _ _ => .updateProblem 0 [] [] difficulty 0 0
  | .deleteProblem _ => .deleteProblem 0
  | .findUserByUsername _ => .findUserByUsername []
  | .findUserById _ => .findUserById 0
  | .insertUser .. => .insertUser [] [] []
  | .insertSession .. => .insertSession [] 0 []
  | .findUserByValidSessionId _ => .findUserByValidSessionId []
  | .deleteSession _ => .deleteSession []
  | q => q

theorem sql_blank (q : Query) : q.blank.sql = q.sql.map Piece.blank := by
  cases q with
  | listProblems filters =>
    obtain ⟨_ | d, _ | tag⟩ := filters <;> rfl
  | _ => rfl

theorem parts_blank (q : Query) : q.blank.parts = q.parts := by
  cases q with
  | listProblems filters =>
    obtain ⟨_ | d, _ | tag⟩ := filters <;> rfl
  | _ => rfl

theorem values_sql (q : Query) : values q.sql = q.arguments := by
  cases q with
  | listProblems filters =>
    obtain ⟨_ | d, _ | tag⟩ := filters <;> rfl
  | _ => rfl

/-- The fixed text of a statement makes it the one that was meant. -/
def Query.Checked (q : Query) : Prop :=
  template (frames q.sql).1 (frames q.sql).2 = lex utf8mb4 q.prepared ∧
    (template (frames q.sql).1 (frames q.sql).2).isSome ∧ 0 ∉ (frames q.sql).1 ∧
      ∀ p ∈ (frames q.sql).2, 0 ∉ p.2

instance (q : Query) : Decidable q.Checked := inferInstanceAs (Decidable (_ ∧ _ ∧ _ ∧ _))

theorem checked_blank (q : Query) : q.blank.Checked := by
  cases q with
  | insertTestcase _ _ _ isSample _ =>
    cases isSample <;> (simp only [Query.blank]; decide +kernel)
  | insertProblem _ _ difficulty _ _ | updateProblem _ _ _ difficulty _ _ =>
    cases difficulty <;> (simp only [Query.blank]; decide +kernel)
  | listProblems filters =>
    obtain ⟨difficulty, tag⟩ := filters
    cases difficulty with
    | none => cases tag <;> (simp only [Query.blank, Option.map]; decide +kernel)
    | some d => cases d <;> cases tag <;> (simp only [Query.blank, Option.map]; decide +kernel)
  | deleteAll t | resetAutoIncrement t => cases t <;> (simp only [Query.blank]; decide +kernel)
  | _ => simp only [Query.blank]; decide +kernel

/-- What the fixed text shows does not depend on the values. -/
theorem checked (q : Query) : q.Checked := by
  obtain ⟨htemplate, hsome, hhead, htail⟩ := checked_blank q
  rw [sql_blank, frames_blank] at htemplate hsome hhead htail
  dsimp only at htemplate hsome hhead htail
  rw [template_blank] at htemplate hsome
  rw [Query.prepared, parts_blank] at htemplate
  exact ⟨htemplate, hsome, hhead, fun p hp =>
    htail (Prod.map Token.blank id p) (List.mem_map_of_mem hp)⟩

/-! ## What is sent -/

theorem Query.whole {escape : Bytes → Bytes} (hescape : ∀ v, Escapes v (escape v)) (q : Query) :
    q.Whole escape := by
  obtain ⟨hprepared, hsome, hhead, htail⟩ := checked q
  obtain ⟨ts, hts⟩ := Option.isSome_iff_exists.mp hsome
  refine ⟨zero_not_mem_render hescape hhead htail, ts, hprepared ▸ hts, ?_, ?_⟩
  · rw [count_template hts, ← values_sql, values, List.length_map]
  · rw [lex_render asciiSafe_utf8mb4 hescape hts, values_sql]

/-- The texts that a program sends, with `formatMysqlTimestamp` on the side. -/
def sentTexts (timestamp : Nat → Bytes) (calls : List Call) : List Query :=
  calls.filterMap (Call.query timestamp)

/-- **No value breaks out of its literal.** Whatever bytes the values have, a text has the tokens
of the statement that was meant, and there is no `NUL` in it; so have all the texts that a run of
a program over the DAOs sends. -/
theorem sql_text_whole (escape : Bytes → Bytes) (hescape : ∀ v, Escapes v (escape v)) :
    (∀ q : Query, q.Whole escape) ∧
      ∀ (α : Type) (p : Handler α) (env : Env) (b : Backend) (timestamp : Nat → Bytes),
        ∀ q ∈ sentTexts timestamp (p.trace env.exec b), q.Whole escape :=
  ⟨fun q => q.whole hescape, fun _ _ _ _ _ q _ => q.whole hescape⟩

/-- `mysql_real_escape_string`, for values in UTF-8. -/
def escapeSpecials (v : Bytes) : Bytes :=
  v.flatMap fun b => match escapeLetter b with
    | some letter => [92, letter]
    | none => [b]

theorem escapes_escapeSpecials (v : Bytes) : Escapes v (escapeSpecials v) := by
  induction v with
  | nil => exact .nil
  | cons b v ih =>
    unfold escapeSpecials at ih ⊢
    rw [List.flatMap_cons]
    cases hb : escapeLetter b with
    | some letter => exact .special hb ih
    | none => exact .plain hb ih

/-- A user by the name of `\' OR '1'='1`. -/
theorem sql_text_whole_injection :
    (Query.findUserByUsername (utf8 "\\' OR '1'='1")).Whole escapeSpecials :=
  (sql_text_whole escapeSpecials escapes_escapeSpecials).1 _

end MiniOj.Db
