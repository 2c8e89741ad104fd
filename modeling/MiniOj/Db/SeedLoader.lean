import MiniOj.Db.ProblemDao

/-!
# The seed loader

`db/seed_loader.cpp`: the bank is cleared and filled again from a JSON file. The file and the
JSON reader are inputs.
-/

namespace MiniOj.Db

open Infra Admin

/-- The tables of `kStatements`: children before parents. -/
def clearOrder : List Table := [.problemTags, .testcases, .problems, .tags]

/-- The tables of `kResetAi`. -/
def counterOrder : List Table := [.problems, .testcases, .tags]

/-- The tables are emptied and their counters set back, without a transaction. -/
def clearProblemBank : Dao Unit :=
  withLease do
    clearOrder.forM fun t =>
      executeQuery (.deleteAll t) "clearProblemBank"
    counterOrder.forM fun t =>
      executeQuery (.resetAutoIncrement t) "clearProblemBank reset auto_increment"

/-- The seed file as the program meets it. -/
structure SeedFile where
  path : Bytes
  /-- `none` when it cannot be opened -/
  content : Option Bytes

/-- What `CharReader::parse` does when it has no value to give. -/
inductive JsonFailure where
  /-- returns false, with an error text -/
  | invalid (errors : Bytes)
  /-- throws `Json::RuntimeError`, as it does beyond its nesting limit -/
  | thrown (what : Bytes)
  deriving DecidableEq, Repr

/-- `CharReader::parse`. -/
abbrev JsonReader := Bytes → Except JsonFailure Json

/-- `Json::RuntimeError`. -/
def jsonRuntimeError (what : Bytes) : Exn := ⟨.jsonRuntimeError, what⟩

/-- One turn of the loop over the entries. -/
def loadEntry (index : Nat) (entry : Json) : Dao Unit :=
  Program.tryCatch (do
    match parseProblemInput entry with
    | .ok input => let _ ← createProblem input
    | .error e => .throw e)
    fun e => .throw (runtimeError
      (utf8 ("seed entry #" ++ toString index ++ " failed: ") ++ e.what))

/-- Each entry is stored by a transaction of its own; the first that fails ends it. -/
def loadEntries : Nat → List Json → Dao Unit
  | _, [] => return
  | index, entry :: entries => do
    loadEntry index entry
    loadEntries (index + 1) entries

/-- The file has to be an array. -/
def loadProblemsFromJson (read : JsonReader) (file : SeedFile) : Dao Unit :=
  match file.content with
  | none => .throw (runtimeError (utf8 "failed to open seed file: " ++ file.path))
  | some raw =>
    match read raw with
    | .error (.thrown what) => .throw (jsonRuntimeError what)
    | .error (.invalid error) => .throw (runtimeError
        (utf8 "seed JSON parse failed: " ++ error ++ utf8 " (file=" ++ file.path ++ utf8 ")"))
    | .ok (.array entries) => loadEntries 0 entries
    | .ok _ => .throw (runtimeError (utf8 "seed JSON must be a top-level array"))

/-- The bank is cleared before the file is looked at. -/
def resetProblemBank (read : JsonReader) (file : SeedFile) : Dao Unit := do
  clearProblemBank
  loadProblemsFromJson read file

end MiniOj.Db
