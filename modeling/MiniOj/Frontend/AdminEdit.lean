import Mathlib.Algebra.Group.Int.Defs
import MiniOj.Db.ProblemDao
import MiniOj.Frontend.JsString
import MiniOj.Http.Dto
import MiniOj.Infra.Utf8

/-!
# The form for problems

`admin_edit.js`: how the answer of the server is put into the form, and how the form is checked
and sent. A field gives back the string that was put into it. The texts of an answer are UTF-8,
and its numbers have 32 bits, so that a double holds them.
-/

namespace MiniOj.Frontend.AdminEdit

open Infra

/-- A row of the testcases, at first as in the template `tpl-case`. -/
structure CaseRow where
  inputArea : JsString := []
  outputArea : JsString := []
  isSample : Bool := false
  scoreInput : JsString := ['0']
  deriving DecidableEq, Repr

/-- The fields of the form. -/
structure ProblemForm where
  titleInput : JsString
  difficultySelect : JsString
  timeInput : JsString
  memInput : JsString
  descInput : JsString
  tagsInput : JsString
  cases : List CaseRow
  deriving DecidableEq, Repr

/-! ## Numbers and tags -/

/-- `String(n)`. -/
def numberText (n : Nat) : JsString := Nat.toDigits 10 n

/-- `parseInt(text, 10)`; `none` is `NaN`. -/
def parseInt (text : JsString) : Option Int :=
  let text := text.dropWhile JsString.isBlank
  let negative := text.head? == some '-'
  let text := if negative || text.head? == some '+' then text.drop 1 else text
  let digits := text.takeWhile Char.isDigit
  if digits = [] then none
  else
    let n := Nat.ofDigitChars 10 digits 0
    some (if negative then -n else n)

/-- `/[,，]/`. -/
def isComma (c : Char) : Bool := c == ',' || c == '，'

/-- Tags are separated by commas of either kind; what is blank is no tag. -/
def parseTags (raw : JsString) : List JsString :=
  ((raw.splitOnP isComma).map JsString.trim).filter fun s => 0 < s.length

/-! ## From the answer to the form -/

/-- `detail[key] || fallback` of a member that is a string or is not there. -/
def textOr (fallback : JsString) (detail : Json) (key : String) : JsString :=
  match detail.member? key with
  | some (.string value) => if decode value = [] then fallback else decode value
  | _ => fallback

/-- `String(detail[key] ?? fallback)` of a member that is a number or is not there. -/
def numberOr (fallback : Nat) (detail : Json) (key : String) : JsString :=
  match detail.member? key with
  | some (.uint n) => numberText n.toNat
  | _ => numberText fallback

/-- `detail[key] || []`. -/
def itemsOf (detail : Json) (key : String) : List Json :=
  match detail.member? key with
  | some (.array items) => items
  | _ => []

/-- `(t && t.name) || t`, as `join` makes a text of it. -/
def tagName (t : Json) : JsString :=
  match t, textOr [] t "name" with
  | _, c :: name => c :: name
  | .string name, [] => decode name
  | _, [] => "[object Object]".toList

/-- A row with a testcase of the answer in it. -/
def appendCase (initial : Json) : CaseRow :=
  let row : CaseRow := {}
  { inputArea := textOr row.inputArea initial "input"
    outputArea := textOr row.outputArea initial "expected_output"
    isSample := match initial.member? "is_sample" with
      | some (.bool isSample) => isSample
      | _ => row.isSample
    scoreInput := match initial.member? "score" with
      | some (.uint score) => numberText score.toNat
      | _ => row.scoreInput }

/-- The form with the answer in it. It has one empty row when there are no testcases. -/
def loadForEdit (detail : Json) : ProblemForm where
  titleInput := textOr [] detail "title"
  difficultySelect := textOr "medium".toList detail "difficulty"
  timeInput := numberOr 1000 detail "time_limit_ms"
  memInput := numberOr 256 detail "memory_limit_mb"
  descInput := textOr [] detail "description_md"
  tagsInput := ", ".toList.intercalate ((itemsOf detail "tags").map tagName)
  cases :=
    let rows := (itemsOf detail "testcases").map appendCase
    if rows.isEmpty then [{}] else rows

/-! ## From the form to the request -/

/-- The message, or the empty string. Texts in the rows are never `null`. -/
def validate (form : ProblemForm) : String :=
  let title := form.titleInput.trim
  let positive (value : Option Int) : Bool := value.any (0 < ·)
  if title = [] then "请填写标题"
  else if 255 < title.length then "标题不能超过 255 个字符"
  else if form.difficultySelect ∉ ["easy".toList, "medium".toList, "hard".toList] then "难度取值不合法"
  else if !positive (parseInt form.timeInput) then "时间限制必须大于 0"
  else if !positive (parseInt form.memInput) then "内存限制必须大于 0"
  else if form.descInput.trim = [] then "请填写题目描述"
  else if form.cases.length = 0 then "请至少添加 1 条测试用例"
  else if 1000 < form.cases.length then "测试用例不能超过 1000 条"
  else ""

/-- A number as `JSON.stringify` writes and jsoncpp reads it. -/
def number : Option Int → Json
  | none => .null
  | some n =>
    if -2 ^ 63 ≤ n ∧ n < 2 ^ 63 then .int (.ofInt n)
    else if 0 ≤ n ∧ n < 2 ^ 64 then .uint (.ofNat n.toNat)
    else .real n

/-- A text as jsoncpp reads it. -/
def text (s : JsString) : Json := .string (encode s)

/-- What a row says. A score that is no number, or negative, is 0. -/
def collectCase (row : CaseRow) : Json :=
  let scoreVal := parseInt row.scoreInput
  .object [
    (utf8 "input", text row.inputArea), (utf8 "expected_output", text row.outputArea),
    (utf8 "is_sample", .bool row.isSample),
    (utf8 "score", number (if scoreVal.any (0 ≤ ·) then scoreVal else some 0))]

/-- The body of the request. -/
def buildPayload (form : ProblemForm) : Json :=
  .object [
    (utf8 "title", text form.titleInput.trim),
    (utf8 "description_md", text form.descInput),
    (utf8 "difficulty", text form.difficultySelect),
    (utf8 "time_limit_ms", number (parseInt form.timeInput)),
    (utf8 "memory_limit_mb", number (parseInt form.memInput)),
    (utf8 "tags", .array ((parseTags form.tagsInput).map text)),
    (utf8 "testcases", .array (form.cases.map collectCase))]

/-! ## Saving what has been loaded -/

/-- What comes of saving. -/
inductive Saving where
  | saved
  /-- there is no such problem -/
  | missing
  /-- the form shows the message and sends nothing -/
  | refused (message : String)
  /-- the server answers 400 -/
  | invalid (e : Exn)
  deriving DecidableEq, Repr

/-- The form with the problem in it is saved as it is. -/
def saveLoaded (problemId : Nat) (detail : AdminProblemDetail) : Db.Dao Saving :=
  let form := loadForEdit (Dto.ofAdminDetail detail)
  if validate form ≠ "" then .ret (.refused (validate form))
  else match Admin.parseProblemInput (buildPayload form) with
    | .error e => .ret (.invalid e)
    | .ok input => do return if ← Db.updateProblem problemId input then .saved else .missing

/-- The problem is loaded into the form, and the form is saved. -/
def saveUntouched (problemId : Nat) : Db.Dao Saving := do
  match ← Db.getFullProblem problemId with
  | none => return .missing
  | some detail => saveLoaded problemId detail

end MiniOj.Frontend.AdminEdit
