import MiniOj.Frontend.AdminEdit
import MiniOj.Infra.Html
import MiniOj.Infra.Rounding

/-!
# Markup of the pages

What `problem_list.js`, `admin_list.js` and `problem_detail.js` assign to `innerHTML`, as the
pieces of their template strings. The objects are those of the answers of the server.
-/

namespace MiniOj.Frontend

open Infra Infra.Html

/-! ## Values -/

/-- A whole number as `JSON.parse` takes it. -/
def toDouble (n : Nat) : Nat := ⌊binary64.round n⌋.toNat

/-- The two numbers next to `x` with at most `k` digits before the zeros, the nearer one first. -/
def nearest (x k : Nat) : List Nat :=
  let unit := 10 ^ ((Nat.toDigits 10 x).length - k)
  let low := x / unit * unit
  if 2 * (x - low) < unit ∨ 2 * (x - low) = unit ∧ x / unit % 2 = 0 then [low, low + unit]
  else [low + unit, low]

/-- What the digits of `String(x)` say: as few as tell `x` from the other doubles. -/
def shortest (x : Nat) : Nat :=
  ((List.range' 1 21).flatMap (nearest x)).find? (toDouble · == x) |>.getD x

/-- The number a page shows for one below `10 ^ 21` in an answer. -/
def numberShown (n : Nat) : Nat := shortest (toDouble n)

example : numberShown 18446744073709551615 = 18446744073709552000 := by decide +kernel

/-- `div.textContent = value == null ? '' : String(value); return div.innerHTML`. -/
def escapeHtml (value : JsString) : Piece := .text value

/-- `escapeHtml(value).replace(/"/g, '&quot;')`. -/
def escapeAttr (value : JsString) : Piece := .attr value

/-- `${object[key]}` of a member that is a number. -/
def interpolate (object : Json) (key : String) : Piece :=
  match object.member? key with
  | some (.uint n) => .number (numberShown n.toNat)
  | _ => .lit "undefined"

/-- `object[key]`, a string. -/
def textMember (object : Json) (key : String) : JsString := AdminEdit.textOr [] object key

/-- `String(value)` of a string. -/
def textOf : Json → JsString
  | .string value => decode value
  | _ => []

/-- `labels[difficulty] || difficulty`; all the pages have the same labels. -/
def difficultyLabel (difficulty : JsString) : JsString :=
  if difficulty = "easy".toList then "简单".toList
  else if difficulty = "medium".toList then "中等".toList
  else if difficulty = "hard".toList then "困难".toList
  else difficulty

/-! ## The list of problems -/

namespace ProblemList

/-- The markup given to `tagEl`. -/
def renderTagOptions (allTags : List JsString) : List Piece :=
  .lit "<option value=\"\">全部</option>" :: allTags.flatMap fun t =>
    [.lit "<option value=\"", escapeAttr t, .lit "\">", escapeHtml t, .lit "</option>"]

/-- The tags of a card. -/
def renderTags (tags : List Json) : List Piece :=
  if tags.isEmpty then [.lit "<span class=\"tags muted\">无标签</span>"]
  else
    .lit "<div class=\"tags\">" ::
      tags.flatMap (fun t =>
        [.lit "<span class=\"tag\">", escapeHtml (textOf t), .lit "</span>"]) ++
      [.lit "</div>"]

/-- The link to one problem. -/
def renderCard (problem : Json) : List Piece :=
  let difficulty := textMember problem "difficulty"
  [.lit "\n    <a class=\"card diff-", escapeAttr difficulty,
    .lit "\" href=\"/problem.html?id=", interpolate problem "id",
    .lit "\">\n      <div class=\"card-top\">\n        <span class=\"badge\">",
    escapeHtml (difficultyLabel difficulty),
    .lit "</span>\n        <span class=\"id\">#", interpolate problem "id",
    .lit "</span>\n      </div>\n      <h3 class=\"title\">", escapeHtml (textMember problem "title"),
    .lit "</h3>\n      <div class=\"limits\">\n        <span class=\"limit-value\">",
    interpolate problem "time_limit_ms",
    .lit " ms</span>\n        <span class=\"sep\">·</span>\n        <span class=\"limit-value\">",
    interpolate problem "memory_limit_mb", .lit " MB</span>\n      </div>\n      "] ++
  renderTags (AdminEdit.itemsOf problem "tags") ++
  [.lit "\n    </a>\n  "]

/-- What stands in place of the list, also when it could not be loaded. -/
def renderEmpty (message : JsString) (isError : Bool) : List Piece :=
  [.lit "<p class=\"empty", .lit (if isError then " is-error" else ""), .lit "\">",
    escapeHtml message, .lit "</p>"]

/-- The markup given to `listEl`. -/
def renderList (items : List Json) : List Piece :=
  if items.isEmpty then renderEmpty "暂无符合条件的题目".toList false
  else items.flatMap renderCard

end ProblemList

/-! ## The list for administrators -/

namespace AdminList

/-- The cell of the tags, with a dash for none. -/
def renderTags (tags : List Json) : List Piece :=
  if tags.isEmpty then [.lit "<span class=\"muted\">—</span>"]
  else tags.flatMap fun t =>
    [.lit "<span class=\"tag\">", escapeHtml (AdminEdit.tagName t), .lit "</span>"]

/-- `tc.is_sample`. -/
def isSample (testcase : Json) : Bool :=
  match testcase.member? "is_sample" with
  | some (.bool isSample) => isSample
  | _ => false

/-- The row of one problem, with its two buttons. -/
def renderRow (problem : Json) : List Piece :=
  let difficulty := textMember problem "difficulty"
  let testcases := AdminEdit.itemsOf problem "testcases"
  let sampleCount := (testcases.filter isSample).length
  let totalCount := testcases.length
  [.lit "\n    <tr data-id=\"", interpolate problem "id",
    .lit "\">\n      <td class=\"col-id\"><span class=\"id\">#", interpolate problem "id",
    .lit "</span></td>\n      <td class=\"col-title\">\n        <a class=\"title-link\" href=\"",
    .lit "/problem.html?id=", interpolate problem "id", .lit "\">",
    escapeHtml (textMember problem "title"),
    .lit "</a>\n      </td>\n      <td class=\"col-diff\">\n        <span class=\"badge diff-",
    escapeAttr difficulty, .lit "\">", escapeHtml (difficultyLabel difficulty),
    .lit "</span>\n      </td>\n      <td class=\"col-limits\">\n        <span class=\"limit\">",
    interpolate problem "time_limit_ms", .lit " ms</span>\n        <span class=\"limit\">",
    interpolate problem "memory_limit_mb",
    .lit " MB</span>\n      </td>\n      "] ++
  (.lit "<td class=\"col-tags\">" ::
    (.lit "<div class=\"tags\">" :: renderTags (AdminEdit.itemsOf problem "tags") ++
      [.lit "</div>"]) ++
    [.lit "</td>"]) ++
  [.lit "\n      <td class=\"col-cases\">\n        <span class=\"count\">",
    .number totalCount, .lit "</span>\n        <span class=\"muted\">（样例 ",
    .number sampleCount,
    .lit "）</span>\n      </td>\n      <td class=\"col-actions\">\n        ",
    .lit "<a class=\"row-btn edit\" href=\"/admin/edit.html?id=", interpolate problem "id",
    .lit "\">编辑</a>\n        <button type=\"button\" class=\"row-btn danger\" ",
    .lit "data-action=\"delete\" data-id=\"", interpolate problem "id", .lit "\" data-title=\"",
    escapeAttr (textMember problem "title"), .lit "\">删除</button>\n      </td>\n    </tr>\n  "]

/-- The only row of a table without problems. -/
def renderEmpty (message : JsString) : List Piece :=
  [.lit "<tr class=\"placeholder\"><td colspan=\"7\">", escapeHtml message, .lit "</td></tr>"]

/-- The markup given to the body of the table. -/
def renderList (items : List Json) : List Piece :=
  if items.isEmpty then
    renderEmpty "题库为空，点击右上角「+ 新建题目」或「一键重置题库」载入 seed 数据".toList
  else items.flatMap renderRow

end AdminList

/-! ## A problem -/

namespace ProblemPage

/-- The tags of the problem. -/
def renderTags (tags : List Json) : List Piece :=
  tags.flatMap fun t =>
    [.lit "<span class=\"tag\">", escapeHtml (AdminEdit.tagName t), .lit "</span>"]

/-- The samples with the indices from `i` on. -/
def renderSample (i : Nat) (s : Json) : List Piece :=
  [.lit "\n        <article class=\"sample\">\n          <h3>样例 ", .number (i + 1),
    .lit "</h3>\n          <pre><strong>输入：</strong>\n", escapeHtml (textMember s "input"),
    .lit "</pre>\n          <pre><strong>输出：</strong>\n",
    escapeHtml (textMember s "expected_output"), .lit "</pre>\n        </article>"]

/-- The section of the samples, which is left out when there are none. -/
def renderSamples (samples : List Json) : List Piece :=
  if samples.isEmpty then []
  else
    .lit "\n    <section class=\"samples\">\n      <h2>样例</h2>\n      " ::
      (samples.mapIdx renderSample).flatten ++ [.lit "\n    </section>\n  "]

/-- `escapeHtml` stands inside of an attribute here. -/
def renderMeta (problem : Json) : List Piece :=
  let difficulty := textMember problem "difficulty"
  let tags := AdminEdit.itemsOf problem "tags"
  [.lit "\n    ", .lit "<span class=\"badge diff-", escapeHtml difficulty, .lit "\">",
    escapeHtml (difficultyLabel difficulty), .lit "</span>", .lit "\n    <span class=\"limit\">",
    interpolate problem "time_limit_ms", .lit " ms</span>\n    <span class=\"limit\">",
    interpolate problem "memory_limit_mb", .lit " MB</span>\n    "] ++
  (if tags.isEmpty then []
    else .lit "<span class=\"tag-list\">" :: renderTags tags ++ [.lit "</span>"]) ++
  [.lit "\n  "]

end ProblemPage

end MiniOj.Frontend
