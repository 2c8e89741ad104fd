import MiniOj.Frontend.Properties.Rendering

/-!
# What the list for administrators shows

* `tokens_adminList` — the tokens of its markup, whatever the problems are
-/

namespace MiniOj.Frontend

open Infra Infra.Html AdminEdit

namespace AdminList

/-- The tags of a row, or a dash. -/
def tagNodes (tags : List Tag) : List Node :=
  if tags.isEmpty then [element "span" "muted" [fixed "—"]]
  else tags.map fun t => tagNode (tagLabel (decode t.name))

/-- The tags of a row. -/
theorem shows_renderTags (tags : List Tag) :
    Shows (renderTags (tags.map Dto.ofTag)) (tagNodes tags) := by
  cases tags with
  | nil =>
    simp only [Shows, tagNodes, element, fixed, List.isEmpty_nil, if_true, Node.push, Node.pushAll,
      List.map]
    rfl
  | cons t tags =>
    rw [renderTags, if_neg (by simp), tagNodes, if_neg (by simp)]
    exact shows_tags (t :: tags)

/-- The cells of a row up to the limits. -/
def rowHead (id : Nat) (level label title : JsString) (time memory : Nat) : List Node :=
  [indent 6, element "td" "col-id" [element "span" "id" [fixed "#", digits id]],
    indent 6,
    element "td" "col-title"
      [indent 8,
        .element "a" [("class", "title-link".toList),
          ("href", "/problem.html?id=".toList ++ Nat.toDigits 10 id)] [shown title],
        indent 6],
    indent 6,
    element "td" "col-diff"
      [indent 8, .element "span" [("class", "badge diff-".toList ++ level)] [shown label],
        indent 6],
    indent 6,
    element "td" "col-limits"
      [indent 8, element "span" "limit" [digits time, fixed " ms"],
        indent 8, element "span" "limit" [digits memory, fixed " MB"], indent 6],
    indent 6]

/-- The link to the page that changes the problem. -/
def editAttributes (id : Nat) : List (String × JsString) :=
  [("class", "row-btn edit".toList), ("href", "/admin/edit.html?id=".toList ++ Nat.toDigits 10 id)]

/-- The button that deletes: it carries the id and the title. -/
def deleteAttributes (id : Nat) (title : JsString) : List (String × JsString) :=
  [("type", "button".toList), ("class", "row-btn danger".toList),
    ("data-action", "delete".toList), ("data-id", Nat.toDigits 10 id), ("data-title", kept title)]

/-- The number of testcases, and the buttons. -/
def rowTail (id totalCount sampleCount : Nat) (title : JsString) : List Node :=
  [indent 6,
    element "td" "col-cases"
      [indent 8, element "span" "count" [digits totalCount],
        indent 8, element "span" "muted" [fixed "（样例 ", digits sampleCount, fixed "）"],
        indent 6],
    indent 6,
    element "td" "col-actions"
      [indent 8,
        .element "a" (editAttributes id) [fixed "编辑"],
        indent 8,
        .element "button" (deleteAttributes id title) [fixed "删除"],
        indent 6],
    indent 4]

/-- The cell around the tags. -/
theorem shows_tagsCell {pieces : List Piece} {tags : List Node} (h : Shows pieces tags) :
    Shows (.lit "<td class=\"col-tags\">" ::
        (.lit "<div class=\"tags\">" :: pieces ++ [.lit "</div>"]) ++ [.lit "</td>"])
      [element "td" "col-tags" [element "div" "tags" tags]] := by
  have hopenDiv : readPieces .data [.lit "<div class=\"tags\">"] =
      some (.data, [.start "div".toList [("class".toList, "tags".toList)]]) := rfl
  have hcloseDiv : readPieces .data [.lit "</div>"] = some (.data, [.close "div".toList]) := rfl
  have hopen : readPieces .data [.lit "<td class=\"col-tags\">"] =
      some (.data, [.start "td".toList [("class".toList, "col-tags".toList)]]) := rfl
  have hclose : readPieces .data [.lit "</td>"] = some (.data, [.close "td".toList]) := rfl
  have hdiv := h.inElement [] "div" [("class", "tags".toList)] [] [] [] hopenDiv hcloseDiv
  simp only [List.nil_append, List.append_nil] at hdiv
  have htd := hdiv.inElement [] "td" [("class", "col-tags".toList)] [] [] [] hopen hclose
  rwa [List.append_nil] at htd

set_option maxRecDepth 100000 in

/-- The markup of a row, for whatever the numbers come to. -/
theorem shows_renderRow {problem : Json} {id time memory : Nat} {tags : List Node}
    (hid : interpolate problem "id" = .number id)
    (htime : interpolate problem "time_limit_ms" = .number time)
    (hmemory : interpolate problem "memory_limit_mb" = .number memory)
    (htags : Shows (renderTags (itemsOf problem "tags")) tags) :
    Shows (renderRow problem)
      [indent 4,
        .element "tr" [("data-id", Nat.toDigits 10 id)]
          (rowHead id (kept (textMember problem "difficulty"))
              (difficultyLabel (textMember problem "difficulty")) (textMember problem "title")
              time memory ++
            [element "td" "col-tags" [element "div" "tags" tags]] ++
            rowTail id (itemsOf problem "testcases").length
              ((itemsOf problem "testcases").filter isSample).length (textMember problem "title")),
        indent 2] := by
  unfold renderRow
  dsimp only
  rw [hid, htime, hmemory]
  generalize difficultyLabel (textMember problem "difficulty") = label
  generalize textMember problem "difficulty" = level
  generalize textMember problem "title" = title
  generalize (itemsOf problem "testcases").length = totalCount
  generalize ((itemsOf problem "testcases").filter isSample).length = sampleCount
  refine (shows_tagsCell htags).inElement [indent 4] "tr" [("data-id", Nat.toDigits 10 id)]
    (rowHead id (kept level) label title time memory) (rowTail id totalCount sampleCount title)
    [indent 2] ?_ ?_
  · simp only [Node.push, Node.pushAll, List.map, indent, rowHead, element, shown, fixed, digits,
      escapeHtml, escapeAttr]
    rfl
  · simp only [Node.push, Node.pushAll, List.map, indent, rowTail, editAttributes, deleteAttributes,
      element, fixed, digits, escapeAttr]
    rfl

/-- A row with its indentation. -/
def rowNodes (d : AdminProblemDetail) : List Node :=
  let id := numberShown (d.id % UInt64.size)
  let level := difficultyText d.difficulty
  [indent 4,
    .element "tr" [("data-id", Nat.toDigits 10 id)]
      (rowHead id level (difficultyLabel level) (decode d.title) d.timeLimitMs.toNat
          d.memoryLimitMb.toNat ++
        [element "td" "col-tags" [element "div" "tags" (tagNodes d.tags)]] ++
        rowTail id d.testcases.length (d.testcases.filter AdminTestCase.isSample).length
          (decode d.title)),
    indent 2]

/-- The row of a problem the server has answered. -/
theorem shows_renderRow_ofAdminDetail (d : AdminProblemDetail) :
    Shows (renderRow (Dto.ofAdminDetail d)) (rowNodes d) := by
  have htags : Shows (renderTags (itemsOf (Dto.ofAdminDetail d) "tags")) (tagNodes d.tags) :=
    shows_renderTags d.tags
  have hrow := shows_renderRow (interpolate_id rfl) (interpolate_uint rfl) (interpolate_uint rfl)
    htags
  have hdifficulty : textMember (Dto.ofAdminDetail d) "difficulty" = difficultyText d.difficulty :=
    difficulty_textOr rfl
  have htitle : textMember (Dto.ofAdminDetail d) "title" = decode d.title := textOr_string rfl
  have htestcases : itemsOf (Dto.ofAdminDetail d) "testcases" =
      d.testcases.map Dto.ofAdminTestCase := rfl
  have hsample : isSample ∘ Dto.ofAdminTestCase = AdminTestCase.isSample := rfl
  rw [hdifficulty, htitle, kept_difficultyText, htestcases, List.filter_map, hsample,
    List.length_map, List.length_map] at hrow
  exact hrow

/-- The rows, or the message that there are none. -/
def listNodes (items : List AdminProblemDetail) : List Node :=
  if items.isEmpty then
    [.element "tr" [("class", "placeholder".toList)]
      [.element "td" [("colspan", "7".toList)]
        [fixed "题库为空，点击右上角「+ 新建题目」或「一键重置题库」载入 seed 数据"]]]
  else items.flatMap rowNodes

/-- A message in place of the rows. -/
theorem shows_renderEmpty (message : JsString) :
    Shows (renderEmpty message)
      [.element "tr" [("class", "placeholder".toList)]
        [.element "td" [("colspan", "7".toList)] [shown message]]] := by
  simp only [Shows, renderEmpty, shown, escapeHtml, Node.push, Node.pushAll, List.map]
  rfl

/-- **The list for administrators: titles and tags are text, and the title is besides the value of
the attribute from which the question before deletion takes it.** Line ends have become line feeds
in both, and U+0000 has become U+FFFD in the attribute. -/
theorem tokens_adminList (items : List AdminProblemDetail) :
    tokens (render (renderList (items.map Dto.ofAdminDetail))) =
      some (Node.pushAll (listNodes items) []) := by
  apply Shows.tokens
  cases items with
  | nil => exact shows_renderEmpty _
  | cons d items =>
    rw [renderList, if_neg (by simp), List.flatMap_map, listNodes, if_neg (by simp)]
    exact Shows.flatMap shows_renderRow_ofAdminDetail (d :: items)

end AdminList

end MiniOj.Frontend
