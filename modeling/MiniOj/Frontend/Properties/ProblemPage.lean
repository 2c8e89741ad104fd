import MiniOj.Frontend.Properties.Rendering

/-!
# What the page of a problem shows

* `tokens_samples` — the samples
* `tokens_meta` — the data beside the title
* `tokens_result` — the result of a submission
-/

namespace MiniOj.Frontend.ProblemPage

open Infra Infra.Html AdminEdit

/-! ## The problem -/

/-- A sample with its number. -/
def sampleNodes (i : Nat) (s : TestCase) : List Node :=
  [indent 8,
    element "article" "sample"
      [indent 10, .element "h3" [] [fixed "样例 ", digits (i + 1)],
        indent 10,
        .element "pre" [] [.element "strong" [] [fixed "输入："], indent 0, shown (decode s.input)],
        indent 10,
        .element "pre" []
          [.element "strong" [] [fixed "输出："], indent 0, shown (decode s.expectedOutput)],
        indent 8]]

set_option maxRecDepth 100000 in

/-- Input and output of a sample are text. -/
theorem shows_renderSample (i : Nat) (s : TestCase) :
    Shows (renderSample i (Dto.ofTestCase s)) (sampleNodes i s) := by
  have hinput : textMember (Dto.ofTestCase s) "input" = decode s.input := textOr_string rfl
  have houtput : textMember (Dto.ofTestCase s) "expected_output" = decode s.expectedOutput :=
    textOr_string rfl
  unfold renderSample sampleNodes
  rw [hinput, houtput]
  simp only [Shows, Node.push, Node.pushAll, List.map, indent, element, shown, fixed, digits,
    escapeHtml]
  rfl

/-- All samples, or nothing. -/
def samplesNodes (samples : List TestCase) : List Node :=
  if samples.isEmpty then []
  else
    [indent 4,
      element "section" "samples"
        ([indent 6, .element "h2" [] [fixed "样例"], indent 6] ++
          (samples.mapIdx sampleNodes).flatten ++ [indent 4]),
      indent 2]

/-- **The samples.** -/
theorem tokens_samples (samples : List TestCase) :
    tokens (render (renderSamples (samples.map Dto.ofTestCase))) =
      some (Node.pushAll (samplesNodes samples) []) := by
  apply Shows.tokens
  cases samples with
  | nil => rfl
  | cons s samples =>
    rw [renderSamples, if_neg (by simp), samplesNodes, if_neg (by simp)]
    have hopen : readPieces .data
          [.lit "\n    <section class=\"samples\">\n      <h2>样例</h2>\n      "] =
        some (.data, Node.pushAll [indent 4] (.start "section".toList
          [("class".toList, "samples".toList)] ::
            Node.pushAll [indent 6, .element "h2" [] [fixed "样例"], indent 6] [])) := by
      simp only [Node.push, Node.pushAll, List.map, indent, fixed]
      rfl
    have hclose : readPieces .data [.lit "\n    </section>\n  "] = some (.data,
        Node.pushAll [indent 4] (.close "section".toList :: Node.pushAll [indent 2] [])) := by
      simp only [Node.push, Node.pushAll, indent]
      rfl
    exact (Shows.mapIdx shows_renderSample (s :: samples)).inElement _ _
      [("class", "samples".toList)] _ _ _ hopen hclose

/-- The class is a word, for which `escapeHtml` is enough. -/
theorem shows_badge (difficulty : Difficulty) (label : JsString) :
    Shows [.lit "<span class=\"badge diff-", escapeHtml (difficultyText difficulty), .lit "\">",
        escapeHtml label, .lit "</span>"]
      [.element "span" [("class", "badge diff-".toList ++ difficultyText difficulty)]
        [shown label]] := by
  simp only [Shows, Node.push, Node.pushAll, List.map, shown, escapeHtml]
  cases difficulty <;> rfl

/-- Difficulty, limits and tags above the description. -/
def metaNodes (d : ProblemDetail) : List Node :=
  [indent 4,
    .element "span" [("class", "badge diff-".toList ++ difficultyText d.difficulty)]
      [shown (difficultyLabel (difficultyText d.difficulty))],
    indent 4, element "span" "limit" [digits d.timeLimitMs.toNat, fixed " ms"],
    indent 4, element "span" "limit" [digits d.memoryLimitMb.toNat, fixed " MB"], indent 4] ++
  (if d.tags.isEmpty then []
    else [element "span" "tag-list" (d.tags.map fun t => tagNode (tagLabel (decode t.name)))]) ++
  [indent 2]

/-- The tags above the description, if there are any. -/
theorem shows_tagList (tags : List Tag) :
    Shows (if (tags.map Dto.ofTag).isEmpty then []
        else .lit "<span class=\"tag-list\">" :: renderTags (tags.map Dto.ofTag) ++
          [.lit "</span>"])
      (if tags.isEmpty then []
        else
          [element "span" "tag-list" (tags.map fun t => tagNode (tagLabel (decode t.name)))]) := by
  rw [List.isEmpty_map]
  split
  · rfl
  · have hopen : readPieces .data [.lit "<span class=\"tag-list\">"] =
        some (.data, [.start "span".toList [("class".toList, "tag-list".toList)]]) := rfl
    have hclose : readPieces .data [.lit "</span>"] = some (.data, [.close "span".toList]) := rfl
    have htags := (shows_tags tags).inElement [] "span" [("class", "tag-list".toList)] [] [] []
      hopen hclose
    rwa [List.append_nil] at htags

/-- **The data beside the title.** -/
theorem tokens_meta (d : ProblemDetail) :
    tokens (render (renderMeta (Dto.ofDetail d))) = some (Node.pushAll (metaNodes d) []) := by
  apply Shows.tokens
  have hdifficulty : textMember (Dto.ofDetail d) "difficulty" = difficultyText d.difficulty :=
    difficulty_textOr rfl
  have htime : interpolate (Dto.ofDetail d) "time_limit_ms" = .number d.timeLimitMs.toNat :=
    interpolate_uint rfl
  have hmemory : interpolate (Dto.ofDetail d) "memory_limit_mb" = .number d.memoryLimitMb.toNat :=
    interpolate_uint rfl
  have htags : itemsOf (Dto.ofDetail d) "tags" = d.tags.map Dto.ofTag := rfl
  have hindent : Shows [.lit "\n    "] [indent 4] := rfl
  have hlast : Shows [.lit "\n  "] [indent 2] := rfl
  have hlimits : ∀ time memory, Shows
      [.lit "\n    <span class=\"limit\">", .number time,
        .lit " ms</span>\n    <span class=\"limit\">", .number memory, .lit " MB</span>\n    "]
      [indent 4, element "span" "limit" [digits time, fixed " ms"],
        indent 4, element "span" "limit" [digits memory, fixed " MB"], indent 4] := by
    intro time memory
    simp only [Shows, Node.push, Node.pushAll, List.map, indent, element, fixed, digits]
    rfl
  have hbadge := shows_badge d.difficulty (difficultyLabel (difficultyText d.difficulty))
  have hhead := (hindent.append hbadge).append (hlimits d.timeLimitMs.toNat d.memoryLimitMb.toNat)
  have hall := (hhead.append (shows_tagList d.tags)).append hlast
  unfold renderMeta
  dsimp only
  rw [hdifficulty, htime, hmemory, htags]
  exact hall

/-! ## The result -/

end MiniOj.Frontend.ProblemPage
